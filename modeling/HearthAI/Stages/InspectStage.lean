import HearthAI.Contracts.Released
import HearthAI.Inspect.Bundle
import HearthAI.Inspect.Origin
import HearthAI.Stages.FetchStage

/-! # The inspection stage as a one-shot process

Its result is one envelope, in a file or on the standard output, and the exit code. Writing
the envelope may fail, and so may the removal of the stored response.
-/
namespace HearthAI.Stages
open Text Contracts Inspect Effect

/-- What the inspection stage runs on. -/
structure Bench where
  host : Host
  ruleDirectory : FilePath → BundleDirectory
  parseManifest : String → Except String BundleManifestFile
  compiler : RuleCompiler
  engine : Engine
  libraries : HtmlLibraries
  clock : ℕ → ℕ
  /-- `serde_json::to_string` of the audit record. -/
  auditText : AuditRecord → Except String String

structure InspectArguments where
  /-- Run this handoff belongs to. -/
  runId : String
  /-- Directory the fetch stage sealed. -/
  artifactDir : FilePath
  /-- Directory holding the compiled rule bundle. -/
  rules : FilePath
  /-- File holding the run-scoped key the fetch stage sealed with. -/
  handoffKey : FilePath
  /-- Where to write the envelope. -/
  out : Option FilePath
  /-- Keep the stored response after inspection. -/
  keepArtifact : Bool
  fits : len runId < 2 ^ 63

/-- The file that was named for the envelope, the standard output, and how writing goes. -/
structure Outlet where
  file : Except IoError Bytes
  stream : Bytes
  fate : Fate

/-- Why there is no envelope. A stream that fails ends the process. -/
inductive EmitError
  | failed (text : String)
  | panicked

/-- What is left when this text has been written: a new file, or a line on the stream. -/
def Outlet.after (out : Option FilePath) (outlet : Outlet) (encoded : String) : Outlet :=
  match out with
  | some _ => { outlet with file := outlet.fate.write outlet.file (asBytes encoded) }
  | none => { outlet with stream := outlet.stream ++ outlet.fate.part (asBytes (encoded ++ "\n")) }

def Outlet.result (out : Option FilePath) (outlet : Outlet) : Except EmitError Unit :=
  match outlet.fate.text,out with
  | none,_ => .ok ()
  | some text,some _ => .error (.failed text)
  | some _,none => .error .panicked

variable (bench : Bench) (arguments : InspectArguments)

abbrev Bench.payload : Payload WebFetchData := webFetchPayload bench.engine.urls bench.engine.times

def emit (envelope : WebFetchEnvelope) : Effect EmitError Outlet Unit := do
  let encoded ← Effect.lift ((envelope.toJson bench.host.serde bench.payload webFetchCodec).mapError
    (fun error => EmitError.failed error.message))
  fun outlet => (outlet.result arguments.out,outlet.after arguments.out encoded)

/-- `Handoff::remove_body`. -/
def removeBody (device : Device) : Device := ((Operation.remove .body).attempt device).2

/-- How the process ends. -/
structure Answer where
  code : ExitCode
  printed : List String
  device : Device
  outlet : Outlet

/-- The line about a result that could not be written. -/
def resultUnwritten (text : String) : String := unavailable "result could not be written" text

def emitAndExit (code : ErrorCode) (inspection : Contracts.Inspection) (printed : List String)
    (device : Device) (outlet : Outlet) : Answer :=
  match Envelope.failure bench.payload code inspection with
  | .error _ => ⟨.panicked,printed,device,outlet⟩
  | .ok envelope =>
    match emit bench arguments envelope outlet with
    | (.ok _,outlet) => ⟨.unavailable,printed,device,outlet⟩
    | (.error (.failed text),outlet) =>
      ⟨.unavailable,printed ++ [resultUnwritten text],device,outlet⟩
    | (.error .panicked,outlet) => ⟨.panicked,printed,device,outlet⟩

/-- The line about the outcome. -/
def auditLine (audit : AuditRecord) : String :=
  match bench.auditText audit with
  | .ok text => text
  | .error error => unavailable "audit record could not be serialized" error

def InspectArguments.handoff (key : HandoffKey) : Handoff :=
  ⟨pathText arguments.artifactDir,arguments.runId,key,arguments.fits⟩

def InspectArguments.read (key : HandoffKey) (directory : Directory) : Except ContractError Handed :=
  (arguments.handoff key).read bench.host.crypto bench.host.codecs directory

/-- What the inspection comes to, with the session that led to it. -/
def InspectArguments.inspect (key : HandoffKey) (bundle : RuleBundle) (directory : Directory) :
    Outcome × Inspect.Inspection :=
  (Inspector.new bundle).inspect bench.engine bench.libraries.chain bench.clock arguments.runId
    (arguments.read bench key directory)

/-- The part of `main` that inspects and emits the outcome. -/
def InspectArguments.deliver (outcome : Outcome) (device : Device) (outlet : Outlet) : Answer :=
  let printed := [auditLine bench outcome.audit]
  let device := if arguments.keepArtifact then device else removeBody device
  match emit bench arguments outcome.envelope outlet with
  | (.error (.failed text),outlet) =>
    ⟨.unavailable,printed ++ [resultUnwritten text],device,outlet⟩
  | (.error .panicked,outlet) => ⟨.panicked,printed,device,outlet⟩
  | (.ok _,outlet) =>
    match outcome.envelope.status with
    | .ok => ⟨.success,printed,device,outlet⟩
    | _ => ⟨.withheld,printed,device,outlet⟩

def InspectArguments.main (device : Device) (outlet : Outlet) : Answer :=
  match HandoffKey.loadFor bench.host.files arguments.handoffKey arguments.artifactDir with
  | .error error =>
    emitAndExit bench arguments .internalError .notRun
      [unavailable "handoff key unusable" error.message] device outlet
  | .ok key =>
    match RuleBundle.load bench.parseManifest bench.compiler bench.host.crypto.sha256Hex
        (bench.ruleDirectory arguments.rules) with
    | .error error =>
      emitAndExit bench arguments .inspectionFailed (.failed none)
        [unavailable "rule bundle unusable" error.message] device outlet
    | .ok bundle =>
      arguments.deliver bench (arguments.inspect bench key bundle device.directory).1 device outlet

/-- The key and the rules are in order. -/
def InspectArguments.Ready (key : HandoffKey) (bundle : RuleBundle) : Prop :=
  HandoffKey.loadFor bench.host.files arguments.handoffKey arguments.artifactDir = .ok key ∧
    RuleBundle.load bench.parseManifest bench.compiler bench.host.crypto.sha256Hex
      (bench.ruleDirectory arguments.rules) = .ok bundle

/-- The one envelope of a run, and what the run has come to. -/
structure Answers (device : Device) (outlet : Outlet) (answer : Answer)
    (envelope : WebFetchEnvelope) : Prop where
  valid : envelope.validate bench.payload = .ok ()
  /-- What is emitted is the text of this envelope, as much of it as got through. -/
  emitted : answer.outlet =
    outlet.after arguments.out (bench.host.serde.print (envelope.toValue webFetchCodec))
  readable : bench.host.serde.FaithfulOn (envelope.toValue webFetchCodec) →
    Envelope.fromJson bench.host.serde bench.payload webFetchCodec
      (bench.host.serde.print (envelope.toValue webFetchCodec)) = .ok envelope
  success : answer.code = .success ↔ envelope.status = .ok ∧ outlet.fate = .done
  released : envelope.status = .ok → ∃ key bundle data, arguments.Ready bench key bundle ∧
    envelope.data = some data ∧
    ReleasedBy bench.engine bench.libraries bundle.rules
      (arguments.read bench key device.directory) data
      (arguments.inspect bench key bundle device.directory).2.events
  withheld : answer.code = .withheld ↔ envelope.status ≠ .ok ∧ outlet.fate = .done ∧
    ∃ key bundle, arguments.Ready bench key bundle
  empty : envelope.status ≠ .ok → envelope.data = none
  /-- The only policy that is ever named is the one of the mounted directory. -/
  policy : ∀ policyId ∈ envelope.inspection.policyId,
    (bench.ruleDirectory arguments.rules).fileName = some policyId
  /-- The process does not panic but for a stream that fails. -/
  panicked : answer.code = .panicked ↔ arguments.out = none ∧ outlet.fate ≠ .done
  kept : ∀ name, answer.device.directory name = device.directory name ∨
    name = .body ∧ arguments.keepArtifact = false ∧
      answer.device.directory name = .error .notFound

section
variable {bench : Bench} {arguments : InspectArguments} {device : Device} {outlet : Outlet}
  {envelope : WebFetchEnvelope}

/-- The three ways to emit. -/
theorem Outlet.result_cases (out : Option FilePath) (outlet : Outlet) :
    (outlet.result out = .ok () ∧ outlet.fate = .done) ∨
      (∃ text, outlet.result out = .error (.failed text) ∧ outlet.fate ≠ .done ∧ out ≠ none) ∨
      outlet.result out = .error .panicked ∧ outlet.fate ≠ .done ∧ out = none := by
  unfold Outlet.result
  cases outlet.fate <;> cases out <;> simp [Fate.text]

/-- A validated envelope is always written, as far as the outlet takes it. -/
theorem emit_valid (arguments : InspectArguments) (outlet : Outlet) (h : envelope.validate bench.payload = .ok ()) :
    emit bench arguments envelope outlet = (outlet.result arguments.out,
      outlet.after arguments.out (bench.host.serde.print (envelope.toValue webFetchCodec))) := by
  unfold emit Envelope.toJson
  rw [h]
  rfl

/-- A report names its own policy, or none. -/
theorem report_policy (engine : Engine) (inspector : Inspector) (result : Except Stop WebFetchData)
    (audit : AuditRecord) :
    ∀ policyId ∈ (inspector.report engine result audit).envelope.inspection.policyId,
      policyId = inspector.bundle.policyId := by
  have hfailure : ∀ code (inspection : Contracts.Inspection) (audit : AuditRecord),
      (∀ policyId ∈ inspection.policyId, policyId = inspector.bundle.policyId) →
      ∀ policyId ∈ (Inspector.failure engine code inspection audit).envelope.inspection.policyId,
        policyId = inspector.bundle.policyId := by
    intro code inspection audit hnamed
    dsimp only [Inspector.failure]
    cases h : Envelope.failure (webFetchPayload engine.urls engine.times) code inspection with
    | ok envelope =>
      obtain ⟨_,_,rfl⟩ := failure_eq_ok.mp h
      exact hnamed
    | error e => exact nofun
  cases result with
  | error stop =>
    refine hfailure stop.code _ _ fun policyId h => ?_
    dsimp only at h
    split_ifs at h
    · cases h
    · exact (Option.mem_some_iff.mp h).symm
  | ok data =>
    dsimp only [Inspector.report]
    cases h : Envelope.ok (webFetchPayload engine.urls engine.times) data
        inspector.bundle.policyId with
    | ok envelope =>
      obtain ⟨_,_,rfl⟩ := ok_eq_ok.mp h
      exact fun policyId hpolicy => (Option.mem_some_iff.mp hpolicy).symm
    | error e => exact hfailure .internalError .notRun audit nofun

/-- A stage that could not run emits its envelope all the same. -/
theorem emitAndExit_eq {code : ErrorCode} {inspection : Contracts.Inspection}
    (arguments : InspectArguments) (printed : List String) (device : Device) (outlet : Outlet)
    (h : Envelope.failure bench.payload code inspection = .ok envelope) :
    ∃ exit lines, emitAndExit bench arguments code inspection printed device outlet =
        ⟨exit,lines,device,outlet.after arguments.out
          (bench.host.serde.print (envelope.toValue webFetchCodec))⟩ ∧
      exit ≠ .success ∧ exit ≠ .withheld ∧
      (exit = .panicked ↔ arguments.out = none ∧ outlet.fate ≠ .done) := by
  have hemit := emit_valid arguments outlet (Envelope.failure_spec h).1
  unfold emitAndExit
  rw [h]
  dsimp only
  rw [hemit]
  rcases outlet.result_cases arguments.out with ⟨hresult,hdone⟩ | ⟨text,hresult,_,hout⟩ |
    ⟨hresult,hfate,hout⟩
  · rw [hresult]
    exact ⟨_,_,rfl,nofun,nofun,iff_of_false nofun (fun h => h.2 hdone)⟩
  · rw [hresult]
    exact ⟨_,_,rfl,nofun,nofun,iff_of_false nofun (fun h => hout h.1)⟩
  · rw [hresult]
    exact ⟨_,_,rfl,nofun,nofun,iff_of_true rfl ⟨hout,hfate⟩⟩

theorem emitAndExit_answers (device : Device) (outlet : Outlet) {code : ErrorCode}
    {inspection : Contracts.Inspection} (hpermits : code.permits inspection.status = true)
    (hstatus : inspection.status ≠ .match) (hpolicy : inspection.policyId = none)
    (hready : ¬∃ key bundle, arguments.Ready bench key bundle) (printed : List String) :
    ∃ envelope, Answers bench arguments device outlet
      (emitAndExit bench arguments code inspection printed device outlet) envelope := by
  have hnamed : inspection.Named := by
    unfold Contracts.Inspection.Named
    rwa [hpolicy]
  have hfailure := failure_eq_ok.mpr
    ⟨hpermits,hnamed,(rfl : Envelope.refusal bench.payload code inspection = _)⟩
  have hvalid := (Envelope.failure_spec hfailure).1
  have hstatus : (Envelope.refusal bench.payload code inspection).status ≠ .ok := code.status_ne_ok
  obtain ⟨exit,lines,hanswer,hsuccess,hwithheld,hpanicked⟩ := emitAndExit_eq arguments
    printed device outlet hfailure
  rw [hanswer]
  exact ⟨_,hvalid,rfl,fromJson_toJson hvalid,iff_of_false hsuccess (fun h => hstatus h.1),
    fun h => absurd h hstatus,iff_of_false hwithheld (fun h => hready h.2.2),fun _ => rfl,
    by simp [Envelope.refusal,hpolicy],hpanicked,fun _ => .inl rfl⟩

theorem deliver_eq (arguments : InspectArguments) (device : Device) (outlet : Outlet)
    {outcome : Outcome} (h : outcome.envelope.validate bench.payload = .ok ()) :
    ∃ exit lines, arguments.deliver bench outcome device outlet =
        ⟨exit,lines,if arguments.keepArtifact then device else removeBody device,
          outlet.after arguments.out
            (bench.host.serde.print (outcome.envelope.toValue webFetchCodec))⟩ ∧
      (exit = .success ↔ outcome.envelope.status = .ok ∧ outlet.fate = .done) ∧
      (exit = .withheld ↔ outcome.envelope.status ≠ .ok ∧ outlet.fate = .done) ∧
      (exit = .panicked ↔ arguments.out = none ∧ outlet.fate ≠ .done) := by
  unfold InspectArguments.deliver
  rw [emit_valid arguments outlet h]
  rcases outlet.result_cases arguments.out with ⟨hresult,hdone⟩ | ⟨text,hresult,hfate,hout⟩ |
    ⟨hresult,hfate,hout⟩
  · rw [hresult]
    dsimp only
    split
    · rename_i hok
      exact ⟨_,_,rfl,by simp [hok,hdone],by simp [hok],by simp [hdone]⟩
    · rename_i hother
      exact ⟨_,_,rfl,by simpa [hdone] using hother,by simpa [hdone] using hother,by simp [hdone]⟩
  · rw [hresult]
    exact ⟨_,_,rfl,by simp [hfate],by simp [hfate],by simp [hout]⟩
  · rw [hresult]
    exact ⟨_,_,rfl,by simp [hfate],by simp [hfate],by simp [hfate,hout]⟩

theorem main_ready {key : HandoffKey} {bundle : RuleBundle} (h : arguments.Ready bench key bundle)
    (device : Device) (outlet : Outlet) :
    arguments.main bench device outlet =
      arguments.deliver bench (arguments.inspect bench key bundle device.directory).1 device outlet := by
  unfold InspectArguments.main
  rw [h.1]
  dsimp only
  rw [h.2]

/-- What the inspection comes to, as its envelope has it. -/
theorem inspect_envelope (bench : Bench) (arguments : InspectArguments) (key : HandoffKey)
    (bundle : RuleBundle) (directory : Directory) :
    let inspected := arguments.inspect bench key bundle directory
    inspected.1.envelope.validate bench.payload = .ok () ∧
      (inspected.1.envelope.status = .ok → ∃ data, inspected.1.envelope.data = some data ∧
        ReleasedBy bench.engine bench.libraries bundle.rules (arguments.read bench key directory) data
          inspected.2.events) ∧
      (inspected.1.envelope.status ≠ .ok → inspected.1.envelope.data = none) ∧
      ∀ policyId ∈ inspected.1.envelope.inspection.policyId, policyId = bundle.policyId := by
  have hspec := pipeline_spec bench.engine bundle.rules bench.libraries.chain
    (arguments.read bench key directory)
  have hstart := covered_new bundle bench.clock (Inspector.new bundle).deadline
  dsimp only [InspectArguments.inspect,Inspector.inspect]
  rcases hrun : pipeline bench.engine bench.libraries.chain (arguments.read bench key directory)
    (.new (Inspector.new bundle).bundle.detector bench.clock (Inspector.new bundle).deadline) with
    ⟨result,session⟩
  dsimp only
  have hpolicy := report_policy bench.engine (.new bundle) result
    ((Inspector.new bundle).audit arguments.runId session).1
  obtain ⟨hvalid,hok,herror⟩ := (Inspector.new bundle).report_envelope bench.engine result
    ((Inspector.new bundle).audit arguments.runId session).1
  refine ⟨hvalid,fun hstatus => ?_,fun hstatus => ?_,hpolicy⟩
  · obtain ⟨data,hresult,hdata⟩ := hok hstatus
    subst hresult
    have hreleased : ReleasedFrom bench.engine bundle.rules (arguments.read bench key directory) data
        session.events := hspec.ok hstart hrun
    have hby : ReleasedBy bench.engine bench.libraries bundle.rules
        (arguments.read bench key directory) data session.events := releasedBy_of_run hreleased hrun
    exact ⟨data,hdata,hby⟩
  · rcases checkOutcome_eq_ok (validate_eq_ok.mp hvalid).2.1 with ⟨_,_,hsuccess,_⟩ | ⟨_,_,hdata,_⟩
    · exact absurd hsuccess hstatus
    · exact hdata

/-- The stage ends before the inspection or with it. -/
theorem main_cases (bench : Bench) (arguments : InspectArguments) (device : Device) (outlet : Outlet) :
    (∃ code inspection printed, arguments.main bench device outlet =
        emitAndExit bench arguments code inspection printed device outlet ∧
      code.permits inspection.status = true ∧ inspection.status ≠ .match ∧ inspection.policyId = none ∧
      ¬∃ key bundle, arguments.Ready bench key bundle) ∨
    ∃ key bundle, arguments.Ready bench key bundle ∧ arguments.main bench device outlet =
      arguments.deliver bench (arguments.inspect bench key bundle device.directory).1 device outlet := by
  cases hkey : HandoffKey.loadFor bench.host.files arguments.handoffKey arguments.artifactDir with
  | error error =>
    refine .inl ⟨.internalError,.notRun,[unavailable "handoff key unusable" error.message],?_,rfl,
      by decide,rfl,?_⟩
    · unfold InspectArguments.main
      rw [hkey]
    · rintro ⟨key,bundle,hready,_⟩
      rw [hkey] at hready
      cases hready
  | ok key =>
    cases hbundle : RuleBundle.load bench.parseManifest bench.compiler bench.host.crypto.sha256Hex
        (bench.ruleDirectory arguments.rules) with
    | error error =>
      refine .inl ⟨.inspectionFailed,.failed none,[unavailable "rule bundle unusable" error.message],
        ?_,rfl,by decide,rfl,?_⟩
      · unfold InspectArguments.main
        rw [hkey]
        dsimp only
        rw [hbundle]
      · rintro ⟨key,bundle,_,hready⟩
        rw [hbundle] at hready
        cases hready
    | ok bundle => exact .inr ⟨key,bundle,⟨hkey,hbundle⟩,main_ready ⟨hkey,hbundle⟩ device outlet⟩

/-- A result leaves the process only after an inspection that released it. -/
theorem main_released (h : (arguments.main bench device outlet).code = .success) :
    ∃ (key : HandoffKey) (bundle : RuleBundle) (envelope : WebFetchEnvelope) (data : WebFetchData),
      arguments.Ready bench key bundle ∧
      (arguments.main bench device outlet).outlet =
        outlet.after arguments.out (bench.host.serde.print (envelope.toValue webFetchCodec)) ∧
      envelope.data = some data ∧
      ReleasedBy bench.engine bench.libraries bundle.rules
        (arguments.read bench key device.directory) data
        (arguments.inspect bench key bundle device.directory).2.events := by
  rcases main_cases bench arguments device outlet with
    ⟨code,inspection,printed,hmain,hpermits,hstatus,hpolicy,hready⟩ | ⟨key,bundle,hready,hmain⟩
  · obtain ⟨envelope,hanswers⟩ :=
      emitAndExit_answers device outlet hpermits hstatus hpolicy hready printed
    rw [hmain] at h
    obtain ⟨key,bundle,_,hready',_⟩ := hanswers.released (hanswers.success.mp h).1
    exact absurd ⟨key,bundle,hready'⟩ hready
  · obtain ⟨hvalid,hreleased,_,_⟩ := inspect_envelope bench arguments key bundle device.directory
    obtain ⟨exit,lines,hanswer,hsuccess,_,_⟩ := deliver_eq arguments device outlet hvalid
    rw [hmain,hanswer] at h
    obtain ⟨data,hdata,hreleased⟩ := hreleased (hsuccess.mp h).1
    rw [hmain,hanswer]
    exact ⟨key,bundle,_,data,hready,rfl,hdata,hreleased⟩

end

end HearthAI.Stages
