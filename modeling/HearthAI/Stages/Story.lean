import HearthAI.Fetch.Results
import HearthAI.Inspect.Bundle
import HearthAI.Inspect.Truthful

/-! # The audit line and the envelope of one run

The audit is filled before the envelope is known to validate. The two tell the same
story under every policy whose name can be put into an envelope, and under no other.
-/
namespace HearthAI.Stages
open Text Contracts Inspect Effect

/-- The codes that the fetch stage writes: those of the fetch, and that of a handoff that
could not be written. -/
def FetchFailure (code : ErrorCode) : Prop :=
  code = .internalError ∨ ∃ (world : Fetch.World) (fetcher : Fetch.Fetcher) (runId : String)
    (request : WebFetchRequest) (trace : Fetch.Trace),
    fetcher.fetch world runId request .start = (.error code,trace)

theorem FetchFailure.permits {code : ErrorCode} (h : FetchFailure code) :
    code.permits .notRun = true := by
  rcases h with rfl | ⟨world,fetcher,runId,request,trace,hfetch⟩
  · rfl
  · exact Fetch.networkCode_permits
      ((Fetch.fetch_completed world fetcher runId request).error rfl hfetch)

/-- A failure in the handoff is one the fetch stage has written. -/
def Recorded (read : Except ContractError Handed) : Prop :=
  ∀ code, read = .ok (.failed code) → FetchFailure code

/-- What the operator reads is what the caller is told. -/
structure SameStory (told : Outcome) (events : List Event) : Prop where
  outcome : told.audit.outcome = told.envelope.status.name
  code : told.audit.code = told.envelope.error.map ToolError.code
  clean : told.audit.code = none ↔ told.envelope.status = .ok
  rejected : ∀ data rules, Event.scan data (.ok (.match rules)) ∈ events →
    told.envelope.status = .rejected ∧
      told.envelope.error.map ToolError.code = some .contentRejected

section
variable {engine : Engine} {inspector : Inspector} {chain : List Converter} {clock : ℕ → ℕ}
  {runId : String} {read : Except ContractError Handed}

/-- A failure that is reported as it is tells the story of its code. -/
theorem story_failure {code : ErrorCode} {inspection : Contracts.Inspection} {audit : AuditRecord}
    {events : List Event} (hpermits : code.permits inspection.status = true)
    (hnamed : inspection.Named)
    (hrejected : ∀ data rules, Event.scan data (.ok (.match rules)) ∈ events →
      code = .contentRejected) :
    SameStory (Inspector.failure engine code inspection audit) events := by
  have henvelope : (Inspector.failure engine code inspection audit).envelope =
      .refusal _ code inspection := failure_refusal audit hpermits hnamed
  have hname : (Inspector.failure engine code inspection audit).audit.outcome = code.status.name := by
    cases code <;> rfl
  constructor
  · rw [henvelope,hname]
    rfl
  · rw [henvelope]
    rfl
  · rw [henvelope]
    exact iff_of_false nofun code.status_ne_ok
  · intro data rules hmem
    rw [henvelope,hrejected data rules hmem]
    exact ⟨rfl,rfl⟩

theorem story_data {d : WebFetchData} {runId : String} {t : Inspect.Inspection} (hquiet : Unmatched t) :
    SameStory (inspector.report engine (.ok d) (inspector.audit runId t).1) t.events := by
  by_cases h : d.validate engine.urls engine.times = .ok () ∧
      validPolicyId inspector.bundle.policyId = true
  · rw [report_data inspector _ h.1 h.2]
    exact ⟨rfl,rfl,iff_of_true rfl rfl,fun data rules hmem => absurd hmem (hquiet data rules)⟩
  · rw [report_withheld inspector _ h]
    exact story_failure rfl notRun_named fun data rules hmem => absurd hmem (hquiet data rules)

theorem story_stop {stop : Stop} {t : Inspect.Inspection} {start : Meter} {audit : AuditRecord}
    (hread : Recorded read) (haccount : Account engine start read stop t)
    (hpolicy : validPolicyId inspector.bundle.policyId = true) :
    SameStory (inspector.report engine (.error stop) audit) t.events := by
  have hpermits : stop.code.permits stop.status = true := by
    rcases haccount.permits with h | ⟨code,hfailed,rfl⟩
    · exact h
    · exact (hread code hfailed).permits
  rw [report_error]
  refine story_failure hpermits (Stop.inspection_named.mpr (.inr hpolicy)) fun data rules hmem => ?_
  rw [haccount.rejects data rules hmem]
  rfl

/-- Under a policy whose name has the shape, every run is told the same way twice. -/
theorem inspect_story (hread : Recorded read)
    (hpolicy : validPolicyId inspector.bundle.policyId = true) :
    SameStory (inspector.inspect engine chain clock runId read).1
      (inspector.inspect engine chain clock runId read).2.events := by
  have haccount := pipeline_account engine chain read (fresh_start inspector clock)
  have hinspect : ∀ result t, pipeline engine chain read
      (.new inspector.bundle.detector clock inspector.deadline) = (result,t) →
      inspector.inspect engine chain clock runId read =
        (inspector.report engine result (inspector.audit runId t).1,t.elapsed.2) := by
    intro result t hrun
    unfold Inspector.inspect
    rw [hrun]
    rfl
  rcases hrun : pipeline engine chain read
    (.new inspector.bundle.detector clock inspector.deadline) with ⟨stop | d,t⟩
  · rw [hrun,exit_error] at haccount
    have hstory : SameStory (inspector.report engine (.error stop) (inspector.audit runId t).1)
        t.events := story_stop hread haccount hpolicy
    rw [hinspect _ _ hrun]
    exact hstory
  · rw [hrun,exit_ok] at haccount
    have hstory : SameStory (inspector.report engine (.ok d) (inspector.audit runId t).1)
        t.events := story_data haccount.1.unmatched
    rw [hinspect _ _ hrun]
    exact hstory

end

/-- Rules that match whatever they are shown. -/
def matchAll : Scanner := fun _ _ => .ok ["any"]

theorem matched_pipeline : (pipeline strictEngine [] latinRead
    (.new ⟨matchAll,maxScanInputBytes,0⟩ (fun _ => 0) 1)).1 = .error (.rejected ["any"]) := rfl

/-- A match under a policy that cannot be named is answered as a fault of the tool. -/
theorem matched_unnamed (bundle : RuleBundle) (hpolicy : ¬validPolicyId bundle.policyId = true)
    (hrules : bundle.rules = matchAll) :
    ((⟨bundle,1⟩ : Inspector).inspect strictEngine [] (fun _ => 0) "run-1" latinRead).1.audit.code =
      some .contentRejected ∧
    ((⟨bundle,1⟩ : Inspector).inspect strictEngine [] (fun _ => 0) "run-1"
      latinRead).1.envelope = Inspector.internalErrorEnvelope := by
  have hrun := matched_pipeline
  unfold Inspector.inspect RuleBundle.detector
  rw [hrules]
  revert hrun
  generalize pipeline strictEngine [] latinRead
    (.new ⟨matchAll,maxScanInputBytes,0⟩ (fun _ => 0) 1) = last
  rintro hrun
  obtain ⟨result,t⟩ := last
  obtain rfl : result = .error (.rejected ["any"]) := hrun
  refine ⟨rfl,failure_fallback _ fun h => hpolicy ?_⟩
  exact (Stop.inspection_named.mp h.2).resolve_left nofun

/-- A loaded bundle has every run told the same way twice exactly when the directory it was
mounted as names a policy. -/
theorem story_iff {parseManifest : String → Except String BundleManifestFile}
    {compiler : RuleCompiler} {sha256Hex : Bytes → String} {directory : BundleDirectory}
    {bundle : RuleBundle}
    (hload : RuleBundle.load parseManifest compiler sha256Hex directory = .ok bundle) :
    (∀ (rules : Scanner) (deadline : ℕ) (engine : Engine) (chain : List Converter) (clock : ℕ → ℕ)
      (runId : String) (read : Except ContractError Handed), Recorded read →
      SameStory ((⟨{ bundle with rules := rules },deadline⟩ : Inspector).inspect engine chain clock
          runId read).1
        ((⟨{ bundle with rules := rules },deadline⟩ : Inspector).inspect engine chain clock
          runId read).2.events) ↔
    ∃ name, directory.fileName = some name ∧ validPolicyId name = true := by
  constructor
  · intro hstory
    refine ⟨bundle.policyId,load_policyId hload,?_⟩
    by_contra hpolicy
    have hsame := (hstory matchAll 1 strictEngine [] (fun _ => 0) "run-1" latinRead nofun).code
    obtain ⟨hcode,henvelope⟩ := matched_unnamed { bundle with rules := matchAll } hpolicy rfl
    rw [hcode,henvelope] at hsame
    cases hsame
  · rintro ⟨name,hname,hpolicy⟩ rules deadline engine chain clock runId read hread
    have hpolicyId := load_policyId hload
    rw [hname] at hpolicyId
    obtain rfl := Option.some.inj hpolicyId
    exact inspect_story hread hpolicy

def manifestText (name : String) : String := "\x7b\"policy_version\":1,\"policy_id\":\"" ++ name ++
  "\",\"description\":\"One rule.\",\"maintenance\":\"none\"\x7d"

def ruleText : String := "rule any \x7b condition: true \x7d"

/-- A directory of this name with one rule file, and a manifest that agrees. -/
def oneRule (name : String) : BundleDirectory where
  fileName := some name
  manifest := .ok (manifestText name)
  entries := .ok [⟨"all.yar",.ok ruleText⟩,⟨"bundle.json",.ok (manifestText name)⟩]

/-- The manifest, the compiler and the digest of the one rule. -/
def parseOneRule (name text : String) : Except String BundleManifestFile :=
  if text = manifestText name then .ok ⟨1,name⟩ else .error "expected value at line 1 column 1"

def compileOneRule : RuleCompiler := ⟨fun _ _ => .ok (),fun _ => matchAll,fun _ => 0⟩

def digestOneRule (_ : Bytes) : String :=
  "2bf42c5958e187188e8283bd55907c8e527286b6abe96f3eebe56f93c0ec84da"

theorem load_oneRule (name : String) :
    RuleBundle.load (parseOneRule name) compileOneRule digestOneRule (oneRule name) =
      .ok ⟨name,digestOneRule [],1,matchAll⟩ := by
  have hmanifest : parseOneRule name (manifestText name) = .ok ⟨1,name⟩ := if_pos rfl
  have hrules : (extension "all.yar" == some "yar") = true := by decide
  have hother : (extension "bundle.json" == some "yar") = false := by decide
  have hread : [(⟨"all.yar",.ok ruleText⟩ : RuleFile)].foldlM readSource (0,[]) =
      .ok (28,[ruleText]) := rfl
  have hname : refuseIf (name ≠ name) "rule bundle manifest names a different policy" = .ok () :=
    refuseIf_eq_ok.mpr (not_not.mpr rfl)
  have hadd : [ruleText].foldlM (addRules compileOneRule) ([],0) = .ok ([ruleText],1) := rfl
  unfold RuleBundle.load
  simp only [oneRule,Option.elim,Bind.bind,Except.bind,Except.mapError,hmanifest,List.filter,hrules,
    hother,List.mergeSort_singleton,hread,hadd,hname]
  rfl

/-- The name of the policy that is shipped can be put into an envelope. -/
theorem story_iff_shipped :
    SameStory ((⟨⟨"web-content-v1",digestOneRule [],1,matchAll⟩,1⟩ : Inspector).inspect strictEngine []
        (fun _ => 0) "run-1" latinRead).1
      ((⟨⟨"web-content-v1",digestOneRule [],1,matchAll⟩,1⟩ : Inspector).inspect strictEngine []
        (fun _ => 0) "run-1" latinRead).2.events :=
  (story_iff (load_oneRule "web-content-v1")).mpr ⟨"web-content-v1",rfl,by decide⟩ matchAll 1
    strictEngine [] (fun _ => 0) "run-1" latinRead nofun

/-- A directory with capital letters: the audit line says that the page was rejected, and the
caller is told that the tool is at fault. -/
theorem rejected_and_internal : ∃ bundle,
    RuleBundle.load (parseOneRule "Web-Content-V1") compileOneRule digestOneRule
      (oneRule "Web-Content-V1") = .ok bundle ∧
    ((⟨bundle,1⟩ : Inspector).inspect strictEngine [] (fun _ => 0) "run-1" latinRead).1.audit.code =
      some .contentRejected ∧
    ((⟨bundle,1⟩ : Inspector).inspect strictEngine [] (fun _ => 0) "run-1"
      latinRead).1.audit.outcome = "rejected" ∧
    ((⟨bundle,1⟩ : Inspector).inspect strictEngine [] (fun _ => 0) "run-1"
      latinRead).1.envelope.status = .error ∧
    ((⟨bundle,1⟩ : Inspector).inspect strictEngine [] (fun _ => 0) "run-1"
      latinRead).1.envelope.error = some (.new .internalError) := by
  obtain ⟨hcode,henvelope⟩ := matched_unnamed ⟨"Web-Content-V1",digestOneRule [],1,matchAll⟩
    (by decide) rfl
  refine ⟨_,load_oneRule _,hcode,rfl,?_,?_⟩ <;> rw [henvelope] <;> rfl

end HearthAI.Stages
