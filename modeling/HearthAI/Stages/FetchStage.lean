import HearthAI.Contracts.Device
import HearthAI.Contracts.Placement
import HearthAI.Contracts.Request
import HearthAI.Fetch.Record

/-! # The fetch stage as a one-shot process

What the process prints goes to its error stream. Its result is the handoff on the device and
the exit code; the file operations on the handoff may fail.
-/
namespace HearthAI.Stages
open Text Contracts Effect

/-- How a stage exits. -/
inductive ExitCode
  | success
  /-- The stage ran, and there is no content. -/
  | withheld
  /-- The stage could not run at all. -/
  | unavailable
  | panicked
  deriving DecidableEq

def ExitCode.value : ExitCode → ℕ
  | .success => 0
  | .withheld => 1
  | .unavailable => 2
  | .panicked => 101

abbrev FilePath := AbsolutePath String

/-- The directory of a handoff, as text. -/
def pathText (path : FilePath) : String :=
  "/" ++ "/".intercalate (path.components.map fun
    | .name n => n
    | .cur => "."
    | .up => "..")

/-- A run identifier that the command line takes. -/
structure RunId where
  text : String
  short : len text ≤ 64
  shaped : text.toList.all (fun c => isAsciiLowercase c || isAsciiDigit c || c == '-') = true

/-- `run_id`, the parser of that argument. -/
def runId (value : String) : Except String RunId :=
  if value.isEmpty then .error "must be 1-64 characters of [a-z0-9-]"
  else if short : len value ≤ 64 then
    if shaped : value.toList.all (fun c => isAsciiLowercase c || isAsciiDigit c || c == '-') = true then
      .ok ⟨value,short,shaped⟩
    else .error "must be 1-64 characters of [a-z0-9-]"
  else .error "must be 1-64 characters of [a-z0-9-]"

/-- The machine a stage runs on. -/
structure Host where
  files : Disk String
  parsePolicy : String → Except String Fetch.PolicyFile
  parseIp : String → Option Fetch.IpAddr
  serde : SerdeJson
  crypto : Crypto
  codecs : HandoffCodecs

/-- `fs::read_to_string`. -/
def Host.readToString (host : Host) (path : FilePath) : Except IoError String := do
  let bytes ← readPath host.files path
  match fromUtf8 bytes with
  | some text => return text
  | none => .error ⟨.invalidData,"stream did not contain valid UTF-8"⟩

/-- `DestinationPolicy::load`. -/
def Host.loadPolicy (host : Host) (path : FilePath) :
    Except ContractError Fetch.DestinationPolicy := do
  let raw ← (host.readToString path).mapError
    (fun error => ⟨s!"destination policy is unreadable: {error.text}"⟩)
  let file ← (host.parsePolicy raw).mapError
    (fun error => ⟨s!"destination policy is not valid: {error}"⟩)
  Fetch.DestinationPolicy.ofFile host.parseIp file

structure FetchArguments where
  /-- Run this fetch belongs to. -/
  runId : RunId
  /-- JSON file holding one request. -/
  request : FilePath
  /-- JSON file holding this deployment's destination policy. -/
  policy : FilePath
  /-- Directory to write the sealed handoff into. -/
  artifactDir : FilePath
  /-- File holding the key shared with the inspection stage. -/
  handoffKey : FilePath

/-- What the process has when its configuration is in order. -/
structure FetchJob where
  policy : Fetch.DestinationPolicy
  handoff : Handoff
  request : WebFetchRequest

def testWarning : String :=
  "warning: running under a test destination policy; non-public destinations are reachable"

/-- The line of `unavailable`. -/
def unavailable (what detail : String) : String := s!"{what}: {detail}"

/-- The part of `main` that reads the configuration, with what it prints. Nothing is written
before it is over. -/
def FetchArguments.prepare (host : Host) (arguments : FetchArguments) :
    Except (List String) (FetchJob × List String) := do
  let policy ← (host.loadPolicy arguments.policy).mapError
    (fun error => [unavailable "destination policy unusable" error.message])
  let printed := if policy.profile = .test then [testWarning] else []
  let key ← (HandoffKey.loadFor host.files arguments.handoffKey arguments.artifactDir).mapError
    (fun error => printed ++ [unavailable "handoff key unusable" error.message])
  let handoff : Handoff := ⟨pathText arguments.artifactDir,arguments.runId.text,key,
    lt_of_le_of_lt arguments.runId.short (by decide)⟩
  let raw ← (host.readToString arguments.request).mapError
    (fun error => printed ++ [unavailable "request unreadable" error.text])
  match (host.serde.parse raw).bind WebFetchRequest.ofValue with
  | some request => return (⟨policy,handoff,request⟩,printed)
  | none =>
    .error (printed ++
      [unavailable "request is not a valid web_fetch:v1 request" (host.serde.errorText raw)])

/-- How the process ends. -/
structure Ended where
  code : ExitCode
  printed : List String
  device : Device

/-- The line about a handoff that could not be written. -/
def unwritten (error : ContractError) : String :=
  unavailable "handoff could not be written" error.message

def FetchJob.fetcher (job : FetchJob) : Fetch.Fetcher := .new job.policy

/-- What the fetch comes to. -/
def FetchJob.fetch (world : Fetch.World) (job : FetchJob) :
    Except ErrorCode Fetch.Fetched × Fetch.Trace :=
  job.fetcher.fetch world job.handoff.runId job.request .start

def FetchJob.recordFailure (host : Host) (job : FetchJob) (code : ErrorCode)
    (printed : List String) (device : Device) : Ended :=
  match (⟨job.handoff,.failed code⟩ : Call).attempt host.crypto host.codecs device with
  | (.ok _,device) => ⟨.withheld,printed,device⟩
  | (.error error,device) => ⟨.unavailable,printed ++ [unwritten error],device⟩

/-- The part of `main` that fetches and writes the handoff. -/
def FetchJob.run (host : Host) (world : Fetch.World) (job : FetchJob) (printed : List String)
    (device : Device) : Ended :=
  match (job.fetch world).1 with
  | .ok fetched =>
    match (⟨job.handoff,.fetched fetched.artifact fetched.body⟩ : Call).attempt host.crypto host.codecs
        device with
    | (.ok _,device) => ⟨.success,printed,device⟩
    | (.error error,device) =>
      job.recordFailure host .internalError (printed ++ [unwritten error]) device
  | .error code => job.recordFailure host code printed device

def FetchArguments.main (host : Host) (world : Fetch.World) (arguments : FetchArguments)
    (device : Device) : Ended :=
  match arguments.prepare host with
  | .error printed => ⟨.unavailable,printed,device⟩
  | .ok (job,printed) => job.run host world printed device

/-- What the stage relies on of the crates it is built from. -/
structure Host.Works (host : Host) (world : Fetch.World) : Prop where
  sized : host.crypto.Sized
  sha256 : world.sha256Hex = host.crypto.sha256Hex
  stage : host.codecs.stage.Invertible
  artifact : host.codecs.artifact.Invertible
  /-- The empty text is no artifact. -/
  nonempty : ∀ artifact, host.codecs.artifact.decode [] ≠ .ok artifact
  limited : world.http.Limited

/-- Why a handoff could not be written: an operation went wrong, or a file could not be encoded. -/
def Host.Broken (host : Host) (device : Device) (error : ContractError) : Prop :=
  device.Reported error ∨
    (∃ outcome text, host.codecs.stage.encode outcome = .error text ∧
      error = ⟨s!"stage outcome could not be serialized: {text}"⟩) ∨
    ∃ artifact text, host.codecs.artifact.encode artifact = .error text ∧
      error = ⟨s!"artifact description could not be serialized: {text}"⟩

/-- A line about the configuration, or about a handoff that could not be written. What was
fetched has no part in it. -/
def Printable (host : Host) (arguments : FetchArguments) (device : Device) (line : String) : Prop :=
  (∃ printed, line ∈ printed ∧ (arguments.prepare host = .error printed ∨
    ∃ job, arguments.prepare host = .ok (job,printed))) ∨
  ∃ error, host.Broken device error ∧ line = unwritten error

section
variable {host : Host} {world : Fetch.World} {arguments : FetchArguments} {job : FetchJob}
  {device : Device} {code : ErrorCode} {printed : List String}

theorem encode_error {α : Type} {codec : Codec α} {value : α} {what : String} {error : ContractError}
    (h : encode codec value what = .error error) :
    ∃ text, codec.encode value = .error text ∧ error = ⟨s!"{what} could not be serialized: {text}"⟩ := by
  obtain ⟨text,htext,rfl⟩ := mapError_eq_error.mp h
  exact ⟨text,htext,rfl⟩

theorem attempt_broken {call : Call} {after : Device} {error : ContractError}
    (hchecked : ∀ artifact body, call.record = .fetched artifact body →
      artifact.runId = call.handoff.runId ∧ body.length = artifact.bodyBytes ∧
        host.crypto.sha256Hex body = artifact.bodySha256)
    (h : call.attempt host.crypto host.codecs device = (.error error,after)) :
    host.Broken device error := by
  unfold Call.attempt at h
  cases hwrite : call.write host.crypto host.codecs with
  | ok operations =>
    rw [hwrite] at h
    exact .inl (attemptAll_error h)
  | error e =>
    rw [hwrite] at h
    obtain rfl : e = error := Except.error.inj (Prod.mk.inj h).1
    unfold Call.write at hwrite
    cases hrecord : call.record with
    | failed code =>
      rw [hrecord] at hwrite
      rcases bind_eq_error.mp hwrite with hstage | ⟨_,_,hdone⟩
      · obtain ⟨text,htext,rfl⟩ := encode_error hstage
        exact .inr (.inl ⟨_,text,htext,rfl⟩)
      · cases hdone
    | fetched artifact body =>
      rw [hrecord] at hwrite
      obtain ⟨hrun,hlength,hdigest⟩ := hchecked artifact body hrecord
      have hpass : ∀ {p : Prop} [Decidable p] {text : String}, ¬p →
          refuseIf p text ≠ .error e := by
        intro p _ text hp
        rw [refuseIf,if_neg hp]
        nofun
      rcases bind_eq_error.mp hwrite with hrefused | ⟨_,_,hwrite⟩
      · exact absurd hrefused (hpass (not_not.mpr hrun))
      rcases bind_eq_error.mp hwrite with hrefused | ⟨_,_,hwrite⟩
      · exact absurd hrefused (hpass (by simp [hlength,hdigest]))
      rcases bind_eq_error.mp hwrite with hstage | ⟨_,_,hwrite⟩
      · obtain ⟨text,htext,rfl⟩ := encode_error hstage
        exact .inr (.inl ⟨_,text,htext,rfl⟩)
      rcases bind_eq_error.mp hwrite with hartifact | ⟨_,_,hdone⟩
      · obtain ⟨text,htext,rfl⟩ := encode_error hartifact
        exact .inr (.inr ⟨_,text,htext,rfl⟩)
      · cases hdone

theorem Broken.congr {before : Device} {error : ContractError} (hfates : device.fates = before.fates)
    (h : host.Broken device error) : host.Broken before error := by
  refine h.imp_left fun ⟨n,what,hwhat,text,htext,herror⟩ => ?_
  exact ⟨n,what,hwhat,text,by rwa [← hfates],herror⟩

/-- The second part of a run that could not hand a response over. -/
theorem recordFailure_cases (host : Host) (job : FetchJob) (code : ErrorCode) (printed : List String)
    (device : Device) :
    (∃ after, (⟨job.handoff,.failed code⟩ : Call).attempt host.crypto host.codecs device =
        (.ok (),after) ∧ job.recordFailure host code printed device = ⟨.withheld,printed,after⟩) ∨
      ∃ error after, host.Broken device error ∧
        job.recordFailure host code printed device =
          ⟨.unavailable,printed ++ [unwritten error],after⟩ := by
  unfold FetchJob.recordFailure
  rcases hattempt : (⟨job.handoff,.failed code⟩ : Call).attempt host.crypto host.codecs device with
    ⟨error | _,after⟩
  · have hbroken : host.Broken device error :=
      attempt_broken (fun artifact body hrecord => by cases hrecord) hattempt
    exact .inr ⟨error,after,hbroken,rfl⟩
  · exact .inl ⟨after,rfl,rfl⟩

theorem run_failed {trace : Fetch.Trace} (h : job.fetch world = (.error code,trace)) :
    job.run host world printed device = job.recordFailure host code printed device := by
  rw [FetchJob.run,h]

theorem run_fetched {trace : Fetch.Trace} {fetched : Fetch.Fetched}
    (h : job.fetch world = (.ok fetched,trace)) :
    job.run host world printed device =
      match (⟨job.handoff,.fetched fetched.artifact fetched.body⟩ : Call).attempt host.crypto
          host.codecs device with
      | (.ok _,after) => ⟨.success,printed,after⟩
      | (.error error,after) =>
        job.recordFailure host .internalError (printed ++ [unwritten error]) after := by
  rw [FetchJob.run,h]

theorem attempt_keeps_fates {call : Call} {after : Device} {result : Except ContractError Unit}
    (h : call.attempt host.crypto host.codecs device = (result,after)) :
    after.fates = device.fates := by
  have hfates := callAttempt_fates host.crypto host.codecs call device
  rwa [h] at hfates

/-- A fetch returns what the checks of the handoff ask for. -/
theorem broken_of_fetched (hworks : host.Works world) {trace : Fetch.Trace}
    {fetched : Fetch.Fetched} {error : ContractError} {after : Device}
    (hfetch : job.fetch world = (.ok fetched,trace))
    (h : (⟨job.handoff,.fetched fetched.artifact fetched.body⟩ : Call).attempt host.crypto host.codecs
      device = (.error error,after)) : host.Broken device error := by
  obtain ⟨requested,_,_,_,_,_,_,_,_,_,_,_,haccurate⟩ :=
    (Fetch.fetch_traces world job.fetcher job.handoff.runId job.request).ok rfl hfetch
  refine attempt_broken (fun artifact body hrecord => ?_) h
  cases hrecord
  exact ⟨haccurate.runId,haccurate.bodyBytes.symm,by rw [haccurate.bodySha256,hworks.sha256]⟩

theorem recordFailure_printable {lines : List String} {mid : Device}
    (hfates : mid.fates = device.fates) (hlines : ∀ line ∈ lines, Printable host arguments device line) :
    ∀ line ∈ (job.recordFailure host code lines mid).printed, Printable host arguments device line := by
  rcases recordFailure_cases host job code lines mid with
    ⟨after,_,hended⟩ | ⟨error,after,hbroken,hended⟩
  · rw [hended]
    exact hlines
  · rw [hended]
    intro line hline
    rcases List.mem_append.mp hline with hline | hline
    · exact hlines line hline
    · exact .inr ⟨error,Broken.congr hfates hbroken,List.mem_singleton.mp hline⟩

/-- The stage prints nothing of what it fetched, on any path. -/
theorem main_printable (hworks : host.Works world) (arguments : FetchArguments) (device : Device) :
    ∀ line ∈ (arguments.main host world device).printed, Printable host arguments device line := by
  unfold FetchArguments.main
  cases hprepare : arguments.prepare host with
  | error printed => exact fun line hline => .inl ⟨printed,hline,.inl hprepare⟩
  | ok ready =>
    obtain ⟨job,printed⟩ := ready
    have hprinted : ∀ line ∈ printed, Printable host arguments device line :=
      fun line hline => .inl ⟨printed,hline,.inr ⟨job,hprepare⟩⟩
    dsimp only
    rcases hfetch : job.fetch world with ⟨code | fetched,trace⟩
    · rw [run_failed hfetch]
      exact recordFailure_printable rfl hprinted
    · rw [run_fetched hfetch]
      rcases hattempt : (⟨job.handoff,.fetched fetched.artifact fetched.body⟩ : Call).attempt
        host.crypto host.codecs device with ⟨error | _,after⟩
      · have hbroken := broken_of_fetched hworks hfetch hattempt
        refine recordFailure_printable (attempt_keeps_fates hattempt) fun line hline => ?_
        rcases List.mem_append.mp hline with hline | hline
        · exact hprinted line hline
        · exact .inr ⟨error,hbroken,List.mem_singleton.mp hline⟩
      · exact hprinted

theorem readToString_ok {path : FilePath} {text : String}
    (h : readPath host.files path = .ok (asBytes text)) : host.readToString path = .ok text := by
  unfold Host.readToString
  rw [h]
  simp only [Bind.bind,Except.bind,fromUtf8_asBytes]
  rfl

end

/-- The machine of one run: three configuration files, and a page on the local network. -/
def miniDisk : Disk String where
  node place :=
    if place = [] then some .dir
    else if place = ["policy.json"] then some (.file (asBytes "policy"))
    else if place = ["request.json"] then some (.file (asBytes "request"))
    else if place = ["key"] then some (.file (List.replicate 32 7)) else none
  root := rfl
  closed name place h := by
    have hroot : place = [] := by
      by_contra hplace
      simp [hplace] at h
    rw [hroot]
    rfl

def miniAddress : String := "https://example.com/page"

/-- SHA-256 of the page and of its address. -/
def miniCrypto : Crypto :=
  { pageCrypto with
    sha256 := fun bytes =>
      if bytes = asBytes miniAddress then
        [54,65,197,242,39,76,84,113,39,138,181,191,29,246,209,133,141,138,163,146,216,92,81,48,26,190,
          210,18,42,60,99,79]
      else pageCrypto.sha256 bytes }

def miniHost : Host where
  files := miniDisk
  parsePolicy _ := .ok ⟨1,.test,["10.42.0.0/16"]⟩
  parseIp text := if text = "10.42.0.0" then some (.v4 ⟨10,42,0,0⟩) else none
  serde :=
    { parse := fun _ => some (.obj [("url",.str miniAddress)])
      print := fun _ => ""
      errorText := fun _ => "" }
  crypto := miniCrypto
  codecs := pageCodecs

def miniArguments : FetchArguments where
  runId := ⟨"run-1",by decide,by decide⟩
  request := [.name "request.json"]
  policy := [.name "policy.json"]
  artifactDir := [.name "handoff"]
  handoffKey := [.name "key"]

def miniUrl : Url := ⟨"https","",none,some "example.com",none,"/page",none,none⟩

def miniResponse : Fetch.Response :=
  ⟨200,[("content-type",asBytes "text/html")],
    fun limit => if 15 ≤ limit then .ok (asBytes "<html>hi</html>") else .error .bodyExceedsLimit⟩

def miniWorld : Fetch.World where
  urls := ⟨fun _ => .ok miniUrl,fun _ _ => .error "no base",fun _ => miniAddress⟩
  times := ⟨fun _ => none,fun _ => some "2026-09-12T12:00:00Z"⟩
  sha256Hex := miniCrypto.sha256Hex
  lookup _ _ _ := some [.v4 ⟨93,184,216,34⟩]
  http := Fetch.firstAddressClient (fun _ => .ok miniResponse)
  clock _ := 0
  nowUtc := ⟨0,0⟩

/-- A directory that is not there yet, on a device that never fails. -/
def miniDevice : Device := ⟨fun _ => .error .notFound,fun _ => .done,0⟩

theorem miniWorld_limited : miniWorld.http.Limited := by
  intro trace agent request response limit bytes hserved hbody
  obtain rfl : miniResponse = response := by
    simp only [miniWorld,Fetch.firstAddressClient] at hserved
    split at hserved
    · cases hserved
    · exact Except.ok.inj hserved
  simp only [miniResponse] at hbody
  split_ifs at hbody with hlimit
  cases hbody
  exact hlimit

theorem miniHost_works : miniHost.Works miniWorld where
  sized := fun _ _ => rfl
  sha256 := rfl
  stage := codecOf_invertible _ _ _
  artifact := codecOf_invertible _ _ _
  nonempty := by
    intro artifact h
    have htext : asBytes "" ≠ asBytes pageArtifactText := by
      intro hnil
      obtain ⟨_,htail⟩ := String.append_eq_empty_iff.mp (asBytes_injective hnil).symm
      revert htail
      decide
    rw [asBytes_empty] at htext
    simp only [miniHost,pageCodecs,codecOf,if_neg htext,reduceCtorEq] at h
  limited := miniWorld_limited

theorem sevens_long : minKeyBytes ≤ (List.replicate 32 (7 : UInt8)).length := by decide

theorem subnet_bounded : 16 ≤ (Fetch.IpAddr.v4 ⟨10,42,0,0⟩).width := by decide

theorem runOne_short : len "run-1" < 2 ^ 63 := by decide

def miniKey : HandoffKey := ⟨List.replicate 32 7,sevens_long⟩

def miniJob : FetchJob where
  policy := ⟨.test,[⟨.v4 ⟨10,42,0,0⟩,16,subnet_bounded⟩]⟩
  handoff := ⟨"/handoff","run-1",miniKey,runOne_short⟩
  request := ⟨miniAddress,.markdown⟩

theorem miniArguments_prepare : miniArguments.prepare miniHost = .ok (miniJob,[testWarning]) := by
  have hpolicy : miniHost.readToString miniArguments.policy = .ok "policy" :=
    readToString_ok (by decide)
  have hrequest : miniHost.readToString miniArguments.request = .ok "request" :=
    readToString_ok (by decide)
  have hload : miniHost.loadPolicy miniArguments.policy = .ok miniJob.policy := by
    unfold Host.loadPolicy
    rw [hpolicy]
    rfl
  have hkey : HandoffKey.loadFor miniHost.files miniArguments.handoffKey miniArguments.artifactDir =
      .ok miniKey := by decide
  unfold FetchArguments.prepare
  rw [hload,hkey,hrequest]
  rfl

theorem miniJob_fetch : ∃ trace, miniJob.fetch miniWorld =
    (.ok ⟨pageArtifact,asBytes "<html>hi</html>"⟩,trace) := by
  have hnow : Fetch.instantNow miniWorld .start = (.ok 0,⟨[],1⟩) := rfl
  have hurl : (Effect.lift ((miniJob.request.destinationUrl miniWorld.urls).mapError
      (fun _ => ErrorCode.unsafeSource)) : Fetch.Network Url) ⟨[],1⟩ = (.ok miniUrl,⟨[],1⟩) := rfl
  unfold FetchJob.fetch Fetch.Fetcher.fetch
  rw [bind_ok hnow,bind_ok hurl,Fetch.Fetcher.fetchLoop]
  exact ⟨_,rfl⟩

/-- The page is stored, under a warning about the policy. -/
theorem miniArguments_main : ∃ after,
    miniArguments.main miniHost miniWorld miniDevice = ⟨.success,[testWarning],after⟩ := by
  obtain ⟨trace,hfetch⟩ := miniJob_fetch
  obtain ⟨operations,hwrite⟩ : ∃ operations,
      (⟨miniJob.handoff,.fetched pageArtifact (asBytes "<html>hi</html>")⟩ : Call).write
        miniHost.crypto miniHost.codecs = .ok operations :=
    ⟨_,writeFetched_eq_ok.mpr ⟨_,_,⟨rfl,by decide,by decide⟩,codecOf_encode _ _ _,
      codecOf_encode _ _ _,rfl⟩⟩
  obtain ⟨after,hattempt⟩ : ∃ after,
      (⟨miniJob.handoff,.fetched pageArtifact (asBytes "<html>hi</html>")⟩ : Call).attempt
        miniHost.crypto miniHost.codecs miniDevice = (.ok (),after) := by
    unfold Call.attempt
    rw [hwrite]
    exact attemptAll_done operations fun _ => rfl
  refine ⟨after,?_⟩
  unfold FetchArguments.main
  rw [miniArguments_prepare]
  dsimp only
  rw [run_fetched hfetch,hattempt]

theorem main_printable_mini :
    testWarning ∈ (miniArguments.main miniHost miniWorld miniDevice).printed ∧
      ∀ line ∈ (miniArguments.main miniHost miniWorld miniDevice).printed,
        Printable miniHost miniArguments miniDevice line := by
  refine ⟨?_,main_printable miniHost_works miniArguments miniDevice⟩
  obtain ⟨after,hmain⟩ := miniArguments_main
  rw [hmain]
  exact List.mem_cons_self

end HearthAI.Stages
