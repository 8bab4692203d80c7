import HearthAI.Contracts.Gate
import HearthAI.Inspect.Deliver

/-! # What a stopped run says about itself

Every way out of the pipeline is compared with the scans that had been made by then: a stop
says what the last scan found, and a run that reports no checks should have made none.
-/
namespace HearthAI.Inspect
open Text Contracts Effect

/-- No scan of the record has matched. -/
def Unmatched (s : Inspection) : Prop :=
  ∀ data rules, Event.scan data (.ok (.match rules)) ∉ s.events

/-- The code can be reported with the status, and a match is reported as one. -/
structure Faithful (stop : Stop) (s : Inspection) : Prop where
  permits : stop.code.permits stop.status = true
  rejects : ∀ data rules, Event.scan data (.ok (.match rules)) ∈ s.events → stop = .rejected rules

/-- The passes are under way, and none of them has matched. -/
structure Begun (s : Inspection) : Prop where
  unmatched : Unmatched s
  scans : 0 < s.detector.scans

/-- The way out once the passes are under way. -/
structure Reported (stop : Stop) (s : Inspection) : Prop extends Faithful stop s where
  status : stop.status ≠ .notRun
  scans : 0 < s.detector.scans

theorem Unmatched.faithful {s : Inspection} (h : Unmatched s) {stop : Stop}
    (hpermits : stop.code.permits stop.status = true) : Faithful stop s :=
  ⟨hpermits,fun data rules hmem => absurd hmem (h data rules)⟩

theorem Unmatched.snoc {s t : Inspection} (h : Unmatched s) {event : Event}
    (hevents : t.events = s.events ++ [event])
    (hevent : ∀ data rules, event ≠ .scan data (.ok (.match rules))) : Unmatched t := by
  intro data rules hmem
  rw [hevents] at hmem
  rcases List.mem_append.mp hmem with hmem | hmem
  · exact h data rules hmem
  · exact hevent data rules (List.mem_singleton.mp hmem).symm

theorem Begun.congr {s t : Inspection} (h : Begun s) (hevents : t.events = s.events)
    (hdetector : t.detector = s.detector) : Begun t :=
  ⟨by unfold Unmatched; rw [hevents]; exact h.unmatched,by rw [hdetector]; exact h.scans⟩

theorem Begun.reported {s : Inspection} (h : Begun s) {stop : Stop}
    (hpermits : stop.code.permits stop.status = true) (hstatus : stop.status ≠ .notRun) :
    Reported stop s :=
  ⟨h.unmatched.faithful hpermits,hstatus,h.scans⟩

theorem Detector.scan_scans (data : Bytes) (d : Detector) : (Detector.scan data d).2.scans =
    if data.length ≤ d.remainingBytes then d.scans + 1 else d.scans := by
  unfold Detector.scan
  split_ifs with hover hfits hfits
  · omega
  · rfl
  · cases hanswer : d.scanner d.scans data with
    | error e => rfl
    | ok rules => dsimp only; split_ifs <;> rfl
  · omega

section Scans
variable {engine : Engine}

theorem scan_detector (data : Bytes) (s : Inspection) :
    (scan data s).2.detector = (Detector.scan data s.detector).2 := by
  unfold scan
  rcases Detector.scan data s.detector with ⟨answer,detector⟩
  rcases answer with failure | _ | rules <;> rfl

/-- A scan that is over the budget is not made. -/
theorem scan_over {data : Bytes} {s : Inspection} (h : s.detector.remainingBytes < data.length) :
    ∃ t, scan data s = (.error (.failed .inspectionFailed),t) := by
  unfold scan Detector.scan
  rw [if_pos h]
  exact ⟨_,rfl⟩

theorem scan_unmatched (data : Bytes) : Triple Unmatched (scan data) (fun _ => Unmatched)
    (fun stop s => Faithful stop s ∧ stop.status ≠ .notRun) := by
  refine ⟨fun s hs => ?_⟩
  unfold scan
  rcases Detector.scan data s.detector with ⟨answer,detector⟩
  rcases answer with failure | _ | rules
  · refine ⟨Unmatched.faithful (hs.snoc rfl ?_) rfl,nofun⟩
    exact fun _ _ h => by cases h
  · refine hs.snoc rfl ?_
    exact fun _ _ h => by cases h
  · refine ⟨⟨rfl,fun data' rules' hmem => ?_⟩,nofun⟩
    rcases List.mem_append.mp hmem with hmem | hmem
    · exact absurd hmem (hs data' rules')
    · cases List.mem_singleton.mp hmem
      rfl

theorem scan_begun (data : Bytes) : Triple Begun (scan data) (fun _ => Begun) Reported := by
  refine ⟨fun s hs => ?_⟩
  have hscans : 0 < (scan data s).2.detector.scans := by
    rw [scan_detector,Detector.scan_scans]
    have hbefore := hs.scans
    split_ifs <;> omega
  have hexit := (scan_unmatched data).exits s hs.unmatched
  rcases hrun : scan data s with ⟨stop | _,t⟩
  · rw [hrun] at hexit hscans
    exact ⟨hexit.1,hexit.2,hscans⟩
  · rw [hrun] at hexit hscans
    exact ⟨hexit,hscans⟩

theorem checkDeadline_begun : Triple Begun (checkDeadline .failed) (fun _ => Begun) Reported := by
  refine ⟨fun s hs => ?_⟩
  by_cases hlate : s.clock s.readings ≥ s.deadline
  · have hrun : checkDeadline .failed s = (.error ⟨.deadlineExceeded,.failed,[]⟩,s.elapsed.2) :=
      if_pos hlate
    have hafter : Begun s.elapsed.2 := hs.congr rfl rfl
    rw [hrun,exit_error]
    exact hafter.reported rfl nofun
  · have hrun : checkDeadline .failed s = (.ok (),s.elapsed.2) := if_neg hlate
    rw [hrun,exit_ok]
    exact hs.congr rfl rfl

theorem recordTelemetry_begun (f : Telemetry → Telemetry) :
    Triple Begun (recordTelemetry f) (fun _ => Begun) Reported :=
  Triple.modify _ fun _ hs => hs.congr rfl rfl

theorem runConverter_begun (converter : Converter) (text : String) (format : Format) :
    Triple Begun (runConverter converter text format) (fun _ => Begun) Reported := by
  refine ⟨fun s hs => ⟨hs.unmatched.snoc rfl ?_,hs.scans⟩⟩
  exact fun _ _ h => by cases h

theorem raise_begun {α : Type} {code : ErrorCode} (h : code.permits .failed = true)
    {Q : α → Inspection → Prop} : Triple Begun (raise (Stop.failed code)) Q Reported :=
  Triple.raise _ fun _ hs => hs.reported h nofun

theorem return_begun {α : Type} (a : α) : Triple Begun (pure a : Session α) (fun _ => Begun) Reported :=
  Triple.return _ fun _ hs => hs

theorem scanText_begun (decoded : Decoded) :
    Triple Begun decoded.scanText (fun _ => Begun) Reported := by
  unfold Decoded.scanText
  refine Triple.bind checkDeadline_begun fun _ => ?_
  refine Triple.bind (scan_begun _) fun _ => ?_
  refine Triple.bind (scan_begun _) fun _ => ?_
  exact Triple.bind (scan_begun _) fun _ => return_begun _

/-- Induction on the chain. -/
theorem convertChain_begun (text : String) (format : Format) (signals : SourceSignals)
    (chain : List Converter) (fallback : Option Candidate) :
    Triple Begun (convertChain engine text format signals chain fallback) (fun _ => Begun)
      Reported := by
  induction chain generalizing fallback with
  | nil =>
    cases fallback with
    | none => exact raise_begun rfl
    | some candidate => exact return_begun _
  | cons converter chain ih =>
    unfold convertChain
    refine Triple.bind checkDeadline_begun fun _ => ?_
    refine Triple.bind (runConverter_begun converter text format) fun candidate => ?_
    cases candidate with
    | none => exact ih fallback
    | some candidate =>
      refine Triple.bind (scan_begun _) fun _ => ?_
      split_ifs
      · exact return_begun _
      · exact ih (some candidate)
      · exact ih fallback

theorem convert_begun (chain : List Converter) (normalized : Normalized) :
    Triple Begun (normalized.convert engine chain) (fun _ => Begun) Reported := by
  unfold Normalized.convert
  split_ifs
  · exact Triple.bind (scan_begun _) fun _ => return_begun _
  · exact Triple.bind (scan_begun _) fun _ => return_begun _
  · exact Triple.bind (convertChain_begun _ _ _ _ _) fun _ => return_begun _

theorem reformatted_error {retrievedAt : String} {stop : Stop}
    (h : reformatted engine retrievedAt = .error stop) : stop = .failed .internalError := by
  unfold reformatted at h
  split at h
  · exact (Except.error.inj h).symm
  · split at h
    · exact (Except.error.inj h).symm
    · cases h

theorem release_begun (inspected : Inspected) :
    Triple Begun (inspected.release engine) (fun _ => Begun) Reported := by
  unfold Inspected.release
  refine Triple.bind (M := fun _ => Begun) ?_ fun _ => ?_
  · exact Triple.raiseIf _ _ (fun _ _ hs => hs) fun _ _ hs => hs.reported rfl nofun
  · refine Triple.bind (M := fun _ => Begun) ?_ fun retrievedAt => ?_
    · refine Triple.lift (fun _ _ _ hs => hs) fun stop hstop s hs => ?_
      rw [reformatted_error hstop]
      exact hs.reported rfl nofun
    · refine Triple.bind checkDeadline_begun fun _ => ?_
      refine Triple.bind (scan_begun _) fun _ => ?_
      exact Triple.bind (recordTelemetry_begun _) fun _ => return_begun _

/-- What follows the decoding of a response. -/
theorem rest_begun (engine : Engine) (chain : List Converter) (decoded : Decoded) :
    Triple Begun (do
      let normalized ← decoded.scanText
      let inspected ← normalized.convert engine chain
      inspected.release engine) (fun _ => Begun) Reported :=
  Triple.bind (scanText_begun decoded) fun normalized =>
    Triple.bind (convert_begun chain normalized) fun inspected => release_begun inspected

end Scans

section Wire
variable {engine : Engine}

/-- The passes over what arrived. -/
def Received.passes (received : Received) : Session Unit := do
  checkDeadline .notRun
  scan received.body
  scan (asBytes received.artifact.finalUrl)
  scan (asBytes received.media.headerValue)

/-- The decoding that follows the passes over what arrived. -/
def Received.readText (engine : Engine) (received : Received) : Session Decoded := do
  let decodedBytes ← Effect.lift
    ((decodeContentEncoding engine.codecs received.body received.artifact.contentEncoding).mapError
      Stop.notRun)
  let text ← Effect.lift
    ((decodeCharset engine.codecs decodedBytes received.media).mapError Stop.notRun)
  recordTelemetry (fun telemetry => { telemetry with decodedBytes := some decodedBytes.length })
  return ⟨received.artifact,received.media,text⟩

theorem scanWire_eq (received : Received) :
    received.scanWire engine = received.passes >>= fun _ => received.readText engine := by
  unfold Received.scanWire Received.passes
  simp only [Effect.bind_assoc]
  rfl

theorem passes_clears (received : Received) :
    Clears received.passes (.reach received.wireChecks ()) := by
  have hscript : (Script.reach received.wireChecks () : Script Check Unit) = (do
      Script.check .deadline
      Script.check (.scan received.body)
      Script.check (.scan (asBytes received.artifact.finalUrl))
      Script.check (.scan (asBytes received.media.headerValue))) := rfl
  rw [hscript]
  refine Follows.bind (checkDeadline_clears _) fun _ => ?_
  refine Follows.bind (scan_clears _) fun _ => ?_
  exact Follows.bind (scan_clears _) fun _ => scan_clears _

theorem passes_iff {received : Received} {s : Inspection} :
    (∃ t, received.passes s = (.ok (),t)) ↔ allowance.All s.meter received.wireChecks := by
  rw [(passes_clears received).returns_iff]
  constructor
  · rintro ⟨checks,hchecks,hall⟩
    rwa [(Script.reach.inj hchecks).1]
  · exact fun hall => ⟨_,rfl,hall⟩

/-- The first scan is made: there is time left, and room for the body. -/
def Opened (start : Meter) (body : Bytes) : Prop :=
  Check.Passes start .deadline ∧ body.length ≤ start.detector.remainingBytes

/-- The way out of the passes over what arrived. -/
theorem passes_report {start : Meter} (hzero : start.detector.scans = 0) {s : Inspection}
    (hmeter : s.meter = start) (hquiet : Unmatched s) (received : Received) :
    Exit (fun _ t => Begun t ∧ Opened start received.body)
      (fun stop t => Faithful stop t ∧
        (Opened start received.body → stop.status ≠ .notRun ∧ 0 < t.detector.scans) ∧
        (¬Opened start received.body → t.detector.scans = 0)) (received.passes s) := by
  subst hmeter
  unfold Received.passes
  by_cases hlate : s.clock s.readings ≥ s.deadline
  · -- the deadline has passed before the first scan
    have hrun : checkDeadline .notRun s = (.error ⟨.deadlineExceeded,.notRun,[]⟩,s.elapsed.2) :=
      if_pos hlate
    have hafter : Unmatched s.elapsed.2 := hquiet
    have hclosed : ¬Opened s.meter received.body := fun h => Nat.not_le.mpr h.1 hlate
    rw [bind_error hrun,exit_error]
    exact ⟨hafter.faithful rfl,fun h => absurd h hclosed,fun _ => hzero⟩
  · have hrun : checkDeadline .notRun s = (.ok (),s.elapsed.2) := if_neg hlate
    rw [bind_ok hrun]
    have hscans := Detector.scan_scans received.body s.elapsed.2.detector
    rw [← scan_detector,show s.elapsed.2.detector.scans = 0 from hzero] at hscans
    have hexit := (scan_unmatched received.body).exits s.elapsed.2 hquiet
    by_cases hfits : received.body.length ≤ s.elapsed.2.detector.remainingBytes
    · have hopened : Opened s.meter received.body := ⟨Nat.not_le.mp hlate,hfits⟩
      rw [if_pos hfits] at hscans
      rcases hbody : scan received.body s.elapsed.2 with ⟨stop | _,t⟩
      · rw [hbody] at hexit hscans
        have hone : t.detector.scans = 1 := hscans
        rw [bind_error hbody,exit_error]
        exact ⟨hexit.1,fun _ => ⟨hexit.2,by omega⟩,fun h => absurd hopened h⟩
      · rw [hbody] at hexit hscans
        have hone : t.detector.scans = 1 := hscans
        have hbegun : Begun t := ⟨hexit,by omega⟩
        rw [bind_ok hbody]
        have hrest := (Triple.bind (scan_begun (asBytes received.artifact.finalUrl)) fun _ =>
          scan_begun (asBytes received.media.headerValue)).exits t hbegun
        revert hrest
        generalize (scan (asBytes received.artifact.finalUrl) >>= fun _ =>
          scan (asBytes received.media.headerValue)) t = last
        rcases last with ⟨stop | _,u⟩
        · exact fun h => ⟨h.toFaithful,fun _ => ⟨h.status,h.scans⟩,fun h' => absurd hopened h'⟩
        · exact fun h => ⟨h,hopened⟩
    · have hclosed : ¬Opened s.meter received.body := fun h => hfits h.2
      rw [if_neg hfits] at hscans
      obtain ⟨t,hover⟩ := scan_over (Nat.not_le.mp hfits)
      rw [hover] at hexit hscans
      rw [bind_error hover,exit_error]
      exact ⟨hexit.1,fun h => absurd h hclosed,fun _ => hscans⟩

/-- A response that cannot be decoded may be reported as not inspected. -/
theorem boundedRead_permits {reader : Stream} {wireBytes : ℕ} {code : ErrorCode}
    (h : boundedRead reader wireBytes = .error code) : code.permits .notRun = true := by
  unfold boundedRead at h
  dsimp only at h
  split at h
  · cases h
    rfl
  · split_ifs at h
    cases h
    rfl

theorem decodeContentEncoding_permits {codecs : Codecs} {body : Bytes} {coding : Option String}
    {code : ErrorCode} (h : decodeContentEncoding codecs body coding = .error code) :
    code.permits .notRun = true := by
  unfold decodeContentEncoding at h
  dsimp only at h
  split_ifs at h
  · cases h
    rfl
  · exact boundedRead_permits h
  · exact boundedRead_permits h
  · cases h
    rfl

theorem decodeCharset_permits {codecs : Codecs} {bytes : Bytes} {media : MediaType}
    {code : ErrorCode} (h : decodeCharset codecs bytes media = .error code) :
    code.permits .notRun = true := by
  unfold decodeCharset at h
  split at h
  · dsimp only at h
    split_ifs at h
    cases h
    rfl
  · split at h
    · cases h
      rfl
    · split at h
      · cases h
        rfl
      · cases h

/-- The text is read, or the run ends with the reason why it cannot be. -/
theorem readText_cases (engine : Engine) (received : Received) (s : Inspection) :
    (∃ code, received.decode engine = .error code ∧ code.permits .notRun = true ∧
      received.readText engine s = (.error (.notRun code),s)) ∨
    ∃ text t, received.decode engine = .ok text ∧ t.events = s.events ∧ t.detector = s.detector ∧
      received.readText engine s = (.ok ⟨received.artifact,received.media,text⟩,t) := by
  unfold Received.readText Received.decode
  cases hbytes : decodeContentEncoding engine.codecs received.body received.artifact.contentEncoding
    with
  | error code => exact .inl ⟨code,rfl,decodeContentEncoding_permits hbytes,rfl⟩
  | ok bytes =>
    cases htext : decodeCharset engine.codecs bytes received.media with
    | error code =>
      refine .inl ⟨code,?_,decodeCharset_permits htext,?_⟩
      · exact bind_eq_error.mpr (.inr ⟨bytes,rfl,htext⟩)
      · refine (bind_ok (a := bytes) (t := s) rfl).trans ?_
        exact bind_error (by rw [htext]; rfl)
    | ok text =>
      refine .inr ⟨text,
        { s with telemetry := { s.telemetry with decodedBytes := some bytes.length } },?_,rfl,rfl,?_⟩
      · exact bind_eq_ok.mpr ⟨bytes,rfl,htext⟩
      · refine (bind_ok (a := bytes) (t := s) rfl).trans ?_
        rw [bind_apply,htext]
        rfl

end Wire

section Accounts
variable {engine : Engine} {chain : List Converter} {start : Meter}
  {read : Except ContractError Handed}

/-- At least one scan of the response is made. -/
def Started (start : Meter) : Except ContractError Handed → Prop
  | .ok (.fetched artifact body) => (∃ media, supportedMedia artifact = .ok media) ∧ Opened start body
  | _ => False

/-- The response passes every scan of what arrived, and its coding or its charset is at fault. -/
def Undecodable (engine : Engine) (start : Meter) : Except ContractError Handed → Prop
  | .ok (.fetched artifact body) => ∃ media code, supportedMedia artifact = .ok media ∧
      allowance.All start (Received.wireChecks ⟨artifact,media,body⟩) ∧
      Received.decode engine ⟨artifact,media,body⟩ = .error code
  | _ => False

/-- The response passes every check, and a field of its artifact breaks a rule for results. -/
def Unreportable (engine : Engine) (chain : List Converter) (start : Meter) :
    Except ContractError Handed → Prop
  | .ok (.fetched artifact body) => ∃ checks d,
      clearance engine chain (.ok (.fetched artifact body)) = .reach checks d ∧
      allowance.All start checks ∧ ¬Reportable engine artifact
  | _ => False

/-- What a stop says of the run it ended. -/
structure Account (engine : Engine) (start : Meter) (read : Except ContractError Handed)
    (stop : Stop) (t : Inspection) : Prop where
  permits : stop.code.permits stop.status = true ∨
    ∃ code, read = .ok (.failed code) ∧ stop = .notRun code
  rejects : ∀ data rules, Event.scan data (.ok (.match rules)) ∈ t.events → stop = .rejected rules
  started : Started start read →
    0 < t.detector.scans ∧ (stop.status = .notRun ↔ Undecodable engine start read)
  idle : ¬Started start read → t.detector.scans = 0

theorem Undecodable.started (h : Undecodable engine start read) : Started start read := by
  match read,h with
  | .ok (.fetched artifact body),⟨media,_,hmedia,hall,_⟩ =>
    obtain ⟨hdeadline,hbody,_⟩ := hall
    refine ⟨⟨media,hmedia⟩,hdeadline,?_⟩
    have hspent := Detector.scan_noMatch (show Detector.scan body start.detector = (.ok .noMatch,_)
      from Prod.ext hbody rfl)
    omega

theorem supportedMedia_error {artifact : FetchArtifact} {stop : Stop}
    (h : supportedMedia artifact = .error stop) : stop = .notRun .unsupportedContent := by
  unfold supportedMedia at h
  split at h
  · exact (Except.error.inj h).symm
  · split at h
    · exact (Except.error.inj h).symm
    · split_ifs at h
      exact (Except.error.inj h).symm

/-- A run that stops before the passes. -/
theorem Account.early {stop : Stop} {t : Inspection} (hquiet : Unmatched t)
    (hpermits : stop.code.permits stop.status = true ∨
      ∃ code, read = .ok (.failed code) ∧ stop = .notRun code)
    (hidle : ¬Started start read) (hscans : t.detector.scans = 0) :
    Account engine start read stop t :=
  ⟨hpermits,fun data rules hmem => absurd hmem (hquiet data rules),fun h => absurd h hidle,
    fun _ => hscans⟩

/-- A run that stops in the passes, at a response that can be decoded. -/
theorem Account.late {stop : Stop} {t : Inspection} (h : Reported stop t)
    (hstarted : Started start read) (hdecodable : ¬Undecodable engine start read) :
    Account engine start read stop t :=
  ⟨.inl h.permits,h.rejects,fun _ => ⟨h.scans,iff_of_false h.status hdecodable⟩,
    fun hidle => absurd hstarted hidle⟩

/-- The session that begins a run. -/
structure Fresh (start : Meter) (s : Inspection) : Prop where
  meter : s.meter = start
  scans : start.detector.scans = 0
  unmatched : Unmatched s

/-- A response of a supported type. -/
theorem scanWire_account (engine : Engine) {s : Inspection} (hs : Fresh start s)
    {artifact : FetchArtifact} {media : MediaType} (body : Bytes)
    (hmedia : supportedMedia artifact = .ok media) :
    Exit (fun _ t => Begun t ∧ Started start (.ok (.fetched artifact body)) ∧
        ¬Undecodable engine start (.ok (.fetched artifact body)))
      (Account engine start (.ok (.fetched artifact body)))
      (Received.scanWire engine ⟨artifact,media,body⟩ s) := by
  have hsame : ∀ media', supportedMedia artifact = .ok media' → media' = media := fun media' h =>
    Except.ok.inj (h.symm.trans hmedia)
  have hpasses := passes_report hs.scans hs.meter hs.unmatched ⟨artifact,media,body⟩
  rw [scanWire_eq]
  rcases hrun : Received.passes ⟨artifact,media,body⟩ s with ⟨stop | _,t⟩
  · -- a pass has stopped the run, so not all of them have gone through
    rw [hrun] at hpasses
    rw [bind_error hrun,exit_error]
    obtain ⟨hfaithful,hopened,hclosed⟩ := hpasses
    have hdecodable : ¬Undecodable engine start (.ok (.fetched artifact body)) := by
      rintro ⟨media',_,hmedia',hall,_⟩
      obtain rfl := hsame media' hmedia'
      rw [← hs.meter] at hall
      obtain ⟨_,hreturns⟩ := passes_iff.mpr hall
      rw [hrun] at hreturns
      cases hreturns
    by_cases hopen : Opened start body
    · obtain ⟨hstatus,hscans⟩ := hopened hopen
      exact .late ⟨hfaithful,hstatus,hscans⟩ ⟨⟨media,hmedia⟩,hopen⟩ hdecodable
    · have hidle : ¬Started start (.ok (.fetched artifact body)) := fun h => hopen h.2
      exact ⟨.inl hfaithful.permits,hfaithful.rejects,fun h => absurd h hidle,
        fun _ => hclosed hopen⟩
  · rw [hrun] at hpasses
    rw [bind_ok hrun]
    have hbegun : Begun t := hpasses.1
    have hopen : Opened start body := hpasses.2
    have hstarted : Started start (.ok (.fetched artifact body)) := ⟨⟨media,hmedia⟩,hopen⟩
    have hall := passes_iff.mp ⟨t,hrun⟩
    rw [hs.meter] at hall
    have hcases := readText_cases engine ⟨artifact,media,body⟩ t
    revert hcases
    generalize Received.readText engine ⟨artifact,media,body⟩ t = last
    rintro (⟨code,hdecode,hpermits,rfl⟩ | ⟨text,u,hdecode,hevents,hdetector,rfl⟩)
    · have hundecodable : Undecodable engine start (.ok (.fetched artifact body)) :=
        ⟨media,code,hmedia,hall,hdecode⟩
      exact ⟨.inl hpermits,(hbegun.unmatched.faithful hpermits).rejects,
        fun _ => ⟨hbegun.scans,iff_of_true rfl hundecodable⟩,fun hidle => absurd hstarted hidle⟩
    · refine ⟨hbegun.congr hevents hdetector,hstarted,?_⟩
      rintro ⟨media',_,hmedia',_,hdecode'⟩
      obtain rfl := hsame media' hmedia'
      rw [hdecode] at hdecode'
      cases hdecode'

/-- The way out of the pipeline: data is returned by a run that was made in full, and every
stop accounts for its run. -/
theorem pipeline_account (engine : Engine) (chain : List Converter)
    (read : Except ContractError Handed) {s : Inspection} (hs : Fresh start s) :
    Exit (fun _ t => Begun t ∧ Started start read ∧ ¬Undecodable engine start read)
      (Account engine start read) (pipeline engine chain read s) := by
  have hscans : s.detector.scans = 0 := by
    have hdetector : s.detector = start.detector := by rw [← hs.meter]; rfl
    rw [hdetector,hs.scans]
  unfold pipeline
  match read with
  | .error e => exact Account.early hs.unmatched (.inl rfl) id hscans
  | .ok (.failed code) => exact Account.early hs.unmatched (.inr ⟨code,rfl,rfl⟩) id hscans
  | .ok (.fetched artifact body) =>
    let opened : Inspection :=
      { s with
        telemetry :=
          { s.telemetry with
            httpStatus := some artifact.httpStatus
            redirects := some artifact.redirects
            requestedUrlSha256 := some artifact.requestedUrlSha256
            wireBytes := some body.length } }
    have hfresh : Fresh start opened := ⟨hs.meter,hs.scans,hs.unmatched⟩
    rw [bind_ok (show Effect.lift ((Except.ok (Handed.fetched artifact body)).mapError
      fun _ : ContractError => Stop.notRun .internalError) s = (.ok (.fetched artifact body),s)
      from rfl)]
    cases hmedia : supportedMedia artifact with
    | error stop =>
      have hopen : Received.openHanded (.fetched artifact body) s = (.error stop,opened) := by
        show (Effect.lift (supportedMedia artifact) >>= fun media =>
          return (⟨artifact,media,body⟩ : Received) : Session Received) opened = _
        rw [hmedia]
        rfl
      have hidle : ¬Started start (.ok (.fetched artifact body)) := by
        rintro ⟨⟨media,hok⟩,_⟩
        rw [hmedia] at hok
        cases hok
      rw [bind_error hopen,exit_error]
      refine .early hfresh.unmatched (.inl ?_) hidle hscans
      rw [supportedMedia_error hmedia]
      rfl
    | ok media =>
      have hopen : Received.openHanded (.fetched artifact body) s =
          (.ok ⟨artifact,media,body⟩,opened) := by
        show (Effect.lift (supportedMedia artifact) >>= fun media =>
          return (⟨artifact,media,body⟩ : Received) : Session Received) opened = _
        rw [hmedia]
        rfl
      rw [bind_ok hopen]
      have hwire := scanWire_account engine hfresh body hmedia
      rcases hrun : Received.scanWire engine ⟨artifact,media,body⟩ opened with ⟨stop | decoded,t⟩
      · rw [hrun] at hwire
        rw [bind_error hrun]
        exact hwire
      · rw [hrun] at hwire
        rw [bind_ok hrun]
        obtain ⟨hbegun,hstarted,hdecodable⟩ := hwire
        have hrest := (rest_begun engine chain decoded).exits t hbegun
        revert hrest
        generalize (decoded.scanText >>= fun normalized => normalized.convert engine chain >>=
          fun inspected => inspected.release engine) t = last
        rcases last with ⟨stop | d,u⟩
        · exact fun h => .late h hstarted hdecodable
        · exact fun h => ⟨h,hstarted,hdecodable⟩

end Accounts
end HearthAI.Inspect
