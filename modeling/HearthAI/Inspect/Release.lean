import HearthAI.Inspect.Pipeline

/-! # The release gate

Every step of the session either keeps the record clean, or ends it with the one
scan that did not come back clean. Data is released from a clean record only, and
the record then names every form of the response the caller depends on.
-/
namespace HearthAI.Inspect
open Text Contracts Effect

/-- The byte strings handed to the detector, in order. -/
def scanned (events : List Event) : List Bytes :=
  events.filterMap (fun event => match event with
    | .scan data _ => some data
    | .convert _ _ => none)

/-- Every scan of the record came back without a match. -/
def Clean (events : List Event) : Prop :=
  ∀ data answer, Event.scan data answer ∈ events → answer = .ok .noMatch

/-- A clean record, ended by a scan that did not come back clean. -/
def Halted (events : List Event) : Prop :=
  ∃ before data answer, events = before ++ [.scan data answer] ∧ Clean before ∧
    answer ≠ .ok .noMatch

/-- What every run leaves behind, whichever way it ended. -/
def Stopped (events : List Event) : Prop := Clean events ∨ Halted events

@[simp] theorem scanned_append (xs ys : List Event) :
    scanned (xs ++ ys) = scanned xs ++ scanned ys := by simp [scanned]
@[simp] theorem scanned_scan (data : Bytes) (answer : Except InspectionFailure Verdict) :
    scanned [.scan data answer] = [data] := rfl
@[simp] theorem scanned_convert (method : ConversionMethod) (candidate : Option Candidate) :
    scanned [.convert method candidate] = [] := rfl

theorem Clean.append {xs ys : List Event} (hx : Clean xs) (hy : Clean ys) : Clean (xs ++ ys) := by
  intro data answer h
  rcases List.mem_append.mp h with h | h
  · exact hx data answer h
  · exact hy data answer h

theorem clean_scan (data : Bytes) : Clean [.scan data (.ok .noMatch)] := by
  intro data' answer h
  cases List.mem_singleton.mp h
  rfl

theorem clean_convert (method : ConversionMethod) (candidate : Option Candidate) :
    Clean [.convert method candidate] := by
  intro data answer h
  cases List.mem_singleton.mp h

/-- Nothing follows a scan that did not come back clean. -/
theorem Stopped.last {events before after : List Event} {data : Bytes}
    {answer : Except InspectionFailure Verdict} (h : Stopped events)
    (he : events = before ++ .scan data answer :: after) (ha : answer ≠ .ok .noMatch) :
    after = [] ∧ ¬Clean events := by
  have hdirty : ¬Clean events := fun hc => ha (hc data answer (by simp [he]))
  refine ⟨?_,hdirty⟩
  rcases h with hclean | ⟨start,data',answer',he',hclean,_⟩
  · exact absurd hclean hdirty
  · -- a longer tail would put the unclean scan among the clean ones before the end
    rcases List.eq_nil_or_concat after with hnil | ⟨tail,last,rfl⟩
    · exact hnil
    · have hends : start ++ [.scan data' answer'] =
          (before ++ .scan data answer :: tail) ++ [last] := by simpa using he'.symm.trans he
      have hsplit := (List.append_inj' hends rfl).1
      exact absurd (hclean data answer (by simp [hsplit])) ha

/-- Asked for the inputs in turn, the scanner has named no rule. -/
def Unflagged (scanner : Scanner) (inputs : List Bytes) : Prop :=
  ∀ (i : ℕ) (h : i < inputs.length), scanner i inputs[i] = .ok []

theorem Unflagged.concat {scanner : Scanner} {inputs : List Bytes} {data : Bytes}
    (h : Unflagged scanner inputs) (hdata : scanner inputs.length data = .ok []) :
    Unflagged scanner (inputs ++ [data]) := by
  intro i hi
  rcases Nat.lt_or_ge i inputs.length with hlt | hge
  · rw [List.getElem_append_left hlt]
    exact h i hlt
  · obtain rfl : i = inputs.length := by
      rw [List.length_append,List.length_singleton] at hi
      omega
    rw [List.getElem_concat_length rfl]
    exact hdata

/-- The record is clean, holds the required inputs, and accounts for the budget and for what the
scanner was asked. -/
structure Covered (scanner : Scanner) (required : List Bytes) (s : Inspection) : Prop where
  clean : Clean s.events
  seen : ∀ data ∈ required, data ∈ scanned s.events
  spent : s.detector.remainingBytes + ((scanned s.events).map List.length).sum = maxScanInputBytes
  asked : s.detector.scanner = scanner ∧ s.detector.scans = (scanned s.events).length
  unflagged : Unflagged scanner (scanned s.events)

theorem Covered.congr {scanner : Scanner} {required : List Bytes} {s t : Inspection}
    (h : Covered scanner required s) (hevents : t.events = s.events)
    (hdetector : t.detector = s.detector) : Covered scanner required t where
  clean := hevents ▸ h.clean
  seen := hevents ▸ h.seen
  spent := by rw [hevents,hdetector]; exact h.spent
  asked := by rw [hevents,hdetector]; exact h.asked
  unflagged := hevents ▸ h.unflagged

theorem Covered.mono {scanner : Scanner} {required fewer : List Bytes} {s : Inspection}
    (h : Covered scanner required s) (hsub : ∀ data ∈ fewer, data ∈ required) :
    Covered scanner fewer s :=
  { h with seen := fun data hd => h.seen data (hsub data hd) }

theorem covered_new (bundle : RuleBundle) (clock : ℕ → ℕ) (deadline : ℕ) :
    Covered bundle.rules [] (.new bundle.detector clock deadline) where
  clean := fun _ _ hmem => absurd hmem List.not_mem_nil
  seen := fun _ hmem => absurd hmem List.not_mem_nil
  spent := by simp [Inspection.new,scanned,RuleBundle.detector]
  asked := ⟨rfl,rfl⟩
  unflagged := fun _ hi => absurd hi (Nat.not_lt_zero _)

/-- A stop that leaves the record clean. -/
abbrev Halts (_ : Stop) (s : Inspection) : Prop := Stopped s.events

section Steps
variable {scanner : Scanner} {required : List Bytes}

theorem scan_spec (data : Bytes) :
    Triple (Covered scanner required) (scan data)
      (fun _ s => Covered scanner (data :: required) s ∧ (scanned s.events).getLast? = some data)
      Halts := by
  refine ⟨fun s hs => ?_⟩
  unfold scan
  rcases hd : Detector.scan data s.detector with ⟨answer,detector⟩
  have halted (h : answer ≠ .ok .noMatch) : Stopped (s.events ++ [.scan data answer]) :=
    .inr ⟨s.events,data,answer,rfl,hs.clean,h⟩
  cases answer with
  | error failure => exact halted (by simp)
  | ok verdict =>
    cases verdict with
    | «match» rules => exact halted (by simp)
    | noMatch =>
      obtain ⟨_,hanswer,hafter⟩ := Detector.scan_eq_noMatch.mp hd
      refine ⟨⟨hs.clean.append (clean_scan data),?_,?_,?_,?_⟩,by simp⟩
      · intro data' hdata
        rcases List.mem_cons.mp hdata with rfl | hdata
        · simp
        · simp [hs.seen data' hdata]
      · have hspent := Detector.scan_noMatch hd
        have htotal := hs.spent
        simp only [scanned_append,scanned_scan,List.map_append,List.map_cons,List.map_nil,
          List.sum_append,List.sum_cons,List.sum_nil]
        omega
      · simp [hafter,Detector.spent,hs.asked.1,hs.asked.2]
      · rw [hs.asked.1,hs.asked.2] at hanswer
        rw [scanned_append,scanned_scan]
        exact hs.unflagged.concat hanswer

theorem checkDeadline_spec (status : InspectionStatus) :
    Triple (Covered scanner required) (checkDeadline status) (fun _ => Covered scanner required) Halts := by
  refine ⟨fun s hs => ?_⟩
  by_cases hlate : s.clock s.readings ≥ s.deadline
  · have hrun : checkDeadline status s = (.error ⟨.deadlineExceeded,status,[]⟩,s.elapsed.2) :=
      if_pos hlate
    rw [hrun]
    exact .inl hs.clean
  · have hrun : checkDeadline status s = (.ok (),s.elapsed.2) := if_neg hlate
    rw [hrun]
    exact hs.congr rfl rfl

theorem runConverter_spec (converter : Converter) (text : String) (format : Format) :
    Triple (Covered scanner required) (runConverter converter text format)
      (fun _ => Covered scanner required) Halts := by
  refine ⟨fun s hs => ?_⟩
  refine ⟨hs.clean.append (clean_convert _ _),?_,?_,?_,?_⟩
  · intro data hd
    simp [hs.seen data hd]
  · simpa using hs.spent
  · simpa using hs.asked
  · simpa using hs.unflagged

/-- Scan one more input on the way, forgetting where the record ends. -/
theorem scan_then {β : Type} {data : Bytes} {m : Session β} {Q : β → Inspection → Prop}
    (h : Triple (Covered scanner (data :: required)) m Q Halts) :
    Triple (Covered scanner required) (scan data >>= fun _ => m) Q Halts :=
  Triple.bind (scan_spec data) (fun _ => h.consequence (fun _ hs => hs.1)
    (fun _ _ hq => hq) (fun _ _ he => he))

theorem lift_spec {α : Type} (r : Except Stop α) :
    Triple (Covered scanner required) (lift r) (fun a s => r = .ok a ∧ Covered scanner required s) Halts :=
  Triple.lift (fun _ ha _ hs => ⟨ha,hs⟩) (fun _ _ _ hs => .inl hs.clean)

end Steps

section Stages
variable {engine : Engine} {scanner : Scanner}

theorem openHanded_spec (handed : Handed) :
    Triple (Covered scanner []) (Received.openHanded handed)
      (fun received s => (handed = .fetched received.artifact received.body ∧
        supportedMedia received.artifact = .ok received.media) ∧ Covered scanner [] s) Halts := by
  cases handed with
  | failed code => exact Triple.raise _ (fun _ hs => .inl hs.clean)
  | fetched artifact body =>
    refine Triple.bind (M := fun _ => Covered scanner []) (Triple.modify _ (fun _ hs => hs.congr rfl rfl)) ?_
    intro _
    refine Triple.bind (lift_spec (supportedMedia artifact)) ?_
    intro media
    exact Triple.return _ (fun _ hs => ⟨⟨rfl,hs.1⟩,hs.2⟩)

/-- The text of a response is what its body decodes to under its own headers. -/
def DecodesTo (engine : Engine) (artifact : FetchArtifact) (media : MediaType) (body : Bytes)
    (text : String) : Prop :=
  ∃ bytes, decodeContentEncoding engine.codecs body artifact.contentEncoding = .ok bytes ∧
    decodeCharset engine.codecs bytes media = .ok text

theorem scanWire_spec (received : Received) :
    Triple (Covered scanner []) (received.scanWire engine)
      (fun decoded s => (decoded.artifact = received.artifact ∧ decoded.media = received.media ∧
        DecodesTo engine received.artifact received.media received.body decoded.text) ∧
        Covered scanner [asBytes received.media.headerValue,asBytes received.artifact.finalUrl,
          received.body] s) Halts := by
  unfold Received.scanWire
  refine Triple.bind (checkDeadline_spec .notRun) ?_
  intro _
  refine scan_then ?_
  refine scan_then ?_
  refine scan_then ?_
  refine Triple.bind (lift_spec _) ?_
  intro bytes
  refine Triple.of_fact (fun hbytes => ?_)
  refine Triple.bind (lift_spec _) ?_
  intro text
  refine Triple.of_fact (fun htext => ?_)
  refine Triple.bind (M := fun _ => Covered scanner _) (Triple.modify _ (fun _ hs => hs.congr rfl rfl)) ?_
  intro _
  exact Triple.return _ (fun _ hs =>
    ⟨⟨rfl,rfl,bytes,mapError_eq_ok.mp hbytes,mapError_eq_ok.mp htext⟩,hs⟩)

theorem scanText_spec {required : List Bytes} (decoded : Decoded) :
    Triple (Covered scanner required) decoded.scanText
      (fun normalized s => normalized = ⟨decoded.artifact,decoded.media,decoded.text⟩ ∧
        Covered scanner (asBytes (deobfuscate (decodeEntities decoded.text)) ::
          asBytes (decodeEntities decoded.text) :: asBytes decoded.text :: required) s) Halts := by
  unfold Decoded.scanText
  refine Triple.bind (checkDeadline_spec .failed) ?_
  intro _
  dsimp only
  refine scan_then ?_
  refine scan_then ?_
  refine scan_then ?_
  exact Triple.return _ (fun _ hs => ⟨rfl,hs⟩)

/-- The scanned content of the candidate that is kept in case nothing better appears. -/
def kept : Option Candidate → List Bytes
  | none => []
  | some candidate => [asBytes candidate.content]

/-- Induction on the chain: whatever candidate comes out of it has itself been scanned. -/
theorem convertChain_spec {required : List Bytes} (text : String) (format : Format)
    (signals : SourceSignals) (chain : List Converter) (fallback : Option Candidate) :
    Triple (Covered scanner (kept fallback ++ required))
      (convertChain engine text format signals chain fallback)
      (fun candidate => Covered scanner (asBytes candidate.content :: required)) Halts := by
  induction chain generalizing fallback with
  | nil =>
    cases fallback with
    | none => exact Triple.raise _ (fun _ hs => .inl hs.clean)
    | some candidate => exact Triple.return _ (fun _ hs => hs)
  | cons converter chain ih =>
    unfold convertChain
    refine Triple.bind (checkDeadline_spec .failed) ?_
    intro _
    refine Triple.bind (runConverter_spec converter text format) ?_
    intro candidate
    cases candidate with
    | none => exact ih fallback
    | some candidate =>
      refine scan_then ?_
      -- the scan has widened what is covered, and each way on needs a part of it
      split_ifs
      · exact Triple.return _ (fun _ hs => hs.mono (by simp +contextual))
      · exact (ih (some candidate)).consequence
          (fun _ hs => hs.mono (by simp +contextual [kept])) (fun _ _ h => h) (fun _ _ h => h)
      · exact (ih fallback).consequence
          (fun _ hs => hs.mono (by simp +contextual)) (fun _ _ h => h) (fun _ _ h => h)

theorem inspected_spec {required : List Bytes} (normalized : Normalized)
    (method : ConversionMethod) :
    Triple (Covered scanner required) (normalized.inspected method)
      (fun inspected s => (inspected.artifact = normalized.artifact ∧
        inspected.media = normalized.media) ∧
        Covered scanner (asBytes inspected.candidate.content :: required) s) Halts :=
  scan_then (Triple.return _ (fun _ hs => ⟨⟨rfl,rfl⟩,hs⟩))

/-- All three routes deliver content that has itself been scanned. -/
theorem convert_spec {required : List Bytes} (chain : List Converter) (normalized : Normalized) :
    Triple (Covered scanner required) (normalized.convert engine chain)
      (fun inspected s => (inspected.artifact = normalized.artifact ∧
        inspected.media = normalized.media) ∧
        Covered scanner (asBytes inspected.candidate.content :: required) s) Halts := by
  unfold Normalized.convert
  split_ifs
  · exact inspected_spec normalized .source
  · exact inspected_spec normalized .passthrough
  · refine Triple.bind (convertChain_spec normalized.text normalized.artifact.format
      (.of normalized.text) chain none) ?_
    intro candidate
    exact Triple.return _ (fun _ hs => ⟨⟨rfl,rfl⟩,hs⟩)

/-- The last scan of a release is over the combined fields of the data. -/
theorem release_spec {required : List Bytes} (inspected : Inspected) :
    Triple (Covered scanner required) (inspected.release engine)
      (fun d s => (d.finalUrl = inspected.artifact.finalUrl ∧
        d.contentType = inspected.media.headerValue ∧ d.content = inspected.candidate.content) ∧
        Covered scanner required s ∧ (scanned s.events).getLast? = some (asBytes (combined d))) Halts := by
  unfold Inspected.release
  refine Triple.bind (M := fun _ => Covered scanner required)
    (Triple.raiseIf _ _ (fun _ _ hs => hs) (fun _ _ hs => .inl hs.clean)) ?_
  intro _
  refine Triple.bind (lift_spec _) ?_
  intro retrievedAt
  refine Triple.of_fact (fun _ => ?_)
  dsimp only
  refine Triple.bind (checkDeadline_spec .failed) ?_
  intro _
  refine Triple.bind (scan_spec _) ?_
  intro _
  refine Triple.bind (M := fun _ s => Covered scanner required s ∧ (scanned s.events).getLast? = some _)
    (Triple.modify _ (fun s hs => ⟨(hs.1.mono ?_).congr rfl rfl,hs.2⟩)) ?_
  · exact fun data hd => List.mem_cons_of_mem _ hd
  · intro _
    exact Triple.return _ (fun _ hs => ⟨⟨rfl,rfl,rfl⟩,hs⟩)

/-- What the scanner has seen of a response that is released as `d`. -/
structure Passed (engine : Engine) (scanner : Scanner) (artifact : FetchArtifact)
    (media : MediaType) (body : Bytes) (text : String) (d : WebFetchData) (events : List Event) : Prop where
  finalUrl : d.finalUrl = artifact.finalUrl
  contentType : d.contentType = media.headerValue
  supported : supportedMedia artifact = .ok media
  decoded : DecodesTo engine artifact media body text
  /-- Every form of the response the caller depends on was handed to the detector. -/
  required : ∀ data ∈ [body,asBytes artifact.finalUrl,asBytes d.contentType,asBytes text,
    asBytes (decodeEntities text),asBytes (deobfuscate (decodeEntities text)),asBytes d.content],
    data ∈ scanned events
  /-- The last input is built from the fields the caller receives. -/
  last : (scanned events).getLast? = some (asBytes (combined d))
  clean : Clean events
  unflagged : Unflagged scanner (scanned events)
  budget : ((scanned events).map List.length).sum ≤ maxScanInputBytes

/-- The data of the pipeline comes from one fetched response all of whose forms passed. -/
def ReleasedFrom (engine : Engine) (scanner : Scanner) (read : Except ContractError Handed)
    (d : WebFetchData) (events : List Event) : Prop :=
  ∃ artifact media body text, read = .ok (.fetched artifact body) ∧
    Passed engine scanner artifact media body text d events

theorem pipeline_spec (engine : Engine) (scanner : Scanner) (chain : List Converter)
    (read : Except ContractError Handed) :
    Triple (Covered scanner []) (pipeline engine chain read)
      (fun d s => ReleasedFrom engine scanner read d s.events) Halts := by
  unfold pipeline
  refine Triple.bind (lift_spec _) ?_
  intro handed
  refine Triple.of_fact (fun hread => ?_)
  refine Triple.bind (openHanded_spec handed) ?_
  intro received
  refine Triple.of_fact (fun ⟨hhanded,hmedia⟩ => ?_)
  refine Triple.bind (scanWire_spec received) ?_
  intro decoded
  refine Triple.of_fact (fun ⟨hartifact,hmedia',hdecoded⟩ => ?_)
  refine Triple.bind (scanText_spec decoded) ?_
  intro normalized
  refine Triple.of_fact (fun hnormalized => ?_)
  subst hnormalized
  refine Triple.bind (convert_spec chain _) ?_
  intro inspected
  refine Triple.of_fact (fun ⟨hartifact',hmedia''⟩ => ?_)
  refine (release_spec inspected).consequence (fun _ hs => hs) ?_ (fun _ _ he => he)
  rintro d s ⟨⟨hurl,htype,hcontent⟩,hcovered,hlast⟩
  dsimp only at hartifact' hmedia''
  rw [hartifact',hartifact] at hurl
  rw [hmedia'',hmedia'] at htype
  have hok := mapError_eq_ok.mp hread
  rw [hhanded] at hok
  have hspent := hcovered.spent
  refine ⟨received.artifact,received.media,received.body,decoded.text,hok,
    hurl,htype,hmedia,hdecoded,?_,hlast,hcovered.clean,hcovered.unflagged,by omega⟩
  intro data hdata
  apply hcovered.seen
  rw [htype,hcontent] at hdata
  simp only [List.mem_cons,List.not_mem_nil,or_false] at hdata ⊢
  rcases hdata with h | h | h | h | h | h | h <;> simp only [h,true_or,or_true]

end Stages

section Gate
variable (engine : Engine) (inspector : Inspector) (chain : List Converter) (clock : ℕ → ℕ)
  (runId : String) (read : Except ContractError Handed)

structure ReleaseGate (envelope : Envelope WebFetchData) (events : List Event) : Prop where
  valid : envelope.validate (webFetchPayload engine.urls engine.times) = .ok ()
  /-- Released data comes from a clean record that names every form of the response. -/
  released : envelope.status = .ok →
    ∃ d, envelope.data = some d ∧ ReleasedFrom engine inspector.bundle.rules read d events
  /-- The first scan that is not clean is the last call of the run. -/
  stopped : ∀ before data answer after, events = before ++ .scan data answer :: after →
    answer ≠ .ok .noMatch → after = [] ∧ envelope.data = none

theorem inspect_releaseGate :
    ReleaseGate engine inspector read (inspector.inspect engine chain clock runId read).1.envelope
      (inspector.inspect engine chain clock runId read).2.events := by
  have hstart := covered_new inspector.bundle clock inspector.deadline
  have hspec := pipeline_spec engine inspector.bundle.rules chain read
  dsimp only [Inspector.inspect]
  rcases hrun : pipeline engine chain read
    (.new inspector.bundle.detector clock inspector.deadline) with ⟨result,session⟩
  obtain ⟨hvalid,hok,herror⟩ :=
    inspector.report_envelope engine result (inspector.audit runId session).1
  refine ⟨hvalid,?_,?_⟩
  · intro hstatus
    obtain ⟨d,hresult,hdata⟩ := hok hstatus
    subst hresult
    have hreleased : ReleasedFrom engine inspector.bundle.rules read d session.events := hspec.ok hstart hrun
    exact ⟨d,hdata,hreleased⟩
  · intro before data answer after hevents hanswer
    cases result with
    | ok d =>
      obtain ⟨_,_,_,_,_,hpassed⟩ := hspec.ok hstart hrun
      have hmem : Event.scan data answer ∈ session.events := by
        rw [show session.events = _ from hevents]
        simp
      exact absurd (hpassed.clean data answer hmem) hanswer
    | error stop =>
      exact ⟨((hspec.error hstart hrun).last hevents hanswer).1,herror stop rfl⟩

end Gate
end HearthAI.Inspect
