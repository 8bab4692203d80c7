import HearthAI.Inspect.Pipeline

/-! # The digest by which an audit line is found again -/
namespace HearthAI.Inspect
open Text Contracts Effect

/-- The session knows the digest of the requested URL. -/
def Tagged (digest : String) (s : Inspection) : Prop :=
  s.telemetry.requestedUrlSha256 = some digest

/-- Whatever way the computation ends, the session still knows the digest. -/
abbrev KeepsTag {α : Type} (digest : String) (m : Session α) : Prop :=
  Triple (Tagged digest) m (fun _ => Tagged digest) (fun _ => Tagged digest)

section
variable {digest : String} {engine : Engine}

theorem return_keepsTag {α : Type} (a : α) : KeepsTag digest (pure a : Session α) :=
  Triple.return _ fun _ hs => hs

theorem raise_keepsTag {α : Type} (stop : Stop) : KeepsTag digest (raise stop : Session α) :=
  Triple.raise _ fun _ hs => hs

theorem lift_keepsTag {α : Type} (r : Except Stop α) : KeepsTag digest (lift r : Session α) :=
  Triple.lift (fun _ _ _ hs => hs) fun _ _ _ hs => hs

theorem recordTelemetry_keepsTag {f : Telemetry → Telemetry}
    (h : ∀ telemetry, (f telemetry).requestedUrlSha256 = telemetry.requestedUrlSha256) :
    KeepsTag digest (recordTelemetry f) :=
  Triple.modify _ fun s hs => (h s.telemetry).trans hs

theorem scan_keepsTag (data : Bytes) : KeepsTag digest (scan data) := by
  refine ⟨fun s hs => ?_⟩
  unfold scan
  rcases Detector.scan data s.detector with ⟨answer,detector⟩
  rcases answer with failure | _ | rules <;> exact hs

theorem checkDeadline_keepsTag (status : InspectionStatus) :
    KeepsTag digest (checkDeadline status) := by
  refine ⟨fun s hs => ?_⟩
  by_cases hlate : s.clock s.readings ≥ s.deadline
  · have hrun : checkDeadline status s = (.error ⟨.deadlineExceeded,status,[]⟩,s.elapsed.2) :=
      if_pos hlate
    rw [hrun]
    exact hs
  · have hrun : checkDeadline status s = (.ok (),s.elapsed.2) := if_neg hlate
    rw [hrun]
    exact hs

theorem runConverter_keepsTag (converter : Converter) (text : String) (format : Format) :
    KeepsTag digest (runConverter converter text format) := ⟨fun _ hs => hs⟩

theorem scanWire_keepsTag (received : Received) : KeepsTag digest (received.scanWire engine) := by
  unfold Received.scanWire
  refine Triple.bind (checkDeadline_keepsTag _) fun _ => ?_
  refine Triple.bind (scan_keepsTag _) fun _ => ?_
  refine Triple.bind (scan_keepsTag _) fun _ => ?_
  refine Triple.bind (scan_keepsTag _) fun _ => ?_
  refine Triple.bind (lift_keepsTag _) fun decodedBytes => ?_
  refine Triple.bind (lift_keepsTag _) fun text => ?_
  exact Triple.bind (recordTelemetry_keepsTag fun _ => rfl) fun _ => return_keepsTag _

theorem scanText_keepsTag (decoded : Decoded) : KeepsTag digest decoded.scanText := by
  unfold Decoded.scanText
  refine Triple.bind (checkDeadline_keepsTag _) fun _ => ?_
  refine Triple.bind (scan_keepsTag _) fun _ => ?_
  refine Triple.bind (scan_keepsTag _) fun _ => ?_
  exact Triple.bind (scan_keepsTag _) fun _ => return_keepsTag _

/-- Induction on the chain. -/
theorem convertChain_keepsTag (text : String) (format : Format) (signals : SourceSignals)
    (chain : List Converter) (fallback : Option Candidate) :
    KeepsTag digest (convertChain engine text format signals chain fallback) := by
  induction chain generalizing fallback with
  | nil =>
    cases fallback with
    | none => exact raise_keepsTag _
    | some candidate => exact return_keepsTag _
  | cons converter chain ih =>
    unfold convertChain
    refine Triple.bind (checkDeadline_keepsTag _) fun _ => ?_
    refine Triple.bind (runConverter_keepsTag converter text format) fun candidate => ?_
    cases candidate with
    | none => exact ih fallback
    | some candidate =>
      refine Triple.bind (scan_keepsTag _) fun _ => ?_
      split_ifs
      · exact return_keepsTag _
      · exact ih (some candidate)
      · exact ih fallback

theorem convert_keepsTag (chain : List Converter) (normalized : Normalized) :
    KeepsTag digest (normalized.convert engine chain) := by
  unfold Normalized.convert
  split_ifs
  · exact Triple.bind (scan_keepsTag _) fun _ => return_keepsTag _
  · exact Triple.bind (scan_keepsTag _) fun _ => return_keepsTag _
  · exact Triple.bind (convertChain_keepsTag _ _ _ _ _) fun _ => return_keepsTag _

theorem release_keepsTag (inspected : Inspected) :
    KeepsTag digest (inspected.release engine) := by
  unfold Inspected.release
  refine Triple.bind (M := fun _ => Tagged digest) ?_ fun _ => ?_
  · exact Triple.raiseIf _ _ (fun _ _ hs => hs) fun _ _ hs => hs
  refine Triple.bind (lift_keepsTag _) fun retrievedAt => ?_
  refine Triple.bind (checkDeadline_keepsTag _) fun _ => ?_
  refine Triple.bind (scan_keepsTag _) fun _ => ?_
  exact Triple.bind (recordTelemetry_keepsTag fun _ => rfl) fun _ => return_keepsTag _

/-- A response tags the session it is inspected in, however the inspection ends. -/
theorem pipeline_tags (engine : Engine) (chain : List Converter) (artifact : FetchArtifact) (body : Bytes) :
    Triple (fun _ => True) (pipeline engine chain (.ok (.fetched artifact body)))
      (fun _ => Tagged artifact.requestedUrlSha256) (fun _ => Tagged artifact.requestedUrlSha256) := by
  have hopen : Triple (fun _ => True) (Received.openHanded (.fetched artifact body))
      (fun _ => Tagged artifact.requestedUrlSha256)
      (fun _ => Tagged artifact.requestedUrlSha256) := by
    unfold Received.openHanded
    refine Triple.bind (M := fun _ => Tagged artifact.requestedUrlSha256)
      (Triple.modify _ fun _ _ => rfl) fun _ => ?_
    exact Triple.bind (lift_keepsTag _) fun media => return_keepsTag _
  refine ⟨fun s hs => ?_⟩
  have hlift : (lift ((Except.ok (Handed.fetched artifact body)).mapError
      (fun _ : ContractError => Stop.notRun .internalError)) : Session Handed) s =
        (.ok (.fetched artifact body),s) := rfl
  unfold pipeline
  rw [bind_ok hlift]
  exact (Triple.bind hopen fun received => Triple.bind (scanWire_keepsTag received) fun decoded =>
    Triple.bind (scanText_keepsTag decoded) fun normalized =>
    Triple.bind (convert_keepsTag chain normalized) fun inspected =>
    release_keepsTag inspected).exits s hs

theorem report_requestedUrl (inspector : Inspector) (result : Except Stop WebFetchData)
    (audit : AuditRecord) : (inspector.report engine result audit).audit.requestedUrlSha256 =
      audit.requestedUrlSha256 := by
  unfold Inspector.report
  cases result with
  | error stop => rfl
  | ok data =>
    dsimp only
    split <;> rfl

/-- The audit line of a response carries the digest that the fetch stage has sealed. -/
theorem inspect_requestedUrl (inspector : Inspector) (chain : List Converter) (clock : ℕ → ℕ)
    (runId : String) (artifact : FetchArtifact) (body : Bytes) :
    (inspector.inspect engine chain clock runId (.ok (.fetched artifact body))).1.audit.requestedUrlSha256 =
      some artifact.requestedUrlSha256 := by
  have htagged := (pipeline_tags engine chain artifact body).exits
    (.new inspector.bundle.detector clock inspector.deadline) trivial
  unfold Inspector.inspect
  revert htagged
  generalize pipeline engine chain (.ok (.fetched artifact body))
    (.new inspector.bundle.detector clock inspector.deadline) = last
  rcases last with ⟨stop | data,t⟩ <;> intro htagged
  · exact (report_requestedUrl inspector _ _).trans htagged
  · exact (report_requestedUrl inspector _ _).trans htagged

end
end HearthAI.Inspect
