import HearthAI.Core.Script
import HearthAI.Inspect.Pipeline

/-! # What a response has to get past to be released

Read without its side effects, the pipeline is a script: the readings of the clock and
the scans that have to pass, and the data that is then released.
-/
namespace HearthAI.Inspect
open Text Contracts

inductive Check
  /-- The deadline has not been reached. -/
  | deadline
  /-- The scan comes back without a match. -/
  | scan (data : Bytes)

/-- The part of a session that the checks read and spend. -/
structure Meter where
  detector : Detector
  clock : ℕ → ℕ
  readings : ℕ
  deadline : ℕ

def Inspection.meter (inspection : Inspection) : Meter :=
  ⟨inspection.detector,inspection.clock,inspection.readings,inspection.deadline⟩

def Check.Passes (meter : Meter) : Check → Prop
  | .deadline => meter.clock meter.readings < meter.deadline
  | .scan data => (Detector.scan data meter.detector).1 = .ok .noMatch

def Check.spend (meter : Meter) : Check → Meter
  | .deadline => { meter with readings := meter.readings + 1 }
  | .scan data => { meter with detector := (Detector.scan data meter.detector).2 }

def allowance : Gauge Check Meter := ⟨Check.Passes,Check.spend⟩

def Received.script : Handed → Script Check Received
  | .failed _ => .stop
  | .fetched artifact body => do
    let media ← Script.ofExcept (supportedMedia artifact)
    return ⟨artifact,media,body⟩

/-- The passes over what arrived. -/
def Received.wireChecks (received : Received) : List Check :=
  [.deadline,.scan received.body,.scan (asBytes received.artifact.finalUrl),
    .scan (asBytes received.media.headerValue)]

/-- The text of a response, as its headers say it is to be read. -/
def Received.decode (engine : Engine) (received : Received) : Except ErrorCode String := do
  let decodedBytes ←
    decodeContentEncoding engine.codecs received.body received.artifact.contentEncoding
  decodeCharset engine.codecs decodedBytes received.media

def Decoded.script (engine : Engine) (received : Received) : Script Check Decoded := do
  .reach received.wireChecks ()
  let text ← Script.ofExcept (received.decode engine)
  return ⟨received.artifact,received.media,text⟩

def Normalized.script (decoded : Decoded) : Script Check Normalized := do
  Script.check .deadline
  Script.check (.scan (asBytes decoded.text))
  Script.check (.scan (asBytes (decodeEntities decoded.text)))
  Script.check (.scan (asBytes (deobfuscate (decodeEntities decoded.text))))
  return ⟨decoded.artifact,decoded.media,decoded.text⟩

/-- The candidate that a chain of converters settles on. -/
def chainScript (engine : Engine) (text : String) (format : Format) (signals : SourceSignals) :
    List Converter → Option Candidate → Script Check Candidate
  | [], fallback =>
    match fallback with
    | some candidate => pure candidate
    | none => .stop
  | converter :: chain, fallback => do
    Script.check .deadline
    match converter.convert text format with
    | none => chainScript engine text format signals chain fallback
    | some candidate =>
      Script.check (.scan (asBytes candidate.content))
      if quality engine.isAlphanumeric candidate format signals = .usable then return candidate
      else if fallback.isNone && !(trim candidate.content).isEmpty then
        chainScript engine text format signals chain (some candidate)
      else chainScript engine text format signals chain fallback

/-- Content that skips conversion. -/
def Normalized.inspectedScript (normalized : Normalized) (method : ConversionMethod) :
    Script Check Inspected := do
  Script.check (.scan (asBytes normalized.text))
  return ⟨normalized.artifact,normalized.media,⟨normalized.text,method⟩⟩

def Inspected.script (engine : Engine) (chain : List Converter) (normalized : Normalized) :
    Script Check Inspected :=
  if normalized.artifact.format = .html then normalized.inspectedScript .source
  else if !normalized.media.isHtml then normalized.inspectedScript .passthrough
  else do
    let candidate ← chainScript engine normalized.text normalized.artifact.format
      (.of normalized.text) chain none
    return ⟨normalized.artifact,normalized.media,candidate⟩

/-- The fields of a released result. -/
def Inspected.data (inspected : Inspected) (retrievedAt : String) : WebFetchData where
  sourceId := inspected.artifact.sourceId
  finalUrl := inspected.artifact.finalUrl
  httpStatus := inspected.artifact.httpStatus
  contentType := inspected.media.headerValue
  retrievedAt := retrievedAt
  format := inspected.artifact.format
  conversionMethod := inspected.candidate.method
  content := inspected.candidate.content

def Inspected.releaseScript (engine : Engine) (inspected : Inspected) : Script Check WebFetchData :=
  if inspected.candidate.content.length > maxContentChars then .stop
  else do
    let retrievedAt ← Script.ofExcept (reformatted engine inspected.artifact.retrievedAt)
    Script.check .deadline
    Script.check (.scan (asBytes (combined (inspected.data retrievedAt))))
    return inspected.data retrievedAt

/-- What a handoff has to get past, and the data that is then released. -/
def clearance (engine : Engine) (chain : List Converter) (read : Except ContractError Handed) :
    Script Check WebFetchData := do
  let handed ← Script.ofExcept read
  let received ← Received.script handed
  let decoded ← Decoded.script engine received
  let normalized ← Normalized.script decoded
  let inspected ← Inspected.script engine chain normalized
  inspected.releaseScript engine

/-- The session returns what the script reaches. -/
abbrev Clears {α : Type} (m : Session α) (script : Script Check α) : Prop :=
  Follows allowance Inspection.meter m script

section
variable {engine : Engine}

theorem scan_run (data : Bytes) (s : Inspection) :
    ∃ t : Inspection, t.meter = Check.spend s.meter (.scan data) ∧
      scan data s = match (Detector.scan data s.detector).1 with
        | .error failure => (.error (.ofFailure failure),t)
        | .ok .noMatch => (.ok (),t)
        | .ok (.match rules) => (.error (.rejected rules),t) := by
  unfold scan
  rcases hd : Detector.scan data s.detector with ⟨answer,detector⟩
  refine ⟨{ s with detector := detector, events := s.events ++ [.scan data answer] },?_,rfl⟩
  show Meter.mk detector s.clock s.readings s.deadline = _
  rw [Check.spend,show s.meter.detector = s.detector from rfl,hd]
  rfl

theorem scan_clears (data : Bytes) : Clears (scan data) (Script.check (.scan data)) := by
  refine Follows.check (fun s hpass => ?_) (fun s t hrun => ?_)
  · obtain ⟨t,_,hscan⟩ := scan_run data s
    rw [show (Detector.scan data s.detector).1 = .ok .noMatch from hpass] at hscan
    exact ⟨t,hscan⟩
  · obtain ⟨t',hmeter,hscan⟩ := scan_run data s
    rw [hscan] at hrun
    show (Detector.scan data s.detector).1 = .ok .noMatch ∧ _
    rcases hd : (Detector.scan data s.detector).1 with failure | _ | rules
    · simp [hd] at hrun
    · simp only [hd,Prod.mk.injEq,true_and] at hrun
      exact ⟨rfl,by rw [← hrun,hmeter]; rfl⟩
    · simp [hd] at hrun

theorem checkDeadline_clears (status : InspectionStatus) :
    Clears (checkDeadline status) (Script.check .deadline) := by
  have hcases : ∀ s : Inspection, checkDeadline status s =
      if s.clock s.readings ≥ s.deadline then (.error ⟨.deadlineExceeded,status,[]⟩,s.elapsed.2)
      else (.ok (),s.elapsed.2) := fun s => rfl
  refine Follows.check (fun s hpass => ?_) (fun s t hrun => ?_)
  · have hearly : ¬s.clock s.readings ≥ s.deadline := Nat.not_le.mpr hpass
    exact ⟨s.elapsed.2,by rw [hcases,if_neg hearly]⟩
  · rw [hcases] at hrun
    split_ifs at hrun with hlate
    · cases (Prod.mk.inj hrun).1
    · refine ⟨Nat.not_le.mp hlate,?_⟩
      rw [← (Prod.mk.inj hrun).2]
      rfl

/-- The record is not checked. -/
theorem recordTelemetry_then {α : Type} {f : Telemetry → Telemetry} {m : Session α}
    {script : Script Check α} (h : Clears m script) :
    Clears (recordTelemetry f >>= fun _ => m) script :=
  Follows.silent_bind (fun _ => rfl) (fun _ => rfl) h

theorem runConverter_then {α : Type} {converter : Converter} {text : String} {format : Format}
    {f : Option Candidate → Session α} {script : Script Check α}
    (h : Clears (f (converter.convert text format)) script) :
    Clears (runConverter converter text format >>= f) script :=
  Follows.silent_bind (fun _ => rfl) (fun _ => rfl) h

theorem openHanded_clears (handed : Handed) :
    Clears (Received.openHanded handed) (Received.script handed) := by
  cases handed with
  | failed code => exact Follows.raise _
  | fetched artifact body =>
    refine recordTelemetry_then ?_
    exact Follows.bind (Follows.lift _) fun media => Follows.return _

/-- The script of the wire passes, one check after the other. -/
theorem decoded_script (received : Received) : Decoded.script engine received = (do
    Script.check .deadline
    Script.check (.scan received.body)
    Script.check (.scan (asBytes received.artifact.finalUrl))
    Script.check (.scan (asBytes received.media.headerValue))
    let decodedBytes ← Script.ofExcept
      (decodeContentEncoding engine.codecs received.body received.artifact.contentEncoding)
    let text ← Script.ofExcept (decodeCharset engine.codecs decodedBytes received.media)
    return ⟨received.artifact,received.media,text⟩) := by
  unfold Decoded.script Received.decode
  cases decodeContentEncoding engine.codecs received.body received.artifact.contentEncoding with
  | error code => rfl
  | ok bytes =>
    have hdecode : ((Except.ok bytes : Except ErrorCode Bytes) >>= fun decodedBytes =>
      decodeCharset engine.codecs decodedBytes received.media) =
        decodeCharset engine.codecs bytes received.media := rfl
    rw [hdecode]
    cases hcharset : decodeCharset engine.codecs bytes received.media with
    | error code => simp [Bind.bind,Script.bind,Script.check,Script.ofExcept,hcharset]
    | ok text =>
      simp [Bind.bind,Script.bind,Script.check,Script.ofExcept,hcharset,Pure.pure,
        Received.wireChecks]

theorem scanWire_clears (received : Received) :
    Clears (received.scanWire engine) (Decoded.script engine received) := by
  rw [decoded_script]
  unfold Received.scanWire
  refine Follows.bind (checkDeadline_clears _) fun _ => ?_
  refine Follows.bind (scan_clears _) fun _ => ?_
  refine Follows.bind (scan_clears _) fun _ => ?_
  refine Follows.bind (scan_clears _) fun _ => ?_
  refine Follows.bind (Follows.lift_mapError _ _) fun bytes => ?_
  refine Follows.bind (Follows.lift_mapError _ _) fun text => ?_
  exact recordTelemetry_then (Follows.return _)

theorem scanText_clears (decoded : Decoded) :
    Clears decoded.scanText (Normalized.script decoded) := by
  unfold Decoded.scanText Normalized.script
  refine Follows.bind (checkDeadline_clears _) fun _ => ?_
  refine Follows.bind (scan_clears _) fun _ => ?_
  refine Follows.bind (scan_clears _) fun _ => ?_
  exact Follows.bind (scan_clears _) fun _ => Follows.return _

/-- Induction on the chain. -/
theorem convertChain_clears (text : String) (format : Format) (signals : SourceSignals)
    (chain : List Converter) (fallback : Option Candidate) :
    Clears (convertChain engine text format signals chain fallback)
      (chainScript engine text format signals chain fallback) := by
  induction chain generalizing fallback with
  | nil =>
    cases fallback with
    | none => exact Follows.raise _
    | some candidate => exact Follows.return _
  | cons converter chain ih =>
    unfold convertChain chainScript
    refine Follows.bind (checkDeadline_clears _) fun _ => ?_
    refine runConverter_then ?_
    cases converter.convert text format with
    | none => exact ih fallback
    | some candidate =>
      refine Follows.bind (scan_clears _) fun _ => ?_
      split_ifs
      · exact Follows.return _
      · exact ih (some candidate)
      · exact ih fallback

theorem inspected_clears (normalized : Normalized) (method : ConversionMethod) :
    Clears (normalized.inspected method) (normalized.inspectedScript method) :=
  Follows.bind (scan_clears _) fun _ => Follows.return _

theorem convert_clears (chain : List Converter) (normalized : Normalized) :
    Clears (normalized.convert engine chain) (Inspected.script engine chain normalized) := by
  unfold Normalized.convert Inspected.script
  split_ifs
  · exact inspected_clears normalized .source
  · exact inspected_clears normalized .passthrough
  · exact Follows.bind (convertChain_clears _ _ _ _ _) fun candidate => Follows.return _

theorem release_clears (inspected : Inspected) :
    Clears (inspected.release engine) (inspected.releaseScript engine) := by
  unfold Inspected.release Inspected.releaseScript
  refine Follows.raiseIf_bind ?_
  refine Follows.bind (Follows.lift _) fun retrievedAt => ?_
  refine Follows.bind (checkDeadline_clears _) fun _ => ?_
  refine Follows.bind (scan_clears _) fun _ => ?_
  exact recordTelemetry_then (Follows.return _)

theorem pipeline_clears (chain : List Converter) (read : Except ContractError Handed) :
    Clears (pipeline engine chain read) (clearance engine chain read) := by
  unfold pipeline clearance
  refine Follows.bind (Follows.lift_mapError _ _) fun handed => ?_
  refine Follows.bind (openHanded_clears handed) fun received => ?_
  refine Follows.bind (scanWire_clears received) fun decoded => ?_
  refine Follows.bind (scanText_clears decoded) fun normalized => ?_
  exact Follows.bind (convert_clears chain normalized) fun inspected => release_clears inspected

end
end HearthAI.Inspect
