import HearthAI.Inspect.Session

/-! # The offline stage's entry point

The states of the session are walked through in order, and the outcome becomes
exactly one envelope and one bounded audit record.
-/
namespace HearthAI.Inspect
open Text Contracts

/-- The bounded record of one inspection. -/
structure AuditRecord where
  runId : String
  outcome : String
  code : Option ErrorCode
  policyId : String
  policyDigest : String
  matchedRules : List String
  httpStatus : Option ℕ
  redirects : Option ℕ
  requestedUrlSha256 : Option String
  wireBytes : Option ℕ
  decodedBytes : Option ℕ
  contentChars : Option ℕ
  conversionMethod : Option ConversionMethod
  scans : ℕ
  elapsedMs : ℕ
  deriving DecidableEq, Repr

structure Outcome where
  envelope : WebFetchEnvelope
  audit : AuditRecord

structure Inspector where
  bundle : RuleBundle
  deadline : ℕ

def Inspector.new (bundle : RuleBundle) : Inspector := ⟨bundle,inspectionDeadline⟩

def Inspector.withDeadline (inspector : Inspector) (deadline : ℕ) : Inspector :=
  { inspector with deadline := deadline }

/-- The whole pipeline, from what the handoff gave to the releasable data. -/
def pipeline (engine : Engine) (chain : List Converter) (read : Except ContractError Handed) :
    Session WebFetchData := do
  let handed ← Effect.lift (read.mapError (fun _ => Stop.notRun .internalError))
  let received ← Received.openHanded handed
  let decoded ← received.scanWire engine
  let normalized ← decoded.scanText
  let inspected ← normalized.convert engine chain
  inspected.release engine

namespace Inspector
variable (engine : Engine) (inspector : Inspector)

/-- The record of a run that has not been given an outcome yet. -/
def audit (runId : String) (inspection : Inspection) : AuditRecord × Inspection :=
  let (elapsed,after) := inspection.elapsed
  ({ runId := runId
     outcome := "error"
     code := none
     policyId := inspector.bundle.policyId
     policyDigest := inspector.bundle.policyDigest
     matchedRules := []
     httpStatus := inspection.telemetry.httpStatus
     redirects := inspection.telemetry.redirects
     requestedUrlSha256 := inspection.telemetry.requestedUrlSha256
     wireBytes := inspection.telemetry.wireBytes
     decodedBytes := inspection.telemetry.decodedBytes
     contentChars := inspection.telemetry.contentChars
     conversionMethod := inspection.telemetry.conversionMethod
     scans := inspection.detector.scans
     elapsedMs := elapsed / 1000000 },after)

/-- The envelope of last resort. -/
def internalErrorEnvelope : WebFetchEnvelope where
  envelopeVersion := envelopeVersion
  tool := "web_fetch"
  toolVersion := 1
  status := .error
  trust := .externalUntrusted
  inspection := .notRun
  data := none
  error := some (.new .internalError)

/-- `internal_error` with `not_run` is always a valid envelope: the `expect` in
`failure` is never reached. -/
theorem failure_internalError :
    Envelope.failure (webFetchPayload engine.urls engine.times) .internalError .notRun =
      .ok internalErrorEnvelope := rfl

/-- Fill the audit and build the failure, falling back to the envelope of last resort. -/
def failure (code : ErrorCode) (inspection : Contracts.Inspection) (audit : AuditRecord) :
    Outcome where
  envelope :=
    match Envelope.failure (webFetchPayload engine.urls engine.times) code inspection with
    | .ok envelope => envelope
    | .error _ => internalErrorEnvelope
  audit :=
    { audit with
      outcome := if code = .contentRejected then "rejected" else "error"
      code := some code
      contentChars := none
      conversionMethod := none }

/-- A failure validates and carries no data, whether or not the fallback was needed. -/
theorem failure_envelope (code : ErrorCode) (inspection : Contracts.Inspection)
    (audit : AuditRecord) :
    let envelope := (failure engine code inspection audit).envelope
    envelope.validate (webFetchPayload engine.urls engine.times) = .ok () ∧
      envelope.status ≠ .ok ∧ envelope.data = none := by
  dsimp only [failure]
  cases h : Envelope.failure (webFetchPayload engine.urls engine.times) code inspection with
  | ok envelope =>
    obtain ⟨hvalid,hstatus,hdata⟩ := Envelope.failure_spec h
    exact ⟨hvalid,by rw [hstatus]; exact code.status_ne_ok,hdata⟩
  | error e =>
    obtain ⟨hvalid,hstatus,hdata⟩ := Envelope.failure_spec (failure_internalError engine)
    exact ⟨hvalid,by rw [hstatus]; decide,hdata⟩

/-- How the result of the pipeline is reported. -/
def report (result : Except Stop WebFetchData) (audit : AuditRecord) : Outcome :=
  match result with
  | .ok data =>
    match Envelope.ok (webFetchPayload engine.urls engine.times) data inspector.bundle.policyId with
    | .ok envelope => ⟨envelope,{ audit with outcome := "ok" }⟩
    | .error _ => failure engine .internalError .notRun audit
  | .error stop =>
    let policyId := if stop.status = .notRun then none else some inspector.bundle.policyId
    failure engine stop.code ⟨stop.status,policyId⟩ { audit with matchedRules := stop.matched }

/-- An outcome validates, and it carries data exactly as its status says, namely the
data of the pipeline. -/
theorem report_envelope (result : Except Stop WebFetchData) (audit : AuditRecord) :
    let envelope := (inspector.report engine result audit).envelope
    envelope.validate (webFetchPayload engine.urls engine.times) = .ok () ∧
      (envelope.status = .ok → ∃ d, result = .ok d ∧ envelope.data = some d) ∧
      (∀ stop, result = .error stop → envelope.data = none) := by
  cases result with
  | error stop =>
    obtain ⟨hvalid,hstatus,hdata⟩ := failure_envelope engine stop.code
      ⟨stop.status,if stop.status = .notRun then none else some inspector.bundle.policyId⟩
      { audit with matchedRules := stop.matched }
    exact ⟨hvalid,fun h => absurd h hstatus,fun _ _ => hdata⟩
  | ok data =>
    dsimp only [report]
    cases h : Envelope.ok (webFetchPayload engine.urls engine.times) data
        inspector.bundle.policyId with
    | ok envelope =>
      obtain ⟨hvalid,_,hdata⟩ := Envelope.ok_spec h
      exact ⟨hvalid,fun _ => ⟨data,rfl,hdata⟩,fun _ he => nomatch he⟩
    | error e =>
      obtain ⟨hvalid,hstatus,_⟩ := failure_envelope engine .internalError .notRun audit
      exact ⟨hvalid,fun h => absurd h hstatus,fun _ he => nomatch he⟩

/-- Inspect one run's handoff: the outcome, and the session that led to it. -/
def inspect (chain : List Converter) (clock : ℕ → ℕ) (runId : String)
    (read : Except ContractError Handed) : Outcome × Inspection :=
  let (result,session) :=
    pipeline engine chain read (.new inspector.bundle.detector clock inspector.deadline)
  let (audit,session) := inspector.audit runId session
  (inspector.report engine result audit,session)

end Inspector
end HearthAI.Inspect
