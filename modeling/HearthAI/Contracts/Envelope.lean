import HearthAI.Contracts.Text
import HearthAI.Contracts.Limits

/-! # The reusable tool-result envelope, version 1

The envelope owns the control fields; a payload type brings its tool identity
and the validation of its own fields. Every constructor ends in `validate`, so
a value that was built is a value the gate accepts.
-/
namespace HearthAI.Contracts
open Text

/-- The only envelope version this build understands. -/
def envelopeVersion : ℕ := 1

inductive Status
  | ok
  | rejected
  | error
  deriving DecidableEq, Repr

inductive Trust
  | externalUntrusted
  deriving DecidableEq, Repr

inductive InspectionStatus
  /-- Every required check completed and none matched. -/
  | noMatch
  /-- At least one enabled rule matched. -/
  | «match»
  /-- A check could not be completed. -/
  | failed
  /-- The required checks never started. -/
  | notRun
  deriving DecidableEq, Repr

/-- The inspection field of an envelope. -/
structure Inspection where
  status : InspectionStatus
  /-- The policy that produced `status`, when one was in force. -/
  policyId : Option String
  deriving DecidableEq, Repr

def Inspection.notRun : Inspection := ⟨.notRun,none⟩
def Inspection.failed (policyId : Option String) : Inspection := ⟨.failed,policyId⟩

/-- Fixed failure codes. -/
inductive ErrorCode
  | contentRejected
  | inspectionFailed
  | unsafeSource
  | unsupportedContent
  | responseLimitExceeded
  | fetchFailed
  | deadlineExceeded
  | internalError
  deriving DecidableEq, Repr

/-- The one message a code is ever allowed to carry. -/
def ErrorCode.message : ErrorCode → String
  | .contentRejected => "Response content was withheld from model context."
  | .inspectionFailed => "Response inspection did not complete; no content was returned."
  | .unsafeSource => "The requested destination is not allowed."
  | .unsupportedContent => "The response media type or encoding is not supported."
  | .responseLimitExceeded => "The response exceeded a configured limit."
  | .fetchFailed => "The request to the source could not be completed."
  | .deadlineExceeded => "The request did not complete within its deadline."
  | .internalError => "The tool could not complete this request."

/-- Inspection statuses a code may be reported with. `noMatch` is absent. -/
def ErrorCode.permits : ErrorCode → InspectionStatus → Bool
  | .contentRejected, status => status == .match
  | .inspectionFailed, status => status == .failed
  | _, status => status == .notRun || status == .failed

def ErrorCode.status : ErrorCode → Status
  | .contentRejected => .rejected
  | _ => .error

theorem ErrorCode.status_ne_ok (code : ErrorCode) : code.status ≠ .ok := by
  cases code <;> decide

/-- The derived `Debug` form of a status. -/
def Status.debug : Status → String
  | .ok => "Ok"
  | .rejected => "Rejected"
  | .error => "Error"

def InspectionStatus.debug : InspectionStatus → String
  | .noMatch => "NoMatch"
  | .match => "Match"
  | .failed => "Failed"
  | .notRun => "NotRun"

def ErrorCode.debug : ErrorCode → String
  | .contentRejected => "ContentRejected"
  | .inspectionFailed => "InspectionFailed"
  | .unsafeSource => "UnsafeSource"
  | .unsupportedContent => "UnsupportedContent"
  | .responseLimitExceeded => "ResponseLimitExceeded"
  | .fetchFailed => "FetchFailed"
  | .deadlineExceeded => "DeadlineExceeded"
  | .internalError => "InternalError"

structure ToolError where
  code : ErrorCode
  message : String
  deriving DecidableEq, Repr

/-- The only constructor: the message comes from the code. -/
def ToolError.new (code : ErrorCode) : ToolError := ⟨code,code.message⟩

/-- The trait `Payload`: a registered tool identity and field validation. -/
structure Payload (P : Type) where
  tool : String
  toolVersion : ℕ
  validate : P → Except ContractError Unit

structure Envelope (P : Type) where
  envelopeVersion : ℕ
  tool : String
  toolVersion : ℕ
  status : Status
  trust : Trust
  inspection : Inspection
  data : Option P
  error : Option ToolError
  deriving DecidableEq, Repr

/-- Policy ids are server-owned identifiers, not free text. -/
def validPolicyId (value : String) : Bool :=
  !value.isEmpty && len value ≤ 64 &&
    value.toList.all (fun c => isAsciiLowercase c || isAsciiDigit c || ['-','_','.'].contains c)

def validatePolicyId (value : String) : Except ContractError Unit :=
  if validPolicyId value then .ok ()
  else .error ⟨"inspection.policy_id is not a valid policy identifier"⟩

namespace Envelope
variable {P : Type} (payload : Payload P)

/-- The cross-field rule for status, data and error. -/
def checkOutcome (e : Envelope P) : Except ContractError Unit :=
  match e.status, e.data, e.error with
  | .ok, some data, none =>
    if e.inspection.status ≠ .noMatch then
      .error ⟨"ok requires a completed no_match inspection"⟩
    else if e.inspection.policyId.isNone then
      .error ⟨"ok requires the policy that cleared the response"⟩
    else payload.validate data
  | .ok, _, _ => .error ⟨"ok requires non-null data and null error"⟩
  | status, none, some error =>
    if error.code.status ≠ status then
      .error ⟨s!"{status.debug} is not the status for error code {error.code.debug}"⟩
    else if error.message ≠ error.code.message then
      .error ⟨"error.message is not this code's fixed message"⟩
    else if !error.code.permits e.inspection.status then
      .error ⟨s!"inspection status {e.inspection.status.debug} cannot accompany error code {error.code.debug}"⟩
    else .ok ()
  | _, _, _ => .error ⟨"a failure requires null data and a fixed error"⟩

def checkPolicy (e : Envelope P) : Except ContractError Unit :=
  match e.inspection.policyId with
  | some policyId => validatePolicyId policyId
  | none =>
    if e.inspection.status = .match then .error ⟨"a match must name the policy that matched"⟩
    else .ok ()

def validate (e : Envelope P) : Except ContractError Unit :=
  if e.envelopeVersion ≠ Contracts.envelopeVersion then
    .error ⟨s!"unsupported envelope_version: {e.envelopeVersion}"⟩
  else if e.tool ≠ payload.tool ∨ e.toolVersion ≠ payload.toolVersion then
    .error ⟨s!"envelope carries {e.tool}:v{e.toolVersion}, expected {payload.tool}:v{payload.toolVersion}"⟩
  else do
    e.checkOutcome payload
    e.checkPolicy

/-- Build a success. -/
def ok (data : P) (policyId : String) : Except ContractError (Envelope P) :=
  let envelope : Envelope P :=
    { envelopeVersion := Contracts.envelopeVersion
      tool := payload.tool
      toolVersion := payload.toolVersion
      status := .ok
      trust := .externalUntrusted
      inspection := ⟨.noMatch,some policyId⟩
      data := some data
      error := none }
  do
    envelope.validate payload
    return envelope

/-- Build a rejection or an error. The status follows from the code. -/
def failure (code : ErrorCode) (inspection : Inspection) : Except ContractError (Envelope P) :=
  let envelope : Envelope P :=
    { envelopeVersion := Contracts.envelopeVersion
      tool := payload.tool
      toolVersion := payload.toolVersion
      status := code.status
      trust := .externalUntrusted
      inspection := inspection
      data := none
      error := some (ToolError.new code) }
  do
    envelope.validate payload
    return envelope

variable {payload}

theorem ok_spec {data : P} {policyId : String} {e : Envelope P}
    (h : ok payload data policyId = .ok e) :
    e.validate payload = .ok () ∧ e.status = .ok ∧ e.data = some data := by
  obtain ⟨_,hvalid,he⟩ := bind_eq_ok.mp h
  cases he
  exact ⟨hvalid,rfl,rfl⟩

theorem failure_spec {code : ErrorCode} {inspection : Inspection} {e : Envelope P}
    (h : failure payload code inspection = .ok e) :
    e.validate payload = .ok () ∧ e.status = code.status ∧ e.data = none := by
  obtain ⟨_,hvalid,he⟩ := bind_eq_ok.mp h
  cases he
  exact ⟨hvalid,rfl,rfl⟩

end Envelope
end HearthAI.Contracts
