import HearthAI.Jobs.Contracts

/-! # The reusable tool-result envelope, as the control plane builds and validates it -/
namespace HearthAI.Jobs
open Python

def envelopeVersion : Int := 1

inductive Status
  | ok
  | rejected
  | error
  deriving DecidableEq, Repr

def Status.members : List Status := [ok,rejected,error]

def Status.value : Status → Str
  | ok => lit "ok"
  | rejected => lit "rejected"
  | error => lit "error"

inductive Trust
  | externalUntrusted
  deriving DecidableEq, Repr

def Trust.members : List Trust := [externalUntrusted]

def Trust.value : Trust → Str
  | externalUntrusted => lit "external_untrusted"

inductive InspectionStatus
  | noMatch
  | match
  | failed
  | notRun
  deriving DecidableEq, Repr

def InspectionStatus.members : List InspectionStatus := [noMatch,.match,failed,notRun]

def InspectionStatus.value : InspectionStatus → Str
  | noMatch => lit "no_match"
  | .match => lit "match"
  | failed => lit "failed"
  | notRun => lit "not_run"

inductive ErrorCode
  | contentRejected
  | inspectionFailed
  | unsafeSource
  | unsupportedContent
  | responseLimitExceeded
  | fetchFailed
  | deadlineExceeded
  | internalError
  deriving DecidableEq, Repr

def ErrorCode.members : List ErrorCode :=
  [contentRejected,inspectionFailed,unsafeSource,unsupportedContent,responseLimitExceeded,
    fetchFailed,deadlineExceeded,internalError]

def ErrorCode.value : ErrorCode → Str
  | contentRejected => lit "content_rejected"
  | inspectionFailed => lit "inspection_failed"
  | unsafeSource => lit "unsafe_source"
  | unsupportedContent => lit "unsupported_content"
  | responseLimitExceeded => lit "response_limit_exceeded"
  | fetchFailed => lit "fetch_failed"
  | deadlineExceeded => lit "deadline_exceeded"
  | internalError => lit "internal_error"

/-- The one message a code may carry. -/
def errorMessages : ErrorCode → Str
  | .contentRejected => lit "Response content was withheld from model context."
  | .inspectionFailed => lit "Response inspection did not complete; no content was returned."
  | .unsafeSource => lit "The requested destination is not allowed."
  | .unsupportedContent => lit "The response media type or encoding is not supported."
  | .responseLimitExceeded => lit "The response exceeded a configured limit."
  | .fetchFailed => lit "The request to the source could not be completed."
  | .deadlineExceeded => lit "The request did not complete within its deadline."
  | .internalError => lit "The tool could not complete this request."

def statusFor (code : ErrorCode) : Status :=
  if code ∈ [ErrorCode.contentRejected] then .rejected else .error

/-- The inspection statuses a code may be reported with. -/
def permittedInspection : ErrorCode → List InspectionStatus
  | .contentRejected => [.match]
  | .inspectionFailed => [.failed]
  | _ => [.notRun,.failed]

def isPolicyId (value : Str) : Bool :=
  !value.isEmpty && value.all (fun c => (97 ≤ c.val && c.val ≤ 122) ||
    (48 ≤ c.val && c.val ≤ 57) || (lit "-_.").contains c)

structure Inspection where
  status : InspectionStatus
  policyId : Option Str
  deriving DecidableEq

namespace Inspection

def toDict (inspection : Inspection) : Value :=
  .dict [(lit "status",.str inspection.status.value),
    (lit "policy_id",(inspection.policyId.map Value.str).getD .none)]

def requirePolicy : Value → Except Raised (Option Str)
  | .none => .ok none
  | given => do
    let policyId ← requireString given "inspection.policy_id" 64 false
    check (isPolicyId policyId = true)
      (lit "inspection.policy_id is not a valid policy identifier")
    return some policyId

def fromDict (value : Value) : Except Raised Inspection := do
  let data ← requireObject value "inspection"
  requireExactFields data [lit "status",lit "policy_id"] "inspection" []
  let status ← requireEnum InspectionStatus.members InspectionStatus.value
    (← item data (lit "status")) "inspection.status" 32
    (lit "inspection.status is not a known inspection status")
  let policyId ← requirePolicy (← item data (lit "policy_id"))
  return ⟨status,policyId⟩

end Inspection

structure EnvelopeError where
  code : ErrorCode
  message : Str
  deriving DecidableEq

namespace EnvelopeError

def forCode (code : ErrorCode) : EnvelopeError := ⟨code,errorMessages code⟩

def toDict (error : EnvelopeError) : Value :=
  .dict [(lit "code",.str error.code.value),(lit "message",.str error.message)]

def fromDict (value : Value) : Except Raised EnvelopeError := do
  let data ← requireObject value "error"
  requireExactFields data [lit "code",lit "message"] "error" []
  let code ← requireEnum ErrorCode.members ErrorCode.value (← item data (lit "code"))
    "error.code" 64 (lit "error.code is not a public error code")
  let message ← requireString (← item data (lit "message")) "error.message" 500 false
  check (message = errorMessages code) (lit "error.message is not this code's fixed message")
  return ⟨code,message⟩

end EnvelopeError

/-- What an envelope carries: a plain value, or an object by what its `to_dict` returns. -/
inductive Data
  | plain (value : Value)
  | object (dict : Value)

namespace Data

/-- `data is None`. -/
def isNone : Data → Bool
  | plain .none => true
  | _ => false

def toDict : Data → Value
  | plain value => value
  | object dict => dict

end Data

structure Envelope where
  envelopeVersion : Int
  tool : Str
  toolVersion : Int
  status : Status
  trust : Trust
  inspection : Inspection
  data : Data
  error : Option EnvelopeError

/-- Raises unless the data is a valid payload. -/
abbrev PayloadValidator := Data → Except Raised Unit

namespace Envelope

def checkOk (envelope : Envelope) (payload : Option PayloadValidator) : Except Raised Unit := do
  check (envelope.data.isNone = false ∧ envelope.error = none)
    (lit "ok requires non-null data and null error")
  check (envelope.inspection.status = .noMatch)
    (lit "ok requires a completed no_match inspection")
  check (envelope.inspection.policyId ≠ none)
    (lit "ok requires the policy that cleared the response")
  match payload with
  | none => .ok ()
  | some validate => validate envelope.data

def checkFailure (envelope : Envelope) : Except Raised Unit :=
  let expected := lit "a failure requires null data and a fixed error"
  match envelope.error with
  | none => .error (.contract expected)
  | some error => do
    check (envelope.data.isNone = true) expected
    check (statusFor error.code = envelope.status)
      (envelope.status.value ++ lit " is not the status for " ++ error.code.value)
    check (envelope.inspection.status ∈ permittedInspection error.code)
      (lit "inspection status " ++ envelope.inspection.status.value ++ lit " cannot accompany " ++
        error.code.value)
    check (¬(envelope.inspection.status = .match ∧ envelope.inspection.policyId = none))
      (lit "a match must name the policy that matched")

/-- `_check`. -/
def check (envelope : Envelope) (payload : Option PayloadValidator) : Except Raised Unit :=
  if envelope.status = .ok then envelope.checkOk payload else envelope.checkFailure

def ok (tool : Str) (toolVersion : Int) (data : Data) (policyId : Str) : Envelope where
  envelopeVersion := Jobs.envelopeVersion
  tool := tool
  toolVersion := toolVersion
  status := .ok
  trust := .externalUntrusted
  inspection := ⟨.noMatch,some policyId⟩
  data := data
  error := none

def failure (tool : Str) (toolVersion : Int) (code : ErrorCode) (inspection : Inspection) :
    Except Raised Envelope := do
  let envelope : Envelope := {
    envelopeVersion := Jobs.envelopeVersion
    tool := tool
    toolVersion := toolVersion
    status := statusFor code
    trust := .externalUntrusted
    inspection := inspection
    data := .plain .none
    error := some (.forCode code) }
  envelope.check none
  return envelope

/-- An integer that is no boolean. -/
def requireInteger (value : Value) (message : Str) : Except Raised Int :=
  match value with
  | .int i => .ok i
  | _ => .error (.contract message)

def requireError : Value → Except Raised (Option EnvelopeError)
  | .none => .ok none
  | given => do
    let error ← EnvelopeError.fromDict given
    return some error

def fields : List Str :=
  [lit "envelope_version",lit "tool",lit "tool_version",lit "status",lit "trust",
    lit "inspection",lit "data",lit "error"]

def fromDict (value : Value) (tool : Str) (toolVersion : Int)
    (payload : Option PayloadValidator) : Except Raised Envelope := do
  let data ← requireObject value "envelope"
  requireExactFields data fields "envelope" []
  let version ← requireInteger (← item data (lit "envelope_version"))
    (lit "envelope.envelope_version must be an integer")
  Jobs.check (version = Jobs.envelopeVersion)
    (lit "unsupported envelope_version: " ++ lit (toString version))
  let toolKey ← requireString (← item data (lit "tool")) "envelope.tool" 64 false
  let carriedVersion ← requireInteger (← item data (lit "tool_version"))
    (lit "envelope.tool_version must be an integer")
  Jobs.check (toolKey = tool ∧ carriedVersion = toolVersion)
    (lit "envelope carries " ++ toolKey ++ lit ":v" ++ lit (toString carriedVersion) ++
      lit ", expected " ++ tool ++ lit ":v" ++ lit (toString toolVersion))
  let unknown := lit "envelope status or trust is not a known value"
  let status ← requireEnum Status.members Status.value (← item data (lit "status"))
    "envelope.status" 32 unknown
  let trust ← requireEnum Trust.members Trust.value (← item data (lit "trust"))
    "envelope.trust" 32 unknown
  let inspection ← Inspection.fromDict (← item data (lit "inspection"))
  let error ← requireError (← item data (lit "error"))
  let envelope : Envelope := {
    envelopeVersion := version
    tool := toolKey
    toolVersion := carriedVersion
    status := status
    trust := trust
    inspection := inspection
    data := .plain (← item data (lit "data"))
    error := error }
  envelope.check payload
  return envelope

def toDict (envelope : Envelope) : Value :=
  .dict [(lit "envelope_version",.int envelope.envelopeVersion),(lit "tool",.str envelope.tool),
    (lit "tool_version",.int envelope.toolVersion),(lit "status",.str envelope.status.value),
    (lit "trust",.str envelope.trust.value),(lit "inspection",envelope.inspection.toDict),
    (lit "data",envelope.data.toDict),
    (lit "error",(envelope.error.map EnvelopeError.toDict).getD .none)]

/-- The validator's turn, after the checks of the envelope. -/
def runPayload (payload : PayloadValidator) (envelope : Envelope) : Except Raised Unit :=
  if envelope.status = .ok then payload envelope.data else .ok ()

theorem check_payload (envelope : Envelope) (payload : PayloadValidator) :
    envelope.check (some payload) =
      envelope.check none >>= fun _ => envelope.runPayload payload := by
  unfold check checkOk runPayload
  split_ifs with hstatus
  · simp only [bind_assoc]
    rfl
  · cases envelope.checkFailure <;> rfl

theorem fromDict_payload (value : Value) (tool : Str) (toolVersion : Int) (payload : PayloadValidator) :
    fromDict value tool toolVersion (some payload) = do
      let envelope ← fromDict value tool toolVersion none
      envelope.runPayload payload
      return envelope := by
  unfold fromDict
  simp only [check_payload,bind_assoc,pure_bind]

/-- What an accepted envelope looks like, and the value that is made of it. -/
structure Carries (data : Dict Str Value) (tool : Str) (toolVersion : Int) (envelope : Envelope) :
    Prop where
  exactFields : requireExactFields data fields "envelope" [] = .ok ()
  version : data.get (lit "envelope_version") = some (.int envelope.envelopeVersion)
  current : envelope.envelopeVersion = Jobs.envelopeVersion
  named : Reads data (lit "tool") (requireString · "envelope.tool" 64 false) envelope.tool
  numbered : data.get (lit "tool_version") = some (.int envelope.toolVersion)
  expected : envelope.tool = tool ∧ envelope.toolVersion = toolVersion
  status : Reads data (lit "status") (requireEnum Status.members Status.value · "envelope.status" 32
    (lit "envelope status or trust is not a known value")) envelope.status
  trust : Reads data (lit "trust") (requireEnum Trust.members Trust.value · "envelope.trust" 32
    (lit "envelope status or trust is not a known value")) envelope.trust
  inspection : Reads data (lit "inspection") Inspection.fromDict envelope.inspection
  error : Reads data (lit "error") requireError envelope.error
  payload : ∃ given, data.get (lit "data") = some given ∧ envelope.data = .plain given
  checked : envelope.check none = .ok ()

theorem requireInteger_eq_ok {value : Value} {message : Str} {i : Int} :
    requireInteger value message = .ok i ↔ value = .int i := by
  cases value <;> simp [requireInteger]

theorem fromDict_eq_ok {value : Value} {tool : Str} {toolVersion : Int} {envelope : Envelope} :
    fromDict value tool toolVersion none = .ok envelope ↔
      ∃ data, value = .dict data ∧ Carries data tool toolVersion envelope := by
  unfold fromDict
  rw [object_eq_ok]
  refine exists_congr fun data => and_congr_right fun _ => ?_
  constructor
  · rintro ⟨hfields,h⟩
    obtain ⟨version,⟨_,hversion,hinteger⟩,h⟩ := field_eq_ok.mp h
    obtain rfl := requireInteger_eq_ok.mp hinteger
    obtain ⟨_,hcurrent,h⟩ := bind_eq_ok.mp h
    obtain ⟨toolKey,htool,h⟩ := field_eq_ok.mp h
    obtain ⟨carried,⟨_,hcarried,hinteger⟩,h⟩ := field_eq_ok.mp h
    obtain rfl := requireInteger_eq_ok.mp hinteger
    obtain ⟨_,hexpected,h⟩ := bind_eq_ok.mp h
    obtain ⟨status,hstatus,h⟩ := field_eq_ok.mp h
    obtain ⟨trust,htrust,h⟩ := field_eq_ok.mp h
    obtain ⟨inspection,hinspection,h⟩ := field_eq_ok.mp h
    obtain ⟨error,herror,h⟩ := field_eq_ok.mp h
    obtain ⟨given,hgiven,h⟩ := bind_eq_ok.mp h
    obtain ⟨_,hchecked,h⟩ := bind_eq_ok.mp h
    obtain rfl := Except.ok.inj h
    exact ⟨hfields,hversion,check_eq_ok.mp hcurrent,htool,hcarried,check_eq_ok.mp hexpected,hstatus,
      htrust,hinspection,herror,⟨given,item_eq_ok.mp hgiven,rfl⟩,hchecked⟩
  · intro h
    obtain ⟨given,hgiven,hdata⟩ := h.payload
    refine ⟨h.exactFields,field_eq_ok.mpr ⟨_,⟨_,h.version,requireInteger_eq_ok.mpr rfl⟩,?_⟩⟩
    refine bind_eq_ok.mpr ⟨(),check_eq_ok.mpr h.current,field_eq_ok.mpr ⟨_,h.named,?_⟩⟩
    refine field_eq_ok.mpr ⟨_,⟨_,h.numbered,requireInteger_eq_ok.mpr rfl⟩,?_⟩
    refine bind_eq_ok.mpr ⟨(),check_eq_ok.mpr h.expected,field_eq_ok.mpr ⟨_,h.status,?_⟩⟩
    refine field_eq_ok.mpr ⟨_,h.trust,field_eq_ok.mpr ⟨_,h.inspection,?_⟩⟩
    refine field_eq_ok.mpr ⟨_,h.error,bind_eq_ok.mpr ⟨given,item_eq_ok.mpr hgiven,?_⟩⟩
    rw [← hdata]
    exact bind_eq_ok.mpr ⟨(),h.checked,rfl⟩

end Envelope
end HearthAI.Jobs
