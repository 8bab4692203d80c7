import HearthAI.Stages.EnvelopeRead
import HearthAI.Stages.Texts

/-! # What the two gates of an envelope ask

The gates are written twice, for the two sides of the wire. What both of them ask is stated
here of the value that is on the wire, and apart from it what only one of them asks.
-/
namespace HearthAI.Stages
open Text Python Contracts

/-- The fields of an envelope and of its structs. -/
def envelopeField (value : Value) (name : String) : Option Value :=
  memberOf Envelope.fieldNames value name
def inspectionField (value : Value) (name : String) : Option Value :=
  (envelopeField value "inspection").bind (memberOf inspectionNames · name)
def dataField (value : Value) (name : String) : Option Value :=
  (envelopeField value "data").bind (memberOf Contracts.WebFetchData.fieldNames · name)
def errorField (value : Value) (name : String) : Option Value :=
  (envelopeField value "error").bind (memberOf errorNames · name)

def Says (text : String) : Option Value → Prop := Stripped (· = lit text)

/-- The name of a variant, or an object with the name as its only key. -/
def SaysVariant (text : String) (found : Option Value) : Prop :=
  Says text found ∨ found = some (.dict [(lit text,.none)])

/-- Left out, or null. -/
def Unset (found : Option Value) : Prop := found = none ∨ found = some .none

def IsHttpStatus (found : Option Value) : Prop :=
  ∃ status : ℕ, found = some (.int status) ∧ 100 ≤ status ∧ status ≤ 599

def IsStruct (names : List String) (found : Option Value) : Prop :=
  ∃ value, found = some value ∧ Shaped names value

/-! ## The texts -/

/-- A URL of the web, where an empty password counts as none. -/
def WebUrl (url : Str → Option Url) (s : Str) : Prop :=
  s ≠ [] ∧ s.length ≤ Jobs.maxUrlChars ∧
    ∃ found, url s = some found ∧ checkDestination (dropEmptyPassword found) = .ok ()

/-- A URL of the web that is measured in bytes. -/
def BoundedUrl (url : Str → Option Url) (s : Str) : Prop :=
  ∃ text, s = lit text ∧ len text ≤ Contracts.maxUrlChars ∧
    ∃ found, url s = some found ∧ checkDestination found = .ok ()

/-! ## What both gates ask -/

/-- Of the data of a success. -/
structure BothAskOfData (isDigit : CodePoint → Bool) (value : Value) : Prop where
  held : IsStruct Contracts.WebFetchData.fieldNames (envelopeField value "data")
  sourceId : Stripped (SourceId isDigit) (dataField value "source_id")
  finalUrl : IsText (dataField value "final_url")
  httpStatus : IsHttpStatus (dataField value "http_status")
  contentType : Stripped (fun s => s.length ≤ Jobs.maxContentTypeChars ∧ PrintableAscii s)
    (dataField value "content_type")
  retrievedAt : IsText (dataField value "retrieved_at")
  output : ∃ (format : Format) (method : Contracts.ConversionMethod),
    (∃ found, dataField value "format" = some found ∧ Spelt format.name found) ∧
    SaysVariant method.name (dataField value "conversion_method") ∧
    (format = .html → method = .source)
  content : IsText (dataField value "content")

structure BothAskOfSuccess (isDigit : CodePoint → Bool) (value : Value) : Prop where
  status : SaysVariant Contracts.Status.ok.name (envelopeField value "status")
  inspection : SaysVariant Contracts.InspectionStatus.noMatch.name (inspectionField value "status")
  policy : Stripped Jobs.PolicyId (inspectionField value "policy_id")
  data : BothAskOfData isDigit value
  error : Unset (envelopeField value "error")

structure BothAskOfFailure (value : Value) (code : Contracts.ErrorCode)
    (inspected : Contracts.InspectionStatus) : Prop where
  status : SaysVariant code.status.name (envelopeField value "status")
  inspection : SaysVariant inspected.name (inspectionField value "status")
  permitted : code.permits inspected = true
  policy : Stripped Jobs.PolicyId (inspectionField value "policy_id") ∨
    Unset (inspectionField value "policy_id") ∧ inspected ≠ .match
  data : Unset (envelopeField value "data")
  error : IsStruct errorNames (envelopeField value "error")
  coded : SaysVariant code.name (errorField value "code")
  message : Says code.message (errorField value "message")

/-- What both gates ask of a value, each point in the more lenient reading of the two. -/
structure BothAsk (isDigit : CodePoint → Bool) (value : Value) : Prop where
  shaped : Shaped Envelope.fieldNames value
  version : envelopeField value "envelope_version" = some (.int 1)
  tool : Says "web_fetch" (envelopeField value "tool")
  toolVersion : envelopeField value "tool_version" = some (.int 1)
  trust : SaysVariant Contracts.Trust.externalUntrusted.name (envelopeField value "trust")
  inspection : IsStruct inspectionNames (envelopeField value "inspection")
  outcome : BothAskOfSuccess isDigit value ∨
    ∃ code inspected, BothAskOfFailure value code inspected

/-! ## What one gate asks -/

def structs (value : Value) : List (Option Value) :=
  [some value,envelopeField value "inspection",envelopeField value "data",
    envelopeField value "error"]

/-- The fields that hold a variant. -/
def variants (value : Value) : List (Option Value) :=
  [envelopeField value "status",envelopeField value "trust",inspectionField value "status",
    errorField value "code",dataField value "format",dataField value "conversion_method"]

/-- The fields that hold a text of the server's own. -/
def fixedTexts (value : Value) : List (Option Value) :=
  [envelopeField value "tool",envelopeField value "status",envelopeField value "trust",
    inspectionField value "status",inspectionField value "policy_id",errorField value "code",
    errorField value "message",dataField value "conversion_method"]

/-- What only the control plane asks. -/
structure ControlPlaneAsks (url : Str → Option Url) (time : Str → Prop) (value : Value) : Prop where
  objects : ∀ found ∈ structs value, ∀ items, found ≠ some (.list items)
  complete : (∀ name ∈ Envelope.fieldNames, envelopeField value name ≠ none) ∧
    inspectionField value "policy_id" ≠ none
  names : ∀ found ∈ variants value, ∀ items, found ≠ some (.dict items)
  finalUrl : IfStripped (WebUrl url) (dataField value "final_url")
  contentType : IfStripped (· ≠ []) (dataField value "content_type")
  retrievedAt : IfStripped (fun s => s ≠ [] ∧ s.length ≤ 40 ∧ time s)
    (dataField value "retrieved_at")
  content : IfStripped (fun s => s.length ≤ Jobs.maxContentChars) (dataField value "content")

/-- What only the Rust gate asks. -/
structure RustGateAsks (url : Str → Option Url) (time : Str → Prop) (value : Value) : Prop where
  complete : (∀ items, value = .list items → ∀ name ∈ Envelope.fieldNames,
      envelopeField value name ≠ none) ∧
    ∀ items, envelopeField value "inspection" = some (.list items) →
      inspectionField value "policy_id" ≠ none
  unpadded : ∀ found ∈ fixedTexts value, IfText (fun raw => strip raw = raw) found
  sourceId : IfText ShortSourceId (dataField value "source_id")
  finalUrl : IfText (BoundedUrl url) (dataField value "final_url")
  contentType : IfText MediaText (dataField value "content_type")
  retrievedAt : IfText (fun raw => Utf8Encodable raw ∧ time raw) (dataField value "retrieved_at")
  content : IfText (fun raw => Utf8Encodable raw ∧ raw.length ≤ Contracts.maxContentChars)
    (dataField value "content")

/-! ## The parsers that both gates call -/

/-- The parsers of both sides find the same URL in a text. -/
def SameUrl (split : Except Builtin Jobs.SplitResult) : Option Url → Prop
  | none => ∀ parsed, split ≠ .ok parsed
  | some url => ∃ parsed, split = .ok parsed ∧ parsed.scheme = lit url.scheme ∧
      parsed.username.getD [] = lit url.username ∧ parsed.password = url.password.map lit ∧
      parsed.hostname = url.hostStr.map lit

/-- A time as `fromisoformat` is given it. -/
def withOffset (s : Str) : Str := s.flatMap (fun c => if c = 0x5a then lit "+00:00" else [c])

/-- The parsers of both sides are one oracle for URLs, and one for times. -/
structure SharedParsers (parsers : Jobs.Parsers) (urls : UrlCrate) (times : TimeCrate)
    (url : Str → Option Url) (time : Str → Prop) : Prop where
  split : ∀ s, SameUrl (parsers.urlsplit s) (url s)
  parse : ∀ text, (urls.parse text).toOption = url (lit text)
  fromisoformat : ∀ s, parsers.fromisoformat (withOffset s) = .ok () ↔ time s
  parseRfc3339 : ∀ text, (times.parseRfc3339 text).isSome = true ↔ time (lit text)

/-- Both gates accept the value, or none of them does. -/
def SameVerdict (serde : SerdeJson) (dumps : Value → String) (parsers : Jobs.Parsers)
    (urls : UrlCrate) (times : TimeCrate) (value : Value) : Prop :=
  (∃ envelope, Jobs.validateEnvelope parsers value = .ok envelope) ↔
    ∃ envelope, Envelope.fromJson serde (webFetchPayload urls times) webFetchCodec (dumps value) =
      .ok envelope

section
variable {value : Value} {found : Option Value} {P Q : Str → Prop} {text : String}

theorem ifText_unset (h : Unset found) : IfText P found := by
  rcases h with rfl | rfl <;> exact nofun

theorem SaysVariant.plain (h : SaysVariant text found)
    (hobject : ∀ items, found ≠ some (.dict items)) : Says text found :=
  h.resolve_right (hobject _)

theorem Unset.null (h : Unset found) (hpresent : found ≠ none) : found = some .none :=
  h.resolve_left hpresent

/-- A struct that is no array is an object. -/
theorem IsStruct.dict {names : List String} (h : IsStruct names found)
    (hlist : ∀ items, found ≠ some (.list items)) :
    ∃ items, found = some (.dict items) ∧ Shaped names (.dict items) := by
  obtain ⟨value,rfl,hshaped⟩ := h
  cases value with
  | dict items => exact ⟨items,rfl,hshaped⟩
  | list items => exact absurd rfl (hlist items)
  | _ => exact hshaped.elim

theorem inspectionField_eq {found : Value} (h : envelopeField value "inspection" = some found)
    (name : String) : inspectionField value name = memberOf inspectionNames found name := by
  rw [inspectionField,h,Option.bind_some]

theorem dataField_eq {found : Value} (h : envelopeField value "data" = some found)
    (name : String) :
    dataField value name = memberOf Contracts.WebFetchData.fieldNames found name := by
  rw [dataField,h,Option.bind_some]

theorem errorField_eq {found : Value} (h : envelopeField value "error" = some found)
    (name : String) : errorField value name = memberOf errorNames found name := by
  rw [errorField,h,Option.bind_some]

theorem dataField_unset (h : Unset (envelopeField value "data")) (name : String) :
    dataField value name = none := by
  rcases h with h | h <;> rw [dataField,h] <;> rfl

theorem errorField_unset (h : Unset (envelopeField value "error")) (name : String) :
    errorField value name = none := by
  rcases h with h | h <;> rw [errorField,h] <;> rfl

end
end HearthAI.Stages
