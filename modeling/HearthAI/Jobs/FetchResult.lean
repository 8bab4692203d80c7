import HearthAI.Jobs.Envelope
import HearthAI.Jobs.WebFetch

/-! # The validator of what a `web_fetch:v1` worker returns

The library's parsers stay parameters, and so do the digits of the Unicode tables.
-/
namespace HearthAI.Jobs
open Python

structure Parsers where
  urlsplit : UrlSplit
  fromisoformat : Str → Except Builtin Unit
  isDigit : CodePoint → Bool

def maxContentChars : ℕ := 1048576
def maxContentTypeChars : ℕ := 200

inductive ConversionMethod
  | native
  | extracted
  | basic
  | passthrough
  | source
  deriving DecidableEq, Repr

def ConversionMethod.members : List ConversionMethod := [native,extracted,basic,passthrough,source]

def ConversionMethod.value : ConversionMethod → Str
  | native => lit "native"
  | extracted => lit "extracted"
  | basic => lit "basic"
  | passthrough => lit "passthrough"
  | source => lit "source"

/-- `value.removeprefix(lead)`. -/
def removeprefix (lead value : Str) : Str :=
  if startsWith lead value then value.drop lead.length else value

def requireSourceId (isDigit : CodePoint → Bool) (value : Value) : Except Raised Str := do
  let sourceId ← requireString value "data.source_id" 64 false
  let suffix := removeprefix (lit "source-") sourceId
  check (suffix ≠ sourceId ∧ suffix ≠ [] ∧ suffix.all isDigit = true)
    (lit "data.source_id must be a run-scoped source identifier")
  return sourceId

/-- An HTTP(S) URL without userinfo, as results carry it. -/
def requireResultUrl (urlsplit : UrlSplit) (value : Value) (path : String) :
    Except Raised Str := do
  let url ← requireString value path maxUrlChars false
  let parsed ← (urlsplit url).mapError .builtin
  check ((parsed.scheme = lit "http" ∨ parsed.scheme = lit "https") ∧
      present parsed.hostname = true ∧ present parsed.username = false ∧
      present parsed.password = false)
    (lit s!"{path} must be an HTTP(S) URL without userinfo")
  return url

def requireHttpStatus (value : Value) : Except Raised Int :=
  let message := lit "data.http_status is not an HTTP status code"
  match value with
  | .int status => do
    check (100 ≤ status ∧ status ≤ 599) message
    return status
  | _ => .error (.contract message)

def requireContentType (value : Value) : Except Raised Str := do
  let contentType ← requireString value "data.content_type" maxContentTypeChars false
  check (contentType.all (fun c => c.val < 0x80) = true ∧
      contentType.any (fun c => c.val < 0x20 ∨ c.val = 0x7f) = false)
    (lit "data.content_type must be printable ASCII")
  return contentType

/-- A timestamp that `datetime.fromisoformat` reads, once its `Z` is written as an offset. -/
def requireTimestamp (fromisoformat : Str → Except Builtin Unit) (value : Value) (path : String)
    (standard : String) : Except Raised Str := do
  let retrievedAt ← requireString value path 40 false
  let offset := retrievedAt.flatMap (fun c => if c = 0x5a then lit "+00:00" else [c])
  (fromisoformat offset).mapError (fun exception =>
    if (Raised.builtin exception).isValueError then
      .contract (lit s!"{path} must be an {standard} timestamp")
    else .builtin exception)
  return retrievedAt

/-- The successful payload. -/
structure WebFetchData where
  sourceId : Str
  finalUrl : Str
  httpStatus : Int
  contentType : Str
  retrievedAt : Str
  format : Str
  conversionMethod : ConversionMethod
  content : Str
  deriving DecidableEq

namespace WebFetchData

def fields : List Str :=
  [lit "source_id",lit "final_url",lit "http_status",lit "content_type",lit "retrieved_at",
    lit "format",lit "conversion_method",lit "content"]

def fromDict (parsers : Parsers) (value : Value) : Except Raised WebFetchData := do
  let data ← requireObject value "data"
  requireExactFields data fields "data" []
  let sourceId ← requireSourceId parsers.isDigit (← item data (lit "source_id"))
  let finalUrl ← requireResultUrl parsers.urlsplit (← item data (lit "final_url"))
    "data.final_url"
  let httpStatus ← requireHttpStatus (← item data (lit "http_status"))
  let contentType ← requireContentType (← item data (lit "content_type"))
  let retrievedAt ← requireTimestamp parsers.fromisoformat (← item data (lit "retrieved_at"))
    "data.retrieved_at" "RFC 3339"
  let output ← requireFormat (← item data (lit "format")) "data.format"
  let method ← requireEnum ConversionMethod.members ConversionMethod.value
    (← item data (lit "conversion_method")) "data.conversion_method" 32
    (lit "data.conversion_method is not a known conversion method")
  let content ← requireString (← item data (lit "content")) "data.content" maxContentChars true
  check (¬(output = lit "html" ∧ method ≠ .source))
    (lit "html output is only ever returned as inert source")
  return ⟨sourceId,finalUrl,httpStatus,contentType,retrievedAt,output,method,content⟩

def toDict (data : WebFetchData) : Value :=
  .dict [(lit "source_id",.str data.sourceId),(lit "final_url",.str data.finalUrl),
    (lit "http_status",.int data.httpStatus),(lit "content_type",.str data.contentType),
    (lit "retrieved_at",.str data.retrievedAt),(lit "format",.str data.format),
    (lit "conversion_method",.str data.conversionMethod.value),
    (lit "content",.str data.content)]

/-- The validator of the payload. An object is no `dict`. -/
def payload (parsers : Parsers) : PayloadValidator
  | .plain value => (fromDict parsers value).map (fun _ => ())
  | .object _ => .error (.contract (lit "data must be an object"))

end WebFetchData

def validateEnvelope (parsers : Parsers) (value : Value) : Except Raised Envelope :=
  Envelope.fromDict value toolKey toolVersion (some (WebFetchData.payload parsers))

end HearthAI.Jobs
