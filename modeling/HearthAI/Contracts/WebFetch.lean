import HearthAI.Contracts.Envelope
import HearthAI.Contracts.Url

/-! # The `web_fetch:v1` request and result payload

Destination rules are shared by the request, by every redirect target and by the
reported URL. Ports belong to the destination policy of the fetch stage.
-/
namespace HearthAI.Contracts
open Text

inductive Format
  | markdown
  | text
  | html
  deriving DecidableEq, Repr

/-- Which converter produced the returned content. -/
inductive ConversionMethod
  | native
  | extracted
  | basic
  | passthrough
  | source
  deriving DecidableEq, Repr

/-- What the model may supply. -/
structure WebFetchRequest where
  url : String
  format : Format
  deriving DecidableEq, Repr

/-- The successful payload. -/
structure WebFetchData where
  sourceId : String
  finalUrl : String
  httpStatus : ℕ
  contentType : String
  retrievedAt : String
  format : Format
  conversionMethod : ConversionMethod
  content : String
  deriving DecidableEq, Repr

/-- Rules for the requested URL and for every redirect target. -/
def checkDestination (url : Url) : Except ContractError Unit :=
  if url.scheme ≠ "http" ∧ url.scheme ≠ "https" then
    .error ⟨s!"unsupported URL scheme: {url.scheme}"⟩
  else if url.username ≠ "" ∨ url.password.isSome then
    .error ⟨"URL userinfo is not supported"⟩
  else if url.hostStr.all (· == "") then .error ⟨"URL must have a host"⟩
  else .ok ()

theorem checkDestination_ok {url : Url} (h : checkDestination url = .ok ()) :
    (url.scheme = "http" ∨ url.scheme = "https") ∧ url.username = "" ∧ url.password = none ∧
      ∃ host, url.hostStr = some host ∧ host ≠ "" := by
  unfold checkDestination at h
  split_ifs at h with hscheme huser hhost
  refine ⟨by tauto,by tauto,?_,?_⟩
  · cases hp : url.password with
    | none => rfl
    | some p => simp [hp] at huser
  · cases hh : url.hostStr with
    | none => simp [hh] at hhost
    | some host => exact ⟨host,rfl,by simpa [hh] using hhost⟩

/-- `checkDestination`, plus the rule that only default web ports are fetchable. -/
def checkFetchable (url : Url) : Except ContractError Unit := do
  checkDestination url
  match url.port with
  | none => .ok ()
  | some port =>
    if port = 80 ∨ port = 443 then .ok ()
    else .error ⟨s!"port {port} is not supported"⟩

/-- The parse of a request without the port rule. The fragment is dropped. -/
def WebFetchRequest.destinationUrl (urls : UrlCrate) (request : WebFetchRequest) :
    Except ContractError Url := do
  refuseIf (len request.url > maxUrlChars)
    s!"request.url must be at most {maxUrlChars} characters"
  let url ← (urls.parse (trim request.url)).mapError
    (fun error => ⟨s!"request.url is not a URL: {error}"⟩)
  checkDestination url
  return url.withoutFragment

/-- Parse and check the URL of a request, ports included. -/
def WebFetchRequest.validatedUrl (urls : UrlCrate) (request : WebFetchRequest) :
    Except ContractError Url := do
  let url ← request.destinationUrl urls
  checkFetchable url
  return url

def isSourceId (value : String) : Bool :=
  match stripPrefix "source-" value with
  | none => false
  | some suffix => !suffix.isEmpty && len suffix ≤ 32 && suffix.toList.all isAsciiDigit

/-- The field rules of the payload, in the order they are checked. -/
def WebFetchData.validate (urls : UrlCrate) (times : TimeCrate) (data : WebFetchData) :
    Except ContractError Unit := do
  refuseIf (!isSourceId data.sourceId) "data.source_id must be a run-scoped source identifier"
  refuseIf (len data.finalUrl > maxUrlChars) "data.final_url is too long"
  let finalUrl ← (urls.parse data.finalUrl).mapError
    (fun error => ⟨s!"data.final_url is not a URL: {error}"⟩)
  checkDestination finalUrl
  refuseIf (!(100 ≤ data.httpStatus && data.httpStatus ≤ 599))
    "data.http_status is not an HTTP status code"
  refuseIf (data.contentType.isEmpty || len data.contentType > maxContentTypeChars)
    "data.content_type is not a usable media type"
  refuseIf (data.contentType.toList.any (fun c => isControl c || !isAscii c))
    "data.content_type must be printable ASCII"
  refuseIf (times.parseRfc3339 data.retrievedAt).isNone
    "data.retrieved_at must be an RFC 3339 timestamp"
  refuseIf (data.content.length > maxContentChars)
    "data.content exceeds the returned-content limit"
  refuseIf (data.format = .html ∧ data.conversionMethod ≠ .source)
    "html output is only ever returned as inert source"

/-- The payload `web_fetch:v1`. -/
def webFetchPayload (urls : UrlCrate) (times : TimeCrate) : Payload WebFetchData where
  tool := "web_fetch"
  toolVersion := 1
  validate := WebFetchData.validate urls times

abbrev WebFetchEnvelope := Envelope WebFetchData

end HearthAI.Contracts
