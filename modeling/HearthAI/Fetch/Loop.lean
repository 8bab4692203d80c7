import HearthAI.Contracts.Media
import HearthAI.Fetch.Resolve

/-! # One bounded HTTP(S) GET, redirects followed by hand

Every hop is re-validated at the top of the loop: scheme, port, resolution and
every answer, before a connection.
-/
namespace HearthAI.Fetch
open Text Contracts

def userAgent : String := "HearthAI-webfetch/1 (isolated fetch; no scripting)"
def accept : String :=
  "text/html,application/xhtml+xml,text/plain;q=0.9,text/markdown;q=0.9," ++
    "application/json;q=0.8,application/xml;q=0.7,text/csv;q=0.7,*/*;q=0.1"
def acceptEncoding : String := "identity, gzip"

structure Fetcher where
  policy : DestinationPolicy
  deadline : ℕ

def Fetcher.new (policy : DestinationPolicy) : Fetcher := ⟨policy,fetchDeadline⟩
def Fetcher.withDeadline (fetcher : Fetcher) (deadline : ℕ) : Fetcher :=
  { fetcher with deadline := deadline }

/-- What a completed fetch hands to the next stage. -/
structure Fetched where
  artifact : FetchArtifact
  body : Bytes
  deriving DecidableEq

/-- `HeaderValue::to_str`: visible ASCII characters and tabs only. -/
def toStr (value : Bytes) : Option String :=
  if value.all (fun b => b == 9 || (32 ≤ b && b < 127)) then
    some (String.ofList (value.map (fun b => Char.ofNat b.toNat)))
  else none

/-- `HeaderMap::get` as text. Names are stored in lower case. -/
def Response.header (response : Response) (name : String) : Option String :=
  (response.headers.lookup name).bind toStr

def measureHeaders (response : Response) : ℕ :=
  (response.headers.map (fun (name,value) => len name + value.length + 4)).sum

def redirectTarget (response : Response) : Option String :=
  if response.status ∈ [301,302,303,307,308] then response.header "location" else none

/-- An agent that can reach this destination and nothing else. -/
def buildAgent {policy : DestinationPolicy} (destination : ValidatedDestination policy)
    (remaining : ℕ) : Agent where
  config :=
    { maxRedirects := 0
      saveRedirectHistory := false
      httpStatusAsError := false
      proxy := none
      timeoutGlobal := some remaining
      maxResponseHeaderSize := maxHeaderBytes }
  resolver := destination.pinnedResolver

namespace Fetcher
variable (world : World) (fetcher : Fetcher)

def complete (runId : String) (request : WebFetchRequest) (requested finalUrl : Url)
    (redirects : ℕ) (response : Response) : Except ErrorCode Fetched := do
  let contentType ← okOr (response.header "content-type") .unsupportedContent
  let media ← (MediaType.parse contentType).mapError (fun _ => .unsupportedContent)
  if !media.isSupported then throw .unsupportedContent
  let contentEncoding := response.header "content-encoding"
  if !contentEncoding.all isSupportedContentEncoding then throw .unsupportedContent
  let body ← (response.body maxWireBytes).mapError classifyTransportError
  let retrievedAt ← okOr (world.times.formatRfc3339 world.nowUtc) .internalError
  return {
    artifact :=
      { artifactVersion := artifactVersion
        runId := runId
        sourceId := "source-1"
        requestedUrlSha256 := world.sha256Hex (asBytes (world.urls.asStr requested))
        finalUrl := world.urls.asStr finalUrl
        httpStatus := response.status
        contentType := some media.headerValue
        contentEncoding := contentEncoding
        redirects := redirects
        retrievedAt := retrievedAt
        format := request.format
        bodyBytes := body.length
        bodySha256 := world.sha256Hex body
        policyProfile := fetcher.policy.profile.asStr }
    body := body }

/-- `deadline.checked_sub(elapsed)`, without a remainder of zero. -/
def remaining (started now : ℕ) : Except ErrorCode ℕ :=
  if now - started < fetcher.deadline then .ok (fetcher.deadline - (now - started))
  else .error .deadlineExceeded

/-- The loop of `fetch`, with its three local variables as arguments. -/
def fetchLoop (runId : String) (request : WebFetchRequest) (requested : Url) (started : ℕ)
    (current : Url) (headerBytes redirects : ℕ) : Network Fetched := do
  Effect.modify (Trace.beginHop current)
  let now ← instantNow world
  let left ← Effect.lift (fetcher.remaining started now)
  let destination ← ValidatedDestination.resolve world fetcher.policy current
  let response ← send world (buildAgent destination left)
    ⟨world.urls.asStr destination.url,
      [("user-agent",userAgent),("accept",accept),("accept-encoding",acceptEncoding)]⟩
  let headerBytes := headerBytes + measureHeaders response
  Effect.raiseIf (headerBytes > maxHeaderBytes) .responseLimitExceeded
  match redirectTarget response with
  | some location =>
    if hredirects : redirects + 1 > maxRedirects then Effect.raise .responseLimitExceeded
    else do
      let target ← Effect.lift
        ((world.urls.join current location).mapError (fun _ => ErrorCode.unsafeSource))
      fetchLoop runId request requested started target headerBytes (redirects + 1)
  | none =>
    Effect.lift (complete world fetcher runId request requested current redirects response)
termination_by maxRedirects - redirects

/-- Fetch one URL, following redirects by hand so every hop is re-validated. -/
def fetch (runId : String) (request : WebFetchRequest) : Network Fetched := do
  let started ← instantNow world
  let requested ← Effect.lift
    ((request.destinationUrl world.urls).mapError (fun _ => ErrorCode.unsafeSource))
  fetchLoop world fetcher runId request requested started requested 0 0

end Fetcher
end HearthAI.Fetch
