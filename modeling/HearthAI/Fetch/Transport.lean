import HearthAI.Contracts.Artifact
import HearthAI.Core.Effect
import HearthAI.Fetch.Policy

/-! # The world of one fetch: name lookups, the HTTP client and the clock

The record of a run is a list of hops, the newest first. The resolver, the
servers and the clock may answer each question as they like, depending on all
that was recorded so far.
-/
namespace HearthAI.Fetch
open Text Contracts

/-- The errors of the `ureq` crate that are told apart; `other` is all the rest. -/
inductive UreqError
  | timeout
  | bodyStalled
  | bodyExceedsLimit
  | largeResponseHeader
  | tooManyRedirects
  | requireHttpsOnly
  | badUri
  | tlsRequired
  | hostNotFound
  | other
  deriving DecidableEq, Repr

/-- `ureq::config::Config`, as far as it is set. -/
structure Config where
  maxRedirects : ℕ
  saveRedirectHistory : Bool
  httpStatusAsError : Bool
  proxy : Option String
  timeoutGlobal : Option ℕ
  maxResponseHeaderSize : ℕ
  deriving DecidableEq, Repr

/-- The trait `Resolver`: a URI and a configuration to the addresses to use. -/
abbrev Resolver := String → Config → Except UreqError (List SocketAddr)

structure Agent where
  config : Config
  resolver : Resolver

structure HttpRequest where
  uri : String
  headers : List (String × String)
  deriving DecidableEq, Repr

/-- A response whose body is still to be read, up to a limit. -/
structure Response where
  status : ℕ
  headers : List (String × Bytes)
  body : ℕ → Except UreqError Bytes

/-- One name lookup. There is no answer when it failed. -/
structure Lookup where
  host : String
  port : ℕ
  answer : Option (List IpAddr)
  deriving DecidableEq, Repr

/-- One request sent, with every connection that was made for it. -/
structure Call where
  request : HttpRequest
  connections : List SocketAddr
  response : Except UreqError Response

structure Hop where
  url : Url
  lookups : List Lookup
  calls : List Call

structure Trace where
  hops : List Hop
  readings : ℕ

namespace Trace

def start : Trace := ⟨[],0⟩
def beginHop (url : Url) (trace : Trace) : Trace :=
  { trace with hops := ⟨url,[],[]⟩ :: trace.hops }
def addLookup (lookup : Lookup) (trace : Trace) : Trace :=
  { trace with hops :=
      trace.hops.modifyHead (fun hop => { hop with lookups := lookup :: hop.lookups }) }
def addCall (call : Call) (trace : Trace) : Trace :=
  { trace with hops :=
      trace.hops.modifyHead (fun hop => { hop with calls := call :: hop.calls }) }

end Trace

/-- What the HTTP client does with one request: its connections and its result. -/
abbrev HttpClient := Trace → Agent → HttpRequest → List SocketAddr × Except UreqError Response

/-- With no redirects of its own and no proxy, the client connects only to
addresses that the resolver it was given has returned. -/
def HttpClient.Confined (http : HttpClient) : Prop :=
  ∀ trace agent request, agent.config.maxRedirects = 0 → agent.config.proxy = none →
    ∀ address ∈ (http trace agent request).1,
      ∃ uri config resolved, agent.resolver uri config = .ok resolved ∧ address ∈ resolved

structure World where
  urls : UrlCrate
  times : TimeCrate
  sha256Hex : Bytes → String
  lookup : Trace → String → ℕ → Option (List IpAddr)
  http : HttpClient
  /-- The successive readings of the monotonic clock. -/
  clock : ℕ → ℕ
  nowUtc : OffsetDateTime

abbrev Network := Effect ErrorCode Trace

/-- `Instant::now()`. -/
def instantNow (world : World) : Network ℕ := fun trace =>
  (.ok (world.clock trace.readings),{ trace with readings := trace.readings + 1 })

/-- `HostResolver::lookup`. -/
def lookupHost (world : World) (host : String) (port : ℕ) : Network (List IpAddr) := fun trace =>
  let answer := world.lookup trace host port
  (answer.elim (.error .fetchFailed) .ok,trace.addLookup ⟨host,port,answer⟩)

/-- Map a transport failure to a public code. -/
def classifyTransportError : UreqError → ErrorCode
  | .timeout | .bodyStalled => .deadlineExceeded
  | .bodyExceedsLimit | .largeResponseHeader => .responseLimitExceeded
  | .tooManyRedirects => .responseLimitExceeded
  | .requireHttpsOnly | .badUri | .tlsRequired => .unsafeSource
  | .hostNotFound | .other => .fetchFailed

/-- `RequestBuilder::call`. -/
def send (world : World) (agent : Agent) (request : HttpRequest) : Network Response :=
  fun trace =>
    let (connections,response) := world.http trace agent request
    (response.mapError classifyTransportError,trace.addCall ⟨request,connections,response⟩)

end HearthAI.Fetch
