import HearthAI.Contracts.Artifact
import HearthAI.Inspect.Convert
import HearthAI.Inspect.Decode
import HearthAI.Inspect.Detect
import HearthAI.Inspect.Normalize

/-! # The inspection lifecycle, as states

A response moves through `Received`, `Decoded`, `Normalized` and `Inspected` to
the released data. Each state is the input of the next step and of no other, so
the order of the required passes is in the types. The session records every call
that leaves the repository: each scan with its answer, each converter run.
-/
namespace HearthAI.Inspect
open Text Contracts

/-- Why the pipeline stopped, and what the inspection had concluded when it did. -/
structure Stop where
  code : ErrorCode
  status : InspectionStatus
  matched : List String
  deriving DecidableEq, Repr

namespace Stop
def notRun (code : ErrorCode) : Stop := ⟨code,.notRun,[]⟩
def failed (code : ErrorCode) : Stop := ⟨code,.failed,[]⟩
def rejected (matched : List String) : Stop := ⟨.contentRejected,.match,matched⟩

/-- `From<InspectionFailure>`: the reason is not carried over. -/
def ofFailure (_ : InspectionFailure) : Stop := failed .inspectionFailed
end Stop

/-- What the run recorded about itself. -/
structure Telemetry where
  httpStatus : Option ℕ := none
  redirects : Option ℕ := none
  requestedUrlSha256 : Option String := none
  wireBytes : Option ℕ := none
  decodedBytes : Option ℕ := none
  contentChars : Option ℕ := none
  conversionMethod : Option ConversionMethod := none
  deriving DecidableEq, Repr

/-- A call to the scanner or to a converter, with what came back. -/
inductive Event
  | scan (data : Bytes) (answer : Except InspectionFailure Verdict)
  | convert (method : ConversionMethod) (candidate : Option Candidate)

/-- The scanner, the budget and the record, carried through every state. `clock`
gives the successive readings of the elapsed time; it may be any sequence. -/
structure Inspection where
  detector : Detector
  clock : ℕ → ℕ
  readings : ℕ
  deadline : ℕ
  telemetry : Telemetry
  events : List Event

def Inspection.new (detector : Detector) (clock : ℕ → ℕ) (deadline : ℕ) : Inspection :=
  ⟨detector,clock,0,deadline,{},[]⟩

/-- `self.started.elapsed()`. -/
def Inspection.elapsed (inspection : Inspection) : ℕ × Inspection :=
  (inspection.clock inspection.readings,{ inspection with readings := inspection.readings + 1 })

/-- What the session needs of code outside the repository. -/
structure Engine where
  codecs : Codecs
  urls : UrlCrate
  times : TimeCrate
  isAlphanumeric : Char → Bool

abbrev Session := Effect Stop Inspection

/-- Scan one input. A match or a scanner failure ends the response. -/
def scan (data : Bytes) : Session Unit := fun inspection =>
  let (answer,detector) := Detector.scan data inspection.detector
  let after : Inspection :=
    { inspection with detector := detector, events := inspection.events ++ [.scan data answer] }
  match answer with
  | .error failure => (.error (.ofFailure failure),after)
  | .ok .noMatch => (.ok (),after)
  | .ok (.match rules) => (.error (.rejected rules),after)

def checkDeadline (status : InspectionStatus) : Session Unit := fun inspection =>
  let (elapsed,after) := inspection.elapsed
  if elapsed ≥ inspection.deadline then (.error ⟨.deadlineExceeded,status,[]⟩,after)
  else (.ok (),after)

def recordTelemetry (f : Telemetry → Telemetry) : Session Unit :=
  Effect.modify (fun inspection => { inspection with telemetry := f inspection.telemetry })

/-- Run one converter and record what it produced. -/
def runConverter (converter : Converter) (text : String) (format : Format) :
    Session (Option Candidate) := fun inspection =>
  let candidate := converter.convert text format
  (.ok candidate,
    { inspection with events := inspection.events ++ [.convert converter.method candidate] })

/-- An authenticated response of a media type this build handles. -/
structure Received where
  artifact : FetchArtifact
  media : MediaType
  body : Bytes

/-- The response decoded to text, unchanged and unexamined. -/
structure Decoded where
  artifact : FetchArtifact
  media : MediaType
  text : String

/-- Every form of the response has been scanned. -/
structure Normalized where
  artifact : FetchArtifact
  media : MediaType
  text : String

/-- Content that has been produced and scanned, but not yet released. -/
structure Inspected where
  artifact : FetchArtifact
  media : MediaType
  candidate : Candidate

/-- The media type a response may be inspected under. -/
def supportedMedia (artifact : FetchArtifact) : Except Stop MediaType :=
  match artifact.contentType with
  | none => .error (.notRun .unsupportedContent)
  | some declared =>
    match MediaType.parse declared with
    | .error _ => .error (.notRun .unsupportedContent)
    | .ok media =>
      if media.isSupported then .ok media else .error (.notRun .unsupportedContent)

/-- Take what the handoff produced, or turn the fetch stage's own failure into this
run's result. -/
def Received.openHanded : Handed → Session Received
  | .failed code => Effect.raise (.notRun code)
  | .fetched artifact body => do
    recordTelemetry (fun telemetry =>
      { telemetry with
        httpStatus := some artifact.httpStatus
        redirects := some artifact.redirects
        requestedUrlSha256 := some artifact.requestedUrlSha256
        wireBytes := some body.length })
    let media ← Effect.lift (supportedMedia artifact)
    return ⟨artifact,media,body⟩

/-- Scan the bytes as they arrived and the metadata that will be reported, then decode. -/
def Received.scanWire (engine : Engine) (received : Received) : Session Decoded := do
  checkDeadline .notRun
  scan received.body
  scan (asBytes received.artifact.finalUrl)
  scan (asBytes received.media.headerValue)
  let decodedBytes ← Effect.lift
    ((decodeContentEncoding engine.codecs received.body received.artifact.contentEncoding).mapError
      Stop.notRun)
  let text ← Effect.lift
    ((decodeCharset engine.codecs decodedBytes received.media).mapError Stop.notRun)
  recordTelemetry (fun telemetry => { telemetry with decodedBytes := some decodedBytes.length })
  return ⟨received.artifact,received.media,text⟩

/-- Scan the decoded body and the two inspection-only views of it. -/
def Decoded.scanText (decoded : Decoded) : Session Normalized := do
  checkDeadline .failed
  scan (asBytes decoded.text)
  let entities := decodeEntities decoded.text
  let folded := deobfuscate entities
  scan (asBytes entities)
  scan (asBytes folded)
  return ⟨decoded.artifact,decoded.media,decoded.text⟩

/-- Content that skips conversion is scanned all the same. -/
def Normalized.inspected (normalized : Normalized) (method : ConversionMethod) :
    Session Inspected := do
  let candidate : Candidate := ⟨normalized.text,method⟩
  scan (asBytes candidate.content)
  return ⟨normalized.artifact,normalized.media,candidate⟩

/-- The loop over the chain. Every candidate is scanned before it is judged, and the
first non-empty poor one is kept. -/
def convertChain (engine : Engine) (text : String) (format : Format) (signals : SourceSignals) :
    List Converter → Option Candidate → Session Candidate
  | [], fallback =>
    match fallback with
    | some candidate => pure candidate
    | none => Effect.raise (.failed .unsupportedContent)
  | converter :: chain, fallback => do
    checkDeadline .failed
    match ← runConverter converter text format with
    | none => convertChain engine text format signals chain fallback
    | some candidate =>
      scan (asBytes candidate.content)
      if quality engine.isAlphanumeric candidate format signals = .usable then return candidate
      else if fallback.isNone && !(trim candidate.content).isEmpty then
        convertChain engine text format signals chain (some candidate)
      else convertChain engine text format signals chain fallback

/-- Produce the content to return. -/
def Normalized.convert (engine : Engine) (chain : List Converter) (normalized : Normalized) :
    Session Inspected :=
  if normalized.artifact.format = .html then normalized.inspected .source
  else if !normalized.media.isHtml then normalized.inspected .passthrough
  else do
    let candidate ← convertChain engine normalized.text normalized.artifact.format
      (.of normalized.text) chain none
    return ⟨normalized.artifact,normalized.media,candidate⟩

/-- The combined representation of what a caller would receive. -/
def combined (data : WebFetchData) : String :=
  data.finalUrl ++ "\n" ++ data.contentType ++ "\n" ++ data.content

/-- The timestamp is reformatted from the parsed value rather than echoed. -/
def reformatted (engine : Engine) (retrievedAt : String) : Except Stop String :=
  match engine.times.parseRfc3339 retrievedAt with
  | none => .error (.failed .internalError)
  | some time =>
    match engine.times.formatRfc3339 time with
    | none => .error (.failed .internalError)
    | some text => .ok text

/-- Build the result and scan the exact fields it will carry. -/
def Inspected.release (engine : Engine) (inspected : Inspected) : Session WebFetchData := do
  Effect.raiseIf (inspected.candidate.content.length > maxContentChars)
    (.failed .responseLimitExceeded)
  let retrievedAt ← Effect.lift (reformatted engine inspected.artifact.retrievedAt)
  let data : WebFetchData :=
    { sourceId := inspected.artifact.sourceId
      finalUrl := inspected.artifact.finalUrl
      httpStatus := inspected.artifact.httpStatus
      contentType := inspected.media.headerValue
      retrievedAt := retrievedAt
      format := inspected.artifact.format
      conversionMethod := inspected.candidate.method
      content := inspected.candidate.content }
  checkDeadline .failed
  scan (asBytes (combined data))
  recordTelemetry (fun telemetry =>
    { telemetry with
      contentChars := some data.content.length
      conversionMethod := some data.conversionMethod })
  return data

end HearthAI.Inspect
