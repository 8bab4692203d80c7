import HearthAI.Jobs.FetchResult
import HearthAI.Jobs.Tools

/-! # The validator of what a `web_research:v1` worker returns -/
namespace HearthAI.Jobs
open Python

def maxFindings : ℕ := 20

structure Evidence where
  sourceId : Str
  support : Str
  deriving DecidableEq

namespace Evidence

def fromDict (value : Value) (path : String) : Except Raised Evidence := do
  let data ← requireObject value path
  requireExactFields data [lit "source_id",lit "support"] path []
  let sourceId ← requireString (← item data (lit "source_id")) s!"{path}.source_id" 64 false
  let support ← requireString (← item data (lit "support")) s!"{path}.support" 2000 false
  return ⟨sourceId,support⟩

def toDict (evidence : Evidence) : Value :=
  .dict [(lit "source_id",.str evidence.sourceId),(lit "support",.str evidence.support)]

end Evidence

/-- One value for each item, with the item's path. -/
def eachItem {α : Type} (parse : Value → String → Except Raised α) (path : String)
    (items : List Value) : Except Raised (List α) :=
  items.zipIdx.mapM (fun (value,index) => parse value s!"{path}[{index}]")

def confidences : List Str := [lit "low",lit "medium",lit "high"]

def requireConfidence (value : Value) (path : String) : Except Raised Str :=
  let message := lit s!"{path}.confidence must be low, medium, or high"
  match value with
  | .str confidence => do
    check (confidence ∈ confidences) message
    return confidence
  | _ => .error (.contract message)

structure Finding where
  statement : Str
  evidence : List Evidence
  confidence : Str
  deriving DecidableEq

namespace Finding

def fromDict (value : Value) (path : String) : Except Raised Finding := do
  let data ← requireObject value path
  requireExactFields data [lit "statement",lit "evidence",lit "confidence"] path []
  let items ← requireList (← item data (lit "evidence")) s!"{path}.evidence" 12
  let evidence ← eachItem Evidence.fromDict s!"{path}.evidence" items
  check (evidence ≠ []) (lit s!"{path}.evidence must not be empty")
  let confidence ← requireConfidence (← item data (lit "confidence")) path
  let statement ← requireString (← item data (lit "statement")) s!"{path}.statement" 4000 false
  return ⟨statement,evidence,confidence⟩

def toDict (finding : Finding) : Value :=
  .dict [(lit "statement",.str finding.statement),
    (lit "evidence",.list (finding.evidence.map Evidence.toDict)),
    (lit "confidence",.str finding.confidence)]

end Finding

structure Source where
  id : Str
  url : Str
  title : Str
  retrievedAt : Str
  deriving DecidableEq

namespace Source

def fromDict (parsers : Parsers) (value : Value) (path : String) : Except Raised Source := do
  let data ← requireObject value path
  requireExactFields data [lit "id",lit "url",lit "title",lit "retrieved_at"] path []
  let sourceId ← requireString (← item data (lit "id")) s!"{path}.id" 64 false
  let url ← requireResultUrl parsers.urlsplit (← item data (lit "url")) s!"{path}.url"
  let retrievedAt ← requireTimestamp parsers.fromisoformat (← item data (lit "retrieved_at"))
    s!"{path}.retrieved_at" "ISO 8601"
  let title ← requireString (← item data (lit "title")) s!"{path}.title" 500 false
  return ⟨sourceId,url,title,retrievedAt⟩

def toDict (source : Source) : Value :=
  .dict [(lit "id",.str source.id),(lit "url",.str source.url),(lit "title",.str source.title),
    (lit "retrieved_at",.str source.retrievedAt)]

end Source

/-- `_string_array`. -/
def stringArray (value : Value) (path : String) : Except Raised (List Str) := do
  let items ← requireList value path 20
  eachItem (fun given itemPath => requireString given itemPath 2000 false) path items

structure WebResearchResult where
  summary : Str
  findings : List Finding
  sources : List Source
  conflicts : List Str
  limitations : List Str
  deriving DecidableEq

namespace WebResearchResult

def fields : List Str :=
  [lit "summary",lit "findings",lit "sources",lit "conflicts",lit "limitations"]

/-- The sources that evidence names and no source has as its ID. -/
def missing (findings : List Finding) (sources : List Source) : List Str :=
  ((findings.flatMap (fun finding => finding.evidence.map Evidence.sourceId)).filter
    (· ∉ sources.map Source.id)).dedup

def fromDict (parsers : Parsers) (value : Value) : Except Raised WebResearchResult := do
  let data ← requireObject value "result"
  requireExactFields data fields "result" []
  let items ← requireList (← item data (lit "findings")) "result.findings" maxFindings
  let findings ← eachItem Finding.fromDict "result.findings" items
  let items ← requireList (← item data (lit "sources")) "result.sources" maxSources
  let sources ← eachItem (Source.fromDict parsers) "result.sources" items
  check (sources.map Source.id).Nodup (lit "result.sources contains duplicate IDs")
  check (missing findings sources = []) (lit "result evidence references unknown sources: " ++
    join (lit ", ") ((missing findings sources).mergeSort le))
  let conflicts ← stringArray (← item data (lit "conflicts")) "result.conflicts"
  let limitations ← stringArray (← item data (lit "limitations")) "result.limitations"
  let summary ← requireString (← item data (lit "summary")) "result.summary" 12000 false
  return ⟨summary,findings,sources,conflicts,limitations⟩

def toDict (result : WebResearchResult) : Value :=
  .dict [(lit "summary",.str result.summary),
    (lit "findings",.list (result.findings.map Finding.toDict)),
    (lit "sources",.list (result.sources.map Source.toDict)),
    (lit "conflicts",.list (result.conflicts.map Value.str)),
    (lit "limitations",.list (result.limitations.map Value.str))]

end WebResearchResult
end HearthAI.Jobs
