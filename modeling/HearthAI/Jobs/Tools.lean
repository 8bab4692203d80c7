import HearthAI.Jobs.Registry

/-! # The reviewed definitions: `web_research:v1` and `web_fetch:v1` -/
namespace HearthAI.Jobs
open Text Python

def maxQuestionChars : ℕ := 8000
def maxSources : ℕ := 12

structure WebResearchRequest where
  question : Str
  depth : Str
  sourceLimit : Int
  deriving DecidableEq

namespace WebResearchRequest

def requireDepth (value : Value) : Except Raised Str :=
  match value with
  | .str depth => do
    check (depth = lit "quick" ∨ depth = lit "standard")
      (lit "request.depth must be quick or standard")
    return depth
  | _ => .error (.contract (lit "request.depth must be quick or standard"))

def requireLimit (value : Value) : Except Raised Int :=
  match value with
  | .int limit => do
    check (1 ≤ limit ∧ limit ≤ maxSources)
      (lit s!"request.source_limit must be between 1 and {maxSources}")
    return limit
  | _ => .error (.contract (lit "request.source_limit must be an integer"))

def fromDict (value : Value) : Except Raised WebResearchRequest := do
  let data ← requireObject value "request"
  requireExactFields data [lit "question"] "request" [lit "depth",lit "source_limit"]
  let question ← requireString (← item data (lit "question")) "request.question"
    maxQuestionChars false
  let depth ← requireDepth ((data.get (lit "depth")).getD (.str (lit "standard")))
  let defaultLimit := if depth = lit "quick" then 4 else 8
  let sourceLimit ← requireLimit ((data.get (lit "source_limit")).getD (.int defaultLimit))
  return ⟨question,depth,sourceLimit⟩

def toDict (request : WebResearchRequest) : Value :=
  .dict [(lit "question",.str request.question),(lit "depth",.str request.depth),
    (lit "source_limit",.int request.sourceLimit)]

def budgetsFor (request : WebResearchRequest) : BrokerBudgets :=
  if request.depth = lit "quick" then ⟨3,min request.sourceLimit 4,2000000,16000,4000,90⟩
  else ⟨6,request.sourceLimit,6000000,48000,8000,90⟩

end WebResearchRequest

def webResearchDefinition : ToolDefinition where
  key := lit "web_research"
  version := 1
  workerProfile := lit "web-research-v1"
  Request := WebResearchRequest
  validateRequest := WebResearchRequest.fromDict
  toDict := WebResearchRequest.toDict
  grantsFor _ := {lit "search",lit "fetch",lit "infer"}
  budgetsFor := WebResearchRequest.budgetsFor
  storageView request := .ok request.toDict
  names := [lit "question",lit "depth",lit "source_limit"]
  names_nodup := by decide
  toDict_flat request := by
    refine ⟨_,rfl,rfl,?_⟩
    simp only [List.forall_mem_cons]
    exact ⟨.str _,.str _,.int _,nofun⟩
  toDict_injective p q h := by
    cases p
    cases q
    simpa [WebResearchRequest.toDict] using h

def runDeadlineSeconds : Int := 25

def webFetchDefinition (urlsplit : UrlSplit) (sha256Hex : Bytes → String) : ToolDefinition where
  key := toolKey
  version := toolVersion
  workerProfile := workerProfile
  Request := WebFetchRequest
  validateRequest := WebFetchRequest.fromDict urlsplit
  toDict := WebFetchRequest.toDict
  grantsFor _ := {lit "fetch"}
  budgetsFor _ := ⟨0,1,1048576,0,0,runDeadlineSeconds⟩
  storageView := WebFetchRequest.storageView sha256Hex
  names := [lit "url",lit "format"]
  names_nodup := by decide
  toDict_flat request := by
    refine ⟨_,rfl,rfl,?_⟩
    simp only [List.forall_mem_cons]
    exact ⟨.str _,.str _,nofun⟩
  toDict_injective p q h := by
    cases p
    cases q
    simpa [WebFetchRequest.toDict] using h

end HearthAI.Jobs
