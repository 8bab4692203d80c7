import HearthAI.Contracts.WebFetch

/-! # What one fetch produced, and what one stage tells the next -/
namespace HearthAI.Contracts
open Text

def artifactVersion : ℕ := 1

/-- Description of one completed fetch. -/
structure FetchArtifact where
  artifactVersion : ℕ
  runId : String
  sourceId : String
  requestedUrlSha256 : String
  /-- The URL actually fetched after any redirects. -/
  finalUrl : String
  httpStatus : ℕ
  contentType : Option String
  contentEncoding : Option String
  redirects : ℕ
  retrievedAt : String
  format : Format
  bodyBytes : ℕ
  bodySha256 : String
  policyProfile : String
  deriving DecidableEq, Repr

def stageVersion : ℕ := 1

inductive Stage
  | fetch
  | inspect
  deriving DecidableEq, Repr

structure StageOutcome where
  stageVersion : ℕ
  stage : Stage
  runId : String
  /-- `none` on success; a fixed public code otherwise. -/
  code : Option ErrorCode
  deriving DecidableEq, Repr

namespace StageOutcome

def ok (stage : Stage) (runId : String) : StageOutcome :=
  ⟨Contracts.stageVersion,stage,runId,none⟩

def failed (stage : Stage) (runId : String) (code : ErrorCode) : StageOutcome :=
  ⟨Contracts.stageVersion,stage,runId,some code⟩

/-- This outcome is one this build understands and belongs to this run. -/
def check (outcome : StageOutcome) (expectedRunId : String) : Except ContractError Unit :=
  if outcome.stageVersion ≠ Contracts.stageVersion then .error ⟨"unsupported stage_version"⟩
  else if outcome.runId ≠ expectedRunId then
    .error ⟨"stage outcome belongs to a different run"⟩
  else if outcome.stage ≠ .fetch then
    .error ⟨"handoff was not written by the fetch stage"⟩
  else .ok ()

end StageOutcome

/-- What the inspection stage finds in a handoff it could authenticate. -/
inductive Handed
  /-- The fetch stage recorded a failure. There is no body. -/
  | failed (code : ErrorCode)
  /-- The fetch stage stored one response. -/
  | fetched (artifact : FetchArtifact) (body : Bytes)
  deriving DecidableEq

end HearthAI.Contracts
