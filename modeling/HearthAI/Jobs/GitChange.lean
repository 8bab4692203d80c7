import HearthAI.Jobs.Registry

/-! # The reviewed definition `git_change:v1` -/
namespace HearthAI.Jobs
open Python

def maxInstructionChars : ℕ := 8000

def isAlphanumericAscii (c : CodePoint) : Bool :=
  (48 ≤ c.val && c.val ≤ 57) || (65 ≤ c.val && c.val ≤ 90) || (97 ≤ c.val && c.val ≤ 122)

/-- A full match of `[A-Za-z0-9][A-Za-z0-9._-]{0,127}`. -/
def isRepositoryId : Str → Bool
  | [] => false
  | c :: rest => isAlphanumericAscii c && rest.length ≤ 127 &&
      rest.all (fun d => isAlphanumericAscii d || (lit "._-").contains d)

structure GitChangeRequest where
  repositoryId : Str
  instruction : Str
  deriving DecidableEq

namespace GitChangeRequest

def fromDict (value : Value) : Except Raised GitChangeRequest := do
  let data ← requireObject value "request"
  requireExactFields data [lit "repository_id",lit "instruction"] "request" []
  let repositoryId ← requireString (← item data (lit "repository_id")) "request.repository_id"
    128 false
  check (isRepositoryId repositoryId = true)
    (lit "request.repository_id is not an authorised ID")
  let instruction ← requireString (← item data (lit "instruction")) "request.instruction"
    maxInstructionChars false
  return ⟨repositoryId,instruction⟩

def toDict (request : GitChangeRequest) : Value :=
  .dict [(lit "repository_id",.str request.repositoryId),
    (lit "instruction",.str request.instruction)]

end GitChangeRequest

def gitChangeDefinition : ToolDefinition where
  key := lit "git_change"
  version := 1
  workerProfile := lit "git-change-v1"
  Request := GitChangeRequest
  validateRequest := GitChangeRequest.fromDict
  toDict := GitChangeRequest.toDict
  grantsFor _ := {lit "repository_materialize",lit "repository_publish"}
  budgetsFor _ := ⟨0,0,0,0,0,900⟩
  -- The class has no member `storage_view`.
  storageView _ := .error (.builtin .attributeError)
  names := [lit "repository_id",lit "instruction"]
  names_nodup := by decide
  toDict_flat request := by
    refine ⟨_,rfl,rfl,?_⟩
    simp only [List.forall_mem_cons]
    exact ⟨.str _,.str _,nofun⟩
  toDict_injective p q h := by
    cases p
    cases q
    simpa [GitChangeRequest.toDict] using h

end HearthAI.Jobs
