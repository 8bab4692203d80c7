import HearthAI.Core.Dict
import HearthAI.Core.Fallible
import HearthAI.Python.Value

/-! # Tool-neutral validation of decoded JSON values -/
namespace HearthAI.Jobs
open Python

/-- What a validator raises. A `ContractError` is a `ValueError`. -/
inductive Raised
  | contract (message : Str)
  | keyError (key : Str)
  | builtin (exception : Builtin)
  deriving DecidableEq

def Raised.isValueError : Raised → Bool
  | contract _ => true
  | keyError _ => false
  | builtin exception => exception = .valueError ∨ exception = .unicodeEncodeError

/-- `raise ContractError(...)`, unless the condition holds. -/
def check (condition : Prop) [Decidable condition] (message : Str) : Except Raised Unit :=
  if condition then .ok () else .error (.contract message)

/-- `value[key]`. -/
def item (value : Dict Str Value) (key : Str) : Except Raised Value :=
  match value.get key with
  | some found => .ok found
  | none => .error (.keyError key)

def requireObject (value : Value) (path : String) : Except Raised (Dict Str Value) :=
  match value with
  | .dict items => .ok items
  | _ => .error (.contract (lit s!"{path} must be an object"))

def requireExactFields (value : Dict Str Value) (required : List Str) (path : String)
    (optional : List Str) : Except Raised Unit := do
  let keys := value.map Prod.fst
  let missing := required.filter (· ∉ keys)
  let unknown := keys.filter (fun key => key ∉ required ∧ key ∉ optional)
  check (missing = [])
    (lit s!"{path} is missing: " ++ join (lit ", ") (missing.mergeSort le))
  check (unknown = [])
    (lit s!"{path} has unknown fields: " ++ join (lit ", ") (unknown.mergeSort le))

def requireString (value : Value) (path : String) (maximum : ℕ) (allowEmpty : Bool) :
    Except Raised Str :=
  match value with
  | .str raw => do
    let cleaned := strip raw
    check (cleaned ≠ [] ∨ allowEmpty = true) (lit s!"{path} must not be empty")
    check (cleaned.length ≤ maximum) (lit s!"{path} must be at most {maximum} characters")
    return cleaned
  | _ => .error (.contract (lit s!"{path} must be a string"))

def requireList (value : Value) (path : String) (maximum : ℕ) : Except Raised (List Value) :=
  match value with
  | .list items => do
    check (items.length ≤ maximum) (lit s!"{path} must contain at most {maximum} items")
    return items
  | _ => .error (.contract (lit s!"{path} must be an array"))

/-- `Enum(text)`, by the members and their values. -/
def enumOf {α : Type} (members : List α) (valueOf : α → Str) (text : Str) : Except Raised α :=
  match members.find? (fun member => valueOf member = text) with
  | some member => .ok member
  | none => .error (.builtin .valueError)

/-- `Enum(require_string(...))`, where every `ValueError` becomes one `ContractError`. -/
def requireEnum {α : Type} (members : List α) (valueOf : α → Str) (value : Value) (path : String)
    (maximum : ℕ) (message : Str) : Except Raised α :=
  (requireString value path maximum false >>= enumOf members valueOf).mapError
    (fun raised => if raised.isValueError then .contract message else raised)

inductive FailureCode
  | invalidRequest
  | temporarilyUnavailable
  | deadlineExceeded
  | providerUnavailable
  | unsafeSource
  | incompleteResearch
  | internalError
  deriving DecidableEq, Repr

def FailureCode.members : List FailureCode :=
  [invalidRequest,temporarilyUnavailable,deadlineExceeded,providerUnavailable,unsafeSource,
    incompleteResearch,internalError]

def FailureCode.value : FailureCode → Str
  | invalidRequest => lit "invalid_request"
  | temporarilyUnavailable => lit "temporarily_unavailable"
  | deadlineExceeded => lit "deadline_exceeded"
  | providerUnavailable => lit "provider_unavailable"
  | unsafeSource => lit "unsafe_source"
  | incompleteResearch => lit "incomplete_research"
  | internalError => lit "internal_error"

structure ToolFailure where
  code : FailureCode
  message : Str
  deriving DecidableEq

namespace ToolFailure

def toDict (failure : ToolFailure) : Value :=
  .dict [(lit "code",.str failure.code.value),(lit "message",.str failure.message)]

def fromDict (value : Value) : Except Raised ToolFailure := do
  let data ← requireObject value "failure"
  requireExactFields data [lit "code",lit "message"] "failure" []
  let code ← requireEnum FailureCode.members FailureCode.value (← item data (lit "code"))
    "failure.code" 64 (lit "failure.code is not a public failure code")
  let message ← requireString (← item data (lit "message")) "failure.message" 500 false
  return ⟨code,message⟩

end ToolFailure

theorem check_eq_ok {condition : Prop} [Decidable condition] {message : Str} {u : Unit} :
    check condition message = .ok u ↔ condition := by
  unfold check
  split_ifs with h <;> simp [h]

theorem item_eq_ok {value : Dict Str Value} {key : Str} {found : Value} :
    item value key = .ok found ↔ value.get key = some found := by
  unfold item
  cases value.get key <;> simp

theorem requireObject_eq_ok {value : Value} {path : String} {items : Dict Str Value} :
    requireObject value path = .ok items ↔ value = .dict items := by
  cases value <;> simp [requireObject]

/-- The value of a key that its check accepts, and what the check makes of it. -/
def Reads {α : Type} (data : Dict Str Value) (key : Str) (check : Value → Except Raised α)
    (found : α) : Prop :=
  ∃ given, data.get key = some given ∧ check given = .ok found

theorem field_eq_ok {α β : Type} {data : Dict Str Value} {key : Str}
    {check : Value → Except Raised α} {rest : α → Except Raised β} {b : β} :
    (do rest (← check (← item data key))) = .ok b ↔
      ∃ found, Reads data key check found ∧ rest found = .ok b := by
  simp only [bind_eq_ok,item_eq_ok]
  constructor
  · rintro ⟨given,hgiven,found,hfound,h⟩
    exact ⟨found,⟨given,hgiven,hfound⟩,h⟩
  · rintro ⟨found,⟨given,hgiven,hfound⟩,h⟩
    exact ⟨given,hgiven,found,hfound,h⟩

/-- An object with its fields, and what is made of its members. -/
theorem object_eq_ok {β : Type} {value : Value} {path : String} {required optional : List Str}
    {rest : Dict Str Value → Except Raised β} {b : β} :
    (do
      let data ← requireObject value path
      requireExactFields data required path optional
      rest data) = .ok b ↔ ∃ data, value = .dict data ∧
        requireExactFields data required path optional = .ok () ∧ rest data = .ok b := by
  simp only [bind_eq_ok,requireObject_eq_ok]
  exact exists_congr fun data => and_congr_right fun _ =>
    ⟨fun ⟨_,hfields,h⟩ => ⟨hfields,h⟩,fun ⟨hfields,h⟩ => ⟨(),hfields,h⟩⟩

theorem requireExactFields_eq_ok {value : Dict Str Value} {required optional : List Str}
    {path : String} {u : Unit} : requireExactFields value required path optional = .ok u ↔
      (∀ key ∈ required, key ∈ value.map Prod.fst) ∧
        ∀ key ∈ value.map Prod.fst, key ∈ required ∨ key ∈ optional := by
  unfold requireExactFields
  dsimp only
  rw [bind_eq_ok]
  constructor
  · rintro ⟨_,hmissing,hunknown⟩
    rw [check_eq_ok,List.filter_eq_nil_iff] at hmissing hunknown
    refine ⟨fun key hkey => by simpa using hmissing key hkey,fun key hkey => ?_⟩
    have hknown := hunknown key hkey
    rw [decide_eq_true_eq,not_and_or,not_not,not_not] at hknown
    exact hknown
  · rintro ⟨hpresent,hknown⟩
    refine ⟨(),check_eq_ok.mpr ?_,check_eq_ok.mpr ?_⟩
    · rw [List.filter_eq_nil_iff]
      exact fun key hkey => by simpa using hpresent key hkey
    · rw [List.filter_eq_nil_iff]
      intro key hkey
      rw [decide_eq_true_eq,not_and_or,not_not,not_not]
      exact hknown key hkey

theorem requireString_eq_ok {value : Value} {path : String} {maximum : ℕ} {allowEmpty : Bool}
    {s : Str} : requireString value path maximum allowEmpty = .ok s ↔
      ∃ raw, value = .str raw ∧ s = strip raw ∧ (s ≠ [] ∨ allowEmpty = true) ∧
        s.length ≤ maximum := by
  cases value with
  | str raw =>
    rw [requireString,bind_eq_ok]
    constructor
    · rintro ⟨_,hempty,hrest⟩
      obtain ⟨_,hlength,hs⟩ := bind_eq_ok.mp hrest
      obtain rfl := Except.ok.inj hs
      exact ⟨raw,rfl,rfl,check_eq_ok.mp hempty,check_eq_ok.mp hlength⟩
    · rintro ⟨raw',hraw,rfl,hempty,hlength⟩
      obtain rfl := Value.str.inj hraw
      exact ⟨(),check_eq_ok.mpr hempty,bind_eq_ok.mpr ⟨(),check_eq_ok.mpr hlength,rfl⟩⟩
  | _ => simp [requireString]

theorem requireList_eq_ok {value : Value} {path : String} {maximum : ℕ} {items : List Value} :
    requireList value path maximum = .ok items ↔ value = .list items ∧ items.length ≤ maximum := by
  cases value with
  | list found =>
    rw [requireList,bind_eq_ok]
    constructor
    · rintro ⟨_,hlength,hitems⟩
      obtain rfl := Except.ok.inj hitems
      exact ⟨rfl,check_eq_ok.mp hlength⟩
    · rintro ⟨hitems,hlength⟩
      obtain rfl := Value.list.inj hitems
      exact ⟨(),check_eq_ok.mpr hlength,rfl⟩
  | _ => simp [requireList]

theorem requireEnum_eq_ok {α : Type} {members : List α} {valueOf : α → Str} {value : Value}
    {path : String} {maximum : ℕ} {message : Str} {found : α}
    (hinjective : Function.Injective valueOf) (hmembers : ∀ member, member ∈ members) :
    requireEnum members valueOf value path maximum message = .ok found ↔
      requireString value path maximum false = .ok (valueOf found) := by
  rw [requireEnum,mapError_eq_ok,bind_eq_ok]
  constructor
  · rintro ⟨text,htext,hfound⟩
    unfold enumOf at hfound
    split at hfound
    · next member hmember =>
      obtain rfl := Except.ok.inj hfound
      have hvalue := List.find?_some hmember
      rwa [of_decide_eq_true hvalue]
    · cases hfound
  · intro htext
    refine ⟨_,htext,?_⟩
    unfold enumOf
    split
    · next member hmember =>
      have hvalue := List.find?_some hmember
      rw [hinjective (of_decide_eq_true hvalue)]
    · next hnone =>
      exact absurd (decide_eq_true rfl) (List.find?_eq_none.mp hnone found (hmembers found))

end HearthAI.Jobs
