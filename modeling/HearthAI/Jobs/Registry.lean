import HearthAI.Jobs.Storage
import HearthAI.Jobs.WebFetch
import HearthAI.Python.Json

/-! # The closed registry of reviewed tool definitions -/
namespace HearthAI.Jobs
open Python

/-- An object with these names, in this order, and no nested values. -/
def Flat (names : List Str) (value : Value) : Prop :=
  ∃ items, value = .dict items ∧ items.map Prod.fst = names ∧ ∀ p ∈ items, Scalar p.2

/-- The part of a definition that admission uses. A request writes all of its fields. -/
structure ToolDefinition where
  key : Str
  version : Int
  workerProfile : Str
  Request : Type
  validateRequest : Value → Except Raised Request
  toDict : Request → Value
  grantsFor : Request → Finset Str
  budgetsFor : Request → BrokerBudgets
  storageView : Request → Except Raised Value
  names : List Str
  names_nodup : names.Nodup
  toDict_flat : ∀ request, Flat names (toDict request)
  toDict_injective : Function.Injective toDict

inductive RegistryError
  | duplicate (message : Str)
  | unknownTool (message : Str)
  deriving DecidableEq

structure ToolRegistry where
  items : Dict (Str × Int) ToolDefinition

/-- `f"{key}:v{version}"`. -/
def versioned (key : Str) (version : Int) : Str := key ++ lit ":v" ++ lit (toString version)

namespace ToolRegistry

def register (items : Dict (Str × Int) ToolDefinition) (definition : ToolDefinition) :
    Except RegistryError (Dict (Str × Int) ToolDefinition) :=
  match items.get (definition.key,definition.version) with
  | some _ => .error (.duplicate (lit "duplicate tool definition: " ++
      versioned definition.key definition.version))
  | none => .ok (items.set (definition.key,definition.version) definition)

def ofDefinitions (definitions : List ToolDefinition) : Except RegistryError ToolRegistry :=
  match definitions.foldlM register [] with
  | .ok items => .ok ⟨items⟩
  | .error e => .error e

def resolve (registry : ToolRegistry) (key : Str) (version : Int) :
    Except RegistryError ToolDefinition :=
  match registry.items.get (key,version) with
  | some definition => .ok definition
  | none => .error (.unknownTool (lit "unknown tool: " ++ versioned key version))

end ToolRegistry

/-- The members of one name have the same JSON text. -/
def SameFields (v w : Value) : Prop :=
  ∃ items items', v = .dict items ∧ w = .dict items' ∧ SameMembers items items'

section
variable {definition : ToolDefinition} {p q : definition.Request}

/-- What the digest of a request is taken of. -/
def ToolDefinition.canonical (definition : ToolDefinition) (request : definition.Request) : Str :=
  dumps (definition.toDict request)

theorem ToolDefinition.canonical_encodable (definition : ToolDefinition)
    (request : definition.Request) : Utf8Encodable (definition.canonical request) := by
  obtain ⟨items,hitems,_,hscalar⟩ := definition.toDict_flat request
  rw [canonical,hitems]
  exact (isAscii_dumps_dict hscalar).encodable

/-- Two requests of a tool have one canonical text exactly when their fields are written the
same. -/
theorem ToolDefinition.canonical_inj :
    definition.canonical p = definition.canonical q ↔
      SameFields (definition.toDict p) (definition.toDict q) := by
  obtain ⟨items,hitems,hkeys,hscalar⟩ := definition.toDict_flat p
  obtain ⟨items',hitems',hkeys',hscalar'⟩ := definition.toDict_flat q
  have hnodup : (items.map Prod.fst).Nodup := hkeys ▸ definition.names_nodup
  rw [canonical,canonical,hitems,hitems',
    dumps_dict_inj (hkeys.trans hkeys'.symm) hnodup hscalar hscalar']
  constructor
  · intro h
    exact ⟨items,items',rfl,rfl,h⟩
  · rintro ⟨a,b,ha,hb,h⟩
    obtain rfl := Value.dict.inj ha
    obtain rfl := Value.dict.inj hb
    exact h

end
end HearthAI.Jobs
