import HearthAI.Python.Text

/-! # The values a JSON document can carry, and the exceptions of the interpreter -/
namespace HearthAI.Python

inductive Value
  | none
  | bool (b : Bool)
  | int (i : Int)
  /-- A float, by its `repr` and whether it is other than zero. -/
  | float (text : Str) (nonzero : Bool)
  | str (s : Str)
  | list (items : List Value)
  | dict (items : List (Str × Value))

/-- Exceptions of the interpreter and its library. -/
inductive Builtin
  | attributeError
  | typeError
  | valueError
  | unicodeEncodeError
  | recursionError
  | osError
  | fileExistsError
  | fileNotFoundError
  deriving DecidableEq, Repr

namespace Value

/-- `bool(value)`. -/
def truthy : Value → Bool
  | none => false
  | bool b => b
  | int i => i != 0
  | float _ nonzero => nonzero
  | str s => !s.isEmpty
  | list items => !items.isEmpty
  | dict items => !items.isEmpty

/-- `value or default`. -/
def orElse (value default : Value) : Value := if value.truthy then value else default

/-- `value.strip()`, a method of strings only. -/
def strip : Value → Except Builtin Str
  | str s => .ok (Python.strip s)
  | _ => .error .attributeError

/-- `str(value)`. The `repr` of a container is a parameter, and may raise. -/
def text (reprOf : Value → Except Builtin Str) : Value → Except Builtin Str
  | none => .ok (lit "None")
  | bool b => .ok (lit (if b then "True" else "False"))
  | int i => .ok (lit (toString i))
  | float text _ => .ok text
  | str s => .ok s
  | value => reprOf value

/-- `iter(value)`. -/
def iterate : Value → Except Builtin (List Value)
  | str s => .ok (s.map (fun c => str [c]))
  | list items => .ok items
  | dict items => .ok (items.map (fun (key,_) => str key))
  | _ => .error .typeError

mutual

/-- How many brackets are around each other. -/
def depth : Value → ℕ
  | list items => depthItems items + 1
  | dict items => depthMembers items + 1
  | none => 0
  | bool _ => 0
  | int _ => 0
  | float _ _ => 0
  | str _ => 0

def depthItems : List Value → ℕ
  | [] => 0
  | value :: items => max value.depth (depthItems items)

def depthMembers : List (Str × Value) → ℕ
  | [] => 0
  | (_,value) :: items => max value.depth (depthMembers items)

end

end Value
end HearthAI.Python
