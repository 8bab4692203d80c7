import HearthAI.Core.Fallible
import HearthAI.Python.Json

/-! # `json.loads`

Every character of a text is worth two steps of fuel, and no scanner takes more for it.
Strings are read as code units, since the escapes of two surrogates stand for one character.
The first thing that the interpreter cannot read decides what is raised.
-/
namespace HearthAI.Python

def isDigit (c : CodePoint) : Bool := 48 ≤ c.val && c.val ≤ 57

def isBlank (c : CodePoint) : Bool := c.val == 0x20 || c.val == 9 || c.val == 10 || c.val == 13

/-- The text from its first character on that is not white space. -/
def skip (s : Str) : Str := s.dropWhile isBlank

def hexOf (c : CodePoint) : Option ℕ :=
  if 48 ≤ c.val ∧ c.val ≤ 57 then some (c.val - 48)
  else if 65 ≤ c.val ∧ c.val ≤ 70 then some (c.val - 55)
  else if 97 ≤ c.val ∧ c.val ≤ 102 then some (c.val - 87)
  else none

/-- The letters of escapes, and what they stand for. -/
def unescapes : Dict CodePoint CodePoint :=
  [(0x22,0x22),(0x5c,0x5c),(0x2f,0x2f),(0x62,8),(0x66,12),(0x6e,10),(0x72,13),(0x74,9)]

def scanHex : Str → Option (ℕ × Str)
  | a :: b :: c :: d :: rest => do
    return ((← hexOf a) * 4096 + (← hexOf b) * 256 + (← hexOf c) * 16 + (← hexOf d),rest)
  | _ => none

/-- One character of a string, or one escape. -/
def scanUnits : Str → Option (List ℕ × Str)
  | [] => none
  | c :: rest =>
    if c = backslash then
      match rest with
      | [] => none
      | letter :: rest =>
        if letter = letterU then (scanHex rest).map (fun p => ([p.1],p.2))
        else (unescapes.get letter).map (fun c => ([c.val],rest))
    else if c.val < 0x20 then none
    else some (units c,rest)

/-- The rest of a string, after its opening quote mark. -/
def scanString : ℕ → Str → Option (List ℕ × Str)
  | 0, _ => none
  | n + 1, s =>
    if s.head? = some quoteMark then some ([],s.tail)
    else do
      let (us,rest) ← scanUnits s
      let (more,rest) ← scanString n rest
      return (us ++ more,rest)

/-- The parts of a number as it is written. -/
structure Literal where
  sign : Str
  whole : Str
  fraction : Str
  exponent : Str
  deriving DecidableEq

def Literal.text (l : Literal) : Str := l.sign ++ (l.whole ++ (l.fraction ++ l.exponent))

def scanMinus : Str → Str × Str
  | [] => ([],[])
  | c :: s => if c.val = 0x2d then ([c],s) else ([],c :: s)

/-- A zero, or digits that do not start with one. -/
def scanWhole : Str → Option (Str × Str)
  | [] => none
  | c :: s =>
    if c.val = 48 then some ([c],s)
    else if isDigit c then some (c :: s.takeWhile isDigit,s.dropWhile isDigit)
    else none

def scanFraction : Str → Str × Str
  | [] => ([],[])
  | c :: s =>
    if c.val = 0x2e ∧ s.takeWhile isDigit ≠ [] then (c :: s.takeWhile isDigit,s.dropWhile isDigit)
    else ([],c :: s)

def scanSign : Str → Str × Str
  | [] => ([],[])
  | c :: s => if c.val = 0x2b ∨ c.val = 0x2d then ([c],s) else ([],c :: s)

def scanExponent : Str → Str × Str
  | [] => ([],[])
  | c :: s =>
    let (sign,rest) := scanSign s
    if (c.val = 0x65 ∨ c.val = 0x45) ∧ rest.takeWhile isDigit ≠ [] then
      (c :: (sign ++ rest.takeWhile isDigit),rest.dropWhile isDigit)
    else ([],c :: s)

/-- `(-?(?:0|[1-9][0-9]*))(\.[0-9]+)?([eE][-+]?[0-9]+)?`. -/
def scanLiteral (s : Str) : Option (Literal × Str) := do
  let (sign,rest) := scanMinus s
  let (whole,rest) ← scanWhole rest
  let (fraction,rest) := scanFraction rest
  let (exponent,rest) := scanExponent rest
  return (⟨sign,whole,fraction,exponent⟩,rest)

def natOf (digits : Str) : ℕ := digits.foldl (fun n c => 10 * n + (c.val - 48)) 0

def Literal.int (l : Literal) : Int :=
  if l.sign = [] then (natOf l.whole : Int) else -(natOf l.whole : Int)

def Literal.IsFloat (l : Literal) : Prop := ¬(l.fraction = [] ∧ l.exponent = [])

instance (l : Literal) : Decidable l.IsFloat := inferInstanceAs (Decidable (¬_))

/-- What the scanner finds of a number is of this form. -/
structure Literal.Fits (l : Literal) : Prop where
  sign : l.sign = [] ∨ l.sign = lit "-"
  whole : l.whole = lit "0" ∨ ∃ c s, l.whole = c :: s ∧ c.val ≠ 48 ∧ isDigit c = true ∧
    ∀ d ∈ s, isDigit d = true
  fraction : l.fraction = [] ∨ ∃ s, l.fraction = lit "." ++ s ∧ s ≠ [] ∧ ∀ d ∈ s, isDigit d = true
  exponent : l.exponent = [] ∨ ∃ c sign s, l.exponent = c :: (sign ++ s) ∧
    (c.val = 0x65 ∨ c.val = 0x45) ∧ (sign = [] ∨ sign = lit "+" ∨ sign = lit "-") ∧ s ≠ [] ∧
      ∀ d ∈ s, isDigit d = true

/-- The floats as they are written by `repr`, when they are not finite. -/
def isInfinite (text : Str) : Prop := text = lit "inf" ∨ text = lit "-inf"

/-- The text of a finite float, and of no other. -/
def WrittenFloat (read : Str → Str × Bool) (text : Str) (nonzero : Bool) : Prop :=
  ∃ l : Literal, l.Fits ∧ l.IsFloat ∧ l.text = text ∧ read text = (text,nonzero)

/-- How the interpreter reads the literal of a float: the `repr` of the float, and whether it
is other than zero. A float is infinite, or its `repr` is a literal of the same float. -/
structure Floats where
  read : Str → Str × Bool
  exact : ∀ l : Literal, l.Fits → l.IsFloat →
    (isInfinite (read l.text).1 ∧ (read l.text).2 = true) ∨
      WrittenFloat read (read l.text).1 (read l.text).2

/-- The names of values other than numbers, and of the floats that have no literal. -/
def constants : List (Str × Value) :=
  [(lit "null",.none),(lit "true",.bool true),(lit "false",.bool false),
    (lit "NaN",.float (lit "nan") true),(lit "Infinity",.float (lit "inf") true),
    (lit "-Infinity",.float (lit "-inf") true)]

/-- What `json.loads` raises: for a text that is no JSON, for an integer of too many digits, and
for brackets that are nested too deep. Only the first is a `JSONDecodeError`. -/
inductive LoadsError
  | decodeError
  | valueError
  | recursionError
  deriving DecidableEq

/-- The interpreter that runs the program. -/
structure Interpreter where
  floats : Floats
  /-- `sys.get_int_max_str_digits()`, if there is a limit. -/
  digits : Option ℕ
  /-- How many brackets around each other `json.loads` follows. -/
  depth : ℕ
  /-- How many `json.dumps` with an indentation does. -/
  dumpDepth : ℕ

/-- Every literal of a float is out of range here. -/
def largeFloats : Floats := ⟨fun _ => (lit "inf",true),fun _ _ _ => .inl ⟨.inl rfl,rfl⟩⟩

def exampleInterpreter : Interpreter := ⟨largeFloats,some 4300,990,980⟩

/-- `int(digits)` does not raise. -/
def Interpreter.Converts (python : Interpreter) (digits : Str) : Prop :=
  ∀ limit ∈ python.digits, digits.length ≤ limit

instance (python : Interpreter) (digits : Str) : Decidable (python.Converts digits) :=
  inferInstanceAs (Decidable (∀ limit ∈ python.digits, _))

def Literal.value (python : Interpreter) (l : Literal) : Except LoadsError Value :=
  if l.IsFloat then .ok (.float (python.floats.read l.text).1 (python.floats.read l.text).2)
  else if python.Converts l.whole then .ok (.int l.int)
  else .error .valueError

/-- What a scanner finds, or that the text is no JSON. -/
def orDecodeError {α : Type} : Option α → Except LoadsError α
  | some a => .ok a
  | none => .error .decodeError

/-- An opening bracket: how many more may follow inside of it. -/
def enter : ℕ → Except LoadsError ℕ
  | 0 => .error .recursionError
  | depth + 1 => .ok depth

def scanAtom (python : Interpreter) (s : Str) : Except LoadsError (Value × Str) :=
  match constants.find? (fun p => startsWith p.1 s) with
  | some p => .ok (p.2,s.drop p.1.length)
  | none => do
    let (l,rest) ← orDecodeError (scanLiteral s)
    let value ← l.value python
    return (value,rest)

mutual

/-- A value, with no more than `depth` brackets around each other. -/
def scanValue (python : Interpreter) : ℕ → ℕ → Str → Except LoadsError (Value × Str)
  | 0, _, _ => .error .decodeError
  | n + 1, depth, s =>
    match s with
    | [] => .error .decodeError
    | c :: rest =>
      if c = quoteMark then do
        let (us,rest) ← orDecodeError (scanString n rest)
        return (.str (fromUtf16 us),rest)
      else if c.val = 0x7b then do
        let depth ← enter depth
        if (skip rest).head? = some 0x7d then return (.dict [],(skip rest).tail)
        else
          let (members,rest) ← scanMembers python n depth (skip rest)
          return (.dict (Dict.ofPairs members),rest)
      else if c.val = 0x5b then do
        let depth ← enter depth
        if (skip rest).head? = some 0x5d then return (.list [],(skip rest).tail)
        else
          let (items,rest) ← scanItems python n depth (skip rest)
          return (.list items,rest)
      else scanAtom python (c :: rest)

/-- The items of a list that has some, and its closing bracket. -/
def scanItems (python : Interpreter) : ℕ → ℕ → Str → Except LoadsError (List Value × Str)
  | 0, _, _ => .error .decodeError
  | n + 1, depth, s => do
    let (value,rest) ← scanValue python n depth s
    if (skip rest).head? = some 0x5d then return ([value],(skip rest).tail)
    else if (skip rest).head? = some 0x2c then
      let (items,rest) ← scanItems python n depth (skip (skip rest).tail)
      return (value :: items,rest)
    else .error .decodeError

/-- The members of an object that has some, and its closing brace. -/
def scanMembers (python : Interpreter) :
    ℕ → ℕ → Str → Except LoadsError (List (Str × Value) × Str)
  | 0, _, _ => .error .decodeError
  | n + 1, depth, s =>
    if s.head? = some quoteMark then do
      let (key,rest) ← orDecodeError (scanString n s.tail)
      if (skip rest).head? = some 0x3a then
        let (value,rest) ← scanValue python n depth (skip (skip rest).tail)
        if (skip rest).head? = some 0x7d then
          return ([(fromUtf16 key,value)],(skip rest).tail)
        else if (skip rest).head? = some 0x2c then
          let (members,rest) ← scanMembers python n depth (skip (skip rest).tail)
          return ((fromUtf16 key,value) :: members,rest)
        else .error .decodeError
      else .error .decodeError
    else .error .decodeError

end

/-- `json.loads(text)`. A text must not start with a byte order mark. -/
def loads (python : Interpreter) (text : Str) : Except LoadsError Value := do
  if text.head? = some 0xfeff then .error .decodeError
  else
    let (value,rest) ← scanValue python (2 * text.length + 2) python.depth (skip text)
    if skip rest = [] then return value else .error .decodeError

end HearthAI.Python
