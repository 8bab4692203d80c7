import HearthAI.Contracts.Text

/-! # Inspection-only views of the response

Both views are scanned and then discarded.
-/
namespace HearthAI.Inspect
open Text

/-- `char::from_u32`. -/
def charFromU32 (n : ℕ) : Option Char :=
  if h : n.isValidChar then some (Char.ofNatAux n h) else none

def resolveEntity (reference : List Char) : Option Char :=
  match reference with
  | '#' :: 'x' :: digits => (fromStrRadix 32 digits 16).bind charFromU32
  | '#' :: 'X' :: digits => (fromStrRadix 32 digits 16).bind charFromU32
  | '#' :: digits => (fromStrRadix 32 digits 10).bind charFromU32
  | reference =>
    if reference = ['a','m','p'] then some '&'
    else if reference = ['l','t'] then some '<'
    else if reference = ['g','t'] then some '>'
    else if reference = ['q','u','o','t'] then some '"'
    else if reference = ['a','p','o','s'] then some '\''
    else if reference = ['n','b','s','p'] then some ' '
    else if reference = ['h','e','l','l','i','p'] then some '.'
    else none

/-- The body of a reference that opens at an ampersand, and what follows its semicolon.
The semicolon is found within the first twelve bytes of the tail or not at all. -/
def splitReference (tail : List Char) : Option (List Char × List Char) :=
  match tail.dropWhile (· != ';') with
  | [] => none
  | _ :: rest =>
    let reference := tail.takeWhile (· != ';')
    if 1 + (reference.flatMap String.utf8EncodeChar).length ≤ 12 then some (reference,rest)
    else none

theorem splitReference_length {tail reference rest : List Char}
    (h : splitReference tail = some (reference,rest)) : rest.length < tail.length := by
  unfold splitReference at h
  split at h
  · cases h
  · rename_i c rest' hdrop
    have hlen := (List.dropWhile_suffix (l := tail) (· != ';')).length_le
    rw [hdrop,List.length_cons] at hlen
    dsimp only at h
    split at h
    · cases h
      omega
    · cases h

/-- The loop of `decode_entities` over what is left of the text. -/
def decodeReferences (rest : List Char) : List Char :=
  match rest with
  | [] => []
  | c :: tail =>
    if c = '&' then
      match _h : splitReference tail with
      | some (reference,rest) =>
        (match resolveEntity reference with
        | some character => [character]
        | none => '&' :: reference ++ [';']) ++ decodeReferences rest
      | none => '&' :: decodeReferences tail
    else c :: decodeReferences tail
termination_by rest.length
decreasing_by
  · have := splitReference_length _h
    simp only [List.length_cons]
    omega
  · simp
  · simp

/-- Decode HTML character references. Unknown ones are left as they are. -/
def decodeEntities (text : String) : String := String.ofList (decodeReferences text.toList)

/-- What one character folds to, if anything. -/
def deobfuscateChar (character : Char) : Option Char :=
  let n := character.toNat
  if n = 0xad ∨ (0x200b ≤ n ∧ n ≤ 0x200f) ∨ (0x2060 ≤ n ∧ n ≤ 0x2064) ∨ n = 0xfeff then none
  else if 0xff01 ≤ n ∧ n ≤ 0xff5e then charFromU32 (n - 0xfee0)
  else if n = 0xa0 ∨ n = 0x1680 ∨ (0x2000 ≤ n ∧ n ≤ 0x200a) ∨ n = 0x202f ∨ n = 0x205f ∨
      n = 0x3000 then some ' '
  else if n = 0x2018 ∨ n = 0x2019 ∨ n = 0x201b ∨ n = 0x2032 then some '\''
  else if n = 0x201c ∨ n = 0x201d ∨ n = 0x201f ∨ n = 0x2033 then some '"'
  else if (0x2010 ≤ n ∧ n ≤ 0x2015) ∨ n = 0x2212 then some '-'
  else some character

/-- Fold away the characters that hide a phrase from a literal pattern. -/
def deobfuscate (text : String) : String :=
  String.ofList (text.toList.filterMap deobfuscateChar)

end HearthAI.Inspect
