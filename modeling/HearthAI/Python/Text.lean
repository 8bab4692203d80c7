import HearthAI.Contracts.Text

/-! # Python strings

A `str` is a sequence of code points, lone surrogates included. White space and
line boundaries are the sets of `str.isspace` and `str.splitlines`.
-/
namespace HearthAI.Python
open Text

abbrev CodePoint := Fin 0x110000
abbrev Str := List CodePoint

instance codePoint_neZero : NeZero 0x110000 := ⟨by decide⟩
instance codePoint_lawfulBEq : LawfulBEq CodePoint := inferInstance
instance str_lawfulBEq : LawfulBEq Str := inferInstance

def ofChar (c : Char) : CodePoint :=
  ⟨c.toNat,by
    have h := c.valid
    simp only [UInt32.isValidChar,Nat.isValidChar] at h
    have hn : c.toNat = c.val.toNat := rfl
    omega⟩

/-- The last decimal digit of a number is a code point. -/
theorem digit_lt (n : ℕ) : 48 + n % 10 < 0x110000 := by omega

/-- A string literal. -/
def lit (s : String) : Str := s.toList.map ofChar

def lineFeed : CodePoint := 10
def carriageReturn : CodePoint := 13

def isSpace (c : CodePoint) : Bool :=
  let n := c.val
  (9 ≤ n && n ≤ 13) || (0x1c ≤ n && n ≤ 0x20) || n == 0x85 || n == 0xa0 || n == 0x1680 ||
    (0x2000 ≤ n && n ≤ 0x200a) || n == 0x2028 || n == 0x2029 || n == 0x202f || n == 0x205f ||
    n == 0x3000

def isLineBreak (c : CodePoint) : Bool :=
  let n := c.val
  (10 ≤ n && n ≤ 13) || (0x1c ≤ n && n ≤ 0x1e) || n == 0x85 || n == 0x2028 || n == 0x2029

/-- A string that `splitlines` does not split. -/
def OneLine (s : Str) : Prop := ∀ c ∈ s, isLineBreak c = false

-- Not the instance that tries every code point.
instance (s : Str) : Decidable (OneLine s) :=
  decidable_of_iff (s.all (fun c => !isLineBreak c) = true) (by simp [OneLine])

def strip (s : Str) : Str := trimMatches isSpace s
def stripOf (c : CodePoint) (s : Str) : Str := trimMatches (· == c) s
def rstripOf (c : CodePoint) (s : Str) : Str := (s.reverse.dropWhile (· == c)).reverse

/-- The newline translation of a file opened for reading as text. -/
def translateFrom (afterReturn : Bool) : Str → Str
  | [] => []
  | c :: rest =>
    if c = carriageReturn then lineFeed :: translateFrom true rest
    else if c = lineFeed ∧ afterReturn then translateFrom false rest
    else c :: translateFrom false rest

def universalNewlines (s : Str) : Str := translateFrom false s

/-- Put a character in front of the first line. -/
def consLine (c : CodePoint) : List Str → List Str
  | [] => [[c]]
  | line :: lines => (c :: line) :: lines

def breakLines : Str → List Str
  | [] => []
  | c :: rest => if isLineBreak c then [] :: breakLines rest else consLine c (breakLines rest)

/-- `str.splitlines`, which takes a return and a line feed for one boundary. -/
def splitlines (s : Str) : List Str := breakLines (universalNewlines s)

/-- `sep.join(parts)`. -/
def join (sep : Str) (parts : List Str) : Str := sep.intercalate parts

def startsWith (lead s : Str) : Bool := lead.isPrefixOf s
def endsWith (tail s : Str) : Bool := tail.isSuffixOf s

/-- `str.partition` at one character: what is before it, whether it is there, what is after. -/
def partition (c : CodePoint) (s : Str) : Str × Bool × Str :=
  (s.takeWhile (· != c),s.contains c,(s.dropWhile (· != c)).tail)

def isSafe (c : CodePoint) : Bool := (97 ≤ c.val && c.val ≤ 122) || (48 ≤ c.val && c.val ≤ 57)

/-- `str.lower` as far as its result is in `[a-z0-9]`. All other characters have lower
cases outside that set, as the characters themselves are. -/
def lower (s : Str) : Str :=
  s.flatMap (fun c =>
    if h : 65 ≤ c.val ∧ c.val ≤ 90 then [⟨c.val + 32,by omega⟩]
    else if c.val = 0x130 then [105,0x307]
    else if c.val = 0x212a then [107]
    else [c])

/-- `re.sub(r"[^a-z0-9]+", sub, s)`. -/
def safeSubFrom (sub : Str) (inRun : Bool) : Str → Str
  | [] => []
  | c :: rest =>
    if isSafe c then c :: safeSubFrom sub false rest
    else if inRun then safeSubFrom sub true rest
    else sub ++ safeSubFrom sub true rest

def safeSub (sub s : Str) : Str := safeSubFrom sub false s

/-- `str.split()` of a string whose only white space is the space. -/
def splitSpaces (s : Str) : List Str := (s.splitOn 32).filter (· ≠ [])

def toChar (c : CodePoint) : Option Char :=
  if h : c.val.isValidChar then some (Char.ofNatAux c.val h) else none

/-- The bytes of the strict UTF-8 encoding. A lone surrogate has none. -/
def encodeUtf8 (s : Str) : Option Bytes := (s.mapM toChar).map (·.flatMap String.utf8EncodeChar)

def Utf8Encodable (s : Str) : Prop := (encodeUtf8 s).isSome = true

instance (s : Str) : Decidable (Utf8Encodable s) :=
  inferInstanceAs (Decidable ((encodeUtf8 s).isSome = true))

/-- Lexicographic order by code points. -/
def le (s t : Str) : Bool := decide (s ≤ t)

section
variable {s t : Str} {c : CodePoint}

theorem oneLine_append : OneLine (s ++ t) ↔ OneLine s ∧ OneLine t := List.forall_mem_append
theorem oneLine_cons : OneLine (c :: s) ↔ isLineBreak c = false ∧ OneLine s := List.forall_mem_cons

theorem OneLine.no_return (h : OneLine s) : carriageReturn ∉ s := fun hmem => by
  have := h _ hmem
  revert this
  decide

theorem translate_append (h : carriageReturn ∉ s) (t : Str) :
    universalNewlines (s ++ t) = s ++ universalNewlines t := by
  unfold universalNewlines
  induction s with
  | nil => rfl
  | cons c s ih =>
    rw [List.mem_cons,not_or] at h
    rw [List.cons_append,translateFrom,if_neg (Ne.symm h.1),if_neg (by simp),ih h.2,
      List.cons_append]

theorem breakLines_line (hs : OneLine s) (hc : isLineBreak c = true) (rest : Str) :
    breakLines (s ++ c :: rest) = s :: breakLines rest := by
  induction s with
  | nil => rw [List.nil_append,breakLines,if_pos hc]
  | cons d s ih =>
    obtain ⟨hd,hs⟩ := oneLine_cons.mp hs
    rw [List.cons_append,breakLines,hd,ih hs]
    rfl

theorem breakLines_lines {lines : List Str} (h : ∀ line ∈ lines, OneLine line) (rest : Str) :
    breakLines (lines.flatMap (· ++ [lineFeed]) ++ rest) = lines ++ breakLines rest := by
  induction lines with
  | nil => rfl
  | cons line lines ih =>
    obtain ⟨hline,hlines⟩ := List.forall_mem_cons.mp h
    rw [List.flatMap_cons,List.append_assoc,List.append_assoc,List.singleton_append,
      breakLines_line hline (by decide),ih hlines,List.cons_append]

/-- Joining with line feeds, and one more at the end, ends every line. -/
theorem join_lineFeed (line : Str) (lines : List Str) :
    join [lineFeed] (line :: lines) ++ [lineFeed] = (line :: lines).flatMap (· ++ [lineFeed]) := by
  induction lines generalizing line with
  | nil => simp [join]
  | cons next lines ih =>
    have hstep : join [lineFeed] (line :: next :: lines) =
        line ++ [lineFeed] ++ join [lineFeed] (next :: lines) := by simp [join]
    rw [hstep,List.append_assoc,ih]
    rfl

/-- No line contains a line boundary. -/
theorem oneLine_of_mem_breakLines {line : Str} (h : line ∈ breakLines s) : OneLine line := by
  induction s generalizing line with
  | nil => cases h
  | cons c s ih =>
    rw [breakLines] at h
    split_ifs at h with hc
    · rcases List.mem_cons.mp h with rfl | h
      · intro d hd
        cases hd
      · exact ih h
    · rcases hlines : breakLines s with _ | ⟨first,lines⟩
      · rw [hlines] at h
        rw [List.mem_singleton.mp h]
        exact oneLine_cons.mpr ⟨by simpa using hc,fun d hd => by cases hd⟩
      · rw [hlines] at h ih
        rcases List.mem_cons.mp h with rfl | h
        · exact oneLine_cons.mpr ⟨by simpa using hc,ih List.mem_cons_self⟩
        · exact ih (List.mem_cons_of_mem _ h)

theorem strip_of_ends (hhead : ∀ c, s.head? = some c → isSpace c = false)
    (hlast : ∀ c, s.getLast? = some c → isSpace c = false) : strip s = s :=
  trimMatches_of_ends hhead hlast

theorem toChar_isSome : (toChar c).isSome = true ↔ c.val.isValidChar := by
  unfold toChar
  split_ifs with h <;> simp [h]

theorem encodable_cons : Utf8Encodable (c :: s) ↔ c.val.isValidChar ∧ Utf8Encodable s := by
  rw [← toChar_isSome]
  unfold Utf8Encodable encodeUtf8
  rw [List.mapM_cons]
  cases toChar c with
  | none => simp
  | some d => cases s.mapM toChar <;> simp

theorem encodable_iff : Utf8Encodable s ↔ ∀ c ∈ s, c.val.isValidChar := by
  induction s with
  | nil => simp [Utf8Encodable,encodeUtf8]
  | cons c s ih => rw [encodable_cons,ih,List.forall_mem_cons]

theorem encodable_append : Utf8Encodable (s ++ t) ↔ Utf8Encodable s ∧ Utf8Encodable t := by
  simp only [encodable_iff]
  exact List.forall_mem_append

theorem isValidChar_of_ascii (h : c.val < 128) : c.val.isValidChar := .inl (by omega)

theorem val_ofChar (c : Char) : (ofChar c).val = c.toNat := rfl

/-- Literals written with ASCII characters only. -/
def IsAscii (s : Str) : Prop := ∀ c ∈ s, c.val < 128

instance (s : Str) : Decidable (IsAscii s) :=
  decidable_of_iff (s.all (fun c => decide (c.val < 128)) = true) (by simp [IsAscii])

theorem isAscii_append : IsAscii (s ++ t) ↔ IsAscii s ∧ IsAscii t := List.forall_mem_append

theorem IsAscii.encodable (h : IsAscii s) : Utf8Encodable s :=
  encodable_iff.mpr (fun c hc => isValidChar_of_ascii (h c hc))

/-- The encoding determines the string. -/
theorem encodeUtf8_injective {bytes : Bytes} (hs : encodeUtf8 s = some bytes)
    (ht : encodeUtf8 t = some bytes) : s = t := by
  have hchars : ∀ {u : Str} {cs : List Char}, u.mapM toChar = some cs → u = cs.map ofChar := by
    intro u
    induction u with
    | nil =>
      intro cs h
      obtain rfl : cs = [] := by simpa using h.symm
      rfl
    | cons c u ih =>
      intro cs h
      rw [List.mapM_cons] at h
      cases hc : toChar c with
      | none => simp [hc] at h
      | some d =>
        cases hu : u.mapM toChar with
        | none => simp [hc,hu] at h
        | some ds =>
          obtain rfl : cs = d :: ds := by simpa [hc,hu] using h.symm
          have hd : c = ofChar d := by
            unfold toChar at hc
            split_ifs at hc with hvalid
            rw [← Option.some.inj hc]
            rfl
          rw [List.map_cons,← ih hu,← hd]
  obtain ⟨cs,hcs,hbytes⟩ := Option.map_eq_some_iff.mp hs
  obtain ⟨ds,hds,hbytes'⟩ := Option.map_eq_some_iff.mp ht
  have hsame : String.ofList cs = String.ofList ds := by
    apply asBytes_injective
    simp only [asBytes,String.toList_ofList,hbytes,hbytes']
  rw [hchars hcs,hchars hds,String.ofList_injective hsame]

end
end HearthAI.Python
