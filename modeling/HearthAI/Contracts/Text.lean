import Mathlib

/-! # Strings and bytes as the Rust crates handle them

Lengths are counted in bytes of the UTF-8 encoding and trimming removes Unicode
white space, as `str::len` and `str::trim` do. Lower-casing is ASCII only.
-/
namespace HearthAI.Text

abbrev Bytes := List UInt8

/-- `str::as_bytes`. -/
def asBytes (s : String) : Bytes := s.toList.flatMap String.utf8EncodeChar

/-- `str::len`, which counts bytes. -/
def len (s : String) : ℕ := (asBytes s).length

@[simp] theorem asBytes_empty : asBytes "" = [] := rfl

@[simp] theorem asBytes_append (s t : String) : asBytes (s ++ t) = asBytes s ++ asBytes t := by
  simp [asBytes]

/-- A cut of single-byte characters is a cut of the text. -/
theorem asBytes_take {l : List Char} (h : ∀ c ∈ l, (String.utf8EncodeChar c).length = 1) (n : ℕ) :
    (asBytes (String.ofList l)).take n = asBytes (String.ofList (l.take n)) := by
  simp only [asBytes,String.toList_ofList]
  induction l generalizing n with
  | nil => simp
  | cons c l ih =>
    obtain ⟨hc,hl⟩ := List.forall_mem_cons.mp h
    cases n with
    | zero => simp
    | succ n => rw [List.take_succ_cons,List.flatMap_cons,List.flatMap_cons,List.take_append,hc,
        Nat.add_sub_cancel,ih hl,List.take_of_length_le (by omega)]

theorem len_of_single {l : List Char} (h : ∀ c ∈ l, (String.utf8EncodeChar c).length = 1) :
    len (String.ofList l) = l.length := by
  simp only [len,asBytes,String.toList_ofList]
  induction l with
  | nil => rfl
  | cons c l ih =>
    obtain ⟨hc,hl⟩ := List.forall_mem_cons.mp h
    rw [List.flatMap_cons,List.length_append,hc,ih hl,List.length_cons,Nat.add_comm]

theorem toByteArray_eq (s : String) : s.toByteArray = (asBytes s).toByteArray := by
  rw [← String.utf8Encode_toList,List.utf8Encode,asBytes]

theorem asBytes_injective : Function.Injective asBytes := by
  intro s t h
  rw [← String.toByteArray_inj,toByteArray_eq,toByteArray_eq,h]

/-- `String::from_utf8`. -/
def fromUtf8 (bytes : Bytes) : Option String := String.fromUTF8? bytes.toByteArray

theorem asBytes_of_fromUtf8 {bytes : Bytes} {s : String} (h : fromUtf8 bytes = some s) :
    asBytes s = bytes := by
  unfold fromUtf8 String.fromUTF8? at h
  split_ifs at h with hvalid
  have hbytes := toByteArray_eq s
  rw [← Option.some.inj h,String.fromUTF8] at hbytes
  have hlist := congrArg (fun a => a.data.toList) hbytes
  simp only [List.toList_data_toByteArray] at hlist
  rw [hlist,← Option.some.inj h,String.fromUTF8]

theorem fromUtf8_asBytes (s : String) : fromUtf8 (asBytes s) = some s := by
  unfold fromUtf8 String.fromUTF8?
  rw [← toByteArray_eq,dif_pos s.isValidUTF8]
  rfl

/-- The Unicode property `White_Space`. -/
def isWhitespace (c : Char) : Bool :=
  let n := c.toNat
  (9 ≤ n && n ≤ 13) || n == 0x20 || n == 0x85 || n == 0xa0 || n == 0x1680 ||
    (0x2000 ≤ n && n ≤ 0x200a) || n == 0x2028 || n == 0x2029 || n == 0x202f || n == 0x205f ||
    n == 0x3000

/-- The Unicode category `Cc`, which is what `char::is_control` tests. -/
def isControl (c : Char) : Bool :=
  c.toNat ≤ 0x1f || (0x7f ≤ c.toNat && c.toNat ≤ 0x9f)

def isAscii (c : Char) : Bool := c.toNat < 0x80
def isAsciiDigit (c : Char) : Bool := '0' ≤ c && c ≤ '9'
def isAsciiLowercase (c : Char) : Bool := 'a' ≤ c && c ≤ 'z'

/-- Drop the elements that satisfy `p` from both ends. -/
def trimMatches {α : Type} (p : α → Bool) (l : List α) : List α :=
  ((l.dropWhile p).reverse.dropWhile p).reverse

theorem trimMatches_of_ends {α : Type} {p : α → Bool} {l : List α}
    (hhead : ∀ a, l.head? = some a → p a = false) (hlast : ∀ a, l.getLast? = some a → p a = false) :
    trimMatches p l = l := by
  have hleft : l.dropWhile p = l := by
    cases l with
    | nil => rfl
    | cons a rest => simp [hhead a rfl]
  have hright : l.reverse.dropWhile p = l.reverse := by
    cases hr : l.reverse with
    | nil => rfl
    | cons a rest =>
      have ha : l.getLast? = some a := by rw [← List.head?_reverse,hr]; rfl
      simp [hlast a ha]
  rw [trimMatches,hleft,hright,List.reverse_reverse]

theorem trimMatches_of_forall {α : Type} {p : α → Bool} {l : List α} (h : ∀ a ∈ l, p a = false) :
    trimMatches p l = l :=
  trimMatches_of_ends (fun a ha => h a (List.mem_of_mem_head? ha))
    (fun a ha => h a (List.mem_of_mem_getLast? ha))

theorem trimMatches_cons {α : Type} {p : α → Bool} {a : α} (h : p a = true) (l : List α) :
    trimMatches p (a :: l) = trimMatches p l := by
  rw [trimMatches,List.dropWhile_cons_of_pos h,trimMatches]

theorem head?_trimMatches_eq_false {α : Type} {p : α → Bool} {a : α} {l : List α}
    (h : (trimMatches p l).head? = some a) : p a = false := by
  have hstart : trimMatches p l <+: l.dropWhile p := by
    rw [trimMatches,← List.reverse_suffix,List.reverse_reverse]
    exact List.dropWhile_suffix p
  obtain ⟨rest,hrest⟩ := hstart
  have hfirst := List.head?_dropWhile_not p l
  rwa [← hrest,List.head?_append,h] at hfirst

theorem getLast?_trimMatches_eq_false {α : Type} {p : α → Bool} {a : α} {l : List α}
    (h : (trimMatches p l).getLast? = some a) : p a = false := by
  have hfirst := List.head?_dropWhile_not p (l.dropWhile p).reverse
  rwa [← List.getLast?_reverse,← trimMatches,h] at hfirst

section
variable {α β : Type} {p : α → Bool} {q : β → Bool} {f : α → List β}

/-- Dropping blocks that are all of one kind is dropping their elements. -/
theorem dropWhile_flatMap (hkind : ∀ a, ∀ b ∈ f a, q b = p a) (hnonempty : ∀ a, f a ≠ [])
    (l : List α) : (l.flatMap f).dropWhile q = (l.dropWhile p).flatMap f := by
  induction l with
  | nil => rfl
  | cons a l ih =>
    rw [List.flatMap_cons]
    cases ha : p a with
    | true =>
      have hall : ∀ b ∈ f a, q b = true := fun b hb => (hkind a b hb).trans ha
      rw [List.dropWhile_append_of_pos hall,List.dropWhile_cons_of_pos ha,ih]
    | false =>
      obtain ⟨b,rest,hb⟩ := List.exists_cons_of_ne_nil (hnonempty a)
      have hfirst : ¬q b = true := by
        rw [hkind a b (by rw [hb]; exact List.mem_cons_self),ha]
        exact Bool.false_ne_true
      rw [List.dropWhile_cons_of_neg (by rw [ha]; exact Bool.false_ne_true),List.flatMap_cons,hb,
        List.cons_append,List.dropWhile_cons_of_neg hfirst]

theorem trimMatches_flatMap (hkind : ∀ a, ∀ b ∈ f a, q b = p a) (hnonempty : ∀ a, f a ≠ [])
    (l : List α) : trimMatches q (l.flatMap f) = (trimMatches p l).flatMap f := by
  have hkind' : ∀ a, ∀ b ∈ (List.reverse ∘ f) a, q b = p a :=
    fun a b hb => hkind a b (List.mem_reverse.mp hb)
  have hnonempty' : ∀ a, (List.reverse ∘ f) a ≠ [] :=
    fun a => List.reverse_ne_nil_iff.mpr (hnonempty a)
  rw [trimMatches,dropWhile_flatMap hkind hnonempty,List.reverse_flatMap,
    dropWhile_flatMap hkind' hnonempty',List.reverse_flatMap,trimMatches]
  refine List.flatMap_congr fun a _ => ?_
  exact List.reverse_reverse (f a)

/-- Keeping blocks that are all of one kind is keeping their elements. -/
theorem filter_flatMap_of_kind (hkind : ∀ a, ∀ b ∈ f a, q b = p a) (l : List α) :
    (l.flatMap f).filter q = (l.filter p).flatMap f := by
  induction l with
  | nil => rfl
  | cons a l ih =>
    rw [List.flatMap_cons,List.filter_append,ih]
    cases ha : p a with
    | true =>
      rw [List.filter_cons_of_pos ha,List.flatMap_cons,
        List.filter_eq_self.mpr fun b hb => (hkind a b hb).trans ha]
    | false =>
      rw [List.filter_cons_of_neg (by rw [ha]; exact Bool.false_ne_true),
        List.filter_eq_nil_iff.mpr fun b hb => by rw [hkind a b hb,ha]; exact Bool.false_ne_true,
        List.nil_append]

end

/-- `str::trim`. -/
def trim (s : String) : String := String.ofList (trimMatches isWhitespace s.toList)

theorem trim_of_forall {s : String} (h : ∀ c ∈ s.toList, isWhitespace c = false) : trim s = s := by
  rw [trim,trimMatches_of_forall h,String.ofList_toList]

/-- `str::trim_matches` with one character. -/
def trimChar (c : Char) (s : String) : String := String.ofList (trimMatches (· == c) s.toList)

/-- `str::to_ascii_lowercase`. -/
def toAsciiLowercase (s : String) : String := String.ofList (s.toList.map Char.toLower)

/-- `str::split` at one character. -/
def split (c : Char) (s : String) : List String := (s.toList.splitOn c).map String.ofList

theorem split_of_not_mem {c : Char} {s : String} (h : c ∉ s.toList) : split c s = [s] := by
  rw [split,List.splitOn_eq_singleton h,List.map_singleton,String.ofList_toList]

theorem split_append {c : Char} {s : String} (h : c ∉ s.toList) (t : String) :
    split c (s ++ String.singleton c ++ t) = s :: split c t := by
  have hlist : (s ++ String.singleton c ++ t).toList = s.toList ++ c :: t.toList := by simp
  rw [split,hlist,List.splitOn_append_cons_self_of_not_mem h,List.map_cons,String.ofList_toList,split]

/-- `str::split_once` at one character. -/
def splitOnce (c : Char) (s : String) : Option (String × String) :=
  match s.toList.dropWhile (· != c) with
  | [] => none
  | _ :: rest => some (String.ofList (s.toList.takeWhile (· != c)),String.ofList rest)

/-- `str::strip_prefix` with a string. -/
def stripPrefix (lead : String) (s : String) : Option String :=
  if lead.toList.isPrefixOf s.toList then some (String.ofList (s.toList.drop lead.length)) else none

def digitValue (c : Char) : Option ℕ :=
  if '0' ≤ c ∧ c ≤ '9' then some (c.toNat - '0'.toNat)
  else if 'a' ≤ c ∧ c ≤ 'z' then some (c.toNat - 'a'.toNat + 10)
  else if 'A' ≤ c ∧ c ≤ 'Z' then some (c.toNat - 'A'.toNat + 10)
  else none

/-- Add one digit, refusing a foreign digit and an overflow of `width` bits. -/
def pushDigit (width radix value : ℕ) (c : Char) : Option ℕ :=
  match digitValue c with
  | none => none
  | some d =>
    if d < radix ∧ value * radix + d < 2 ^ width then some (value * radix + d) else none

/-- `from_str_radix` of an unsigned type, which also accepts one leading plus sign. -/
def fromStrRadix (width : ℕ) (digits : List Char) (radix : ℕ) : Option ℕ :=
  match digits with
  | [] => none
  | ['+'] => none
  | '+' :: rest => rest.foldlM (pushDigit width radix) 0
  | digits => digits.foldlM (pushDigit width radix) 0

end HearthAI.Text
