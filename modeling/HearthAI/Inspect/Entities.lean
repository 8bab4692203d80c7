import HearthAI.Inspect.Normalize

/-! # What decoding character references amounts to

The loop looks for the first semicolon behind an ampersand, so a text falls apart at its
semicolons: in each stretch up to one, the first ampersand in reach opens the reference.
-/
namespace HearthAI.Inspect
open Text

/-- One more digit of a numeral. -/
def pushNumeral (base n : ℕ) (c : Char) : Option ℕ := do
  let d ← digitValue c
  if d < base then some (n * base + d) else none

/-- The number that some digits write in a base. -/
def numeral (base : ℕ) (digits : List Char) : Option ℕ :=
  if digits = [] then none else digits.foldlM (pushNumeral base) 0

/-- The named references of the table. -/
def namedReferences : List (List Char × Char) :=
  [(['a','m','p'],'&'),(['l','t'],'<'),(['g','t'],'>'),(['q','u','o','t'],'"'),
    (['a','p','o','s'],'\''),(['n','b','s','p'],' '),(['h','e','l','l','i','p'],'.')]

/-- What the body of a reference stands for, when it is a name or written in digits. -/
def denotes : List Char → Option Char
  | '#' :: 'x' :: digits => (numeral 16 digits).bind charFromU32
  | '#' :: 'X' :: digits => (numeral 16 digits).bind charFromU32
  | '#' :: digits => (numeral 10 digits).bind charFromU32
  | name => namedReferences.lookup name

/-- Digits with a plus sign in front, which the code takes as well. -/
def signedNumeral (base : ℕ) : List Char → Option ℕ
  | '+' :: digits => numeral base digits
  | _ => none

def signedReference : List Char → Option Char
  | '#' :: 'x' :: digits => (signedNumeral 16 digits).bind charFromU32
  | '#' :: 'X' :: digits => (signedNumeral 16 digits).bind charFromU32
  | '#' :: digits => (signedNumeral 10 digits).bind charFromU32
  | _ => none

section
variable {base : ℕ} {digits : List Char} {c : Char} {n m : ℕ}

theorem pushNumeral_eq_some : pushNumeral base n c = some m ↔
    ∃ d, digitValue c = some d ∧ d < base ∧ n * base + d = m := by
  unfold pushNumeral
  cases digitValue c with
  | none => simp
  | some d => simp

theorem pushDigit_eq_some {w : ℕ} : pushDigit w base n c = some m ↔
    pushNumeral base n c = some m ∧ m < 2 ^ w := by
  unfold pushDigit
  rw [pushNumeral_eq_some]
  cases digitValue c with
  | none => simp
  | some d =>
    simp only [Option.some.injEq,exists_eq_left',Option.ite_none_right_eq_some]
    constructor
    · rintro ⟨⟨hd,hlt⟩,rfl⟩
      exact ⟨⟨hd,rfl⟩,hlt⟩
    · rintro ⟨⟨hd,rfl⟩,hlt⟩
      exact ⟨⟨hd,hlt⟩,rfl⟩

theorem le_of_foldlM_pushNumeral (hbase : 0 < base)
    (h : digits.foldlM (pushNumeral base) n = some m) : n ≤ m := by
  induction digits generalizing n with
  | nil => exact Nat.le_of_eq (Option.some.inj h)
  | cons c digits ih =>
    rw [List.foldlM_cons] at h
    obtain ⟨k,hpush,hrest⟩ := Option.bind_eq_some_iff.mp h
    obtain ⟨d,_,_,rfl⟩ := pushNumeral_eq_some.mp hpush
    have hle := ih hrest
    have hmul : n ≤ n * base := Nat.le_mul_of_pos_right n hbase
    omega

/-- Digits overflow exactly when their number does. -/
theorem foldlM_pushDigit_eq_some {w : ℕ} (hbase : 0 < base) (hn : n < 2 ^ w) :
    digits.foldlM (pushDigit w base) n = some m ↔
      digits.foldlM (pushNumeral base) n = some m ∧ m < 2 ^ w := by
  induction digits generalizing n with
  | nil =>
    constructor
    · intro h
      exact ⟨h,Option.some.inj h ▸ hn⟩
    · exact fun h => h.1
  | cons c digits ih =>
    simp only [List.foldlM_cons,Option.bind_eq_bind,Option.bind_eq_some_iff]
    constructor
    · rintro ⟨k,hpush,hrest⟩
      obtain ⟨hpush,hk⟩ := pushDigit_eq_some.mp hpush
      obtain ⟨hrest,hm⟩ := (ih hk).mp hrest
      exact ⟨⟨k,hpush,hrest⟩,hm⟩
    · rintro ⟨⟨k,hpush,hrest⟩,hm⟩
      have hk : k < 2 ^ w := Nat.lt_of_le_of_lt (le_of_foldlM_pushNumeral hbase hrest) hm
      exact ⟨k,pushDigit_eq_some.mpr ⟨hpush,hk⟩,(ih hk).mpr ⟨hrest,hm⟩⟩

theorem numeral_of_ne_nil (h : digits ≠ []) :
    numeral base digits = digits.foldlM (pushNumeral base) 0 := if_neg h

theorem charFromU32_eq_some : charFromU32 n = some c ↔ c.toNat = n := by
  unfold charFromU32
  split_ifs with h
  · rw [Option.some.injEq]
    constructor
    · rintro rfl
      rfl
    · rintro rfl
      have hc := Char.ofNat_toNat c
      rw [Char.ofNat,dif_pos h] at hc
      exact hc
  · refine iff_of_false nofun ?_
    rintro rfl
    exact h c.valid

/-- Thirty-two bits hold every number that is a character. -/
theorem foldlM_pushDigit_bind (hbase : 0 < base) :
    (digits.foldlM (pushDigit 32 base) 0).bind charFromU32 =
      (digits.foldlM (pushNumeral base) 0).bind charFromU32 := by
  ext c
  simp only [Option.bind_eq_some_iff,foldlM_pushDigit_eq_some hbase (Nat.two_pow_pos 32)]
  constructor
  · rintro ⟨m,⟨hm,_⟩,hchar⟩
    exact ⟨m,hm,hchar⟩
  · rintro ⟨m,hm,hchar⟩
    refine ⟨m,⟨hm,?_⟩,hchar⟩
    rw [← charFromU32_eq_some.mp hchar]
    exact c.val.toNat_lt

theorem fromStrRadix_bind (hbase : 0 < base) (digits : List Char) :
    (fromStrRadix 32 digits base).bind charFromU32 =
      ((numeral base digits).bind charFromU32).or
        ((signedNumeral base digits).bind charFromU32) := by
  cases digits with
  | nil => rfl
  | cons c digits =>
    by_cases hc : c = '+'
    · have hnone : numeral base ('+' :: digits) = none := rfl
      rw [hc,hnone,Option.bind_none,Option.none_or,signedNumeral]
      cases digits with
      | nil => rfl
      | cons c digits => exact foldlM_pushDigit_bind hbase
    · have hsigned : signedNumeral base (c :: digits) = none := by
        unfold signedNumeral
        split <;> simp_all
      have hcode : fromStrRadix 32 (c :: digits) base =
          (c :: digits).foldlM (pushDigit 32 base) 0 := by
        unfold fromStrRadix
        split <;> simp_all
      rw [hsigned,Option.bind_none,Option.or_none,hcode]
      exact foldlM_pushDigit_bind hbase

theorem not_mem_of_numeral {c : Char} (hc : digitValue c = none)
    (h : numeral base digits = some n) : c ∉ digits := by
  have hfold : ∀ (digits : List Char) (k : ℕ), c ∈ digits →
      digits.foldlM (pushNumeral base) k = none := by
    intro digits
    induction digits with
    | nil => exact fun k hmem => absurd hmem List.not_mem_nil
    | cons d digits ih =>
      intro k hmem
      rw [List.foldlM_cons]
      rcases List.mem_cons.mp hmem with rfl | hmem
      · simp [pushNumeral,hc]
      · cases pushNumeral base k d with
        | none => rfl
        | some k' => exact ih k' hmem
  intro hmem
  have hne : digits ≠ [] := List.ne_nil_of_mem hmem
  rw [numeral_of_ne_nil hne,hfold digits 0 hmem] at h
  cases h

end

/-- The code takes the references, and those with a plus sign in front of their digits. -/
theorem resolveEntity_eq (body : List Char) :
    resolveEntity body = (denotes body).or (signedReference body) := by
  unfold resolveEntity
  split
  · exact fromStrRadix_bind (Nat.succ_pos 15) _
  · exact fromStrRadix_bind (Nat.succ_pos 15) _
  · rename_i digits hx hX
    rw [denotes,signedReference]
    · exact fromStrRadix_bind (Nat.succ_pos 9) _
    all_goals simp_all
  · rename_i h1 h2 hname
    rw [denotes,signedReference,namedReferences]
    · simp only [List.lookup_cons,List.lookup_nil,Option.or_none]
      split_ifs <;> simp [beq_false_of_ne, *]
    all_goals simp_all

section
variable {base : ℕ} {body digits : List Char} {c : Char} {n : ℕ}

theorem ne_nil_of_numeral (h : numeral base digits = some n) : digits ≠ [] := by
  rintro rfl
  cases h

theorem numeral_lt_of_singleton (h : numeral base [c] = some n) : n < base := by
  rw [numeral_of_ne_nil (List.cons_ne_nil c []),List.foldlM_cons] at h
  obtain ⟨k,hpush,hk⟩ := Option.bind_eq_some_iff.mp h
  obtain ⟨d,_,hd,hsum⟩ := pushNumeral_eq_some.mp hpush
  have hkn : k = n := Option.some.inj hk
  omega

/-- What a reference looks like. -/
structure Shaped (body : List Char) (c : Char) : Prop where
  plus : '+' ∉ body
  ampersand : '&' ∉ body
  length : 2 ≤ body.length
  long : c = '&' → 3 ≤ body.length

theorem denotes_shaped (h : denotes body = some c) : Shaped body c := by
  have hdigits : ∀ {digits : List Char} {base : ℕ},
      (numeral base digits).bind charFromU32 = some c →
        ∃ n, numeral base digits = some n ∧ '+' ∉ digits ∧ '&' ∉ digits ∧
          0 < digits.length ∧ c.toNat = n := by
    intro digits base h
    obtain ⟨n,hn,hc⟩ := Option.bind_eq_some_iff.mp h
    exact ⟨n,hn,not_mem_of_numeral rfl hn,not_mem_of_numeral rfl hn,
      List.length_pos_of_ne_nil (ne_nil_of_numeral hn),charFromU32_eq_some.mp hc⟩
  unfold denotes at h
  split at h
  · obtain ⟨n,_,hplus,hamp,hlen,_⟩ := hdigits h
    exact ⟨by simpa using hplus,by simpa using hamp,by simp,fun _ => by simp; omega⟩
  · obtain ⟨n,_,hplus,hamp,hlen,_⟩ := hdigits h
    exact ⟨by simpa using hplus,by simpa using hamp,by simp,fun _ => by simp; omega⟩
  · rename_i digits _ _
    obtain ⟨n,hn,hplus,hamp,hlen,hc⟩ := hdigits h
    refine ⟨by simpa using hplus,by simpa using hamp,by simp; omega,?_⟩
    rintro rfl
    -- one digit is too few for the number of an ampersand
    match digits with
    | [d] =>
      have hlt := numeral_lt_of_singleton hn
      have hnat : '&'.toNat = 38 := rfl
      omega
    | _ :: _ :: _ => simp
  · obtain ⟨before,after,htable,_⟩ := List.lookup_eq_some_iff.mp h
    have hmem : (body,c) ∈ namedReferences := by
      rw [htable]
      exact List.mem_append_right _ List.mem_cons_self
    simp only [namedReferences,List.mem_cons,Prod.mk.injEq,List.not_mem_nil,or_false] at hmem
    rcases hmem with ⟨rfl,rfl⟩ | ⟨rfl,rfl⟩ | ⟨rfl,rfl⟩ | ⟨rfl,rfl⟩ | ⟨rfl,rfl⟩ | ⟨rfl,rfl⟩ |
      ⟨rfl,rfl⟩ <;> exact ⟨by decide,by decide,by decide,by decide⟩

/-- What a signed reference looks like. -/
structure SignedShaped (body : List Char) : Prop where
  plus : ∃ mark digits, body = mark ++ '+' :: digits ∧ mark.length ≤ 2
  ampersand : '&' ∉ body
  length : 2 ≤ body.length

theorem signed_shaped (h : signedReference body = some c) : SignedShaped body := by
  have hdigits : ∀ {digits : List Char} {base : ℕ},
      (signedNumeral base digits).bind charFromU32 = some c →
        (∃ rest, digits = '+' :: rest) ∧ '&' ∉ digits := by
    intro digits base h
    obtain ⟨n,hn,_⟩ := Option.bind_eq_some_iff.mp h
    unfold signedNumeral at hn
    split at hn
    · rename_i rest
      have hamp : '&' ∉ rest := not_mem_of_numeral rfl hn
      exact ⟨⟨rest,rfl⟩,by simpa using hamp⟩
    · cases hn
  unfold signedReference at h
  split at h
  · obtain ⟨⟨rest,rfl⟩,hamp⟩ := hdigits h
    exact ⟨⟨['#','x'],rest,rfl,by simp⟩,by simpa using hamp,by simp⟩
  · obtain ⟨⟨rest,rfl⟩,hamp⟩ := hdigits h
    exact ⟨⟨['#','X'],rest,rfl,by simp⟩,by simpa using hamp,by simp⟩
  · obtain ⟨⟨rest,rfl⟩,hamp⟩ := hdigits h
    exact ⟨⟨['#'],rest,rfl,by simp⟩,by simpa using hamp,by simp⟩
  · cases h

theorem SignedShaped.plus_mem (h : SignedShaped body) : '+' ∈ body := by
  obtain ⟨mark,digits,rfl,_⟩ := h.plus
  simp

theorem resolveEntity_shaped (h : resolveEntity body = some c) : '&' ∉ body ∧ 2 ≤ body.length := by
  rw [resolveEntity_eq] at h
  cases hdenotes : denotes body with
  | some d =>
    have hshaped := denotes_shaped hdenotes
    exact ⟨hshaped.ampersand,hshaped.length⟩
  | none =>
    rw [hdenotes,Option.none_or] at h
    have hshaped := signed_shaped h
    exact ⟨hshaped.ampersand,hshaped.length⟩

end

/-- The bytes of some characters. -/
def size (text : List Char) : ℕ := (text.flatMap String.utf8EncodeChar).length

@[simp] theorem size_nil : size [] = 0 := rfl
@[simp] theorem size_cons (c : Char) (text : List Char) :
    size (c :: text) = c.utf8Size + size text := by
  rw [size,List.flatMap_cons,List.length_append,String.length_utf8EncodeChar]
  rfl
@[simp] theorem size_append (xs ys : List Char) : size (xs ++ ys) = size xs + size ys := by
  rw [size,List.flatMap_append,List.length_append]
  rfl

/-- A well-formed reference, between its ampersand and its semicolon. -/
def wellFormed (body : List Char) : Option Char :=
  if size body ≤ 11 ∧ '&' ∉ body ∧ ';' ∉ body then denotes body else none

/-- The reference that opens at an ampersand, and what follows its semicolon. -/
def referenceAt (tail : List Char) : Option (Char × List Char) :=
  match tail.dropWhile (· != ';') with
  | [] => none
  | _ :: rest => (wellFormed (tail.takeWhile (· != ';'))).map (·,rest)

theorem referenceAt_length {tail rest : List Char} {c : Char}
    (h : referenceAt tail = some (c,rest)) : rest.length < tail.length := by
  unfold referenceAt at h
  split at h
  · cases h
  · rename_i c rest' hdrop
    have hlen := (List.dropWhile_suffix (l := tail) (· != ';')).length_le
    rw [hdrop,List.length_cons] at hlen
    obtain ⟨_,_,hpair⟩ := Option.map_eq_some_iff.mp h
    obtain ⟨_,rfl⟩ := Prod.mk.inj hpair
    omega

/-- Every well-formed reference replaced by its character, and nothing else changed. -/
def replaceReferences (text : List Char) : List Char :=
  match text with
  | [] => []
  | c :: tail =>
    if c = '&' then
      match _h : referenceAt tail with
      | some (character,rest) => character :: replaceReferences rest
      | none => '&' :: replaceReferences tail
    else c :: replaceReferences tail
termination_by text.length
decreasing_by
  · have := referenceAt_length _h
    simp only [List.length_cons]
    omega
  · simp
  · simp

section
variable {stretch rest : List Char}

theorem takeWhile_stretch (h : ';' ∉ stretch) :
    (stretch ++ ';' :: rest).takeWhile (· != ';') = stretch := by
  rw [List.takeWhile_append_of_pos fun c hc => bne_iff_ne.mpr (ne_of_mem_of_not_mem hc h)]
  simp

theorem dropWhile_stretch (h : ';' ∉ stretch) :
    (stretch ++ ';' :: rest).dropWhile (· != ';') = ';' :: rest := by
  rw [List.dropWhile_append_of_pos fun c hc => bne_iff_ne.mpr (ne_of_mem_of_not_mem hc h)]
  simp

theorem dropWhile_last (h : ';' ∉ stretch) : stretch.dropWhile (· != ';') = [] :=
  List.dropWhile_eq_nil_iff.mpr fun _ hc => bne_iff_ne.mpr (ne_of_mem_of_not_mem hc h)

theorem splitReference_stretch (h : ';' ∉ stretch) :
    splitReference (stretch ++ ';' :: rest) =
      if size stretch ≤ 11 then some (stretch,rest) else none := by
  have hreach : 1 + size stretch ≤ 12 ↔ size stretch ≤ 11 := by omega
  unfold splitReference
  rw [dropWhile_stretch h,takeWhile_stretch h]
  dsimp only
  rw [← size]
  simp only [hreach]

theorem splitReference_last (h : ';' ∉ stretch) : splitReference stretch = none := by
  rw [splitReference,dropWhile_last h]

theorem referenceAt_stretch (h : ';' ∉ stretch) :
    referenceAt (stretch ++ ';' :: rest) = (wellFormed stretch).map (·,rest) := by
  rw [referenceAt,dropWhile_stretch h,takeWhile_stretch h]

theorem referenceAt_last (h : ';' ∉ stretch) : referenceAt stretch = none := by
  rw [referenceAt,dropWhile_last h]

/-- What the loop makes of a reference whose semicolon is in reach. -/
def referenceText (body : List Char) : List Char :=
  match resolveEntity body with
  | some character => [character]
  | none => '&' :: body ++ [';']

/-- What the loop makes of a stretch and the semicolon that ends it. -/
def decodeStretch : List Char → List Char
  | [] => [';']
  | c :: tail =>
    if c = '&' ∧ size tail ≤ 11 then referenceText tail else c :: decodeStretch tail

/-- What is to be made of it. -/
def replaceStretch : List Char → List Char
  | [] => [';']
  | c :: tail =>
    if c = '&' then
      match wellFormed tail with
      | some character => [character]
      | none => '&' :: replaceStretch tail
    else c :: replaceStretch tail

theorem decodeReferences_stretch (h : ';' ∉ stretch) :
    decodeReferences (stretch ++ ';' :: rest) = decodeStretch stretch ++ decodeReferences rest := by
  induction stretch with
  | nil =>
    rw [List.nil_append,decodeReferences,if_neg (by decide)]
    rfl
  | cons c tail ih =>
    obtain ⟨_,htail⟩ := not_or.mp (List.mem_cons.not.mp h)
    rw [List.cons_append,decodeReferences,decodeStretch]
    by_cases hamp : c = '&'
    · rw [if_pos hamp,splitReference_stretch htail]
      by_cases hsize : size tail ≤ 11
      · rw [if_pos hsize,if_pos ⟨hamp,hsize⟩]
        rfl
      · rw [if_neg hsize,if_neg fun h => hsize h.2,ih htail,hamp]
        rfl
    · rw [if_neg hamp,if_neg fun h => hamp h.1,ih htail]
      rfl

theorem decodeReferences_last (h : ';' ∉ stretch) : decodeReferences stretch = stretch := by
  induction stretch with
  | nil => rw [decodeReferences]
  | cons c tail ih =>
    obtain ⟨_,htail⟩ := not_or.mp (List.mem_cons.not.mp h)
    rw [decodeReferences,splitReference_last htail,ih htail]
    split_ifs with hamp
    · rw [hamp]
    · rfl

theorem replaceReferences_stretch (h : ';' ∉ stretch) :
    replaceReferences (stretch ++ ';' :: rest) =
      replaceStretch stretch ++ replaceReferences rest := by
  induction stretch with
  | nil =>
    rw [List.nil_append,replaceReferences,if_neg (by decide)]
    rfl
  | cons c tail ih =>
    obtain ⟨_,htail⟩ := not_or.mp (List.mem_cons.not.mp h)
    rw [List.cons_append,replaceReferences,replaceStretch,referenceAt_stretch htail]
    by_cases hamp : c = '&'
    · rw [if_pos hamp,if_pos hamp]
      cases wellFormed tail with
      | none =>
        rw [ih htail]
        rfl
      | some character => rfl
    · rw [if_neg hamp,if_neg hamp,ih htail]
      rfl

theorem replaceReferences_last (h : ';' ∉ stretch) : replaceReferences stretch = stretch := by
  induction stretch with
  | nil => rw [replaceReferences]
  | cons c tail ih =>
    obtain ⟨_,htail⟩ := not_or.mp (List.mem_cons.not.mp h)
    rw [replaceReferences,referenceAt_last htail,ih htail]
    split_ifs with hamp
    · rw [hamp]
    · rfl

/-- A reference behind another ampersand from which the semicolon is in reach. -/
def Hidden (stretch : List Char) : Prop :=
  ∃ before between body, stretch = before ++ '&' :: (between ++ '&' :: body) ∧
    size (between ++ '&' :: body) ≤ 11 ∧ (wellFormed body).isSome = true

/-- A signed reference that opens at the first ampersand in reach of the semicolon. -/
def Signed (stretch : List Char) : Prop :=
  ∃ before body, stretch = before ++ '&' :: body ∧ size body ≤ 11 ∧
    (signedReference body).isSome = true ∧
    ∀ first between, before = first ++ '&' :: between → 11 < size (between ++ '&' :: body)

/-- The three ways in which a stretch is decoded. -/
inductive Decoding (stretch : List Char) : Prop
  | faithful (hhidden : ¬Hidden stretch) (hsigned : ¬Signed stretch)
      (h : decodeStretch stretch = replaceStretch stretch)
  | missed (before body : List Char) (c : Char) (hhidden : Hidden stretch)
      (hbody : denotes body = some c)
      (hdecode : decodeStretch stretch = before ++ ('&' :: body ++ [';']))
      (hreplace : replaceStretch stretch = before ++ [c])
  | taken (before body : List Char) (c : Char) (hsigned : Signed stretch)
      (hbody : signedReference body = some c)
      (hdecode : decodeStretch stretch = before ++ [c])
      (hreplace : replaceStretch stretch = before ++ ('&' :: body ++ [';']))

theorem wellFormed_eq_some {body : List Char} {c : Char} : wellFormed body = some c ↔
    size body ≤ 11 ∧ ';' ∉ body ∧ denotes body = some c := by
  rw [wellFormed,Option.ite_none_right_eq_some]
  constructor
  · exact fun h => ⟨h.1.1,h.1.2.2,h.2⟩
  · exact fun h => ⟨⟨h.1,(denotes_shaped h.2.2).ampersand,h.2.1⟩,h.2.2⟩

theorem wellFormed_of_ampersand {body : List Char} (h : '&' ∈ body) : wellFormed body = none :=
  if_neg fun hwell => hwell.2.1 h

theorem replaceStretch_plain (h : '&' ∉ stretch) : replaceStretch stretch = stretch ++ [';'] := by
  induction stretch with
  | nil => rfl
  | cons c tail ih =>
    obtain ⟨hc,htail⟩ := not_or.mp (List.mem_cons.not.mp h)
    rw [replaceStretch,if_neg (Ne.symm hc),ih htail]
    rfl

/-- Only the last ampersand of a stretch can open a reference. -/
theorem replaceStretch_last {body : List Char} (before : List Char) (h : '&' ∉ body) :
    replaceStretch (before ++ '&' :: body) =
      before ++ match wellFormed body with
        | some c => [c]
        | none => '&' :: body ++ [';'] := by
  induction before with
  | nil =>
    rw [List.nil_append,replaceStretch,if_pos rfl,replaceStretch_plain h]
    rfl
  | cons c before ih =>
    rw [List.cons_append,replaceStretch,ih]
    split_ifs with hc
    · rw [wellFormed_of_ampersand (by simp),hc]
      rfl
    · rfl

theorem exists_last_ampersand {text : List Char} (h : '&' ∈ text) :
    ∃ before body, text = before ++ '&' :: body ∧ '&' ∉ body := by
  obtain ⟨after,first,hreverse,hafter⟩ := List.eq_append_cons_of_mem (List.mem_reverse.mpr h)
  refine ⟨first.reverse,after.reverse,?_,fun hmem => hafter (List.mem_reverse.mp hmem)⟩
  rw [← List.reverse_reverse text,hreverse]
  simp

theorem hidden_cons {c : Char} {tail : List Char} (h : ¬(c = '&' ∧ size tail ≤ 11)) :
    Hidden (c :: tail) ↔ Hidden tail := by
  constructor
  · rintro ⟨_ | ⟨d,before⟩,between,body,hstretch,hsize,hbody⟩
    · obtain ⟨hc,htail⟩ := List.cons.inj hstretch
      exact absurd ⟨hc,htail ▸ hsize⟩ h
    · exact ⟨before,between,body,(List.cons.inj hstretch).2,hsize,hbody⟩
  · rintro ⟨before,between,body,rfl,hsize,hbody⟩
    exact ⟨c :: before,between,body,rfl,hsize,hbody⟩

theorem signed_cons {c : Char} {tail : List Char} (h : ¬(c = '&' ∧ size tail ≤ 11)) :
    Signed (c :: tail) ↔ Signed tail := by
  constructor
  · rintro ⟨_ | ⟨d,before⟩,body,hstretch,hsize,hbody,hfirst⟩
    · obtain ⟨hc,htail⟩ := List.cons.inj hstretch
      exact absurd ⟨hc,htail ▸ hsize⟩ h
    · refine ⟨before,body,(List.cons.inj hstretch).2,hsize,hbody,fun first between hbefore => ?_⟩
      exact hfirst (d :: first) between (by rw [hbefore]; rfl)
  · rintro ⟨before,body,rfl,hsize,hbody,hfirst⟩
    refine ⟨c :: before,body,rfl,hsize,hbody,fun first between hbefore => ?_⟩
    cases first with
    | nil =>
      obtain ⟨hc,hbetween⟩ := List.cons.inj hbefore
      by_contra hreach
      exact h ⟨hc,hbetween ▸ Nat.not_lt.mp hreach⟩
    | cons d first => exact hfirst first between (List.cons.inj hbefore).2

/-- A character before the first ampersand in reach changes nothing. -/
theorem Decoding.cons {c : Char} {tail : List Char} (hreach : ¬(c = '&' ∧ size tail ≤ 11))
    (h : Decoding tail) : Decoding (c :: tail) := by
  have hdecode : decodeStretch (c :: tail) = c :: decodeStretch tail := by
    rw [decodeStretch,if_neg hreach]
  have hreplace : replaceStretch (c :: tail) = c :: replaceStretch tail := by
    rw [replaceStretch]
    split_ifs with hc
    · have hfar : wellFormed tail = none := if_neg fun hwell => hreach ⟨hc,hwell.1⟩
      rw [hfar,hc]
    · rfl
  cases h with
  | faithful hhidden hsigned h =>
    exact .faithful ((hidden_cons hreach).not.mpr hhidden) ((signed_cons hreach).not.mpr hsigned)
      (by rw [hdecode,hreplace,h])
  | missed before body d hhidden hbody hd hr =>
    exact .missed (c :: before) body d ((hidden_cons hreach).mpr hhidden) hbody
      (by rw [hdecode,hd]; rfl) (by rw [hreplace,hr]; rfl)
  | taken before body d hsigned hbody hd hr =>
    exact .taken (c :: before) body d ((signed_cons hreach).mpr hsigned) hbody
      (by rw [hdecode,hd]; rfl) (by rw [hreplace,hr]; rfl)

theorem last_ampersand_unique {x y v w : List Char} (hv : '&' ∉ v) (hw : '&' ∉ w)
    (h : x ++ '&' :: v = y ++ '&' :: w) : x = y ∧ v = w := by
  rcases List.append_eq_append_iff.mp h with ⟨more,hy,hv'⟩ | ⟨more,hx,hw'⟩
  · cases more with
    | nil => exact ⟨by rw [hy,List.append_nil],(List.cons.inj hv').2⟩
    | cons c more =>
      refine absurd ?_ hv
      rw [(List.cons.inj hv').2]
      simp
  · cases more with
    | nil => exact ⟨by rw [hx,List.append_nil],(List.cons.inj hw').2.symm⟩
    | cons c more =>
      refine absurd ?_ hw
      rw [(List.cons.inj hw').2]
      simp

/-- An ampersand in reach, with no other one behind it. -/
theorem Decoding.of_last {tail : List Char} (hsize : size tail ≤ 11) (htail : ';' ∉ tail)
    (hamp : '&' ∉ tail) : Decoding ('&' :: tail) := by
  have hreach : '&' = '&' ∧ size tail ≤ 11 := ⟨rfl,hsize⟩
  have hwell : wellFormed tail = denotes tail := if_pos ⟨hsize,hamp,htail⟩
  have hsplit : ∀ before body, '&' :: tail = before ++ '&' :: body → '&' ∉ body ∧
      before = [] ∧ body = tail := by
    intro before body h
    cases before with
    | nil =>
      obtain rfl := (List.cons.inj h).2
      exact ⟨hamp,rfl,rfl⟩
    | cons c before =>
      refine absurd ?_ hamp
      rw [(List.cons.inj h).2]
      simp
  have hhidden : ¬Hidden ('&' :: tail) := by
    rintro ⟨before,between,body,h,_⟩
    exact (hsplit _ _ h).1 (by simp)
  have hsigned : Signed ('&' :: tail) → ∃ c, signedReference tail = some c := by
    rintro ⟨before,body,h,_,hbody,_⟩
    obtain ⟨_,_,rfl⟩ := hsplit _ _ h
    exact Option.isSome_iff_exists.mp hbody
  cases hdenotes : denotes tail with
  | some c =>
    have hresolve : resolveEntity tail = some c := by
      rw [resolveEntity_eq,hdenotes,Option.some_or]
    refine .faithful hhidden (fun h => ?_) ?_
    · obtain ⟨d,hd⟩ := hsigned h
      exact (denotes_shaped hdenotes).plus (signed_shaped hd).plus_mem
    · rw [decodeStretch,if_pos hreach,referenceText,hresolve,replaceStretch,if_pos rfl,hwell,
        hdenotes]
  | none =>
    have hresolve : resolveEntity tail = signedReference tail := by
      rw [resolveEntity_eq,hdenotes,Option.none_or]
    have hreplace : replaceStretch ('&' :: tail) = '&' :: tail ++ [';'] := by
      rw [replaceStretch,if_pos rfl,hwell,hdenotes,replaceStretch_plain hamp]
      rfl
    cases hbody : signedReference tail with
    | some c =>
      refine .taken [] tail c ⟨[],tail,rfl,hsize,by rw [hbody]; rfl,?_⟩ hbody ?_ hreplace
      · intro first between h
        simp at h
      · rw [decodeStretch,if_pos hreach,referenceText,hresolve,hbody]
        rfl
    | none =>
      refine .faithful hhidden (fun h => ?_) ?_
      · obtain ⟨d,hd⟩ := hsigned h
        rw [hbody] at hd
        cases hd
      · rw [decodeStretch,if_pos hreach,referenceText,hresolve,hbody,hreplace]

/-- An ampersand in reach, with the last one behind it. -/
theorem Decoding.of_earlier {before body : List Char} (hsize : size (before ++ '&' :: body) ≤ 11)
    (hbody : '&' ∉ body) : Decoding ('&' :: (before ++ '&' :: body)) := by
  have hreach : '&' = '&' ∧ size (before ++ '&' :: body) ≤ 11 := ⟨rfl,hsize⟩
  have hresolve : resolveEntity (before ++ '&' :: body) = none := by
    by_contra h
    obtain ⟨c,hc⟩ := Option.ne_none_iff_exists'.mp h
    exact (resolveEntity_shaped hc).1 (by simp)
  have hdecode : decodeStretch ('&' :: (before ++ '&' :: body)) =
      '&' :: before ++ ('&' :: body ++ [';']) := by
    rw [decodeStretch,if_pos hreach,referenceText,hresolve]
    simp
  have hreplace := replaceStretch_last ('&' :: before) hbody
  have hunique : ∀ first other, '&' ∉ other →
      '&' :: (before ++ '&' :: body) = first ++ '&' :: other → '&' :: before = first ∧
        body = other :=
    fun first other hother h => last_ampersand_unique (x := '&' :: before) hbody hother h
  cases hwell : wellFormed body with
  | some c =>
    rw [hwell] at hreplace
    exact .missed ('&' :: before) body c ⟨[],before,body,rfl,hsize,by rw [hwell]; rfl⟩
      (wellFormed_eq_some.mp hwell).2.2 hdecode hreplace
  | none =>
    rw [hwell] at hreplace
    refine .faithful ?_ ?_ (hdecode.trans hreplace.symm)
    · rintro ⟨first,between,other,h,_,hother⟩
      obtain ⟨c,hc⟩ := Option.isSome_iff_exists.mp hother
      obtain ⟨_,rfl⟩ := hunique (first ++ '&' :: between) other
        (denotes_shaped (wellFormed_eq_some.mp hc).2.2).ampersand (by rw [h]; simp)
      rw [hwell] at hc
      cases hc
    · rintro ⟨first,other,h,_,hother,hfirst⟩
      obtain ⟨c,hc⟩ := Option.isSome_iff_exists.mp hother
      obtain ⟨rfl,rfl⟩ := hunique first other (signed_shaped hc).ampersand h
      have hfar := hfirst [] before rfl
      omega

theorem Decoding.of_stretch (hstretch : ';' ∉ stretch) : Decoding stretch := by
  induction stretch with
  | nil =>
    refine .faithful ?_ ?_ rfl
    · rintro ⟨before,between,body,h,_⟩
      simp at h
    · rintro ⟨before,body,h,_⟩
      simp at h
  | cons c tail ih =>
    obtain ⟨_,htail⟩ := not_or.mp (List.mem_cons.not.mp hstretch)
    by_cases hreach : c = '&' ∧ size tail ≤ 11
    · obtain ⟨rfl,hsize⟩ := hreach
      by_cases hamp : '&' ∈ tail
      · obtain ⟨before,body,rfl,hbody⟩ := exists_last_ampersand hamp
        exact .of_earlier hsize hbody
      · exact .of_last hsize htail hamp
    · exact (ih htail).cons hreach

/-- A text is a stretch without a semicolon, or such a stretch, a semicolon and a text. -/
theorem stretch_induction {p : List Char → Prop} (last : ∀ stretch, ';' ∉ stretch → p stretch)
    (next : ∀ stretch rest, ';' ∉ stretch → p rest → p (stretch ++ ';' :: rest))
    (text : List Char) : p text := by
  induction hlength : text.length using Nat.strong_induction_on generalizing text with
  | _ n ih =>
    by_cases h : ';' ∈ text
    · obtain ⟨stretch,rest,rfl,hstretch⟩ := List.eq_append_cons_of_mem h
      refine next stretch rest hstretch (ih rest.length ?_ rest rfl)
      rw [← hlength,List.length_append,List.length_cons]
      omega
    · exact last text h

/-- How far a text goes before a plus sign. -/
def lead (text : List Char) : ℕ := (text.takeWhile (· != '+')).length

theorem lead_append {xs : List Char} (h : '+' ∉ xs) (ys : List Char) :
    lead (xs ++ ys) = xs.length + lead ys := by
  rw [lead,List.takeWhile_append_of_pos fun c hc => bne_iff_ne.mpr (ne_of_mem_of_not_mem hc h),
    List.length_append]
  rfl

theorem lead_cons_le (c : Char) (text : List Char) : lead (c :: text) ≤ lead text + 1 := by
  unfold lead
  rw [List.takeWhile_cons]
  split <;> simp

theorem lead_append_mono {ys zs : List Char} {n : ℕ} (xs : List Char)
    (h : lead ys ≤ lead zs + n) : lead (xs ++ ys) ≤ lead (xs ++ zs) + n := by
  induction xs with
  | nil => exact h
  | cons c xs ih =>
    unfold lead at ih ⊢
    rw [List.cons_append,List.cons_append,List.takeWhile_cons,List.takeWhile_cons]
    split
    · rw [List.length_cons,List.length_cons]
      omega
    · simp

theorem lead_le (xs ys : List Char) : lead (xs ++ '+' :: ys) ≤ xs.length := by
  have hstart : lead ('+' :: ys) ≤ lead [] + 0 := Nat.zero_le _
  have h := lead_append_mono xs hstart
  rw [List.append_nil] at h
  exact h.trans (List.takeWhile_sublist _).length_le

/-- No text gets far ahead of its decoding before a plus sign. -/
theorem lead_replaceReferences (text : List Char) :
    lead (replaceReferences text) ≤ lead (decodeReferences text) + 3 := by
  induction text using stretch_induction with
  | last stretch hstretch =>
    rw [replaceReferences_last hstretch,decodeReferences_last hstretch]
    omega
  | next stretch rest hstretch ih =>
    rw [replaceReferences_stretch hstretch,decodeReferences_stretch hstretch]
    cases Decoding.of_stretch hstretch with
    | faithful _ _ h =>
      rw [h]
      exact lead_append_mono _ ih
    | missed before body c _ hbody hdecode hreplace =>
      rw [hdecode,hreplace,List.append_assoc before,List.append_assoc before]
      refine lead_append_mono before ?_
      have hplus : '+' ∉ '&' :: body ++ [';'] := by
        simpa using (denotes_shaped hbody).plus
      have hcode := lead_append hplus (decodeReferences rest)
      have hspec := lead_cons_le c (replaceReferences rest)
      rw [List.length_append,List.length_cons] at hcode
      rw [hcode,List.singleton_append]
      omega
    | taken before body c _ hbody hdecode hreplace =>
      obtain ⟨mark,digits,rfl,hmark⟩ := (signed_shaped hbody).plus
      rw [hdecode,hreplace,List.append_assoc before,List.append_assoc before]
      refine lead_append_mono before ?_
      have hspec := lead_le ('&' :: mark) (digits ++ [';'] ++ replaceReferences rest)
      rw [List.length_cons] at hspec
      simp only [List.cons_append,List.nil_append,List.append_assoc] at hspec ⊢
      omega

/-- Decoding makes no plus signs beyond those that the signed references lose. -/
theorem count_decodeReferences (text : List Char) :
    (decodeReferences text).count '+' ≤ (replaceReferences text).count '+' := by
  induction text using stretch_induction with
  | last stretch hstretch =>
    rw [replaceReferences_last hstretch,decodeReferences_last hstretch]
  | next stretch rest hstretch ih =>
    rw [replaceReferences_stretch hstretch,decodeReferences_stretch hstretch,List.count_append,
      List.count_append]
    cases Decoding.of_stretch hstretch with
    | faithful _ _ h =>
      rw [h]
      omega
    | missed before body c _ hbody hdecode hreplace =>
      have hplus : '+' ∉ '&' :: body ++ [';'] := by
        simpa using (denotes_shaped hbody).plus
      have hcode : (before ++ ('&' :: body ++ [';'])).count '+' = before.count '+' := by
        rw [List.count_append,List.count_eq_zero.mpr hplus,Nat.add_zero]
      have hspec : (before ++ [c]).count '+' = before.count '+' + [c].count '+' :=
        List.count_append
      rw [hdecode,hreplace]
      omega
    | taken before body c _ hbody hdecode hreplace =>
      have hplus := List.one_le_count_iff.mpr (signed_shaped hbody).plus_mem
      have hc : [c].count '+' ≤ 1 := List.count_le_length
      have hcode : (before ++ [c]).count '+' = before.count '+' + [c].count '+' :=
        List.count_append
      have hspec : (before ++ ('&' :: body ++ [';'])).count '+' =
          before.count '+' + body.count '+' := by
        simp [List.count_append]
      rw [hdecode,hreplace]
      omega

/-- The loop decodes a text as it should be decoded exactly when no stretch that ends in a
semicolon hides a reference or signs one. -/
theorem decodeReferences_eq_iff (text : List Char) :
    decodeReferences text = replaceReferences text ↔
      ∀ stretch ∈ (text.splitOn ';').dropLast, ¬Hidden stretch ∧ ¬Signed stretch := by
  induction text using stretch_induction with
  | last stretch hstretch =>
    rw [replaceReferences_last hstretch,decodeReferences_last hstretch,
      List.splitOn_eq_singleton hstretch]
    exact iff_of_true rfl fun _ h => absurd h List.not_mem_nil
  | next stretch rest hstretch ih =>
    rw [replaceReferences_stretch hstretch,decodeReferences_stretch hstretch,
      List.splitOn_append_cons_self_of_not_mem hstretch,
      List.dropLast_cons_of_ne_nil (List.splitOn_ne_nil ';' rest),List.forall_mem_cons]
    cases Decoding.of_stretch hstretch with
    | faithful hhidden hsigned h =>
      rw [h,List.append_cancel_left_eq,ih]
      exact (and_iff_right ⟨hhidden,hsigned⟩).symm
    | missed before body c hhidden hbody hdecode hreplace =>
      refine iff_of_false ?_ fun h => h.1.1 hhidden
      have hshaped := denotes_shaped hbody
      rw [hdecode,hreplace,List.append_assoc before,List.append_assoc before,
        List.append_cancel_left_eq]
      intro h
      obtain ⟨rfl,hrest⟩ := List.cons.inj h
      have hplus : '+' ∉ body ++ [';'] := by
        simpa using hshaped.plus
      have hlead := lead_append hplus (decodeReferences rest)
      have hle := lead_replaceReferences rest
      have hlong := hshaped.long rfl
      rw [List.length_append,List.length_singleton] at hlead
      have hsame : lead (body ++ [';'] ++ decodeReferences rest) =
        lead (replaceReferences rest) := congrArg lead hrest
      omega
    | taken before body c hsigned hbody hdecode hreplace =>
      refine iff_of_false ?_ fun h => h.1.2 hsigned
      rw [hdecode,hreplace,List.append_assoc before,List.append_assoc before,
        List.append_cancel_left_eq]
      intro h
      obtain ⟨rfl,hrest⟩ := List.cons.inj h
      have hcount : (decodeReferences rest).count '+' =
          (body ++ [';'] ++ replaceReferences rest).count '+' := congrArg (List.count '+') hrest
      have hplus := List.one_le_count_iff.mpr (signed_shaped hbody).plus_mem
      have hle := count_decodeReferences rest
      rw [List.count_append,List.count_append] at hcount
      omega

theorem length_le_size (text : List Char) : text.length ≤ size text := by
  induction text with
  | nil => exact Nat.le_refl 0
  | cons c text ih =>
    have hc := c.utf8Size_pos
    rw [List.length_cons,size_cons]
    omega

theorem size_decodeStretch (stretch : List Char) :
    size (decodeStretch stretch) ≤ size stretch + 1 := by
  have hends : ';'.utf8Size = 1 ∧ '&'.utf8Size = 1 := ⟨rfl,rfl⟩
  induction stretch with
  | nil => exact Nat.le_refl 1
  | cons c tail ih =>
    rw [decodeStretch]
    split_ifs with hreach
    · unfold referenceText
      cases hresolve : resolveEntity tail with
      | none =>
        rw [hreach.1]
        simp only [size_append,size_cons,size_nil]
        omega
      | some d =>
        have hd := d.utf8Size_le_four
        have hlength := (resolveEntity_shaped hresolve).2
        have hsize := length_le_size tail
        rw [hreach.1]
        simp only [size_cons,size_nil]
        omega
    · rw [size_cons,size_cons]
      omega

theorem size_decodeReferences (text : List Char) : size (decodeReferences text) ≤ size text := by
  induction text using stretch_induction with
  | last stretch hstretch => rw [decodeReferences_last hstretch]
  | next stretch rest hstretch ih =>
    have hends : ';'.utf8Size = 1 := rfl
    have hle := size_decodeStretch stretch
    rw [decodeReferences_stretch hstretch,size_append,size_append,size_cons]
    omega

end

/-- `str::find` with one character: the byte at which it first occurs. -/
def findByte (c : Char) : List Char → Option ℕ
  | [] => none
  | d :: rest => if d = c then some 0 else (findByte c rest).map (d.utf8Size + ·)

/-- `&text[..n]` and `&text[n..]`, which panic inside a character. -/
def strTo : List Char → ℕ → Option (List Char)
  | _, 0 => some []
  | [], _ + 1 => none
  | c :: rest, n + 1 =>
    if c.utf8Size ≤ n + 1 then (strTo rest (n + 1 - c.utf8Size)).map (c :: ·) else none

def strFrom : List Char → ℕ → Option (List Char)
  | text, 0 => some text
  | [], _ + 1 => none
  | c :: rest, n + 1 => if c.utf8Size ≤ n + 1 then strFrom rest (n + 1 - c.utf8Size) else none

/-- `&text[m..n]`. -/
def strRange (text : List Char) (m n : ℕ) : Option (List Char) :=
  if m ≤ n then (strTo text n).bind (strFrom · m) else none

/-- The loop over byte offsets, for a number of turns. There is no result when a slice panics
or the turns run out. -/
def decodeLoop : ℕ → List Char → List Char → Option (List Char)
  | 0, _, _ => none
  | turns + 1, rest, output =>
    match findByte '&' rest with
    | none => some (output ++ rest)
    | some start => do
      let output := output ++ (← strTo rest start)
      let tail ← strFrom rest start
      match (findByte ';' tail).filter (· ≤ 12) with
      | some last =>
        let reference ← strRange tail 1 last
        let decoded ← match resolveEntity reference with
          | some character => some [character]
          | none => strTo tail (last + 1)
        decodeLoop turns (← strFrom tail (last + 1)) (output ++ decoded)
      | none => decodeLoop turns (← strFrom tail 1) (output ++ ['&'])

section
variable {c : Char} {before rest : List Char}

theorem findByte_of_not_mem (h : c ∉ rest) : findByte c rest = none := by
  induction rest with
  | nil => rfl
  | cons d rest ih =>
    obtain ⟨hd,hrest⟩ := not_or.mp (List.mem_cons.not.mp h)
    rw [findByte,if_neg (Ne.symm hd),ih hrest]
    rfl

theorem findByte_append (h : c ∉ before) : findByte c (before ++ c :: rest) = some (size before) := by
  induction before with
  | nil => exact if_pos rfl
  | cons d before ih =>
    obtain ⟨hd,hbefore⟩ := not_or.mp (List.mem_cons.not.mp h)
    rw [List.cons_append,findByte,if_neg (Ne.symm hd),ih hbefore,size_cons]
    rfl

/-- A slice at the end of some characters is not inside one. -/
theorem strTo_append (before rest : List Char) :
    strTo (before ++ rest) (size before) = some before := by
  induction before with
  | nil => cases rest <;> rfl
  | cons d before ih =>
    have hd := d.utf8Size_pos
    obtain ⟨n,hn⟩ := Nat.exists_eq_add_one.mpr (Nat.add_pos_left hd (size before))
    have hle : d.utf8Size ≤ n + 1 := hn ▸ Nat.le_add_right _ _
    have hrest : n + 1 - d.utf8Size = size before := by omega
    rw [List.cons_append,size_cons,hn,strTo,if_pos hle,hrest,ih]
    rfl

theorem strFrom_append (before rest : List Char) :
    strFrom (before ++ rest) (size before) = some rest := by
  induction before with
  | nil => cases rest <;> rfl
  | cons d before ih =>
    have hd := d.utf8Size_pos
    obtain ⟨n,hn⟩ := Nat.exists_eq_add_one.mpr (Nat.add_pos_left hd (size before))
    have hle : d.utf8Size ≤ n + 1 := hn ▸ Nat.le_add_right _ _
    have hrest : n + 1 - d.utf8Size = size before := by omega
    rw [List.cons_append,size_cons,hn,strFrom,if_pos hle,hrest,ih]

theorem strRange_body (body rest : List Char) :
    strRange ('&' :: (body ++ ';' :: rest)) 1 (size ('&' :: body)) = some body := by
  have hamp : size ['&'] = 1 := rfl
  have hle : 1 ≤ size ('&' :: body) := by
    rw [size_cons]
    exact Nat.le_add_right _ _
  have hto := strTo_append ('&' :: body) (';' :: rest)
  have hfrom := strFrom_append ['&'] body
  rw [strRange,if_pos hle,← List.cons_append,hto,Option.bind_some,← hamp]
  exact hfrom

theorem decodeReferences_append (h : '&' ∉ before) :
    decodeReferences (before ++ rest) = before ++ decodeReferences rest := by
  induction before with
  | nil => rfl
  | cons d before ih =>
    obtain ⟨hd,hbefore⟩ := not_or.mp (List.mem_cons.not.mp h)
    rw [List.cons_append,decodeReferences,if_neg (Ne.symm hd),ih hbefore]
    rfl

theorem decodeReferences_plain {text : List Char} (h : '&' ∉ text) :
    decodeReferences text = text := by
  have happend : decodeReferences (text ++ []) = _ := decodeReferences_append h
  rw [List.append_nil,decodeReferences,List.append_nil] at happend
  exact happend

section
variable {turns : ℕ} {output : List Char}

/-- A turn whose ampersand opens nothing. -/
theorem decodeLoop_unopened (hbefore : '&' ∉ before)
    (h : (findByte ';' ('&' :: rest)).filter (· ≤ 12) = none) :
    decodeLoop (turns + 1) (before ++ '&' :: rest) output =
      decodeLoop turns rest (output ++ before ++ ['&']) := by
  have hrest : strFrom ('&' :: rest) 1 = some rest := strFrom_append ['&'] rest
  rw [decodeLoop,findByte_append hbefore]
  dsimp only
  rw [strTo_append,strFrom_append]
  simp only [Option.bind_eq_bind,Option.bind_some]
  rw [h]
  dsimp only
  rw [hrest]
  rfl

/-- A turn whose ampersand has its semicolon in reach. -/
theorem decodeLoop_opened {body : List Char} (hbefore : '&' ∉ before) (hbody : ';' ∉ body)
    (hsize : size body ≤ 11) :
    decodeLoop (turns + 1) (before ++ '&' :: (body ++ ';' :: rest)) output =
      decodeLoop turns rest (output ++ before ++ referenceText body) := by
  have hends : size ['&'] = 1 ∧ size [';'] = 1 := ⟨rfl,rfl⟩
  have htail : '&' :: (body ++ ';' :: rest) = '&' :: body ++ [';'] ++ rest := by simp
  have hlast : size ('&' :: body ++ [';']) = size ('&' :: body) + 1 := by
    rw [size_append,hends.2]
  have hfind : (findByte ';' ('&' :: (body ++ ';' :: rest))).filter (· ≤ 12) =
      some (size ('&' :: body)) := by
    have hmem : ';' ∉ '&' :: body := by simpa using hbody
    rw [← List.cons_append,findByte_append hmem,Option.filter_some,if_pos]
    rw [decide_eq_true_eq,← List.singleton_append,size_append,hends.1]
    omega
  have hto : strTo ('&' :: (body ++ ';' :: rest)) (size ('&' :: body) + 1) =
      some ('&' :: body ++ [';']) := by
    rw [htail,← hlast,strTo_append]
  have hfrom : strFrom ('&' :: (body ++ ';' :: rest)) (size ('&' :: body) + 1) = some rest := by
    rw [htail,← hlast,strFrom_append]
  rw [decodeLoop,findByte_append hbefore]
  dsimp only
  rw [strTo_append,strFrom_append]
  simp only [Option.bind_eq_bind,Option.bind_some]
  rw [hfind]
  dsimp only
  rw [strRange_body,hto,hfrom]
  simp only [Option.bind_some]
  unfold referenceText
  cases resolveEntity body <;> rfl

/-- The offsets never fall inside a character, and a turn for each character is enough. -/
theorem decodeLoop_eq (text : List Char) (h : text.length < turns) :
    decodeLoop turns text output = some (output ++ decodeReferences text) := by
  induction turns generalizing text output with
  | zero => exact absurd h (Nat.not_lt_zero _)
  | succ turns ih =>
    by_cases hamp : '&' ∈ text
    · obtain ⟨before,tail,rfl,hbefore⟩ := List.eq_append_cons_of_mem hamp
      rw [List.length_append,List.length_cons] at h
      rw [decodeReferences_append hbefore,decodeReferences,if_pos rfl]
      by_cases hsemi : ';' ∈ tail
      · obtain ⟨body,rest,rfl,hbody⟩ := List.eq_append_cons_of_mem hsemi
        rw [splitReference_stretch hbody]
        by_cases hsize : size body ≤ 11
        · rw [decodeLoop_opened hbefore hbody hsize,ih rest (by simp at h; omega),if_pos hsize]
          simp only [List.append_assoc]
          rfl
        · have hfar : (findByte ';' ('&' :: (body ++ ';' :: rest))).filter (· ≤ 12) = none := by
            have hmem : ';' ∉ '&' :: body := by simpa using hbody
            have hamp : '&'.utf8Size = 1 := rfl
            rw [← List.cons_append,findByte_append hmem,Option.filter_some,if_neg]
            rw [decide_eq_true_eq,size_cons]
            omega
          rw [decodeLoop_unopened hbefore hfar,ih _ (by omega),if_neg hsize]
          simp
      · have hnone : (findByte ';' ('&' :: tail)).filter (· ≤ 12) = none := by
          have hmem : ';' ∉ '&' :: tail := by simpa using hsemi
          rw [findByte_of_not_mem hmem]
          rfl
        rw [splitReference_last hsemi,decodeLoop_unopened hbefore hnone,ih _ (by omega)]
        simp
    · rw [decodeReferences_plain hamp,decodeLoop,findByte_of_not_mem hamp]

end

/-- Decoding never slices a character and ends, in no more bytes than it was given, and it is
right exactly when no stretch hides or signs a reference. -/
theorem decodeEntities_eq_iff (text : String) :
    (∀ turns, text.toList.length < turns →
        decodeLoop turns text.toList [] = some (decodeEntities text).toList) ∧
      size (decodeEntities text).toList ≤ size text.toList ∧
      ((decodeEntities text).toList = replaceReferences text.toList ↔
        ∀ stretch ∈ (text.toList.splitOn ';').dropLast, ¬Hidden stretch ∧ ¬Signed stretch) := by
  rw [decodeEntities,String.toList_ofList]
  exact ⟨fun turns h => decodeLoop_eq text.toList h,size_decodeReferences text.toList,
    decodeReferences_eq_iff text.toList⟩

/-- The ampersand of `R&D` hides the reference behind it. -/
theorem decodeEntities_misses :
    (decodeEntities "R&D &#105;gnore").toList = "R&D &#105;gnore".toList ∧
      replaceReferences "R&D &#105;gnore".toList = "R&D ignore".toList ∧
      (decodeEntities "R&D &#105;gnore").toList ≠ replaceReferences "R&D &#105;gnore".toList := by
  have hsplit : "R&D &#105;gnore".toList =
      ['R','&','D',' ','&','#','1','0','5'] ++ ';' :: ['g','n','o','r','e'] := rfl
  have hstretch : ';' ∉ ['R','&','D',' ','&','#','1','0','5'] := by decide
  have hlast : ';' ∉ ['g','n','o','r','e'] := by decide
  have hdecode : (decodeEntities "R&D &#105;gnore").toList = "R&D &#105;gnore".toList := by
    rw [decodeEntities,String.toList_ofList,hsplit,decodeReferences_stretch hstretch,
      decodeReferences_last hlast]
    rfl
  have hreplace : replaceReferences "R&D &#105;gnore".toList = "R&D ignore".toList := by
    rw [hsplit,replaceReferences_stretch hstretch,replaceReferences_last hlast]
    rfl
  refine ⟨hdecode,hreplace,?_⟩
  rw [hdecode,hreplace]
  decide

end
end HearthAI.Inspect
