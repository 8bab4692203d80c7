import HearthAI.Python.Text

/-! # Strings as code units of UTF-16

A character beyond U+FFFF has the code units of its two surrogates, and in a JSON text the
two are read as the character.
-/
namespace HearthAI.Python
open Text

/-- The surrogates of a character beyond U+FFFF. -/
def highSurrogate (c : CodePoint) : ℕ := 0xd800 + (c.val - 0x10000) / 0x400
def lowSurrogate (c : CodePoint) : ℕ := 0xdc00 + (c.val - 0x10000) % 0x400

/-- The code units of one character. -/
def units (c : CodePoint) : List ℕ :=
  if c.val < 0x10000 then [c.val] else [highSurrogate c,lowSurrogate c]

/-- The code units of a string in UTF-16. -/
def utf16 (s : Str) : List ℕ := s.flatMap units

def isHigh (n : ℕ) : Bool := 0xd800 ≤ n && n ≤ 0xdbff
def isLow (n : ℕ) : Bool := 0xdc00 ≤ n && n ≤ 0xdfff

/-- The string of some code units. A surrogate that has no partner stands for itself. -/
def fromUtf16 : List ℕ → Str
  | [] => []
  | [u] => [Fin.ofNat _ u]
  | u :: v :: us =>
    if isHigh u && isLow v then
      Fin.ofNat _ (0x10000 + (u - 0xd800) * 0x400 + (v - 0xdc00)) :: fromUtf16 us
    else Fin.ofNat _ u :: fromUtf16 (v :: us)

/-- A string that is the same after a detour through UTF-16: it has no two surrogates that
would be read as one character. -/
def Paired (s : Str) : Prop := fromUtf16 (utf16 s) = s

instance (s : Str) : Decidable (Paired s) := inferInstanceAs (Decidable (_ = _))

/-- In a JSON text, the string is the one with these characters. -/
def Denotes (s : Str) (text : String) : Prop := utf16 s = utf16 (lit text)

def isSpaceUnit (n : ℕ) : Bool := isSpace (Fin.ofNat _ n)

section
variable {s t : Str} {c : CodePoint} {us : List ℕ}

theorem val_ofNat {u : ℕ} (hu : u < 0x110000) : (Fin.ofNat 0x110000 u).val = u := Nat.mod_eq_of_lt hu

theorem ofNat_val (c : CodePoint) : Fin.ofNat 0x110000 c.val = c := Fin.ext (val_ofNat c.isLt)

theorem units_ofNat {u : ℕ} (hu : u < 0x10000) : units (Fin.ofNat _ u) = [u] := by
  rw [units,val_ofNat (by omega),if_pos hu]

theorem units_pair {u v : ℕ} (hu : isHigh u = true) (hv : isLow v = true) :
    units (Fin.ofNat _ (0x10000 + (u - 0xd800) * 0x400 + (v - 0xdc00))) = [u,v] := by
  simp only [isHigh,isLow,Bool.and_eq_true,decide_eq_true_eq] at hu hv
  rw [units,highSurrogate,lowSurrogate,val_ofNat (by omega),if_neg (by omega)]
  rw [List.cons.injEq,List.cons.injEq]
  exact ⟨by omega,by omega,rfl⟩

/-- A string that was put together from code units has those code units. -/
theorem utf16_fromUtf16 (hus : ∀ u ∈ us, u < 0x10000) : utf16 (fromUtf16 us) = us := by
  induction us using fromUtf16.induct with
  | case1 => rfl
  | case2 u =>
    show units _ ++ [] = [u]
    rw [units_ofNat (hus u List.mem_cons_self),List.append_nil]
  | case3 u v us hpair ih =>
    obtain ⟨hu,hv⟩ := Bool.and_eq_true_iff.mp hpair
    rw [fromUtf16,if_pos hpair,utf16,List.flatMap_cons,units_pair hu hv,← utf16,
      ih fun w hw => hus w (List.mem_cons_of_mem _ (List.mem_cons_of_mem _ hw))]
    rfl
  | case4 u v us hpair ih =>
    rw [fromUtf16,if_neg hpair,utf16,List.flatMap_cons,units_ofNat (hus u List.mem_cons_self),← utf16,
      ih fun w hw => hus w (List.mem_cons_of_mem _ hw)]
    rfl

theorem highSurrogate_lt (c : CodePoint) : 0x7e < highSurrogate c ∧ highSurrogate c < 0x10000 := by
  have := c.isLt
  unfold highSurrogate
  omega

theorem lowSurrogate_lt (c : CodePoint) : 0x7e < lowSurrogate c ∧ lowSurrogate c < 0x10000 := by
  unfold lowSurrogate
  omega

theorem forall_mem_utf16 (s : Str) : ∀ n ∈ utf16 s, n < 0x10000 := by
  intro n hn
  obtain ⟨c,_,hn⟩ := List.mem_flatMap.mp hn
  unfold units at hn
  split_ifs at hn with hc
  · rwa [List.mem_singleton.mp hn]
  · rcases List.mem_pair.mp hn with hn | hn
    · exact hn ▸ (highSurrogate_lt c).2
    · exact hn ▸ (lowSurrogate_lt c).2

theorem units_ne_nil (c : CodePoint) : units c ≠ [] := by
  unfold units
  split_ifs <;> exact List.cons_ne_nil _ _

theorem length_le_utf16 (s : Str) : s.length ≤ (utf16 s).length := by
  induction s with
  | nil => exact Nat.le_refl _
  | cons c s ih =>
    have hpos := List.length_pos_iff.mpr (units_ne_nil c)
    rw [utf16,List.flatMap_cons,List.length_append,List.length_cons,← utf16]
    omega

/-- A string of characters, none of which is a surrogate, is paired. -/
theorem paired_of_valid (h : ∀ c ∈ s, c.val.isValidChar) : Paired s := by
  induction s with
  | nil => rfl
  | cons c s ih =>
    obtain ⟨hc,hs⟩ := List.forall_mem_cons.mp h
    have hrest : fromUtf16 (utf16 s) = s := ih hs
    have hbound := c.isLt
    unfold Nat.isValidChar at hc
    rw [Paired,utf16,List.flatMap_cons,← utf16,units]
    split_ifs with hsmall
    · cases hunits : utf16 s with
      | nil =>
        rw [hunits] at hrest
        rw [List.append_nil,fromUtf16,ofNat_val,← hrest,fromUtf16]
      | cons v us =>
        have hhigh : ¬(isHigh c.val && isLow v) = true := by
          simp only [isHigh,Bool.and_eq_true,decide_eq_true_eq]
          omega
        rw [List.singleton_append,fromUtf16,if_neg hhigh,ofNat_val,← hunits,hrest]
    · have hhigh : isHigh (highSurrogate c) = true := by
        rw [isHigh,Bool.and_eq_true,decide_eq_true_eq,decide_eq_true_eq,highSurrogate]
        omega
      have hlow : isLow (lowSurrogate c) = true := by
        rw [isLow,Bool.and_eq_true,decide_eq_true_eq,decide_eq_true_eq,lowSurrogate]
        omega
      have hpair := Bool.and_eq_true_iff.mpr ⟨hhigh,hlow⟩
      rw [List.cons_append,List.singleton_append,fromUtf16,if_pos hpair,hrest]
      refine congrArg (· :: s) (Fin.ext ?_)
      rw [highSurrogate,lowSurrogate,val_ofNat (by omega)]
      omega

theorem paired_lit (t : String) : Paired (lit t) := by
  refine paired_of_valid fun c hc => ?_
  obtain ⟨d,_,rfl⟩ := List.mem_map.mp hc
  exact d.valid

/-- White space has one code unit, and no surrogate is white space. -/
theorem isSpaceUnit_of_mem (c : CodePoint) : ∀ u ∈ units c, isSpaceUnit u = isSpace c := by
  intro u hu
  unfold units at hu
  split_ifs at hu with hsmall
  · rw [List.mem_singleton.mp hu,isSpaceUnit,ofNat_val]
  · have hspace : ∀ c : CodePoint, 0xd800 ≤ c.val → isSpace c = false := by
      intro c hc
      simp only [isSpace,Bool.or_eq_false_iff,Bool.and_eq_false_iff,decide_eq_false_iff_not,
        beq_eq_false_iff_ne]
      omega
    have hlarge : 0xd800 ≤ u := by
      rcases List.mem_pair.mp hu with hu | hu
      · rw [hu,highSurrogate]
        omega
      · rw [hu,lowSurrogate]
        omega
    have hval : (Fin.ofNat 0x110000 u).val = u :=
      val_ofNat ((forall_mem_utf16 [c] u (by rwa [utf16,List.flatMap_singleton,units,
        if_neg hsmall])).trans (by decide))
    rw [hspace c (by omega)]
    exact hspace _ (by rwa [hval])

/-- A text below the surrogates has its code units in no other string. -/
theorem eq_of_utf16 (ht : ∀ c ∈ t, c.val < 0xd800) (h : utf16 s = utf16 t) : s = t := by
  induction s generalizing t with
  | nil =>
    have hlength := length_le_utf16 t
    rw [← h] at hlength
    exact (List.length_eq_zero_iff.mp (Nat.le_zero.mp hlength)).symm
  | cons c s ih =>
    cases t with
    | nil =>
      have hlength := length_le_utf16 (c :: s)
      rw [h] at hlength
      cases hlength
    | cons d t =>
      obtain ⟨hd,ht⟩ := List.forall_mem_cons.mp ht
      have hunits : units d = [d.val] := if_pos (by omega)
      rw [utf16,utf16,List.flatMap_cons,List.flatMap_cons,hunits,List.singleton_append,units] at h
      split_ifs at h with hsmall
      · obtain ⟨hval,hrest⟩ := List.cons.inj h
        rw [Fin.ext hval,ih ht hrest]
      · have hhigh := (List.cons.inj h).1
        unfold highSurrogate at hhigh
        omega

end

section
variable {s t : Str} {text text' : String}

theorem Denotes.fromUtf16 (h : Denotes s text) : fromUtf16 (utf16 s) = lit text := by
  rw [show utf16 s = utf16 (lit text) from h]
  exact paired_lit text

theorem denotes_iff : Denotes s text ↔ Python.fromUtf16 (utf16 s) = lit text := by
  refine ⟨Denotes.fromUtf16,fun h => ?_⟩
  rw [Denotes,← h,utf16_fromUtf16 (forall_mem_utf16 s)]

/-- Of a text below the surrogates, only one string has the characters. -/
theorem denotes_plain (h : (lit text).all (fun c => c.val < 0xd800) = true) :
    Denotes s text ↔ s = lit text := by
  refine ⟨eq_of_utf16 fun c hc => of_decide_eq_true (List.all_eq_true.mp h c hc),?_⟩
  rintro rfl
  rfl

/-- A string of a JSON value has the characters that it denotes. -/
theorem Denotes.eq_of_paired (h : Denotes s text) (hpaired : Paired s) : s = lit text :=
  (Eq.symm hpaired).trans h.fromUtf16

/-- So has a string that has an encoding. -/
theorem Denotes.eq (h : Denotes s text) (hencodable : Utf8Encodable s) : s = lit text :=
  h.eq_of_paired (paired_of_valid (encodable_iff.mp hencodable))

theorem utf16_strip (s : Str) : utf16 (strip s) = trimMatches isSpaceUnit (utf16 s) :=
  (trimMatches_flatMap isSpaceUnit_of_mem units_ne_nil s).symm

theorem Denotes.strip (h : Denotes s text) : utf16 (strip s) = utf16 (strip (lit text)) := by
  rw [utf16_strip,utf16_strip,show utf16 s = utf16 (lit text) from h]

/-- A text has no more code units than bytes. -/
theorem length_utf16_lit (text : String) : (utf16 (lit text)).length ≤ len text := by
  unfold utf16 lit len asBytes
  induction text.toList with
  | nil => exact Nat.le_refl _
  | cons c chars ih =>
    have hchar : (units (ofChar c)).length ≤ (String.utf8EncodeChar c).length := by
      have hval := val_ofChar c
      unfold units
      split_ifs with hsmall
      · exact List.length_pos_iff.mpr String.utf8EncodeChar_ne_nil
      · have hlarge : 0xffff < c.val := UInt32.lt_iff_toNat_lt.mpr (by
          rw [hval] at hsmall
          exact Nat.lt_of_succ_le (Nat.le_of_not_lt hsmall))
        rw [String.length_utf8EncodeChar,Char.utf8Size_eq_four_iff.mpr hlarge]
        exact (show 2 ≤ 4 by decide)
    rw [List.map_cons,List.flatMap_cons,List.flatMap_cons,List.length_append,List.length_append]
    omega

end
end HearthAI.Python
