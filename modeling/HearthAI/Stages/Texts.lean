import HearthAI.Jobs.FetchResult
import HearthAI.Jobs.Rebuilt
import HearthAI.Stages.Admission

/-! # The texts that both sides check

The control plane strips a text before it looks at it and counts code points. The Rust side
takes the text as it is and counts bytes, which are the same for ASCII.
-/
namespace HearthAI.Stages
open Text Python Contracts

def IsText (found : Option Value) : Prop := ∃ raw, found = some (.str raw)

/-- A text that has the property without the white space around it. -/
def Stripped (P : Str → Prop) (found : Option Value) : Prop :=
  ∃ raw, found = some (.str raw) ∧ P (strip raw)

/-- If the field is a text, then it has the property, as it is or stripped. -/
def IfText (P : Str → Prop) (found : Option Value) : Prop := ∀ raw, found = some (.str raw) → P raw
def IfStripped (P : Str → Prop) : Option Value → Prop := IfText (fun raw => P (strip raw))

def PrintableAscii (s : Str) : Prop := ∀ c ∈ s, 0x20 ≤ c.val ∧ c.val < 0x7f

def SourceId (isDigit : CodePoint → Bool) (s : Str) : Prop :=
  ∃ suffix, s = lit "source-" ++ suffix ∧ suffix ≠ [] ∧ s.length ≤ 64 ∧
    ∀ c ∈ suffix, isDigit c = true

/-- The digits are ASCII, and no more than 32. -/
def ShortSourceId (s : Str) : Prop :=
  ∃ suffix, s = lit "source-" ++ suffix ∧ suffix ≠ [] ∧ suffix.length ≤ 32 ∧
    ∀ c ∈ suffix, 48 ≤ c.val ∧ c.val ≤ 57

/-- A media type that can be used. -/
def MediaText (s : Str) : Prop :=
  s ≠ [] ∧ s.length ≤ Contracts.maxContentTypeChars ∧ PrintableAscii s

section
variable {found : Option Value} {P Q : Str → Prop}

theorem Stripped.isText (h : Stripped P found) : IsText found := by
  obtain ⟨raw,hfound,_⟩ := h
  exact ⟨raw,hfound⟩

theorem Stripped.mono (h : Stripped P found) (hPQ : ∀ s, P s → Q s) : Stripped Q found := by
  obtain ⟨raw,hfound,hP⟩ := h
  exact ⟨raw,hfound,hPQ _ hP⟩

/-- A field has one text. -/
theorem Stripped.ifStripped (h : Stripped P found) : IfStripped P found := by
  obtain ⟨raw,rfl,hP⟩ := h
  intro raw' hsame
  rwa [← Value.str.inj (Option.some.inj hsame)]

theorem IsText.stripped (h : IsText found) (hP : IfStripped P found) : Stripped P found := by
  obtain ⟨raw,rfl⟩ := h
  exact ⟨raw,rfl,hP raw rfl⟩

theorem Stripped.and (h : Stripped P found) (hQ : IfStripped Q found) :
    Stripped (fun s => P s ∧ Q s) found := by
  obtain ⟨raw,rfl,hP⟩ := h
  exact ⟨raw,rfl,hP,hQ raw rfl⟩

theorem Stripped.not_dict (h : Stripped P found) (items : Dict Str Value) :
    found ≠ some (.dict items) := by
  obtain ⟨raw,rfl,_⟩ := h
  exact nofun

theorem Stripped.present (h : Stripped P found) : found ≠ none := by
  obtain ⟨raw,rfl,_⟩ := h
  exact nofun

theorem stripped_none : ¬Stripped P none := by
  rintro ⟨_,hnone,_⟩
  cases hnone

end

section
variable {given : Value} {text : String}

/-! ## The readers of the control plane -/

/-- A reader strips its text and checks what is left. -/
theorem stringThen_iff {α : Type} {next : Str → Except Jobs.Raised α} {P : Str → Prop}
    {path : String} {maximum : ℕ} (h : ∀ s, (∃ a, next s = .ok a) ↔ P s) :
    (∃ a, (Jobs.requireString given path maximum false >>= next) = .ok a) ↔
      Stripped (fun s => s ≠ [] ∧ s.length ≤ maximum ∧ P s) (some given) := by
  constructor
  · rintro ⟨a,ha⟩
    obtain ⟨_,hstring,ha⟩ := bind_eq_ok.mp ha
    obtain ⟨raw,rfl,rfl,hnonempty,hlength⟩ := Jobs.requireString_eq_ok.mp hstring
    exact ⟨raw,rfl,by simpa using hnonempty,hlength,(h _).mp ⟨a,ha⟩⟩
  · rintro ⟨raw,hraw,hnonempty,hlength,hP⟩
    obtain ⟨a,ha⟩ := (h _).mpr hP
    exact ⟨a,bind_eq_ok.mpr ⟨_,Jobs.requireString_eq_ok.mpr
      ⟨raw,Option.some.inj hraw,rfl,.inl hnonempty,hlength⟩,ha⟩⟩

theorem requireSourceId_iff (isDigit : CodePoint → Bool) :
    (∃ s, Jobs.requireSourceId isDigit given = .ok s) ↔
      Stripped (SourceId isDigit) (some given) := by
  have hlead : (lit "source-").length = 7 := by decide
  have hsuffix : ∀ s, (∃ a, (do
      Jobs.check (Jobs.removeprefix (lit "source-") s ≠ s ∧
        Jobs.removeprefix (lit "source-") s ≠ [] ∧
        (Jobs.removeprefix (lit "source-") s).all isDigit = true)
        (lit "data.source_id must be a run-scoped source identifier")
      return s : Except Jobs.Raised Str) = .ok a) ↔
        ∃ suffix, s = lit "source-" ++ suffix ∧ suffix ≠ [] ∧ ∀ c ∈ suffix, isDigit c = true := by
    intro s
    simp only [bind_eq_ok,Jobs.check_eq_ok]
    unfold Jobs.removeprefix
    constructor
    · rintro ⟨_,_,⟨hchanged,hnonempty,hdigits⟩,_⟩
      split_ifs at hchanged hnonempty hdigits with hstarts
      · obtain ⟨suffix,rfl⟩ := List.isPrefixOf_iff_prefix.mp hstarts
        rw [List.drop_left] at hnonempty hdigits
        exact ⟨suffix,rfl,hnonempty,List.all_eq_true.mp hdigits⟩
      · exact absurd rfl hchanged
    · rintro ⟨suffix,rfl,hnonempty,hdigits⟩
      have hstarts : startsWith (lit "source-") (lit "source-" ++ suffix) = true :=
        List.isPrefixOf_iff_prefix.mpr ⟨suffix,rfl⟩
      rw [if_pos hstarts,List.drop_left]
      refine ⟨_,(),⟨fun hsame => ?_,hnonempty,List.all_eq_true.mpr hdigits⟩,rfl⟩
      have hlength := congrArg List.length hsame
      rw [List.length_append] at hlength
      omega
  refine (stringThen_iff hsuffix).trans ⟨fun h => h.mono ?_,fun h => h.mono ?_⟩
  · rintro s ⟨_,hlength,suffix,hs,hnonempty,hdigits⟩
    exact ⟨suffix,hs,hnonempty,hlength,hdigits⟩
  · rintro s ⟨suffix,rfl,hnonempty,hlength,hdigits⟩
    exact ⟨List.append_ne_nil_of_right_ne_nil _ hnonempty,hlength,suffix,rfl,hnonempty,hdigits⟩

theorem requireContentType_iff : (∃ s, Jobs.requireContentType given = .ok s) ↔
    Stripped (fun s => s ≠ [] ∧ s.length ≤ Jobs.maxContentTypeChars ∧ PrintableAscii s)
      (some given) := by
  refine stringThen_iff fun s => ?_
  have hchars : (s.all (fun c => c.val < 0x80) = true ∧
      s.any (fun c => c.val < 0x20 ∨ c.val = 0x7f) = false) ↔ PrintableAscii s := by
    rw [List.all_eq_true,List.any_eq_false,← forall₂_and,PrintableAscii]
    refine forall₂_congr fun c _ => ?_
    rw [decide_eq_true_eq,decide_eq_true_eq]
    omega
  rw [← hchars]
  simp only [bind_eq_ok,Jobs.check_eq_ok]
  constructor
  · rintro ⟨_,_,h,_⟩
    exact h
  · exact fun h => ⟨s,(),h,rfl⟩

theorem requireContent_iff (path : String) (maximum : ℕ) :
    (∃ s, Jobs.requireString given path maximum true = .ok s) ↔
      Stripped (fun s => s.length ≤ maximum) (some given) := by
  simp only [Jobs.requireString_eq_ok]
  constructor
  · rintro ⟨_,raw,rfl,rfl,_,hlength⟩
    exact ⟨raw,rfl,hlength⟩
  · rintro ⟨raw,hraw,hlength⟩
    exact ⟨_,raw,Option.some.inj hraw,rfl,.inr trivial,hlength⟩

/-! ## The checks of the Rust side -/

theorem encodable_lit (text : String) : Utf8Encodable (lit text) := by
  rw [Utf8Encodable,encodeUtf8_lit]
  rfl

theorem exists_lit {s : Str} (h : Utf8Encodable s) : ∃ text, s = lit text := by
  obtain ⟨bytes,hbytes⟩ := Option.isSome_iff_exists.mp h
  obtain ⟨chars,hchars,_⟩ := Option.map_eq_some_iff.mp hbytes
  exact ⟨String.ofList chars,by rw [mapM_toChar.mp hchars,lit,String.toList_ofList]⟩

theorem exists_lit_of_ascii {s : Str} (h : ∀ c ∈ s, c.val < 0x80) : ∃ text, s = lit text :=
  exists_lit (IsAscii.encodable h)

/-- Text of one byte a character is as long in bytes. -/
theorem len_of_ascii (h : ∀ c ∈ lit text, c.val < 0x80) : len text = (lit text).length := by
  have hsingle : ∀ c ∈ text.toList, (String.utf8EncodeChar c).length = 1 := by
    intro c hc
    rw [String.length_utf8EncodeChar,Char.utf8Size_eq_one_iff]
    have hval := h _ (List.mem_map_of_mem (f := ofChar) hc)
    exact UInt32.le_iff_toNat_le.mpr (Nat.le_of_lt_succ hval)
  have htext : String.ofList text.toList = text := String.ofList_toList
  have hlen := len_of_single hsingle
  rwa [htext,← List.length_map (f := ofChar)] at hlen

theorem stripPrefix_eq_some {lead rest : String} :
    stripPrefix lead text = some rest ↔ text = lead ++ rest := by
  unfold stripPrefix
  split_ifs with hlead
  · obtain ⟨chars,hchars⟩ := List.isPrefixOf_iff_prefix.mp hlead
    rw [← hchars,← String.length_toList,List.drop_left,Option.some.injEq,← String.toList_inj,
      ← String.toList_inj,String.toList_ofList,String.toList_append,← hchars,
      List.append_cancel_left_eq]
  · refine iff_of_false nofun ?_
    rintro rfl
    rw [String.toList_append] at hlead
    exact hlead (List.isPrefixOf_iff_prefix.mpr (List.prefix_append _ _))

theorem digits_lit : text.toList.all isAsciiDigit = true ↔
    ∀ c ∈ lit text, 48 ≤ c.val ∧ c.val ≤ 57 := by
  rw [List.all_eq_true,lit,List.forall_mem_map]
  refine forall₂_congr fun c _ => ?_
  simp [isAsciiDigit,Char.le_def,val_ofChar,UInt32.le_iff_toNat_le]

theorem isSourceId_iff : isSourceId text = true ↔ ShortSourceId (lit text) := by
  have hascii : ∀ {s : Str}, (∀ c ∈ s, 48 ≤ c.val ∧ c.val ≤ 57) → ∀ c ∈ s, c.val < 0x80 := by
    intro s hs c hc
    have hrange := hs c hc
    omega
  unfold isSourceId ShortSourceId
  constructor
  · intro h
    split at h
    · cases h
    · rename_i rest hrest
      rw [Bool.and_eq_true,Bool.and_eq_true,digits_lit,decide_eq_true_eq] at h
      obtain ⟨⟨hnonempty,hlength⟩,hdigits⟩ := h
      rw [len_of_ascii (hascii hdigits)] at hlength
      rw [stripPrefix_eq_some.mp hrest,lit_append]
      exact ⟨lit rest,rfl,by simpa [lit_eq_nil] using hnonempty,hlength,hdigits⟩
  · rintro ⟨suffix,htext,hnonempty,hlength,hdigits⟩
    obtain ⟨rest,rfl⟩ := exists_lit_of_ascii (hascii hdigits)
    rw [← lit_append] at htext
    rw [stripPrefix_eq_some.mpr (lit_injective htext)]
    dsimp only
    rw [Bool.and_eq_true,Bool.and_eq_true,digits_lit,decide_eq_true_eq,
      len_of_ascii (hascii hdigits)]
    exact ⟨⟨by simpa [lit_eq_nil] using hnonempty,hlength⟩,hdigits⟩

theorem ofChar_injective : Function.Injective ofChar := by
  intro c d h
  have hd := toChar_eq_some.mpr (rfl : ofChar d = ofChar d)
  rw [← h,toChar_eq_some.mpr rfl] at hd
  exact Option.some.inj hd

theorem isPolicyId_lit (text : String) : Jobs.isPolicyId (lit text) =
    (!text.isEmpty && text.toList.all
      (fun c => isAsciiLowercase c || isAsciiDigit c || ['-','_','.'].contains c)) := by
  have hempty : (lit text).isEmpty = text.isEmpty := by
    rw [Bool.eq_iff_iff,List.isEmpty_iff,lit_eq_nil,String.isEmpty_iff]
  have hmarks : ∀ c, (lit "-_.").contains (ofChar c) = ['-','_','.'].contains c := by
    intro c
    rw [Bool.eq_iff_iff,List.contains_iff_mem,List.contains_iff_mem]
    exact List.mem_map_of_injective ofChar_injective
  rw [Jobs.isPolicyId,hempty,lit,List.all_map]
  congr 2
  funext c
  rw [Function.comp_apply,hmarks,Bool.eq_iff_iff]
  simp only [Bool.or_eq_true,Bool.and_eq_true,decide_eq_true_eq]
  simp [isAsciiLowercase,isAsciiDigit,Char.le_def,val_ofChar,UInt32.le_iff_toNat_le]

theorem ascii_of_policyId {s : Str} (h : Jobs.PolicyId s) : ∀ c ∈ s, c.val < 0x80 := by
  have hall := h.1
  rw [Jobs.isPolicyId,Bool.and_eq_true,List.all_eq_true] at hall
  intro c hc
  have hchar := hall.2 c hc
  simp only [Bool.or_eq_true,Bool.and_eq_true,decide_eq_true_eq] at hchar
  rcases hchar with (hlower | hdigit) | hmark
  · omega
  · omega
  · have hmem : c ∈ lit "-_." := by simpa using hmark
    have hplain : (lit "-_.").all (fun c => c.val < 0x80) = true := by decide
    exact of_decide_eq_true (List.all_eq_true.mp hplain c hmem)

theorem validPolicyId_iff : validPolicyId text = true ↔ Jobs.PolicyId (lit text) := by
  have hsplit : validPolicyId text = true ↔
      Jobs.isPolicyId (lit text) = true ∧ len text ≤ 64 := by
    rw [isPolicyId_lit,validPolicyId,Bool.and_right_comm,Bool.and_eq_true,decide_eq_true_eq]
  rw [hsplit]
  constructor
  · rintro ⟨hvalid,hlength⟩
    exact ⟨hvalid,(length_lit_le text).trans hlength⟩
  · intro h
    exact ⟨h.1,(len_of_ascii (ascii_of_policyId h)).trans_le h.2⟩

theorem printable_lit : (∀ c ∈ text.toList, isControl c = false ∧ isAscii c = true) ↔
    PrintableAscii (lit text) := by
  rw [PrintableAscii,lit,List.forall_mem_map]
  refine forall₂_congr fun c _ => ?_
  simp only [isControl,isAscii,Bool.or_eq_false_iff,Bool.and_eq_false_iff,
    decide_eq_false_iff_not,decide_eq_true_eq,val_ofChar]
  omega

theorem mediaText_iff : (text.isEmpty = false ∧ len text ≤ Contracts.maxContentTypeChars ∧
    ∀ c ∈ text.toList, isControl c = false ∧ isAscii c = true) ↔ MediaText (lit text) := by
  have hempty : text.isEmpty = false ↔ lit text ≠ [] := by
    rw [ne_eq,lit_eq_nil,← String.isEmpty_iff,Bool.not_eq_true]
  rw [printable_lit,hempty,MediaText]
  refine and_congr_right fun _ => and_congr_left fun hprintable => ?_
  rw [len_of_ascii fun c hc => (hprintable c hc).2.trans (by decide)]

/-! ## What is left of a checked text -/

theorem length_strip_le (s : Str) : (strip s).length ≤ s.length :=
  (trimMatches_sublist isSpace s).length_le

theorem PrintableAscii.strip {s : Str} (h : PrintableAscii s) : PrintableAscii (strip s) :=
  fun c hc => h c ((trimMatches_sublist isSpace s).subset hc)

theorem strip_source {suffix : Str} (h : ∀ c ∈ suffix, 48 ≤ c.val ∧ c.val ≤ 57) :
    strip (lit "source-" ++ suffix) = lit "source-" ++ suffix := by
  have hlead : (lit "source-").all (fun c => !isSpace c) = true := by decide
  refine trimMatches_of_forall fun c hc => ?_
  rcases List.mem_append.mp hc with hc | hc
  · simpa using List.all_eq_true.mp hlead c hc
  · have hrange := h c hc
    simp only [isSpace,Bool.or_eq_false_iff,Bool.and_eq_false_iff,decide_eq_false_iff_not,
      beq_eq_false_iff_ne]
    omega

theorem ShortSourceId.ascii {s : Str} (h : ShortSourceId s) : ∀ c ∈ s, c.val < 0x80 := by
  obtain ⟨suffix,rfl,_,_,hrange⟩ := h
  have hlead : (lit "source-").all (fun c => c.val < 0x80) = true := by decide
  intro c hc
  rcases List.mem_append.mp hc with hc | hc
  · exact of_decide_eq_true (List.all_eq_true.mp hlead c hc)
  · have hdigit := (hrange c hc).2
    omega

/-- A source identifier of the Rust side is one of the control plane. -/
theorem ShortSourceId.stripped {isDigit : CodePoint → Bool}
    (hdigits : ∀ c : CodePoint, 48 ≤ c.val → c.val ≤ 57 → isDigit c = true) {s : Str}
    (h : ShortSourceId s) : Stripped (SourceId isDigit) (some (.str s)) := by
  obtain ⟨suffix,rfl,hnonempty,hlength,hrange⟩ := h
  have hlead : (lit "source-").length = 7 := by decide
  refine ⟨_,rfl,suffix,strip_source hrange,hnonempty,?_,
    fun c hc => hdigits c (hrange c hc).1 (hrange c hc).2⟩
  rw [strip_source hrange,List.length_append]
  omega

end
end HearthAI.Stages
