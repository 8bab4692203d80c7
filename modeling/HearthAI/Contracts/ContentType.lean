import HearthAI.Contracts.Grammar

/-! # When the parser reads a `Content-Type` as the grammar does -/
namespace HearthAI.Contracts
open Text

namespace MediaType

/-- The text of a piece shows a value of the grammar: up to case, and with white space, quotes and
white space around it. -/
inductive Shown : Option String → Option (List Char) → Prop
  | none : Shown none none
  | some {raw : String} {shown text : List Char} : Wrapped raw.toList shown →
      lowered shown = lowered text → Shown (some raw) (some text)

/-- The value is a media type by the grammar, and the last piece that names the charset shows the
value of the last charset parameter. -/
def Legible (value : String) : Prop := ∃ type subtype params,
  Grammatical value.toList type subtype params ∧
    Shown (charsetTexts value).getLast? (charsetParameter params)

theorem ne_semicolon_of_isTchar {c : Char} (h : isTchar c = true) : c ≠ ';' := by
  rintro rfl
  revert h
  decide

theorem isBlank_spec {c : Char} (h : isBlank c = true) : isWhitespace c = true ∧ c ≠ ';' := by
  rcases Bool.or_eq_true_iff.mp h with h | h
  · rw [eq_of_beq h]
    decide
  · rw [eq_of_beq h]
    decide

/-- Parameters end the first piece. -/
theorem parameters_first {rest : List Char} {params : List (List Char × List Char)}
    (h : Parameters rest params) : ∃ before, Blank before ∧
      (rest = before ∨ ∃ more, rest = before ++ ';' :: more) := by
  cases h with
  | nil => exact ⟨[],by simp [Blank],.inl rfl⟩
  | empty hbefore => exact ⟨_,hbefore,.inr ⟨_,rfl⟩⟩
  | cons hbefore => exact ⟨_,hbefore,.inr ⟨_,rfl⟩⟩

/-- The first piece is the type with its subtype. -/
theorem grammatical_essenceText {value : String} {type subtype : List Char}
    {params : List (List Char × List Char)} (h : Grammatical value.toList type subtype params) :
    essenceText value = String.ofList (lowered (type ++ '/' :: subtype)) := by
  obtain ⟨rest,hvalue,hparams⟩ := h.written
  obtain ⟨before,hblank,hrest⟩ := parameters_first hparams
  have hpart : ∀ c ∈ type ++ '/' :: subtype, isWhitespace c = false ∧ c ≠ ';' := by
    intro c hc
    rcases List.mem_append.mp hc with hc | hc
    · exact ⟨isWhitespace_of_isTchar (h.type_token.2 c hc),
        ne_semicolon_of_isTchar (h.type_token.2 c hc)⟩
    · rcases List.mem_cons.mp hc with rfl | hc
      · decide
      · exact ⟨isWhitespace_of_isTchar (h.subtype_token.2 c hc),
          ne_semicolon_of_isTchar (h.subtype_token.2 c hc)⟩
  have hplain : ';' ∉ (type ++ '/' :: subtype) ++ before := fun hmem =>
    (List.mem_append.mp hmem).elim (fun hmem => (hpart _ hmem).2 rfl)
      fun hmem => (isBlank_spec (hblank _ hmem)).2 rfl
  have hsplit : ∃ pieces, split ';' value =
      String.ofList ((type ++ '/' :: subtype) ++ before) :: pieces := by
    rcases hrest with rfl | ⟨more,rfl⟩
    · have hlist : value.toList = (type ++ '/' :: subtype) ++ rest := by simp [hvalue]
      exact ⟨[],by rw [split,hlist,List.splitOn_eq_singleton hplain]; rfl⟩
    · have hlist : value.toList = ((type ++ '/' :: subtype) ++ before) ++ ';' :: more := by
        simp [hvalue]
      exact ⟨_,by rw [split,hlist,List.splitOn_append_cons_self_of_not_mem hplain]; rfl⟩
  obtain ⟨pieces,hsplit⟩ := hsplit
  have htrim : trimMatches isWhitespace ([] ++ ((type ++ '/' :: subtype) ++ before)) =
      type ++ '/' :: subtype := by
    rw [trimMatches_append (by simp) fun c hc => (isBlank_spec (hblank c hc)).1]
    exact trimMatches_of_forall fun c hc => (hpart c hc).1
  rw [essenceText_of_split hsplit,trim,String.toList_ofList,← List.nil_append (_ ++ before),htrim,
    toAsciiLowercase,String.toList_ofList]
  rfl

theorem trimMatches_sublist {α : Type} (p : α → Bool) (l : List α) :
    (trimMatches p l).Sublist l := by
  obtain ⟨before,after,hl,_⟩ := exists_trimMatches p l
  conv_rhs => rw [hl]
  exact (List.sublist_append_left _ _).trans (List.sublist_append_right _ _)

theorem isQuote_toLower (c : Char) : isQuote c.toLower = isQuote c := by
  refine toLower_congr (fun d hlow _ => ?_) c
  rw [isQuote,beq_eq_false_iff_ne]
  rintro rfl
  revert hlow
  decide

theorem unwrapped_lowered (l : List Char) : unwrapped (lowered l) = lowered (unwrapped l) := by
  simp only [unwrapped,trimMatches_lowered isWhitespace_toLower,trimMatches_lowered isQuote_toLower]

theorem Wrapped.bare {raw shown : List Char} (h : Wrapped raw shown) : Wrapped shown shown := by
  have hnothing : Wrapping [] := ⟨[],[],[],rfl,by simp,by simp,by simp⟩
  exact ⟨h.nonempty,h.head,h.last,[],[],by simp,hnothing,hnothing⟩

/-- What stays as it is has no quotes at its ends. -/
theorem unwrapped_of_cleaned {raw : String} (h : cleaned (cleaned raw) = cleaned raw) :
    trimMatches isQuote (unwrapped raw.toList) = unwrapped raw.toList := by
  have hlength : (unwrapped (unwrapped raw.toList)).length = (unwrapped raw.toList).length := by
    have hlists := congrArg String.toList h
    rw [cleaned_eq (cleaned raw),cleaned_eq raw,String.toList_ofList,String.toList_ofList,
      unwrapped_lowered,lowered_idem] at hlists
    simpa only [lowered,List.length_map] using congrArg List.length hlists
  refine (trimMatches_sublist _ _).eq_of_length (le_antisymm (trimMatches_sublist _ _).length_le ?_)
  rw [← hlength]
  conv_lhs => rw [unwrapped]
  refine (trimMatches_sublist _ _).length_le.trans ?_
  rw [show trimMatches isWhitespace (unwrapped raw.toList) = unwrapped raw.toList from
    trim_trimmed _]

/-- The parser keeps to the grammar exactly when it refuses the value, or when the value is in the
grammar and its last piece that names the charset shows what the charset parameter holds. -/
theorem followsGrammar_iff (value : String) :
    FollowsGrammar value ↔ Refused value ∨ Legible value := by
  constructor
  · intro hfollows
    by_cases hrefused : Refused value
    · exact .inl hrefused
    obtain ⟨⟨type,subtype,params,hgrammar,_,hcharset⟩,hagain⟩ :=
      hfollows _ (parse_eq_ok.mpr ⟨hrefused,rfl⟩)
    refine .inr ⟨type,subtype,params,hgrammar,?_⟩
    cases hlast : (charsetTexts value).getLast? with
    | none =>
      rw [hlast] at hcharset
      rw [Option.map_eq_none_iff.mp hcharset.symm]
      exact .none
    | some raw =>
      rw [hlast] at hcharset hagain
      obtain ⟨text,htext,hsame⟩ := Option.map_eq_some_iff.mp hcharset.symm
      have hraw := List.mem_of_getLast? hlast
      obtain ⟨_,htexts⟩ := headerValue_pieces value (semicolon_cleaned (semicolon_charsetTexts hraw))
      have hclean : cleaned (cleaned raw) = cleaned raw := by
        have hcharset := congrArg MediaType.charset (parse_eq_ok.mp hagain).2
        rw [Option.map_some,htexts] at hcharset
        exact (Option.some.inj hcharset).symm
      have hquotes := unwrapped_of_cleaned hclean
      have hne : unwrapped raw.toList ≠ [] := by
        intro hnil
        refine (not_or.mp hrefused).2 ⟨raw,hraw,?_⟩
        rw [cleaned_eq,hnil]
        rfl
      rw [htext]
      refine .some (wrapped_unwrapped hne (fun c hc => ?_) fun c hc => ?_) ?_
      · rw [← hquotes] at hc
        exact head?_trimMatches_eq_false hc
      · rw [← hquotes] at hc
        exact getLast?_trimMatches_eq_false hc
      · rw [hsame,cleaned_eq,String.toList_ofList]
  · rintro (hrefused | ⟨type,subtype,params,hgrammar,hshown⟩) media hparse
    · exact absurd hrefused (parse_eq_ok.mp hparse).1
    have hmedia := (parse_eq_ok.mp hparse).2
    have hessence : media.essence.toList = lowered (type ++ '/' :: subtype) := by
      rw [hmedia,grammatical_essenceText hgrammar,String.toList_ofList]
    have hcharset : media.charset = (charsetTexts value).getLast?.map cleaned := by rw [hmedia]
    refine ⟨⟨type,subtype,params,hgrammar,hessence,?_⟩,parse_headerValue_of hparse fun c hc => ?_⟩
    · rw [hcharset]
      generalize (charsetTexts value).getLast? = last, charsetParameter params = param at hshown ⊢
      cases hshown with
      | none => rfl
      | some hwrapped hsame =>
        rw [Option.map_some,Option.map_some,cleaned_eq,hwrapped.unwrapped,hsame,Option.map_some,
          String.toList_ofList]
    · rw [hcharset] at hc
      generalize (charsetTexts value).getLast? = last, charsetParameter params = param
        at hshown hc
      cases hshown with
      | none => cases hc
      | some hwrapped hsame =>
        obtain rfl := Option.some.inj hc
        rw [cleaned_eq,cleaned_eq,String.toList_ofList,unwrapped_lowered,hwrapped.unwrapped,
          hwrapped.bare.unwrapped,lowered_idem]

/-- A space in the type is let through, and quotes that only the first cleaning leaves are lost
in the second. -/
theorem parse_lets_malformed_through :
    (parse "te xt/html" = .ok ⟨"te xt/html",none⟩ ∧
      ¬∃ type subtype params, Grammatical "te xt/html".toList type subtype params) ∧
    (∃ media again, parse "text/html; charset=\" \"utf-8\" \"" = .ok media ∧
      parse media.headerValue = .ok again ∧ media ≠ again) := by
  refine ⟨⟨by decide,?_⟩,⟨"text/html",some "\"utf-8\""⟩,⟨"text/html",some "utf-8"⟩,by decide,
    by decide,by decide⟩
  rintro ⟨type,subtype,params,hgrammar⟩
  obtain ⟨rest,hvalue,_⟩ := hgrammar.written
  have hslash : ∀ c ∈ type, (c != '/') = true := by
    intro c hc
    rw [bne_iff_ne]
    rintro rfl
    exact absurd (hgrammar.type_token.2 _ hc) (by decide)
  have htype := congrArg (List.takeWhile (· != '/')) hvalue
  rw [List.takeWhile_append_of_pos hslash,List.takeWhile_cons_of_neg (by decide),
    List.append_nil] at htype
  have hblank : ' ' ∈ type := by
    rw [← htype]
    decide
  exact absurd (hgrammar.type_token.2 _ hblank) (by decide)

end MediaType
end HearthAI.Contracts
