import HearthAI.Contracts.Media

/-! # The grammar of `Content-Type` and what the parser reads instead

The grammar is that of HTTP: two tokens with a slash between them, and parameters whose values are
tokens or quoted strings. The parser cuts the value at every semicolon, quoted or not, and takes
white space and quotes off the pieces.
-/
namespace HearthAI.Contracts
open Text

def isTchar (c : Char) : Bool := c.isAlphanum || "!#$%&'*+-.^_`|~".toList.contains c

/-- The optional white space of HTTP. -/
def isBlank (c : Char) : Bool := c == ' ' || c == '\t'

/-- A character above ASCII stands for the bytes of its encoding, which are `obs-text`. -/
def isQdtext (c : Char) : Bool :=
  isBlank c || c == '!' || ('#' ≤ c && c ≤ '[') || (']' ≤ c && c ≤ '~') || !isAscii c

/-- What may follow a backslash. -/
def isQuotable (c : Char) : Bool := isBlank c || ('!' ≤ c && c ≤ '~') || !isAscii c

def Token (s : List Char) : Prop := s ≠ [] ∧ ∀ c ∈ s, isTchar c = true

def Blank (s : List Char) : Prop := ∀ c ∈ s, isBlank c = true

/-- What is written between quotes, and what it stands for. -/
inductive Quoted : List Char → List Char → Prop
  | nil : Quoted [] []
  | text {c written content} : isQdtext c = true → Quoted written content →
      Quoted (c :: written) (c :: content)
  | pair {c written content} : isQuotable c = true → Quoted written content →
      Quoted ('\\' :: c :: written) (c :: content)

inductive ParameterValue : List Char → List Char → Prop
  | token {s} : Token s → ParameterValue s s
  | quoted {written content} : Quoted written content →
      ParameterValue ('"' :: (written ++ ['"'])) content

/-- The parameters behind a media type, by name and value. -/
inductive Parameters : List Char → List (List Char × List Char) → Prop
  | nil : Parameters [] []
  | empty {before after rest params} : Blank before → Blank after → Parameters rest params →
      Parameters (before ++ ';' :: (after ++ rest)) params
  | cons {before after name written content rest params} : Blank before → Blank after →
      Token name → ParameterValue written content → Parameters rest params →
      Parameters (before ++ ';' :: (after ++ (name ++ '=' :: (written ++ rest))))
        ((name,content) :: params)

/-- A media type by the grammar. -/
structure Grammatical (value type subtype : List Char) (params : List (List Char × List Char)) :
    Prop where
  type_token : Token type
  subtype_token : Token subtype
  written : ∃ rest, value = type ++ '/' :: (subtype ++ rest) ∧ Parameters rest params

def lowered (s : List Char) : List Char := s.map Char.toLower

/-- The value of the charset parameter, the last one if there are more. -/
def charsetParameter (params : List (List Char × List Char)) : Option (List Char) :=
  ((params.filter (fun p => lowered p.1 == "charset".toList)).getLast?).map Prod.snd

/-! Trimming and lower-casing. -/

section
variable {α : Type} {p : α → Bool} {l : List α}

/-- What trimming takes away. -/
theorem exists_trimMatches (p : α → Bool) (l : List α) : ∃ before after,
    l = before ++ (trimMatches p l ++ after) ∧ (∀ a ∈ before, p a = true) ∧
      ∀ a ∈ after, p a = true := by
  refine ⟨l.takeWhile p,((l.dropWhile p).reverse.takeWhile p).reverse,?_,
    fun a ha => List.mem_takeWhile_imp ha,
    fun a ha => List.mem_takeWhile_imp (List.mem_reverse.mp ha)⟩
  rw [trimMatches,← List.reverse_append,List.takeWhile_append_dropWhile,List.reverse_reverse,
    List.takeWhile_append_dropWhile]

theorem trimMatches_append {before after : List α} (hbefore : ∀ a ∈ before, p a = true)
    (hafter : ∀ a ∈ after, p a = true) (l : List α) :
    trimMatches p (before ++ (l ++ after)) = trimMatches p l := by
  rw [trimMatches,List.dropWhile_append_of_pos hbefore,trimMatches]
  cases hdrop : l.dropWhile p with
  | nil =>
    have hall : ∀ a ∈ l ++ after, p a = true := fun a ha =>
      (List.mem_append.mp ha).elim (List.dropWhile_eq_nil_iff.mp hdrop a) (hafter a)
    rw [List.dropWhile_eq_nil_iff.mpr hall]
  | cons a rest =>
    rw [List.dropWhile_append,hdrop,if_neg (by simp),List.reverse_append,
      List.dropWhile_append_of_pos fun b hb => hafter b (List.mem_reverse.mp hb)]

end

theorem toLower_cases (c : Char) : 65 ≤ c.toNat ∧ c.toNat ≤ 90 ∧ c.toLower.toNat = c.toNat + 32 ∨
    ¬(65 ≤ c.toNat ∧ c.toNat ≤ 90) ∧ c.toLower = c := by
  have hval : c.val.toNat = c.toNat := rfl
  unfold Char.toLower
  split_ifs with h
  · obtain ⟨hlow,hhigh⟩ := h
    rw [ge_iff_le,UInt32.le_iff_toNat_le] at hlow
    rw [UInt32.le_iff_toNat_le] at hhigh
    refine .inl ⟨hlow,hhigh,?_⟩
    show (c.val + ('a'.val - 'A'.val)).toNat = _
    rw [UInt32.toNat_add]
    exact Nat.mod_eq_of_lt (Nat.lt_of_le_of_lt (Nat.add_le_add_right hhigh _) (by decide))
  · refine .inr ⟨fun hc => h ⟨?_,?_⟩,rfl⟩
    · exact UInt32.le_iff_toNat_le.mpr hc.1
    · exact UInt32.le_iff_toNat_le.mpr hc.2

/-- A property of characters that does not tell the letters apart. -/
theorem toLower_congr {p : Char → Bool}
    (h : ∀ c : Char, 65 ≤ c.toNat → c.toNat ≤ 122 → p c = false) (c : Char) :
    p c.toLower = p c := by
  rcases toLower_cases c with ⟨hlow,hhigh,hc⟩ | ⟨_,hc⟩
  · rw [h c hlow (by omega),h c.toLower (by omega) (by omega)]
  · rw [hc]

theorem toLower_idem (c : Char) : c.toLower.toLower = c.toLower := by
  rcases toLower_cases c with ⟨hlow,hhigh,hc⟩ | ⟨_,hc⟩
  · rcases toLower_cases c.toLower with ⟨_,_,_⟩ | ⟨_,hc'⟩
    · omega
    · exact hc'
  · rw [hc,hc]

theorem isWhitespace_letter (c : Char) (hlow : 65 ≤ c.toNat) (hhigh : c.toNat ≤ 122) :
    isWhitespace c = false := by
  simp only [isWhitespace,Bool.or_eq_false_iff,Bool.and_eq_false_iff,decide_eq_false_iff_not,
    beq_eq_false_iff_ne]
  omega

theorem isWhitespace_of_isTchar {c : Char} (h : isTchar c = true) : isWhitespace c = false := by
  rcases Bool.or_eq_true_iff.mp h with h | h
  · have hrange : 48 ≤ c.toNat ∧ c.toNat ≤ 122 := by
      simp only [Char.isAlphanum,Char.isAlpha,Char.isUpper,Char.isLower,Char.isDigit,
        Bool.or_eq_true,Bool.and_eq_true,decide_eq_true_eq,ge_iff_le,UInt32.le_iff_toNat_le] at h
      have hval : c.val.toNat = c.toNat := rfl
      simp only [hval] at h
      revert h
      simp
      omega
    simp only [isWhitespace,Bool.or_eq_false_iff,Bool.and_eq_false_iff,decide_eq_false_iff_not,
      beq_eq_false_iff_ne]
    omega
  · have hall : ("!#$%&'*+-.^_`|~".toList).all (fun c => !isWhitespace c) = true := by decide
    simpa using List.all_eq_true.mp hall c (by simpa using h)

namespace MediaType

/-- What the parser does by the grammar. -/
def FollowsGrammar (value : String) : Prop :=
  ∀ media, parse value = .ok media → (∃ type subtype params,
    Grammatical value.toList type subtype params ∧
      media.essence.toList = lowered (type ++ '/' :: subtype) ∧
      media.charset.map String.toList = (charsetParameter params).map lowered) ∧
    parse media.headerValue = .ok media

/-! The pieces that the parser cuts. -/

/-- What a piece gives for the charset. -/
def charsetText (piece : String) : Option String :=
  match splitOnce '=' piece with
  | none => none
  | some (name,raw) => if toAsciiLowercase (trim name) = "charset" then some raw else none

def charsetTexts (value : String) : List String := (split ';' value).tail.filterMap charsetText

def cleaned (raw : String) : String := toAsciiLowercase (trim (trimChar '"' (trim raw)))

/-- The first piece. -/
def essenceText (value : String) : String :=
  toAsciiLowercase (trim ((split ';' value).headD ""))

/-- The parser refuses the first piece, or a piece that names the charset and holds none. -/
def Refused (value : String) : Prop :=
  (essenceText value = "" ∨ (split '/' (essenceText value)).length ≠ 2 ∨
    "" ∈ split '/' (essenceText value)) ∨ ∃ raw ∈ charsetTexts value, cleaned raw = ""

theorem parseParameter_eq (charset : Option String) (piece : String) :
    parseParameter charset piece = match charsetText piece with
      | none => .ok charset
      | some raw =>
        if cleaned raw = "" then .error ⟨"content type has an empty charset"⟩
        else .ok (some (cleaned raw)) := by
  cases hpiece : splitOnce '=' piece with
  | none => simp only [parseParameter,charsetText,hpiece]
  | some pair =>
    by_cases hname : toAsciiLowercase (trim pair.1) = "charset"
    · simp only [parseParameter,charsetText,hpiece,if_pos hname,cleaned]
      exact if_congr Iff.rfl rfl rfl
    · simp only [parseParameter,charsetText,hpiece,if_neg hname]

theorem foldlM_parseParameter {charset result : Option String} (pieces : List String) :
    pieces.foldlM parseParameter charset = .ok result ↔
      (∀ raw ∈ pieces.filterMap charsetText, cleaned raw ≠ "") ∧
        result = ((pieces.filterMap charsetText).getLast?.map cleaned).or charset := by
  induction pieces generalizing charset with
  | nil =>
    show Except.ok charset = Except.ok result ↔ _
    rw [Except.ok.injEq,eq_comm]
    exact (and_iff_right (List.forall_mem_nil _)).symm
  | cons piece pieces ih =>
    rw [List.foldlM_cons,parseParameter_eq]
    cases hpiece : charsetText piece with
    | none =>
      rw [List.filterMap_cons_none hpiece]
      exact ih
    | some raw =>
      rw [List.filterMap_cons_some hpiece,List.forall_mem_cons]
      by_cases hraw : cleaned raw = ""
      · dsimp only
        rw [if_pos hraw]
        exact iff_of_false (fun h => by cases h) fun h => h.1.1 hraw
      · dsimp only
        rw [if_neg hraw]
        refine Iff.trans (@ih (some (cleaned raw))) ?_
        rw [and_iff_right hraw]
        refine and_congr_right fun _ => ?_
        cases hrest : (pieces.filterMap charsetText).getLast? with
        | none =>
          rw [List.getLast?_eq_none_iff.mp hrest]
          rfl
        | some last =>
          rw [List.getLast?_cons,hrest]
          rfl

theorem parse_eq_ok {value : String} {media : MediaType} : parse value = .ok media ↔
    ¬Refused value ∧
      media = ⟨essenceText value,(charsetTexts value).getLast?.map cleaned⟩ := by
  rw [Refused,not_or,not_exists]
  constructor
  · intro h
    obtain ⟨_,hshape,hrest⟩ := bind_eq_ok.mp h
    obtain ⟨charset,hcharset,hmedia⟩ := bind_eq_ok.mp hrest
    obtain ⟨hnonempty,rfl⟩ := (foldlM_parseParameter _).mp hcharset
    refine ⟨⟨refuseIf_eq_ok.mp hshape,fun raw hraw => hnonempty raw hraw.1 hraw.2⟩,?_⟩
    rw [← Except.ok.inj hmedia,Option.or_none]
    rfl
  · rintro ⟨⟨hshape,hnonempty⟩,rfl⟩
    refine bind_eq_ok.mpr ⟨(),refuseIf_eq_ok.mpr hshape,bind_eq_ok.mpr ⟨_,?_,rfl⟩⟩
    exact (foldlM_parseParameter _).mpr ⟨fun raw hraw h => hnonempty raw ⟨hraw,h⟩,
      (Option.or_none).symm⟩

/-! What is left of a piece. -/

def isQuote (c : Char) : Bool := c == '"'

/-- White space, quotes and white space. -/
def Wrapping (l : List Char) : Prop := ∃ before quotes after, l = before ++ (quotes ++ after) ∧
  (∀ c ∈ before, isWhitespace c = true) ∧ (∀ c ∈ quotes, isQuote c = true) ∧
    ∀ c ∈ after, isWhitespace c = true

/-- The text with some wrapping around it, and none of its own. -/
structure Wrapped (raw shown : List Char) : Prop where
  nonempty : shown ≠ []
  head : ∀ c, shown.head? = some c → isWhitespace c = false ∧ isQuote c = false
  last : ∀ c, shown.getLast? = some c → isWhitespace c = false ∧ isQuote c = false
  written : ∃ before after, raw = before ++ (shown ++ after) ∧ Wrapping before ∧ Wrapping after

def unwrapped (raw : List Char) : List Char :=
  trimMatches isWhitespace (trimMatches isQuote (trimMatches isWhitespace raw))

theorem cleaned_eq (raw : String) :
    cleaned raw = String.ofList (lowered (unwrapped raw.toList)) := by
  simp only [cleaned,toAsciiLowercase,trim,trimChar,String.toList_ofList]
  rfl

theorem isWhitespace_of_isQuote {c : Char} (h : isQuote c = true) : isWhitespace c = false := by
  rw [eq_of_beq h]
  decide

theorem isQuote_of_isWhitespace {c : Char} (h : isWhitespace c = true) : isQuote c = false := by
  rw [← Bool.not_eq_true]
  intro hquote
  rw [isWhitespace_of_isQuote hquote] at h
  cases h

/-- White space around no quotes is all in front. -/
theorem Wrapping.leading {l : List Char} (h : Wrapping l) : ∃ before quotes after,
    l = before ++ (quotes ++ after) ∧ (∀ c ∈ before, isWhitespace c = true) ∧
      (∀ c ∈ quotes, isQuote c = true) ∧ (∀ c ∈ after, isWhitespace c = true) ∧
        (quotes = [] → after = []) := by
  obtain ⟨before,quotes,after,rfl,hbefore,hquotes,hafter⟩ := h
  by_cases hempty : quotes = []
  · refine ⟨before ++ after,[],[],by simp [hempty],fun c hc => ?_,by simp,by simp,fun _ => rfl⟩
    exact (List.mem_append.mp hc).elim (hbefore c) (hafter c)
  · exact ⟨before,quotes,after,rfl,hbefore,hquotes,hafter,fun h => absurd h hempty⟩

theorem Wrapping.reverse {l : List Char} (h : Wrapping l) : Wrapping l.reverse := by
  obtain ⟨before,quotes,after,rfl,hbefore,hquotes,hafter⟩ := h
  exact ⟨after.reverse,quotes.reverse,before.reverse,by simp,
    fun c hc => hafter c (List.mem_reverse.mp hc),fun c hc => hquotes c (List.mem_reverse.mp hc),
    fun c hc => hbefore c (List.mem_reverse.mp hc)⟩

theorem Wrapping.trailing {l : List Char} (h : Wrapping l) : ∃ before quotes after,
    l = before ++ (quotes ++ after) ∧ (∀ c ∈ before, isWhitespace c = true) ∧
      (∀ c ∈ quotes, isQuote c = true) ∧ (∀ c ∈ after, isWhitespace c = true) ∧
        (quotes = [] → before = []) := by
  obtain ⟨before,quotes,after,hl,hbefore,hquotes,hafter,hempty⟩ := h.reverse.leading
  refine ⟨after.reverse,quotes.reverse,before.reverse,?_,
    fun c hc => hafter c (List.mem_reverse.mp hc),fun c hc => hquotes c (List.mem_reverse.mp hc),
    fun c hc => hbefore c (List.mem_reverse.mp hc),fun h => ?_⟩
  · rw [← List.reverse_reverse l,hl]
    simp
  · rw [hempty (List.reverse_eq_nil_iff.mp h),List.reverse_nil]

theorem head_mem_or {front next middle rest : List Char} {c : Char} (hmiddle : middle ≠ [])
    (hnext : front = [] → next = []) (h : (front ++ (next ++ (middle ++ rest))).head? = some c) :
    c ∈ front ∨ middle.head? = some c := by
  cases front with
  | nil =>
    rw [hnext rfl,List.nil_append,List.nil_append,List.head?_append_of_ne_nil _ hmiddle] at h
    exact .inr h
  | cons d front =>
    obtain rfl : d = c := Option.some.inj h
    exact .inl List.mem_cons_self

theorem last_mem_or {front next middle rest : List Char} {c : Char} (hmiddle : middle ≠ [])
    (hnext : front = [] → next = []) (h : (rest ++ (middle ++ (next ++ front))).getLast? = some c) :
    c ∈ front ∨ middle.getLast? = some c := by
  rw [← List.head?_reverse] at h ⊢
  have hreverse : (rest ++ (middle ++ (next ++ front))).reverse =
      front.reverse ++ (next.reverse ++ (middle.reverse ++ rest.reverse)) := by simp
  rw [hreverse] at h
  refine (head_mem_or (by simpa using hmiddle) (fun hfront => ?_) h).imp_left List.mem_reverse.mp
  rw [hnext (List.reverse_eq_nil_iff.mp hfront),List.reverse_nil]

theorem Wrapped.unwrapped {raw shown : List Char} (h : Wrapped raw shown) :
    unwrapped raw = shown := by
  obtain ⟨lead,trail,hraw,hlead,htrail⟩ := h.written
  obtain ⟨before,quotes,after,rfl,hbefore,hquotes,hafter,hnone⟩ := hlead.leading
  obtain ⟨before',quotes',after',rfl,hbefore',hquotes',hafter',hnone'⟩ := htrail.trailing
  have hregroup : raw =
      before ++ ((quotes ++ ((after ++ (shown ++ before')) ++ quotes')) ++ after') := by
    rw [hraw]
    simp
  have houter : trimMatches isWhitespace (quotes ++ ((after ++ (shown ++ before')) ++ quotes')) =
      quotes ++ ((after ++ (shown ++ before')) ++ quotes') := by
    refine trimMatches_of_ends (fun c hc => ?_) fun c hc => ?_
    · rw [List.append_assoc,List.append_assoc] at hc
      rcases head_mem_or h.nonempty hnone hc with hc | hc
      · exact isWhitespace_of_isQuote (hquotes c hc)
      · exact (h.head c hc).1
    · have hsame : quotes ++ ((after ++ (shown ++ before')) ++ quotes') =
          (quotes ++ after) ++ (shown ++ (before' ++ quotes')) := by simp
      rw [hsame] at hc
      rcases last_mem_or h.nonempty hnone' hc with hc | hc
      · exact isWhitespace_of_isQuote (hquotes' c hc)
      · exact (h.last c hc).1
  have hinner : trimMatches isQuote (after ++ (shown ++ before')) = after ++ (shown ++ before') := by
    refine trimMatches_of_ends (fun c hc => ?_) fun c hc => ?_
    · have hfirst : (after ++ ([] ++ (shown ++ before'))).head? = some c := hc
      rcases head_mem_or h.nonempty (fun _ => rfl) hfirst with hc | hc
      · exact isQuote_of_isWhitespace (hafter c hc)
      · exact (h.head c hc).2
    · have hfinal : (after ++ (shown ++ ([] ++ before'))).getLast? = some c := hc
      rcases last_mem_or h.nonempty (fun _ => rfl) hfinal with hc | hc
      · exact isQuote_of_isWhitespace (hbefore' c hc)
      · exact (h.last c hc).2
  rw [MediaType.unwrapped,hregroup,trimMatches_append hbefore hafter',houter,
    trimMatches_append hquotes hquotes',hinner,trimMatches_append hafter hbefore']
  exact trimMatches_of_ends (fun c hc => (h.head c hc).1) fun c hc => (h.last c hc).1

theorem wrapped_unwrapped {raw : List Char} (hne : unwrapped raw ≠ [])
    (hhead : ∀ c, (unwrapped raw).head? = some c → isQuote c = false)
    (hlast : ∀ c, (unwrapped raw).getLast? = some c → isQuote c = false) :
    Wrapped raw (unwrapped raw) := by
  obtain ⟨before,after,hraw,hbefore,hafter⟩ := exists_trimMatches isWhitespace raw
  obtain ⟨quotes,quotes',htext,hquotes,hquotes'⟩ :=
    exists_trimMatches isQuote (trimMatches isWhitespace raw)
  obtain ⟨next,next',hinner,hnext,hnext'⟩ := exists_trimMatches isWhitespace
    (trimMatches isQuote (trimMatches isWhitespace raw))
  refine ⟨hne,fun c hc => ⟨head?_trimMatches_eq_false hc,hhead c hc⟩,
    fun c hc => ⟨getLast?_trimMatches_eq_false hc,hlast c hc⟩,
    before ++ (quotes ++ next),next' ++ (quotes' ++ after),?_,
    ⟨before,quotes,next,rfl,hbefore,hquotes,hnext⟩,⟨next',quotes',after,rfl,hnext',hquotes',hafter⟩⟩
  conv_lhs => rw [hraw,htext,hinner]
  simp [unwrapped]

/-! What is parsed again. -/

theorem lowered_idem (s : List Char) : lowered (lowered s) = lowered s := by
  simp only [lowered,List.map_map]
  exact List.map_congr_left fun c _ => toLower_idem c

theorem mem_splitOn {c : Char} {l piece : List Char} (h : piece ∈ l.splitOn c) : c ∉ piece := by
  induction l generalizing piece with
  | nil =>
    rw [List.splitOn_nil,List.mem_singleton] at h
    rw [h]
    exact List.not_mem_nil
  | cons d l ih =>
    rw [List.splitOn_cons_eq_if_modifyHead] at h
    split_ifs at h with hd
    · rcases List.mem_cons.mp h with rfl | h
      · exact List.not_mem_nil
      · exact ih h
    · cases hpieces : l.splitOn c with
      | nil => exact absurd hpieces (List.splitOn_ne_nil c l)
      | cons first rest =>
        rw [hpieces] at h ih
        rcases List.mem_cons.mp h with rfl | h
        · rw [List.mem_cons,not_or]
          exact ⟨fun hc => hd (by simp [hc]),ih List.mem_cons_self⟩
        · exact ih (List.mem_cons_of_mem _ h)

theorem not_mem_of_mem_split {c : Char} {s piece : String} (h : piece ∈ split c s) :
    c ∉ piece.toList := by
  obtain ⟨l,hl,rfl⟩ := List.mem_map.mp h
  rw [String.toList_ofList]
  exact mem_splitOn hl

theorem mem_of_mem_trimMatches {α : Type} {p : α → Bool} {l : List α} {a : α}
    (h : a ∈ trimMatches p l) : a ∈ l := by
  have hback := (List.dropWhile_sublist _).subset (List.mem_reverse.mp h)
  exact (List.dropWhile_sublist _).subset (List.mem_reverse.mp hback)

theorem semicolon_lowered {s : List Char} (h : ';' ∉ s) : ';' ∉ lowered s := by
  intro hmem
  obtain ⟨c,hc,hlower⟩ := List.mem_map.mp hmem
  rcases toLower_cases c with ⟨hlow,_,hletter⟩ | ⟨_,hsame⟩
  · rw [hlower] at hletter
    have hcode : ';'.toNat = 59 := rfl
    omega
  · rw [← hsame,hlower] at hc
    exact h hc

theorem trimMatches_lowered {p : Char → Bool} (hp : ∀ c : Char, p c.toLower = p c)
    (l : List Char) : trimMatches p (lowered l) = lowered (trimMatches p l) := by
  have hcomp : p ∘ Char.toLower = p := funext hp
  rw [trimMatches,lowered,List.dropWhile_map,hcomp,← List.map_reverse,List.dropWhile_map,hcomp,
    ← List.map_reverse,trimMatches,lowered]

theorem isWhitespace_toLower (c : Char) : isWhitespace c.toLower = isWhitespace c :=
  toLower_congr isWhitespace_letter c

theorem trim_trimmed (l : List Char) :
    trimMatches isWhitespace (trimMatches isWhitespace l) = trimMatches isWhitespace l :=
  trimMatches_of_ends (fun _ => head?_trimMatches_eq_false) fun _ => getLast?_trimMatches_eq_false

theorem essenceText_of_split {value piece : String} {rest : List String}
    (h : split ';' value = piece :: rest) : essenceText value = toAsciiLowercase (trim piece) := by
  rw [essenceText,h]
  rfl

/-- The first piece is read as itself again. -/
theorem essenceText_idem (value : String) :
    ';' ∉ (essenceText value).toList ∧ essenceText (essenceText value) = essenceText value := by
  have hpiece : ';' ∉ ((split ';' value).headD "").toList := by
    cases hsplit : split ';' value with
    | nil => simp
    | cons piece rest => exact not_mem_of_mem_split (by rw [hsplit]; exact List.mem_cons_self)
  have htext : (essenceText value).toList =
      lowered (trimMatches isWhitespace ((split ';' value).headD "").toList) := by
    simp [essenceText,toAsciiLowercase,trim,lowered]
  have hplain : ';' ∉ (essenceText value).toList := by
    rw [htext]
    exact semicolon_lowered fun hmem => hpiece (mem_of_mem_trimMatches hmem)
  refine ⟨hplain,String.toList_injective ?_⟩
  have hagain : (essenceText (essenceText value)).toList =
      lowered (trimMatches isWhitespace (essenceText value).toList) := by
    rw [essenceText,split_of_not_mem hplain]
    simp [toAsciiLowercase,trim,lowered]
  rw [hagain,htext,trimMatches_lowered isWhitespace_toLower,trim_trimmed,lowered_idem]

theorem splitOnce_append {c : Char} {name : List Char} (h : c ∉ name) (rest : List Char) :
    splitOnce c (String.ofList (name ++ c :: rest)) = some (String.ofList name,String.ofList rest) := by
  have hname : ∀ d ∈ name, (d != c) = true := by
    intro d hd
    rw [bne_iff_ne]
    rintro rfl
    exact h hd
  rw [splitOnce,String.toList_ofList,List.dropWhile_append_of_pos hname,
    List.takeWhile_append_of_pos hname]
  simp

theorem charsetText_label (c : String) : charsetText (" charset=" ++ c) = some c := by
  have hlabel : " charset=" ++ c = String.ofList (" charset".toList ++ '=' :: c.toList) := by
    refine String.toList_injective ?_
    simp
  rw [charsetText,hlabel,splitOnce_append (by decide)]
  simp only [String.ofList_toList]
  exact if_pos (by decide)

theorem semicolon_cleaned {raw : String} (h : ';' ∉ raw.toList) : ';' ∉ (cleaned raw).toList := by
  rw [cleaned_eq,String.toList_ofList]
  refine semicolon_lowered fun hmem => h ?_
  exact mem_of_mem_trimMatches (mem_of_mem_trimMatches (mem_of_mem_trimMatches hmem))

theorem not_mem_of_charsetText {c : Char} {piece raw : String} (h : charsetText piece = some raw)
    (hc : c ∉ piece.toList) : c ∉ raw.toList := by
  unfold charsetText splitOnce at h
  cases hdrop : piece.toList.dropWhile (· != '=') with
  | nil =>
    simp only [hdrop] at h
    cases h
  | cons d rest =>
    simp only [hdrop] at h
    split_ifs at h
    obtain rfl := Option.some.inj h
    rw [String.toList_ofList]
    intro hmem
    have hsuffix := (List.dropWhile_suffix (l := piece.toList) (· != '=')).subset
    rw [hdrop] at hsuffix
    exact hc (hsuffix (List.mem_cons_of_mem _ hmem))

theorem semicolon_charsetTexts {value raw : String} (h : raw ∈ charsetTexts value) :
    ';' ∉ raw.toList := by
  obtain ⟨piece,hpiece,hraw⟩ := List.mem_filterMap.mp h
  exact not_mem_of_charsetText hraw (not_mem_of_mem_split (List.mem_of_mem_tail hpiece))

/-- The pieces of the header form are the parts of the media type. -/
theorem headerValue_pieces (value : String) {c : String} (hc : ';' ∉ c.toList) :
    essenceText (headerValue ⟨essenceText value,some c⟩) = essenceText value ∧
      charsetTexts (headerValue ⟨essenceText value,some c⟩) = [c] := by
  obtain ⟨hplain,hidem⟩ := essenceText_idem value
  have hvalue : headerValue ⟨essenceText value,some c⟩ =
      essenceText value ++ String.singleton ';' ++ (" charset=" ++ c) := by
    have hlabel : "; charset=" = String.singleton ';' ++ " charset=" := by decide
    show essenceText value ++ "; charset=" ++ c = _
    rw [hlabel,String.append_assoc,String.append_assoc,String.append_assoc]
  have hpiece : ';' ∉ (" charset=" ++ c).toList := by
    rw [String.toList_append,List.mem_append,not_or]
    exact ⟨by decide,hc⟩
  have hsplit : split ';' (headerValue ⟨essenceText value,some c⟩) =
      [essenceText value," charset=" ++ c] := by
    rw [hvalue,split_append hplain,split_of_not_mem hpiece]
  constructor
  · exact (essenceText_of_split hsplit).trans
      ((essenceText_of_split (split_of_not_mem hplain)).symm.trans hidem)
  · rw [charsetTexts,hsplit,List.tail_cons,List.filterMap_cons_some (charsetText_label _)]
    rfl

/-- The header form is parsed as the media type, if what was cleaned stays as it is. -/
theorem parse_headerValue_of {value : String} {media : MediaType} (h : parse value = .ok media)
    (hcharset : ∀ c, media.charset = some c → cleaned c = c) :
    parse media.headerValue = .ok media := by
  obtain ⟨haccepted,rfl⟩ := parse_eq_ok.mp h
  have hshape := not_or.mp haccepted
  cases hlast : (charsetTexts value).getLast? with
  | none =>
    obtain ⟨hplain,hidem⟩ := essenceText_idem value
    have hnone : charsetTexts (essenceText value) = [] := by
      rw [charsetTexts,split_of_not_mem hplain]
      rfl
    show parse (essenceText value) = _
    refine parse_eq_ok.mpr ⟨?_,?_⟩
    · rw [Refused,hidem,hnone,not_or]
      exact ⟨hshape.1,by simp⟩
    · rw [hidem,hnone]
      rfl
  | some raw =>
    have hraw := List.mem_of_getLast? hlast
    have hclean := hcharset (cleaned raw) (by rw [hlast]; rfl)
    have hempty : cleaned raw ≠ "" := fun hempty => hshape.2 ⟨raw,hraw,hempty⟩
    obtain ⟨htext,htexts⟩ :=
      headerValue_pieces value (semicolon_cleaned (semicolon_charsetTexts hraw))
    show parse (headerValue ⟨essenceText value,some (cleaned raw)⟩) = _
    refine parse_eq_ok.mpr ⟨?_,?_⟩
    · rw [Refused,htext,htexts,not_or]
      refine ⟨hshape.1,?_⟩
      rintro ⟨c,hc,hnothing⟩
      rw [List.mem_singleton.mp hc,hclean] at hnothing
      exact hempty hnothing
    · rw [htext,htexts,List.getLast?_singleton,Option.map_some,Option.map_some,hclean]

end MediaType
end HearthAI.Contracts
