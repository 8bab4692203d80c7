import HearthAI.Python.Numbers

/-! # `json.dumps` with an indentation, read back by `json.loads` -/
namespace HearthAI.Python

def newline (level : ℕ) : Str := lineFeed :: List.replicate (2 * level) 0x20

/-- The parts between brackets, each on a line of its own. -/
def block (opening closing : CodePoint) (level : ℕ) (parts : List Str) : Str :=
  if parts = [] then [opening,closing]
  else opening :: (newline (level + 1) ++ (join (lit "," ++ newline (level + 1)) parts ++
    (newline level ++ [closing])))

/-- A member of an object, with its value as it is written. -/
def memberText (p : Str × Str) : Str := quote p.1 ++ (lit ": " ++ p.2)

mutual

/-- `json.dumps(value, indent=2, sort_keys=True)`, inside of some indentation. -/
def indented (level : ℕ) : Value → Str
  | .none => dumps .none
  | .bool b => dumps (.bool b)
  | .int i => dumps (.int i)
  | .float text nonzero => dumps (.float text nonzero)
  | .str s => quote s
  | .list items => block 0x5b 0x5d level (indentedItems (level + 1) items)
  | .dict items => block 0x7b 0x7d level (((indentedMembers (level + 1) items).mergeSort
      (fun p q => le p.1 q.1)).map memberText)

def indentedItems (level : ℕ) : List Value → List Str
  | [] => []
  | value :: items => indented level value :: indentedItems level items

def indentedMembers (level : ℕ) : List (Str × Value) → List (Str × Str)
  | [] => []
  | (key,value) :: items => (key,indented level value) :: indentedMembers level items

end

mutual

/-- The value with the keys of all its objects in order. -/
def Value.sorted : Value → Value
  | .list items => .list (sortedItems items)
  | .dict items => .dict (sortKeys (sortedMembers items))
  | .none => .none
  | .bool b => .bool b
  | .int i => .int i
  | .float text nonzero => .float text nonzero
  | .str s => .str s

def sortedItems : List Value → List Value
  | [] => []
  | value :: items => value.sorted :: sortedItems items

def sortedMembers : List (Str × Value) → List (Str × Value)
  | [] => []
  | (key,value) :: items => (key,value.sorted) :: sortedMembers items

end

/-- The values that `json.loads` makes of texts with no more than `depth` brackets around each
other. -/
inductive Loaded (python : Interpreter) : ℕ → Value → Prop
  | none {depth : ℕ} : Loaded python depth .none
  | bool {depth : ℕ} (b : Bool) : Loaded python depth (.bool b)
  | int {depth : ℕ} {i : Int} (h : python.Converts (intLiteral i).whole) : Loaded python depth (.int i)
  | nan {depth : ℕ} : Loaded python depth (.float (lit "nan") true)
  | infinite {depth : ℕ} {text : Str} (h : isInfinite text) : Loaded python depth (.float text true)
  | float {depth : ℕ} {text : Str} {nonzero : Bool}
      (h : WrittenFloat python.floats.read text nonzero) : Loaded python depth (.float text nonzero)
  | str {depth : ℕ} {s : Str} (h : Paired s) : Loaded python depth (.str s)
  | list {depth : ℕ} {items : List Value} (h : ∀ value ∈ items, Loaded python depth value) :
      Loaded python (depth + 1) (.list items)
  | dict {depth : ℕ} {items : Dict Str Value} (hkeys : (items.map Prod.fst).Nodup)
      (hpaired : ∀ p ∈ items, Paired p.1) (h : ∀ p ∈ items, Loaded python depth p.2) :
      Loaded python (depth + 1) (.dict items)

section
variable {python : Interpreter} {s r : Str} {level depth n : ℕ} {value : Value}

theorem indentedItems_eq (level : ℕ) (items : List Value) :
    indentedItems level items = items.map (indented level) := by
  induction items with
  | nil => rfl
  | cons value items ih => rw [indentedItems,ih,List.map_cons]

theorem indentedMembers_eq (level : ℕ) (items : Dict Str Value) :
    indentedMembers level items = items.map (fun p => (p.1,indented level p.2)) := by
  induction items with
  | nil => rfl
  | cons p items ih => rw [indentedMembers,ih,List.map_cons]

theorem sortedItems_eq (items : List Value) : sortedItems items = items.map Value.sorted := by
  induction items with
  | nil => rfl
  | cons value items ih => rw [sortedItems,ih,List.map_cons]

theorem sortedMembers_eq (items : Dict Str Value) :
    sortedMembers items = items.map (fun p => (p.1,p.2.sorted)) := by
  induction items with
  | nil => rfl
  | cons p items ih => rw [sortedMembers,ih,List.map_cons]

theorem sortKeys_map (f : Value → Value) (items : Dict Str Value) :
    sortKeys (items.map (fun p => (p.1,f p.2))) = (sortKeys items).map (fun p => (p.1,f p.2)) := by
  rw [sortKeys,sortKeys]
  refine (List.map_mergeSort ?_).symm
  exact fun _ _ _ _ => rfl

/-- The members of an object are written in the order of their keys. -/
theorem indented_dict (level : ℕ) (items : Dict Str Value) :
    indented level (.dict items) = block 0x7b 0x7d level
      ((sortKeys items).map (fun p => memberText (p.1,indented (level + 1) p.2))) := by
  have hsort : (indentedMembers (level + 1) items).mergeSort (fun p q => le p.1 q.1) =
      (sortKeys items).map (fun p => (p.1,indented (level + 1) p.2)) := by
    rw [indentedMembers_eq,sortKeys]
    refine (List.map_mergeSort ?_).symm
    exact fun _ _ _ _ => rfl
  rw [indented,hsort,List.map_map]
  rfl

theorem sorted_dict (items : Dict Str Value) : (Value.dict items).sorted =
    .dict ((sortKeys items).map (fun p => (p.1,p.2.sorted))) := by
  rw [Value.sorted,sortedMembers_eq,sortKeys_map]

/-- White space at the start of a text is skipped, up to a character that is none. -/
theorem skip_newline {c : CodePoint} (hc : isBlank c = false) (level : ℕ) (s : Str) :
    skip (newline level ++ c :: s) = c :: s := by
  have hblank : ∀ d ∈ newline level, isBlank d = true := by
    intro d hd
    rcases List.mem_cons.mp hd with rfl | hd
    · decide
    · rw [List.eq_of_mem_replicate hd]
      decide
  rw [skip,List.dropWhile_append_of_pos hblank,List.dropWhile_cons_of_neg (by rw [hc]; decide)]

theorem skip_cons {c : CodePoint} (hc : isBlank c = false) (s : Str) : skip (c :: s) = c :: s :=
  List.dropWhile_cons_of_neg (by rw [hc]; decide)

/-- The value is read back from its text, whatever follows that does not continue a number. -/
def ReadsBack (python : Interpreter) (depth : ℕ) (value : Value) : Prop :=
  ∀ level n r, EndsNumber r → 2 * (indented level value ++ r).length < n →
    scanValue python n depth (indented level value ++ r) = .ok (value.sorted,r)

/-- The first character of a value is not white space and closes nothing. -/
def StartsValue (s : Str) : Prop :=
  ∃ c rest, s = c :: rest ∧ isBlank c = false ∧ c ≠ 0x5d ∧ c ≠ 0x7d ∧ c ≠ 0xfeff

theorem Literal.Fits.startsValue {l : Literal} (h : l.Fits) : StartsValue l.text := by
  obtain ⟨c,s,hc,htext⟩ := h.head
  have hdigit : isBlank c = false ∧ c ≠ 0x5d ∧ c ≠ 0x7d ∧ c ≠ 0xfeff := by
    refine ⟨?_,?_,?_,?_⟩
    · simp only [isDigit,Bool.and_eq_true,decide_eq_true_eq] at hc
      simp only [isBlank,Bool.or_eq_false_iff,beq_eq_false_iff_ne]
      omega
    · rintro rfl
      exact absurd hc (by decide)
    · rintro rfl
      exact absurd hc (by decide)
    · rintro rfl
      exact absurd hc (by decide)
  rcases htext with htext | htext
  · exact ⟨c,s,htext,hdigit⟩
  · exact ⟨0x2d,c :: s,htext,by decide⟩

theorem startsValue_block (opening closing : CodePoint) (level : ℕ) (parts : List Str)
    (h : isBlank opening = false ∧ opening ≠ 0x5d ∧ opening ≠ 0x7d ∧ opening ≠ 0xfeff) :
    StartsValue (block opening closing level parts) := by
  unfold block
  split_ifs
  · exact ⟨_,_,rfl,h⟩
  · exact ⟨_,_,rfl,h⟩

theorem floatText_written {text : Str} {nonzero : Bool} (h : WrittenFloat python.floats.read text nonzero) :
    floatText text = text := by
  obtain ⟨l,hfits,_,rfl,_⟩ := h
  obtain ⟨c,s,hc,htext⟩ := hfits.head
  have hne : ∀ a t, isDigit a = false → a ≠ 0x2d → l.text ≠ a :: t := by
    intro a t ha hminus heq
    rcases htext with htext | htext
    · rw [htext,List.cons.injEq] at heq
      rw [heq.1,ha] at hc
      cases hc
    · rw [htext,List.cons.injEq] at heq
      exact hminus heq.1.symm
  have hne' : ∀ a t, isDigit a = false → l.text ≠ 0x2d :: a :: t := by
    intro a t ha heq
    rcases htext with htext | htext
    · rw [htext,List.cons.injEq] at heq
      rw [heq.1] at hc
      exact absurd hc (by decide)
    · rw [htext,List.cons.injEq,List.cons.injEq] at heq
      rw [heq.2.1,ha] at hc
      cases hc
  have hnan : l.text ≠ lit "nan" := hne _ _ (by decide) (by decide)
  have hinf : l.text ≠ lit "inf" := hne _ _ (by decide) (by decide)
  have hminus : l.text ≠ lit "-inf" := hne' _ _ (by decide)
  rw [floatText,if_neg hnan,if_neg hinf,if_neg hminus]

theorem Loaded.startsValue (h : Loaded python depth value) (level : ℕ) : StartsValue (indented level value) := by
  cases h with
  | none => exact ⟨_,_,rfl,by decide⟩
  | bool b =>
    cases b with
    | true => exact ⟨_,_,rfl,by decide⟩
    | false => exact ⟨_,_,rfl,by decide⟩
  | @int _ i h =>
    rw [indented,dumps,← intLiteral_text]
    exact (intLiteral_fits i).startsValue
  | nan => exact ⟨_,_,rfl,by decide⟩
  | infinite h =>
    rcases h with rfl | rfl
    · exact ⟨_,_,rfl,by decide⟩
    · exact ⟨_,_,rfl,by decide⟩
  | float h =>
    rw [indented,dumps,floatText_written h]
    obtain ⟨l,hfits,_,rfl,_⟩ := h
    exact hfits.startsValue
  | str h => exact ⟨_,_,rfl,by decide⟩
  | list h =>
    rw [indented]
    exact startsValue_block _ _ _ _ (by decide)
  | dict hkeys hpaired h =>
    rw [indented]
    exact startsValue_block _ _ _ _ (by decide)

theorem scanAtom_constant (python : Interpreter) (r : Str) :
    ∀ p ∈ constants, scanAtom python (p.1 ++ r) = .ok (p.2,r) := by
  simp only [constants,List.forall_mem_cons]
  exact ⟨rfl,rfl,rfl,rfl,rfl,rfl,by simp⟩

/-- A value that is neither a string nor has parts. -/
theorem scanValue_atom {c : CodePoint} (hquote : c ≠ quoteMark) (hbrace : c.val ≠ 0x7b)
    (hbracket : c.val ≠ 0x5b) (n : ℕ) (s : Str) :
    scanValue python (n + 1) depth (c :: s) = scanAtom python (c :: s) := by
  rw [scanValue,if_neg hquote,if_neg hbrace,if_neg hbracket]

theorem scanValue_constant (hn : 0 < n) (r : Str) :
    ∀ p ∈ constants, scanValue python n depth (p.1 ++ r) = .ok (p.2,r) := by
  intro p hp
  obtain ⟨n,rfl⟩ : ∃ m, n = m + 1 := ⟨n - 1,by omega⟩
  have hheads : constants.all (fun p => p.1.head?.all (fun c => c ≠ quoteMark ∧ c.val ≠ 0x7b ∧
      c.val ≠ 0x5b) && p.1 ≠ []) = true := by decide
  have hhead := List.all_eq_true.mp hheads p hp
  have hatom := scanAtom_constant python r p hp
  obtain ⟨text,value⟩ := p
  cases text with
  | nil => simp at hhead
  | cons c text =>
    simp only [List.head?_cons,Option.all_some,Bool.and_eq_true,decide_eq_true_eq] at hhead
    obtain ⟨⟨hquote,hbrace,hbracket⟩,_⟩ := hhead
    rw [List.cons_append,scanValue_atom hquote hbrace hbracket]
    exact hatom

theorem scanValue_literal {l : Literal} (h : l.Fits) (hr : EndsNumber r) (hn : 0 < n) :
    scanValue python n depth (l.text ++ r) = (do
      let value ← l.value python
      return (value,r)) := by
  obtain ⟨n,rfl⟩ : ∃ m, n = m + 1 := ⟨n - 1,by omega⟩
  have hatom := scanAtom_text python h hr
  obtain ⟨c,s,hc,htext⟩ := h.head
  rcases htext with htext | htext
  · have hother : c ≠ quoteMark ∧ c.val ≠ 0x7b ∧ c.val ≠ 0x5b := by
      simp only [isDigit,Bool.and_eq_true,decide_eq_true_eq] at hc
      refine ⟨?_,by omega,by omega⟩
      rintro rfl
      exact absurd hc (by decide)
    rw [htext,List.cons_append] at hatom ⊢
    rw [scanValue_atom hother.1 hother.2.1 hother.2.2,hatom]
  · rw [htext,List.cons_append] at hatom ⊢
    rw [scanValue_atom (by decide) (by decide) (by decide),hatom]

theorem join_cons_cons (sep s t : Str) (parts : List Str) :
    join sep (s :: t :: parts) = s ++ (sep ++ join sep (t :: parts)) := by
  simp [join,List.intercalate]

theorem endsNumber_newline (level : ℕ) (s : Str) : EndsNumber (newline level ++ s) := by
  intro c hc
  obtain rfl : lineFeed = c := Option.some.inj hc
  decide

theorem endsNumber_comma (s : Str) : EndsNumber (0x2c :: s) := by
  intro c hc
  obtain rfl : (0x2c : CodePoint) = c := Option.some.inj hc
  decide

theorem StartsValue.append {text : Str} (h : StartsValue text) (r : Str) : StartsValue (text ++ r) := by
  obtain ⟨c,rest,rfl,hc⟩ := h
  exact ⟨c,rest ++ r,rfl,hc⟩

theorem StartsValue.skip_newline {text : Str} (h : StartsValue text) (level : ℕ) :
    skip (newline level ++ text) = text := by
  obtain ⟨c,rest,rfl,hc,_⟩ := h
  exact Python.skip_newline hc level rest

theorem StartsValue.skip_space {text : Str} (h : StartsValue text) : skip (0x20 :: text) = text := by
  obtain ⟨c,rest,rfl,hc,_⟩ := h
  have hspace : isBlank 0x20 = true := by decide
  rw [skip,List.dropWhile_cons_of_pos hspace]
  exact skip_cons hc rest

theorem StartsValue.head_ne_bracket {text : Str} (h : StartsValue text) : text.head? ≠ some 0x5d := by
  obtain ⟨c,rest,rfl,_,hc,_⟩ := h
  simpa using hc

theorem StartsValue.head_ne_brace {text : Str} (h : StartsValue text) : text.head? ≠ some 0x7d := by
  obtain ⟨c,rest,rfl,_,_,hc,_⟩ := h
  simpa using hc

/-- Parts that are written one after the other start as the first of them. -/
theorem StartsValue.join {first : Str} (h : StartsValue first) (sep : Str) (parts : List Str)
    (closing : Str) : StartsValue (join sep (first :: parts) ++ closing) := by
  cases parts with
  | nil =>
    rw [show Python.join sep [first] = first by simp [Python.join,List.intercalate]]
    exact h.append closing
  | cons next parts =>
    rw [join_cons_cons,List.append_assoc]
    exact h.append _

theorem startsValue_memberText (p : Str × Str) : StartsValue (memberText p) :=
  ⟨quoteMark,_,rfl,by decide⟩

/-- The items of a list are read one after the other. -/
theorem scanItems_join {items : List Value} {closing : Str} (hne : items ≠ [])
    (h : ∀ value ∈ items, Loaded python depth value ∧ ReadsBack python depth value)
    (hclosing : EndsNumber closing ∧ skip closing = 0x5d :: r)
    (hn : 2 * (join (lit "," ++ newline level) (items.map (indented level)) ++ closing).length + 1 <
      n) :
    scanItems python n depth (join (lit "," ++ newline level) (items.map (indented level)) ++
      closing) = .ok (items.map Value.sorted,r) := by
  induction items generalizing n with
  | nil => exact absurd rfl hne
  | cons value items ih =>
    obtain ⟨⟨_,hvalue⟩,hitems⟩ := List.forall_mem_cons.mp h
    obtain ⟨n,rfl⟩ : ∃ m, n = m + 1 := ⟨n - 1,by omega⟩
    cases items with
    | nil =>
      have htext : join (lit "," ++ newline level) ([value].map (indented level)) =
          indented level value := by simp [join,List.intercalate]
      rw [htext] at hn ⊢
      rw [scanItems,hvalue level n closing hclosing.1 (by omega),ok_bind]
      dsimp only
      rw [hclosing.2]
      rfl
    | cons next items =>
      obtain ⟨⟨hnext,_⟩,_⟩ := List.forall_mem_cons.mp hitems
      have htext : join (lit "," ++ newline level) ((value :: next :: items).map (indented level)) ++
          closing = indented level value ++ (0x2c :: (newline level ++
            (join (lit "," ++ newline level) ((next :: items).map (indented level)) ++ closing))) := by
        rw [List.map_cons,List.map_cons,join_cons_cons,List.append_assoc,List.append_assoc,
          List.append_assoc]
        rfl
      have hskip : skip (newline level ++ (join (lit "," ++ newline level)
          ((next :: items).map (indented level)) ++ closing)) =
            join (lit "," ++ newline level) ((next :: items).map (indented level)) ++ closing :=
        ((hnext.startsValue level).join _ _ _).skip_newline level
      rw [htext] at hn ⊢
      simp only [List.length_append,List.length_cons] at hn
      have hlength : 0 < (newline level).length := Nat.succ_pos _
      rw [scanItems,hvalue level n _ (endsNumber_comma _) (by
        simp only [List.length_append,List.length_cons]
        omega),ok_bind]
      dsimp only
      rw [skip_cons (by decide),List.head?_cons,if_neg (by decide),if_pos rfl,List.tail_cons,hskip,
        ih (by simp) hitems (by
          simp only [List.length_append]
          omega)]
      rfl

/-- One member, up to what follows its value. -/
theorem scanMembers_member {p : Str × Value} (hkey : Paired p.1) (hvalue : Loaded python depth p.2)
    (hread : ReadsBack python depth p.2) (hr : EndsNumber r)
    (hn : 2 * (memberText (p.1,indented level p.2) ++ r).length < n + 1) :
    scanMembers python (n + 1) depth (memberText (p.1,indented level p.2) ++ r) =
      if (skip r).head? = some 0x7d then .ok ([(p.1,p.2.sorted)],(skip r).tail)
      else if (skip r).head? = some 0x2c then do
        let (members,rest) ← scanMembers python n depth (skip (skip r).tail)
        return ((p.1,p.2.sorted) :: members,rest)
      else .error .decodeError := by
  have htext : memberText (p.1,indented level p.2) ++ r =
      quote p.1 ++ (0x3a :: 0x20 :: (indented level p.2 ++ r)) := by
    rw [memberText,List.append_assoc,List.append_assoc]
    rfl
  rw [htext] at hn ⊢
  simp only [List.length_append,List.length_cons] at hn
  obtain ⟨hhead,hstring⟩ := scanString_quote (n := n) p.1 (0x3a :: 0x20 :: (indented level p.2 ++ r)) (by
    simp only [List.length_append,List.length_cons]
    omega)
  rw [scanMembers,if_pos hhead,hstring,orDecodeError,ok_bind]
  dsimp only
  rw [skip_cons (by decide),List.head?_cons,if_pos rfl,List.tail_cons,
    ((hvalue.startsValue level).append r).skip_space,hread level n r hr (by
      rw [List.length_append]
      omega),ok_bind]
  dsimp only
  rw [show fromUtf16 (utf16 p.1) = p.1 from hkey]
  rfl

theorem scanMembers_join {items : Dict Str Value} {closing : Str} (hne : items ≠ [])
    (hkeys : ∀ p ∈ items, Paired p.1)
    (h : ∀ p ∈ items, Loaded python depth p.2 ∧ ReadsBack python depth p.2)
    (hclosing : EndsNumber closing ∧ skip closing = 0x7d :: r)
    (hn : 2 * (join (lit "," ++ newline level) (items.map (fun p =>
      memberText (p.1,indented level p.2))) ++ closing).length + 1 < n) :
    scanMembers python n depth (join (lit "," ++ newline level) (items.map (fun p =>
      memberText (p.1,indented level p.2))) ++ closing) =
        .ok (items.map (fun p => (p.1,p.2.sorted)),r) := by
  induction items generalizing n with
  | nil => exact absurd rfl hne
  | cons p items ih =>
    obtain ⟨⟨hloaded,hread⟩,hitems⟩ := List.forall_mem_cons.mp h
    obtain ⟨hkey,hrest⟩ := List.forall_mem_cons.mp hkeys
    obtain ⟨n,rfl⟩ : ∃ m, n = m + 1 := ⟨n - 1,by omega⟩
    cases items with
    | nil =>
      have htext : join (lit "," ++ newline level) ([p].map (fun p =>
          memberText (p.1,indented level p.2))) = memberText (p.1,indented level p.2) := by
        simp [join,List.intercalate]
      rw [htext] at hn ⊢
      rw [scanMembers_member hkey hloaded hread hclosing.1 (by omega),hclosing.2]
      rfl
    | cons q items =>
      have htext : join (lit "," ++ newline level) ((p :: q :: items).map (fun p =>
          memberText (p.1,indented level p.2))) ++ closing = memberText (p.1,indented level p.2) ++
            (0x2c :: (newline level ++ (join (lit "," ++ newline level) ((q :: items).map (fun p =>
              memberText (p.1,indented level p.2))) ++ closing))) := by
        rw [List.map_cons,List.map_cons,join_cons_cons,List.append_assoc,List.append_assoc,
          List.append_assoc]
        rfl
      have hskip : skip (newline level ++ (join (lit "," ++ newline level) ((q :: items).map (fun p =>
          memberText (p.1,indented level p.2))) ++ closing)) =
            join (lit "," ++ newline level) ((q :: items).map (fun p =>
              memberText (p.1,indented level p.2))) ++ closing :=
        ((startsValue_memberText _).join _ _ _).skip_newline level
      rw [htext] at hn ⊢
      have hlength : 0 < (newline level).length := Nat.succ_pos _
      rw [scanMembers_member hkey hloaded hread (endsNumber_comma _) (by omega),skip_cons (by decide),
        List.head?_cons,if_neg (by decide),if_pos rfl,List.tail_cons,hskip,ih (by simp) hrest hitems (by
          simp only [List.length_append,List.length_cons] at hn ⊢
          omega)]
      rfl

theorem ofPairs_of_nodup {items : Dict Str Value} (h : (items.map Prod.fst).Nodup) :
    Dict.ofPairs items = items := by
  induction items using List.reverseRecOn with
  | nil => rfl
  | append_singleton items p ih =>
    rw [List.map_append,List.nodup_append] at h
    obtain ⟨hitems,_,hdisjoint⟩ := h
    rw [Dict.ofPairs_snoc,ih hitems,Dict.set_new]
    intro hmem
    exact hdisjoint _ hmem _ List.mem_cons_self rfl

/-- Whatever `json.loads` can make is read back, with its keys in order. -/
theorem Loaded.readsBack (h : Loaded python depth value) : ReadsBack python depth value := by
  induction h with
  | none =>
    intro level n r _ hn
    exact scanValue_constant (by omega) r (lit "null",.none) (by simp [constants])
  | bool b =>
    intro level n r _ hn
    cases b with
    | true => exact scanValue_constant (by omega) r (lit "true",.bool true) (by simp [constants])
    | false => exact scanValue_constant (by omega) r (lit "false",.bool false) (by simp [constants])
  | @int depth i h =>
    intro level n r hr hn
    have hscan : scanValue python n depth ((intLiteral i).text ++ r) = _ :=
      scanValue_literal (intLiteral_fits i) hr (by omega)
    rw [intLiteral_value h,intLiteral_text] at hscan
    exact hscan
  | nan =>
    intro level n r _ hn
    exact scanValue_constant (by omega) r (lit "NaN",_) (by simp [constants])
  | infinite h =>
    intro level n r _ hn
    rcases h with rfl | rfl
    · exact scanValue_constant (by omega) r (lit "Infinity",_) (by simp [constants])
    · exact scanValue_constant (by omega) r (lit "-Infinity",_) (by simp [constants])
  | float h =>
    intro level n r hr hn
    rw [indented,dumps,floatText_written h] at hn ⊢
    obtain ⟨l,hfits,hfloat,rfl,hread⟩ := h
    rw [scanValue_literal hfits hr (by omega),Literal.value,if_pos hfloat,hread]
    rfl
  | @str depth s h =>
    intro level n r _ hn
    obtain ⟨n,rfl⟩ : ∃ m, n = m + 1 := ⟨n - 1,by omega⟩
    rw [indented] at hn ⊢
    obtain ⟨_,hstring⟩ := scanString_quote (n := n) s r (by omega)
    rw [quote_append] at hstring ⊢
    rw [scanValue,if_pos rfl]
    rw [List.tail_cons] at hstring
    rw [hstring,orDecodeError,ok_bind]
    dsimp only
    rw [h]
    rfl
  | @list depth items h ih =>
    intro level n r hr hn
    obtain ⟨n,rfl⟩ : ∃ m, n = m + 1 := ⟨n - 1,by omega⟩
    have hclosing : EndsNumber (newline level ++ 0x5d :: r) ∧
        skip (newline level ++ 0x5d :: r) = 0x5d :: r :=
      ⟨endsNumber_newline _ _,skip_newline (by decide) _ _⟩
    rw [indented,indentedItems_eq] at hn ⊢
    cases items with
    | nil =>
      show scanValue python (n + 1) (depth + 1) (0x5b :: 0x5d :: r) = _
      rw [scanValue,if_neg (by decide),if_neg (by decide),if_pos (by decide),enter,ok_bind,
        skip_cons (by decide)]
      rfl
    | cons value items =>
      obtain ⟨hvalue,_⟩ := List.forall_mem_cons.mp h
      rw [block,if_neg (by simp)] at hn ⊢
      simp only [List.cons_append,List.append_assoc,List.nil_append] at hn ⊢
      have hstarts : StartsValue (join (lit "," ++ newline (level + 1))
          ((value :: items).map (indented (level + 1))) ++ (newline level ++ 0x5d :: r)) :=
        (hvalue.startsValue (level + 1)).join _ _ _
      have hlength : 0 < (newline (level + 1)).length := Nat.succ_pos _
      rw [List.length_cons,List.length_append] at hn
      rw [scanValue,if_neg (by decide),if_neg (by decide),if_pos (by decide),enter,ok_bind,
        hstarts.skip_newline (level + 1),if_neg hstarts.head_ne_bracket,
        scanItems_join (by simp) (fun w hw => ⟨h w hw,ih w hw⟩) hclosing (by omega),Value.sorted,
        sortedItems_eq]
      rfl
  | @dict depth items hkeys hpaired h ih =>
    intro level n r hr hn
    obtain ⟨n,rfl⟩ : ∃ m, n = m + 1 := ⟨n - 1,by omega⟩
    have hclosing : EndsNumber (newline level ++ 0x7d :: r) ∧
        skip (newline level ++ 0x7d :: r) = 0x7d :: r :=
      ⟨endsNumber_newline _ _,skip_newline (by decide) _ _⟩
    have hmem : ∀ p ∈ sortKeys items, p ∈ items := fun p hp => mem_sortKeys.mp hp
    have hnodup : (((sortKeys items).map (fun p => (p.1,p.2.sorted))).map Prod.fst).Nodup := by
      rw [List.map_map]
      show ((sortKeys items).map Prod.fst).Nodup
      rw [keys_sortKeys]
      exact (List.mergeSort_perm _ _).nodup_iff.mpr hkeys
    rw [sorted_dict]
    rw [indented_dict] at hn ⊢
    cases hitems : sortKeys items with
    | nil =>
      rw [hitems] at hn
      show scanValue python (n + 1) (depth + 1) (0x7b :: 0x7d :: r) = _
      rw [scanValue,if_neg (by decide),if_pos (by decide),enter,ok_bind,skip_cons (by decide)]
      rfl
    | cons p rest =>
      rw [hitems] at hn hmem hnodup
      rw [block,if_neg (by simp)] at hn ⊢
      simp only [List.cons_append,List.append_assoc,List.nil_append] at hn ⊢
      have hstarts : StartsValue (join (lit "," ++ newline (level + 1)) ((p :: rest).map (fun p =>
          memberText (p.1,indented (level + 1) p.2))) ++ (newline level ++ 0x7d :: r)) :=
        (startsValue_memberText _).join _ _ _
      have hlength : 0 < (newline (level + 1)).length := Nat.succ_pos _
      rw [List.length_cons,List.length_append] at hn
      rw [scanValue,if_neg (by decide),if_pos (by decide),enter,ok_bind,
        hstarts.skip_newline (level + 1),if_neg hstarts.head_ne_brace,
        scanMembers_join (by simp) (fun q hq => hpaired q (hmem q hq))
          (fun q hq => ⟨h q (hmem q hq),ih q (hmem q hq)⟩) hclosing (by omega),ok_bind]
      dsimp only
      rw [ofPairs_of_nodup hnodup]
      rfl

theorem hexDigit_ne_return (n : ℕ) : hexDigit n ≠ carriageReturn := by
  unfold hexDigit
  rw [ne_eq,Fin.ext_iff]
  split_ifs
  · show ¬48 + n % 16 = 13
    omega
  · show ¬87 + n % 16 = 13
    omega

theorem return_not_mem_quote (s : Str) : carriageReturn ∉ quote s := by
  have hunit : ∀ n, carriageReturn ∉ codeUnit n := by
    intro n
    simp only [codeUnit,List.mem_cons,List.not_mem_nil,or_false,not_or]
    exact ⟨by decide,by decide,(hexDigit_ne_return _).symm,(hexDigit_ne_return _).symm,
      (hexDigit_ne_return _).symm,(hexDigit_ne_return _).symm⟩
  have hletters : escapes.all (fun p => carriageReturn ∉ [backslash,p.2]) = true := by decide
  have hchar : ∀ c, carriageReturn ∉ escapeChar c := by
    intro c
    unfold escapeChar
    cases hletter : escapes.get c with
    | some letter =>
      exact of_decide_eq_true (List.all_eq_true.mp hletters _ (Dict.mem_of_get hletter))
    | none =>
      dsimp only
      split_ifs with hprintable
      · intro hmem
        rw [← List.mem_singleton.mp hmem] at hprintable
        exact absurd hprintable (by decide)
      · exact hunit _
      · rw [List.mem_append,not_or]
        exact ⟨hunit _,hunit _⟩
  intro hmem
  rw [quote,List.mem_append,List.mem_cons,List.mem_singleton] at hmem
  rcases hmem with (hmem | hmem) | hmem
  · exact absurd hmem (by decide)
  · obtain ⟨c,_,hc⟩ := List.mem_flatMap.mp hmem
    exact hchar c hc
  · exact absurd hmem (by decide)

theorem not_mem_join {c : CodePoint} {sep : Str} {parts : List Str} (hsep : c ∉ sep)
    (hparts : ∀ part ∈ parts, c ∉ part) : c ∉ join sep parts := by
  induction parts with
  | nil => exact List.not_mem_nil
  | cons part parts ih =>
    obtain ⟨hpart,hparts⟩ := List.forall_mem_cons.mp hparts
    cases parts with
    | nil =>
      rw [show join sep [part] = part by simp [join,List.intercalate]]
      exact hpart
    | cons next parts =>
      rw [join_cons_cons,List.mem_append,List.mem_append,not_or,not_or]
      exact ⟨hpart,hsep,ih hparts⟩

theorem return_not_mem_newline (level : ℕ) : carriageReturn ∉ newline level := by
  intro h
  rcases List.mem_cons.mp h with h | h
  · exact absurd h (by decide)
  · exact absurd (List.eq_of_mem_replicate h) (by decide)

theorem return_not_mem_block {opening closing : CodePoint} {parts : List Str}
    (h : carriageReturn ∉ [opening,closing]) (level : ℕ)
    (hparts : ∀ part ∈ parts, carriageReturn ∉ part) :
    carriageReturn ∉ block opening closing level parts := by
  unfold block
  split_ifs
  · exact h
  · simp only [List.mem_cons,List.not_mem_nil,or_false,not_or] at h
    have hsep : carriageReturn ∉ lit "," ++ newline (level + 1) := by
      rw [List.mem_append,not_or]
      exact ⟨by decide,return_not_mem_newline _⟩
    simp only [List.mem_cons,List.mem_append,List.not_mem_nil,or_false,not_or]
    exact ⟨h.1,return_not_mem_newline _,not_mem_join hsep hparts,return_not_mem_newline _,h.2⟩

theorem Literal.Fits.no_return {l : Literal} (h : l.Fits) : carriageReturn ∉ l.text := by
  have hdigits : ∀ s : Str, (∀ d ∈ s, isDigit d = true) → carriageReturn ∉ s := by
    intro s hs hmem
    exact absurd (hs _ hmem) (by decide)
  have hwhole : carriageReturn ∉ l.whole := by
    rcases h.whole with hwhole | ⟨c,s,hwhole,_,hc,hs⟩
    · rw [hwhole]
      decide
    · rw [hwhole]
      exact hdigits _ (List.forall_mem_cons.mpr ⟨hc,hs⟩)
  have hsign : carriageReturn ∉ l.sign := by
    rcases h.sign with hsign | hsign <;> rw [hsign] <;> decide
  have hfraction : carriageReturn ∉ l.fraction := by
    rcases h.fraction with hfraction | ⟨s,hfraction,_,hs⟩
    · rw [hfraction]
      decide
    · rw [hfraction,List.mem_append,not_or]
      exact ⟨by decide,hdigits s hs⟩
  have hexponent : carriageReturn ∉ l.exponent := by
    rcases h.exponent with hexponent | ⟨c,sign,s,hexponent,hc,hsign,_,hs⟩
    · rw [hexponent]
      decide
    · rw [hexponent,List.mem_cons,List.mem_append,not_or,not_or]
      refine ⟨?_,?_,hdigits s hs⟩
      · rintro rfl
        exact absurd hc (by decide)
      · rcases hsign with rfl | rfl | rfl <;> decide
  simp only [Literal.text,List.mem_append,not_or]
  exact ⟨hsign,hwhole,hfraction,hexponent⟩

theorem Loaded.no_return (h : Loaded python depth value) (level : ℕ) :
    carriageReturn ∉ indented level value := by
  induction h generalizing level with
  | none => exact (by decide : carriageReturn ∉ lit "null")
  | bool b =>
    cases b with
    | true => exact (by decide : carriageReturn ∉ lit "true")
    | false => exact (by decide : carriageReturn ∉ lit "false")
  | @int _ i h =>
    rw [indented,dumps,← intLiteral_text]
    exact (intLiteral_fits i).no_return
  | nan => exact (by decide : carriageReturn ∉ floatText (lit "nan"))
  | infinite h =>
    rcases h with rfl | rfl
    · exact (by decide : carriageReturn ∉ floatText (lit "inf"))
    · exact (by decide : carriageReturn ∉ floatText (lit "-inf"))
  | float h =>
    rw [indented,dumps,floatText_written h]
    obtain ⟨l,hfits,_,rfl,_⟩ := h
    exact hfits.no_return
  | str h =>
    rw [indented]
    exact return_not_mem_quote _
  | list h ih =>
    rw [indented,indentedItems_eq]
    refine return_not_mem_block (by decide) level fun part hpart => ?_
    obtain ⟨item,hitem,rfl⟩ := List.mem_map.mp hpart
    exact ih item hitem _
  | dict hkeys hpaired h ih =>
    rw [indented_dict]
    refine return_not_mem_block (by decide) level fun part hpart => ?_
    obtain ⟨p,hp,rfl⟩ := List.mem_map.mp hpart
    simp only [memberText,List.mem_append,not_or]
    exact ⟨return_not_mem_quote _,by decide,ih p (mem_sortKeys.mp hp) _⟩

end
end HearthAI.Python
