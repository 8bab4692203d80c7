import HearthAI.Python.Loads

/-! # Numbers and strings read back as they were written -/
namespace HearthAI.Python

/-- What comes after a number that is read to its end. -/
def EndsNumber (r : Str) : Prop :=
  ∀ c ∈ r.head?, isDigit c = false ∧ c.val ≠ 0x2e ∧ c.val ≠ 0x65 ∧ c.val ≠ 0x45

section
variable {s r : Str} {c : CodePoint} {n : ℕ} {us : List ℕ}

theorem hexOf_hexDigit (n : ℕ) : hexOf (hexDigit n) = some (n % 16) := by
  have hsmall : (List.range 16).all (fun n => hexOf (hexDigit n) = some n) = true := by decide
  have hdigit : hexDigit n = hexDigit (n % 16) := by
    unfold hexDigit
    simp only [Nat.mod_mod]
  rw [hdigit]
  exact of_decide_eq_true (List.all_eq_true.mp hsmall _
    (List.mem_range.mpr (Nat.mod_lt n (by decide))))

theorem scanHex_codeUnit (hn : n < 0x10000) (r : Str) :
    scanHex (hexDigit (n / 4096) :: hexDigit (n / 256) :: hexDigit (n / 16) :: hexDigit n :: r) =
      some (n,r) := by
  simp only [scanHex,hexOf_hexDigit,Option.bind_eq_bind,Option.bind_some]
  refine congrArg (fun m => some (m,r)) ?_
  omega

theorem scanUnits_escape {letter : CodePoint} (h : escapes.get c = some letter) (r : Str) :
    scanUnits (backslash :: letter :: r) = some ([c.val],r) := by
  have hfound : escapes.all (fun p => p.2 ≠ letterU ∧ unescapes.get p.2 = some p.1) = true := by
    decide
  obtain ⟨hletter,hget⟩ := of_decide_eq_true (List.all_eq_true.mp hfound _ (Dict.mem_of_get h))
  simp only [scanUnits,if_pos,if_neg hletter]
  rw [hget]
  rfl

/-- Every code unit is written so that it is read back, and not as a quote mark. -/
theorem scanUnits_escapeUnit (hn : n < 0x10000) (r : Str) :
    (escapeUnit n ++ r).head? ≠ some quoteMark ∧ scanUnits (escapeUnit n ++ r) = some ([n],r) := by
  rw [escapeUnit,dif_pos hn,escapeChar]
  cases hletter : escapes.get ⟨n,by omega⟩ with
  | some letter =>
    refine ⟨?_,scanUnits_escape hletter r⟩
    show some backslash ≠ some quoteMark
    decide
  | none =>
    dsimp only
    split_ifs with hprintable
    · have hother : ∀ c : CodePoint, escapes.get c ≠ none → (⟨n,by omega⟩ : CodePoint) ≠ c := by
        rintro c hc rfl
        exact hc hletter
      have hlow : ¬n < 0x20 := by
        simp only [isPrintable,Bool.and_eq_true,decide_eq_true_eq] at hprintable
        omega
      refine ⟨?_,?_⟩
      · rw [List.singleton_append,List.head?_cons,ne_eq,Option.some.injEq]
        exact hother quoteMark (by decide)
      · rw [List.singleton_append,scanUnits.eq_def]
        dsimp only
        rw [if_neg (hother backslash (by decide)),if_neg hlow,units,if_pos hn]
    · refine ⟨?_,?_⟩
      · show some backslash ≠ some quoteMark
        decide
      · simp only [codeUnit,List.cons_append,List.nil_append,scanUnits,if_pos,scanHex_codeUnit hn,
          Option.map_some]

theorem length_escapeUnit_pos (hn : n < 0x10000) : 0 < (escapeUnit n).length := by
  have h := (scanUnits_escapeUnit hn []).2
  rw [List.append_nil] at h
  rw [List.length_pos_iff]
  intro hnil
  rw [hnil] at h
  cases h

theorem scanString_append (hus : ∀ u ∈ us, u < 0x10000) (r : Str)
    (hn : (us.flatMap escapeUnit ++ quoteMark :: r).length < n) :
    scanString n (us.flatMap escapeUnit ++ quoteMark :: r) = some (us,r) := by
  induction us generalizing n with
  | nil =>
    obtain ⟨n,rfl⟩ := Nat.exists_eq_add_of_lt hn
    exact if_pos rfl
  | cons u us ih =>
    obtain ⟨hu,hus⟩ := List.forall_mem_cons.mp hus
    rw [List.flatMap_cons,List.append_assoc] at hn ⊢
    obtain ⟨n,rfl⟩ : ∃ m, n = m + 1 := ⟨n - 1,by omega⟩
    obtain ⟨hhead,hscan⟩ := scanUnits_escapeUnit hu (us.flatMap escapeUnit ++ quoteMark :: r)
    have hpos := length_escapeUnit_pos hu
    rw [List.length_append] at hn
    rw [scanString,if_neg hhead,hscan,Option.bind_eq_bind,Option.bind_some]
    dsimp only
    rw [ih hus (by omega),Option.bind_some]
    rfl

/-- A string in quotes is read back as its code units. -/
theorem scanString_quote (s r : Str) (hn : (quote s ++ r).length ≤ n) :
    (quote s ++ r).head? = some quoteMark ∧
      scanString n (quote s ++ r).tail = some (utf16 s,r) := by
  rw [quote_append] at hn ⊢
  exact ⟨rfl,scanString_append (forall_mem_utf16 s) r hn⟩

theorem takeWhile_digits (hs : ∀ d ∈ s, isDigit d = true) (hr : ∀ c ∈ r.head?, isDigit c = false) :
    (s ++ r).takeWhile isDigit = s ∧ (s ++ r).dropWhile isDigit = r := by
  rw [List.takeWhile_append_of_pos hs,List.dropWhile_append_of_pos hs]
  cases r with
  | nil => exact ⟨List.append_nil s,rfl⟩
  | cons c r =>
    have hc : ¬isDigit c = true := by rw [hr c rfl]; decide
    rw [List.takeWhile_cons_of_neg hc,List.dropWhile_cons_of_neg hc]
    exact ⟨List.append_nil s,rfl⟩

theorem EndsNumber.noDigit (h : EndsNumber r) : ∀ c ∈ r.head?, isDigit c = false :=
  fun c hc => (h c hc).1

variable {l : Literal}

/-- What follows the digits before the point. -/
theorem Literal.Fits.fraction_head (h : l.Fits) (hr : EndsNumber r) :
    ∀ c ∈ (l.fraction ++ (l.exponent ++ r)).head?, isDigit c = false := by
  intro c hc
  rcases h.fraction with hfraction | ⟨s,hfraction,_⟩
  · rw [hfraction,List.nil_append] at hc
    rcases h.exponent with hexponent | ⟨e,sign,s,hexponent,he,_⟩
    · rw [hexponent] at hc
      exact hr.noDigit c hc
    · rw [hexponent] at hc
      obtain rfl : e = c := Option.some.inj hc
      rcases he with he | he
      · simp [isDigit,he]
      · simp [isDigit,he]
  · rw [hfraction] at hc
    obtain rfl : (0x2e : CodePoint) = c := Option.some.inj hc
    decide

/-- What follows the digits after the point. -/
theorem Literal.Fits.exponent_head (h : l.Fits) (hr : EndsNumber r) :
    ∀ c ∈ (l.exponent ++ r).head?, isDigit c = false ∧ c.val ≠ 0x2e := by
  intro c hc
  rcases h.exponent with hexponent | ⟨e,sign,s,hexponent,he,_⟩
  · rw [hexponent] at hc
    exact ⟨(hr c hc).1,(hr c hc).2.1⟩
  · rw [hexponent] at hc
    obtain rfl : e = c := Option.some.inj hc
    rcases he with he | he
    · simp [isDigit,he]
    · simp [isDigit,he]

theorem scanWhole_append (h : l.Fits) (hr : ∀ c ∈ r.head?, isDigit c = false) :
    scanWhole (l.whole ++ r) = some (l.whole,r) := by
  rcases h.whole with hwhole | ⟨c,s,hwhole,hzero,hc,hs⟩
  · rw [hwhole]
    rfl
  · obtain ⟨htake,hdrop⟩ := takeWhile_digits hs hr
    rw [hwhole,List.cons_append,scanWhole,if_neg hzero,if_pos hc,htake,hdrop]

theorem scanFraction_append (h : l.Fits) (hr : ∀ c ∈ r.head?, isDigit c = false ∧ c.val ≠ 0x2e) :
    scanFraction (l.fraction ++ r) = (l.fraction,r) := by
  rcases h.fraction with hfraction | ⟨s,hfraction,hne,hs⟩
  · rw [hfraction,List.nil_append]
    cases r with
    | nil => rfl
    | cons c r => rw [scanFraction,if_neg fun hc => (hr c rfl).2 hc.1]
  · obtain ⟨htake,hdrop⟩ := takeWhile_digits hs fun c hc => (hr c hc).1
    rw [hfraction]
    show scanFraction (0x2e :: (s ++ r)) = _
    rw [scanFraction,htake,hdrop,if_pos ⟨rfl,hne⟩]
    rfl

theorem scanSign_append {sign : Str} (hsign : sign = [] ∨ sign = lit "+" ∨ sign = lit "-")
    (hs : ∀ d ∈ s, isDigit d = true) (hne : s ≠ []) : scanSign (sign ++ (s ++ r)) = (sign,s ++ r) := by
  rcases hsign with rfl | rfl | rfl
  · cases s with
    | nil => exact absurd rfl hne
    | cons d s =>
      have hd := hs d List.mem_cons_self
      simp only [isDigit,Bool.and_eq_true,decide_eq_true_eq] at hd
      rw [List.nil_append,List.cons_append,scanSign,if_neg (by omega)]
  · rfl
  · rfl

theorem scanExponent_append (h : l.Fits) (hr : EndsNumber r) :
    scanExponent (l.exponent ++ r) = (l.exponent,r) := by
  rcases h.exponent with hexponent | ⟨c,sign,s,hexponent,hc,hsign,hne,hs⟩
  · rw [hexponent,List.nil_append]
    cases r with
    | nil => rfl
    | cons c r =>
      obtain ⟨_,_,he,hE⟩ := hr c rfl
      rw [scanExponent]
      dsimp only
      rw [if_neg (by rintro ⟨hc | hc,_⟩ <;> contradiction)]
  · obtain ⟨htake,hdrop⟩ := takeWhile_digits hs hr.noDigit
    rw [hexponent,List.cons_append,List.append_assoc,scanExponent,scanSign_append hsign hs hne]
    dsimp only
    rw [htake,hdrop,if_pos ⟨hc,hne⟩]

theorem scanMinus_append (h : l.Fits) (r : Str) :
    scanMinus (l.sign ++ (l.whole ++ r)) = (l.sign,l.whole ++ r) := by
  rcases h.sign with hsign | hsign
  · rw [hsign,List.nil_append]
    rcases h.whole with hwhole | ⟨c,s,hwhole,_,hc,_⟩
    · rw [hwhole]
      rfl
    · simp only [isDigit,Bool.and_eq_true,decide_eq_true_eq] at hc
      rw [hwhole,List.cons_append,scanMinus,if_neg (by omega)]
  · rw [hsign]
    rfl

/-- A number is read to its end. -/
theorem scanLiteral_text (h : l.Fits) (hr : EndsNumber r) :
    scanLiteral (l.text ++ r) = some (l,r) := by
  have htext : l.text ++ r = l.sign ++ (l.whole ++ (l.fraction ++ (l.exponent ++ r))) := by
    simp only [Literal.text,List.append_assoc]
  rw [htext,scanLiteral,scanMinus_append h,Option.bind_eq_bind]
  dsimp only
  rw [scanWhole_append h (h.fraction_head hr),Option.bind_some]
  dsimp only
  rw [scanFraction_append h (h.exponent_head hr)]
  dsimp only
  rw [scanExponent_append h hr]
  rfl

/-- A number starts with a digit, or with a minus sign and a digit. -/
theorem Literal.Fits.head (h : l.Fits) : ∃ c s, isDigit c = true ∧
    (l.text = c :: s ∨ l.text = 0x2d :: c :: s) := by
  obtain ⟨c,s,hc,hwhole⟩ : ∃ c s, isDigit c = true ∧ l.whole = c :: s := by
    rcases h.whole with hwhole | ⟨c,s,hwhole,_,hc,_⟩
    · exact ⟨_,_,by decide,hwhole⟩
    · exact ⟨c,s,hc,hwhole⟩
  rcases h.sign with hsign | hsign
  · exact ⟨c,_,hc,.inl (by rw [Literal.text,hsign,hwhole]; rfl)⟩
  · exact ⟨c,_,hc,.inr (by rw [Literal.text,hsign,hwhole]; rfl)⟩

theorem head_of_startsWith {a c : CodePoint} {lead : Str} (h : startsWith (a :: lead) (c :: s) = true) :
    a = c ∧ startsWith lead s = true := by
  rw [startsWith,List.isPrefixOf_cons_cons,Bool.and_eq_true,beq_iff_eq] at h
  exact h

/-- A number is not one of the names. -/
theorem find_constants (h : l.Fits) (r : Str) :
    constants.find? (fun p => startsWith p.1 (l.text ++ r)) = none := by
  obtain ⟨c,s,hc,htext⟩ := h.head
  have hletter : ∀ a : CodePoint, isDigit a = false → a ≠ c := by
    rintro a ha rfl
    rw [hc] at ha
    cases ha
  rw [List.find?_eq_none]
  intro p hp hstarts
  have hsecond : ∀ a lead, isDigit a = false → startsWith (0x2d :: a :: lead) (l.text ++ r) ≠ true := by
    intro a lead ha hlead
    rcases htext with htext | htext
    · rw [htext] at hlead
      exact hletter 0x2d (by decide) (head_of_startsWith hlead).1
    · rw [htext] at hlead
      exact hletter a ha (head_of_startsWith (head_of_startsWith hlead).2).1
  have hfirst : ∀ a lead, isDigit a = false → a ≠ 0x2d →
      startsWith (a :: lead) (l.text ++ r) ≠ true := by
    intro a lead ha hminus hlead
    rcases htext with htext | htext
    · rw [htext] at hlead
      exact hletter a ha (head_of_startsWith hlead).1
    · rw [htext] at hlead
      exact hminus (head_of_startsWith hlead).1
  simp only [constants,List.mem_cons,List.not_mem_nil,or_false] at hp
  rcases hp with rfl | rfl | rfl | rfl | rfl | rfl
  · exact hfirst _ _ (by decide) (by decide) hstarts
  · exact hfirst _ _ (by decide) (by decide) hstarts
  · exact hfirst _ _ (by decide) (by decide) hstarts
  · exact hfirst _ _ (by decide) (by decide) hstarts
  · exact hfirst _ _ (by decide) (by decide) hstarts
  · exact hsecond _ _ (by decide) hstarts

theorem scanAtom_text (python : Interpreter) (h : l.Fits) (hr : EndsNumber r) :
    scanAtom python (l.text ++ r) = (do
      let value ← l.value python
      return (value,r)) := by
  rw [scanAtom,find_constants h]
  dsimp only
  rw [scanLiteral_text h hr]
  rfl

theorem natOf_repr (n : ℕ) : natOf (lit (Nat.repr n)) = n := by
  have hfold : natOf (lit (Nat.repr n)) = Nat.ofDigitChars 10 (Nat.repr n).toList 0 := by
    rw [natOf,lit,List.foldl_map]
    rfl
  rw [hfold,Nat.repr,String.toList_ofList,Nat.ofDigitChars_toDigits (by decide) (by decide)]

theorem isDigit_repr (n : ℕ) : ∀ c ∈ lit (Nat.repr n), isDigit c = true := by
  intro c hc
  obtain ⟨d,hd,rfl⟩ := List.mem_map.mp hc
  rw [Nat.repr,String.toList_ofList] at hd
  have hdigit := Nat.isDigit_of_mem_toDigits (by decide) (by decide) hd
  simp only [Char.isDigit,Bool.and_eq_true,decide_eq_true_eq] at hdigit
  simp only [isDigit,Bool.and_eq_true,val_ofChar]
  exact ⟨decide_eq_true hdigit.1,decide_eq_true hdigit.2⟩

/-- The digits of a number do not start with a zero, unless it is the only one. -/
theorem toDigits_head {n : ℕ} (hn : n ≠ 0) : ∃ c s, Nat.toDigits 10 n = c :: s ∧ c ≠ '0' := by
  induction n using Nat.strongRecOn with
  | ind n ih =>
    by_cases hsmall : n < 10
    · have hdigits : ((List.range 10).filter (· ≠ 0)).all (fun n => n.digitChar ≠ '0') = true := by
        decide
      refine ⟨n.digitChar,[],Nat.toDigits_of_lt_base hsmall,?_⟩
      exact of_decide_eq_true (List.all_eq_true.mp hdigits n
        (List.mem_filter.mpr ⟨List.mem_range.mpr hsmall,by simpa using hn⟩))
    · obtain ⟨c,s,hdigits,hc⟩ := ih (n / 10) (by omega) (by omega)
      rw [Nat.toDigits_of_base_le (by decide) (by omega),hdigits]
      exact ⟨c,_,rfl,hc⟩

/-- The literal of an integer. -/
def intLiteral : Int → Literal
  | .ofNat n => ⟨[],lit (Nat.repr n),[],[]⟩
  | .negSucc n => ⟨lit "-",lit (Nat.repr (n + 1)),[],[]⟩

theorem whole_repr (n : ℕ) : lit (Nat.repr n) = lit "0" ∨ ∃ c s, lit (Nat.repr n) = c :: s ∧
    c.val ≠ 48 ∧ isDigit c = true ∧ ∀ d ∈ s, isDigit d = true := by
  by_cases hn : n = 0
  · rw [hn]
    exact .inl rfl
  · obtain ⟨c,s,hdigits,hc⟩ := toDigits_head hn
    have htext : lit (Nat.repr n) = ofChar c :: s.map ofChar := by
      rw [lit,Nat.repr,String.toList_ofList,hdigits,List.map_cons]
    have hall := isDigit_repr n
    rw [htext] at hall ⊢
    obtain ⟨hhead,htail⟩ := List.forall_mem_cons.mp hall
    refine .inr ⟨_,_,rfl,?_,hhead,htail⟩
    intro hzero
    apply hc
    rw [val_ofChar] at hzero
    exact Char.toNat_inj.mp hzero

theorem intLiteral_fits (i : Int) : (intLiteral i).Fits := by
  cases i with
  | ofNat n => exact ⟨.inl rfl,whole_repr n,.inl rfl,.inl rfl⟩
  | negSucc n => exact ⟨.inr rfl,whole_repr (n + 1),.inl rfl,.inl rfl⟩

theorem intLiteral_text (i : Int) : (intLiteral i).text = lit (toString i) := by
  cases i with
  | ofNat n => exact List.append_nil _
  | negSucc n =>
    show lit "-" ++ (lit (Nat.repr (n + 1)) ++ []) = lit ("-" ++ Nat.repr (n + 1))
    rw [List.append_nil,lit_append]

theorem intLiteral_int (i : Int) : (intLiteral i).int = i := by
  cases i with
  | ofNat n =>
    show (natOf (lit (Nat.repr n)) : Int) = _
    rw [natOf_repr]
    rfl
  | negSucc n =>
    show -(natOf (lit (Nat.repr (n + 1))) : Int) = _
    rw [natOf_repr]
    rfl

theorem intLiteral_value {python : Interpreter} {i : Int}
    (h : python.Converts (intLiteral i).whole) : (intLiteral i).value python = .ok (.int i) := by
  have hint : ¬(intLiteral i).IsFloat := by
    cases i <;> exact not_not.mpr ⟨rfl,rfl⟩
  rw [Literal.value,if_neg hint,if_pos h,intLiteral_int]

end
end HearthAI.Python
