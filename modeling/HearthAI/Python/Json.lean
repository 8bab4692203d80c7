import HearthAI.Core.Dict
import HearthAI.Python.Document

/-! # `json.dumps` with sorted keys, no spaces and `ensure_ascii`

A character beyond U+FFFF is written as the escapes of its two surrogates, as the two
surrogates are themselves.
-/
namespace HearthAI.Python

def quoteMark : CodePoint := 0x22
def backslash : CodePoint := 0x5c
def letterU : CodePoint := 0x75

def hexDigit (n : ℕ) : CodePoint :=
  if n % 16 < 10 then ⟨48 + n % 16,by omega⟩ else ⟨87 + n % 16,by omega⟩

def codeUnit (n : ℕ) : Str :=
  [backslash,letterU,hexDigit (n / 4096),hexDigit (n / 256),hexDigit (n / 16),hexDigit n]

/-- The characters that have an escape of one letter, and the letters. -/
def escapes : Dict CodePoint CodePoint :=
  [(0x5c,0x5c),(0x22,0x22),(8,0x62),(12,0x66),(10,0x6e),(13,0x72),(9,0x74)]

def isPrintable (c : CodePoint) : Bool := 0x20 ≤ c.val && c.val ≤ 0x7e

def escapeChar (c : CodePoint) : Str :=
  match escapes.get c with
  | some letter => [backslash,letter]
  | none =>
    if isPrintable c then [c]
    else if c.val < 0x10000 then codeUnit c.val
    else codeUnit (highSurrogate c) ++ codeUnit (lowSurrogate c)

def quote (s : Str) : Str := quoteMark :: s.flatMap escapeChar ++ [quoteMark]

/-- A float is written as its `repr`, unless that is no number. -/
def floatText (text : Str) : Str :=
  if text = lit "nan" then lit "NaN"
  else if text = lit "inf" then lit "Infinity"
  else if text = lit "-inf" then lit "-Infinity"
  else text

mutual

/-- `json.dumps(value, sort_keys=True, separators=(",", ":"))`. -/
def dumps : Value → Str
  | .none => lit "null"
  | .bool b => lit (if b then "true" else "false")
  | .int i => lit (toString i)
  | .float text _ => floatText text
  | .str s => quote s
  | .list items => lit "[" ++ join (lit ",") (dumpsItems items) ++ lit "]"
  | .dict items =>
    lit "\x7b" ++ join (lit ",") (((dumpsMembers items).mergeSort (fun p q => le p.1 q.1)).map
      (fun p => quote p.1 ++ lit ":" ++ p.2)) ++ lit "\x7d"

def dumpsItems : List Value → List Str
  | [] => []
  | value :: items => dumps value :: dumpsItems items

def dumpsMembers : List (Str × Value) → List (Str × Str)
  | [] => []
  | (key,value) :: items => (key,dumps value) :: dumpsMembers items

end

/-- The escape of one code unit. -/
def escapeUnit (n : ℕ) : Str :=
  if h : n < 0x10000 then escapeChar ⟨n,by omega⟩ else []

def hexValue (c : CodePoint) : ℕ := if c.val < 58 then c.val - 48 else c.val - 87

/-- Read one code unit, up to the closing quote mark. -/
def readUnit : Str → Option (ℕ × Str)
  | [] => none
  | c :: rest =>
    if c = quoteMark then none
    else if c = backslash then
      match rest with
      | [] => none
      | letter :: rest =>
        if letter = letterU then
          match rest with
          | a :: b :: c :: d :: rest =>
            some (hexValue a * 4096 + hexValue b * 256 + hexValue c * 16 + hexValue d,rest)
          | _ => none
        else (escapes.find? (fun p => p.2 = letter)).map (fun p => (p.1.val,rest))
    else some (c.val,rest)

/-- Strings and integers, the values of a flat object. -/
inductive Scalar : Value → Prop
  | str (s : Str) : Scalar (.str s)
  | int (i : Int) : Scalar (.int i)

/-- Two scalars have the same JSON text. -/
inductive SameText : Value → Value → Prop
  | str {s t : Str} (h : utf16 s = utf16 t) : SameText (.str s) (.str t)
  | int (i : Int) : SameText (.int i) (.int i)

/-- The members of one name have the same JSON text. -/
def SameMembers (items items' : Dict Str Value) : Prop :=
  ∀ p ∈ items, ∀ q ∈ items', p.1 = q.1 → SameText p.2 q.2

section
variable {s t r r' : Str} {c : CodePoint} {n : ℕ}

theorem hexValue_hexDigit (n : ℕ) : hexValue (hexDigit n) = n % 16 := by
  unfold hexValue hexDigit
  split_ifs with h h' h'
  · exact Nat.add_sub_cancel_left ..
  · simp at h'
    omega
  · simp at h'
    omega
  · exact Nat.add_sub_cancel_left ..

theorem readUnit_codeUnit (hn : n < 0x10000) (r : Str) :
    readUnit (codeUnit n ++ r) = some (n,r) := by
  have hquote : backslash ≠ quoteMark := by decide
  simp only [codeUnit,List.cons_append,List.nil_append,readUnit,if_neg hquote,if_pos,
    hexValue_hexDigit]
  congr 2
  omega

/-- The letter of an escape names the character. -/
theorem readUnit_escape {letter : CodePoint} (h : escapes.get c = some letter) (r : Str) :
    readUnit (backslash :: letter :: r) = some (c.val,r) := by
  have hfound : escapes.all (fun p => p.2 ≠ letterU ∧
      escapes.find? (fun q => q.2 = p.2) = some p) = true := by decide
  obtain ⟨hletter,hfind⟩ :=
    of_decide_eq_true (List.all_eq_true.mp hfound _ (Dict.mem_of_get h))
  have hquote : backslash ≠ quoteMark := by decide
  simp only [readUnit,if_neg hquote,if_pos,if_neg hletter]
  dsimp only at hfind
  rw [hfind]
  rfl

theorem readUnit_escapeUnit (hn : n < 0x10000) (r : Str) :
    readUnit (escapeUnit n ++ r) = some (n,r) := by
  rw [escapeUnit,dif_pos hn,escapeChar]
  cases hletter : escapes.get ⟨n,by omega⟩ with
  | some letter => exact readUnit_escape hletter r
  | none =>
    dsimp only
    split_ifs with hprintable
    · have hquote : (⟨n,by omega⟩ : CodePoint) ≠ quoteMark := by
        intro heq
        rw [heq] at hletter
        revert hletter
        decide
      have hbackslash : (⟨n,by omega⟩ : CodePoint) ≠ backslash := by
        intro heq
        rw [heq] at hletter
        revert hletter
        decide
      rw [List.singleton_append,readUnit.eq_def]
      dsimp only
      rw [if_neg hquote,if_neg hbackslash]
    · exact readUnit_codeUnit hn r

theorem escapes_get_eq_none (h : 0x7e < c.val) : escapes.get c = none := by
  have hsmall : escapes.all (fun p => p.1.val ≤ 0x7e) = true := by decide
  rw [Dict.get_eq_none]
  intro hmem
  obtain ⟨p,hp,rfl⟩ := List.mem_map.mp hmem
  have := of_decide_eq_true (List.all_eq_true.mp hsmall p hp)
  omega

theorem isPrintable_eq_false (h : 0x7e < c.val) : isPrintable c = false := by
  rw [isPrintable,decide_eq_false (by omega : ¬c.val ≤ 0x7e),Bool.and_false]

theorem escapeUnit_of_lt (h : 0x7e < n) (hn : n < 0x10000) : escapeUnit n = codeUnit n := by
  rw [escapeUnit,dif_pos hn,escapeChar,escapes_get_eq_none h]
  dsimp only
  rw [isPrintable_eq_false h,if_neg Bool.false_ne_true,if_pos hn]

theorem escapeChar_eq (c : CodePoint) : escapeChar c = (units c).flatMap escapeUnit := by
  unfold units
  split_ifs with hc
  · rw [List.flatMap_singleton,escapeUnit,dif_pos hc]
  · have hlarge : 0x7e < c.val := by omega
    obtain ⟨hhigh,hhigh'⟩ := highSurrogate_lt c
    obtain ⟨hlow,hlow'⟩ := lowSurrogate_lt c
    rw [List.flatMap_cons,List.flatMap_singleton,escapeUnit_of_lt hhigh hhigh',
      escapeUnit_of_lt hlow hlow',escapeChar,escapes_get_eq_none hlarge]
    dsimp only
    rw [isPrintable_eq_false hlarge,if_neg Bool.false_ne_true,if_neg hc]

theorem flatMap_escapeChar (s : Str) : s.flatMap escapeChar = (utf16 s).flatMap escapeUnit := by
  rw [utf16,List.flatMap_assoc]
  exact List.flatMap_congr fun c _ => escapeChar_eq c

theorem readUnit_quoteMark (r : Str) : readUnit (quoteMark :: r) = none := by
  rw [readUnit.eq_def]
  exact if_pos rfl

/-- The escapes are read back one by one. -/
theorem escapeUnit_append {us vs : List ℕ} (hus : ∀ n ∈ us, n < 0x10000)
    (hvs : ∀ n ∈ vs, n < 0x10000)
    (h : us.flatMap escapeUnit ++ quoteMark :: r = vs.flatMap escapeUnit ++ quoteMark :: r') :
    us = vs ∧ r = r' := by
  induction us generalizing vs with
  | nil =>
    cases vs with
    | nil => exact ⟨rfl,(List.cons.inj h).2⟩
    | cons v vs =>
      have hread := congrArg readUnit h
      rw [List.flatMap_nil,List.nil_append,readUnit_quoteMark,List.flatMap_cons,List.append_assoc,
        readUnit_escapeUnit (hvs v List.mem_cons_self)] at hread
      cases hread
  | cons u us ih =>
    obtain ⟨hu,hus⟩ := List.forall_mem_cons.mp hus
    have hread := congrArg readUnit h
    rw [List.flatMap_cons,List.append_assoc,readUnit_escapeUnit hu] at hread
    cases vs with
    | nil =>
      rw [List.flatMap_nil,List.nil_append,readUnit_quoteMark] at hread
      cases hread
    | cons v vs =>
      obtain ⟨hv,hrest⟩ := List.forall_mem_cons.mp hvs
      rw [List.flatMap_cons,List.append_assoc,readUnit_escapeUnit hv] at hread
      obtain ⟨hunit,htail⟩ := Prod.mk.inj (Option.some.inj hread)
      obtain ⟨htails,hr⟩ := ih hus hrest htail
      exact ⟨by rw [hunit,htails],hr⟩

theorem quote_append (s r : Str) :
    quote s ++ r = quoteMark :: ((utf16 s).flatMap escapeUnit ++ quoteMark :: r) := by
  rw [quote,flatMap_escapeChar,List.cons_append,List.cons_append,List.append_assoc,
    List.singleton_append]

/-- A string in quotes shows its code units, and where it ends. -/
theorem quote_append_inj : quote s ++ r = quote t ++ r' ↔ utf16 s = utf16 t ∧ r = r' := by
  rw [quote_append,quote_append]
  constructor
  · intro h
    exact escapeUnit_append (forall_mem_utf16 s) (forall_mem_utf16 t) (List.cons.inj h).2
  · rintro ⟨hs,rfl⟩
    rw [hs]

/-- A character of a written number. -/
def isNumeral (c : CodePoint) : Bool := c = 0x2d || (48 ≤ c.val && c.val ≤ 57)

theorem isNumeral_of_isDigit {d : Char} (h : d.isDigit = true) : isNumeral (ofChar d) = true := by
  have hval := val_ofChar d
  simp only [Char.isDigit,Bool.and_eq_true,decide_eq_true_eq] at h
  simp only [isNumeral,Bool.or_eq_true,Bool.and_eq_true,decide_eq_true_eq,hval]
  exact .inr h

theorem natText_isNumeral (n : ℕ) : ∀ c ∈ lit (Nat.repr n), isNumeral c = true := by
  intro c hc
  obtain ⟨d,hd,rfl⟩ := List.mem_map.mp hc
  rw [Nat.repr,String.toList_ofList] at hd
  exact isNumeral_of_isDigit (Nat.isDigit_of_mem_toDigits (by decide) (by decide) hd)

theorem natText_injective {m n : ℕ} (h : lit (Nat.repr m) = lit (Nat.repr n)) : m = n := by
  have hrepr := congrArg String.toList (lit_injective h)
  rw [Nat.repr,Nat.repr,String.toList_ofList,String.toList_ofList] at hrepr
  rw [← Nat.ofDigitChars_toDigits (b := 10) (n := m) (by decide) (by decide),hrepr,
    Nat.ofDigitChars_toDigits (by decide) (by decide)]

theorem intText_isNumeral (i : Int) : ∀ c ∈ lit (toString i), isNumeral c = true := by
  have hminus : (lit "-").all isNumeral = true := by decide
  cases i with
  | ofNat n => exact natText_isNumeral n
  | negSucc n =>
    show ∀ c ∈ lit ("-" ++ Nat.repr (n + 1)),isNumeral c = true
    rw [lit_append]
    exact List.forall_mem_append.mpr ⟨List.all_eq_true.mp hminus,natText_isNumeral (n + 1)⟩

/-- A text with a sign is not the text of a natural number. -/
theorem natText_ne_minus (m n : ℕ) : lit (Nat.repr m) ≠ lit ("-" ++ Nat.repr n) := by
  intro h
  have hminus : '-' ∈ (Nat.repr m).toList := by
    rw [lit_injective h,String.toList_append]
    exact List.mem_append_left _ (by decide)
  rw [Nat.repr,String.toList_ofList] at hminus
  have hdigit := Nat.isDigit_of_mem_toDigits (by decide) (by decide) hminus
  revert hdigit
  decide

theorem intText_injective {i j : Int} (h : lit (toString i) = lit (toString j)) : i = j := by
  cases i with
  | ofNat m =>
    cases j with
    | ofNat n => rw [natText_injective h]
    | negSucc n => exact absurd h (natText_ne_minus m (n + 1))
  | negSucc m =>
    cases j with
    | ofNat n => exact absurd h.symm (natText_ne_minus n (m + 1))
    | negSucc n =>
      have htail : lit (Nat.repr (m + 1)) = lit (Nat.repr (n + 1)) := by
        have hboth : lit ("-" ++ Nat.repr (m + 1)) = lit ("-" ++ Nat.repr (n + 1)) := h
        rw [lit_append,lit_append] at hboth
        exact List.append_cancel_left hboth
      rw [Nat.succ.inj (natText_injective htail)]

/-- What comes after a value in an object: a comma, or the closing brace. -/
def EndsValue (r : Str) : Prop := ∀ c ∈ r.head?, isNumeral c = false

theorem takeWhile_of_endsValue (hs : ∀ c ∈ s, isNumeral c = true) (hr : EndsValue r) :
    (s ++ r).takeWhile isNumeral = s := by
  rw [List.takeWhile_append_of_pos hs]
  cases r with
  | nil => exact List.append_nil s
  | cons c r => rw [List.takeWhile_cons_of_neg (by simp [hr c rfl]),List.append_nil]

theorem intText_append_inj {i j : Int} (hr : EndsValue r) (hr' : EndsValue r') :
    lit (toString i) ++ r = lit (toString j) ++ r' ↔ i = j ∧ r = r' := by
  constructor
  · intro h
    have htext := congrArg (List.takeWhile isNumeral) h
    rw [takeWhile_of_endsValue (intText_isNumeral i) hr,
      takeWhile_of_endsValue (intText_isNumeral j) hr'] at htext
    obtain rfl := intText_injective htext
    exact ⟨rfl,List.append_cancel_left h⟩
  · rintro ⟨rfl,rfl⟩
    rfl

theorem intText_ne_nil (i : Int) : lit (toString i) ≠ [] := by
  intro h
  have hempty := lit_eq_nil.mp h
  cases i with
  | ofNat n => exact Nat.repr_ne_empty hempty
  | negSucc n =>
    have hboth : "-" ++ Nat.repr (n + 1) = "" := hempty
    exact Nat.repr_ne_empty (String.append_eq_empty_iff.mp hboth).2

theorem quote_ne_intText (s : Str) (i : Int) : quote s ++ r ≠ lit (toString i) ++ r' := by
  intro h
  have hnumeral := intText_isNumeral i
  rw [quote,List.cons_append,List.cons_append] at h
  cases hi : lit (toString i) with
  | nil => exact intText_ne_nil i hi
  | cons c rest =>
    rw [hi,List.cons_append] at h
    rw [hi] at hnumeral
    have hquote := hnumeral c List.mem_cons_self
    rw [← (List.cons.inj h).1] at hquote
    revert hquote
    decide

/-- The text of a scalar shows where it ends, when a comma or a brace follows. -/
theorem dumps_append_inj {v w : Value} (hv : Scalar v) (hw : Scalar w) (hr : EndsValue r)
    (hr' : EndsValue r') : dumps v ++ r = dumps w ++ r' ↔ SameText v w ∧ r = r' := by
  cases hv with
  | str s =>
    cases hw with
    | str t =>
      rw [dumps,dumps,quote_append_inj]
      constructor
      · rintro ⟨hunits,hrest⟩
        exact ⟨.str hunits,hrest⟩
      · rintro ⟨⟨hunits⟩,hrest⟩
        exact ⟨hunits,hrest⟩
    | int j =>
      rw [dumps,dumps]
      exact iff_of_false (quote_ne_intText s j) (by rintro ⟨⟨⟩,_⟩)
  | int i =>
    cases hw with
    | str t =>
      rw [dumps,dumps]
      exact iff_of_false (quote_ne_intText t i).symm (by rintro ⟨⟨⟩,_⟩)
    | int j =>
      rw [dumps,dumps,intText_append_inj hr hr']
      constructor
      · rintro ⟨rfl,hrest⟩
        exact ⟨.int i,hrest⟩
      · rintro ⟨⟨⟩,hrest⟩
        exact ⟨rfl,hrest⟩

/-- A member of an object, and what is written from one member on. -/
def member (p : Str × Value) : Str := quote p.1 ++ lit ":" ++ dumps p.2

def members (items : Dict Str Value) : Str :=
  join (lit ",") (items.map member) ++ lit "\x7d"

def afterMember : Dict Str Value → Str
  | [] => lit "\x7d"
  | p :: items => lit "," ++ members (p :: items)

theorem endsValue_afterMember (items : Dict Str Value) : EndsValue (afterMember items) := by
  cases items with
  | nil =>
    rintro c hc
    rw [← Option.some.inj hc]
    decide
  | cons p items =>
    rintro c hc
    rw [← Option.some.inj hc]
    decide

theorem members_cons (p : Str × Value) (items : Dict Str Value) :
    members (p :: items) = quote p.1 ++ (lit ":" ++ (dumps p.2 ++ afterMember items)) := by
  cases items with
  | nil => simp [members,member,afterMember,join]
  | cons q items => simp [members,member,afterMember,join]

theorem sameMembers_cons {p q : Str × Value} {items items' : Dict Str Value} (hkey : p.1 = q.1)
    (hkeys : items.map Prod.fst = items'.map Prod.fst)
    (hnodup : ((p :: items).map Prod.fst).Nodup) :
    SameMembers (p :: items) (q :: items') ↔ SameText p.2 q.2 ∧ SameMembers items items' := by
  obtain ⟨hp,_⟩ := List.nodup_cons.mp hnodup
  constructor
  · intro h
    exact ⟨h p List.mem_cons_self q List.mem_cons_self hkey,fun a ha b hb =>
      h a (List.mem_cons_of_mem _ ha) b (List.mem_cons_of_mem _ hb)⟩
  · rintro ⟨hhead,htail⟩ a ha b hb hab
    rcases List.mem_cons.mp ha with rfl | ha
    · rcases List.mem_cons.mp hb with rfl | hb
      · exact hhead
      · have hmem : b.1 ∈ items'.map Prod.fst := List.mem_map_of_mem hb
        rw [← hkeys,← hab] at hmem
        exact absurd hmem hp
    · rcases List.mem_cons.mp hb with rfl | hb
      · have hmem : a.1 ∈ items.map Prod.fst := List.mem_map_of_mem ha
        rw [hab,← hkey] at hmem
        exact absurd hmem hp
      · exact htail a ha b hb hab

/-- Objects with the same names have one text exactly when their members have. -/
theorem members_inj {items items' : Dict Str Value}
    (hkeys : items.map Prod.fst = items'.map Prod.fst) (hnodup : (items.map Prod.fst).Nodup)
    (hitems : ∀ p ∈ items, Scalar p.2) (hitems' : ∀ p ∈ items', Scalar p.2) :
    members items = members items' ↔ SameMembers items items' := by
  induction items generalizing items' with
  | nil =>
    obtain rfl := List.map_eq_nil_iff.mp hkeys.symm
    exact iff_of_true rfl nofun
  | cons p items ih =>
    cases items' with
    | nil => cases hkeys
    | cons q items' =>
      obtain ⟨hkey,hkeys⟩ := List.cons.inj hkeys
      obtain ⟨hp,hitems⟩ := List.forall_mem_cons.mp hitems
      obtain ⟨hq,hitems'⟩ := List.forall_mem_cons.mp hitems'
      have hafter : afterMember items = afterMember items' ↔ members items = members items' := by
        cases items with
        | nil =>
          obtain rfl := List.map_eq_nil_iff.mp hkeys.symm
          exact iff_of_true rfl rfl
        | cons a items =>
          cases items' with
          | nil => cases hkeys
          | cons b items' => exact List.append_right_inj _
      rw [members_cons,members_cons,hkey,List.append_right_inj,List.append_right_inj,
        dumps_append_inj hp hq (endsValue_afterMember _) (endsValue_afterMember _),hafter,
        ih hkeys (List.nodup_cons.mp hnodup).2 hitems hitems',sameMembers_cons hkey hkeys hnodup]

theorem dumpsMembers_eq (items : Dict Str Value) :
    dumpsMembers items = items.map (fun p => (p.1,dumps p.2)) := by
  induction items with
  | nil => rfl
  | cons p items ih => rw [dumpsMembers,ih,List.map_cons]

/-- The members in the order of their names. -/
def sortKeys (items : Dict Str Value) : Dict Str Value := items.mergeSort (fun p q => le p.1 q.1)

theorem dumps_dict (items : Dict Str Value) :
    dumps (.dict items) = lit "\x7b" ++ members (sortKeys items) := by
  have hsort : (dumpsMembers items).mergeSort (fun p q => le p.1 q.1) =
      (sortKeys items).map (fun p => (p.1,dumps p.2)) := by
    rw [dumpsMembers_eq,sortKeys]
    refine (List.map_mergeSort ?_).symm
    exact fun _ _ _ _ => rfl
  rw [dumps,hsort,List.map_map,members,List.append_assoc]
  rfl

theorem keys_sortKeys (items : Dict Str Value) :
    (sortKeys items).map Prod.fst = (items.map Prod.fst).mergeSort le :=
  List.map_mergeSort fun _ _ _ _ => rfl

theorem mem_sortKeys {items : Dict Str Value} {p : Str × Value} :
    p ∈ sortKeys items ↔ p ∈ items := List.mem_mergeSort

/-- Flat objects with the same names have one text exactly when their members have. -/
theorem dumps_dict_inj {items items' : Dict Str Value}
    (hkeys : items.map Prod.fst = items'.map Prod.fst) (hnodup : (items.map Prod.fst).Nodup)
    (hitems : ∀ p ∈ items, Scalar p.2) (hitems' : ∀ p ∈ items', Scalar p.2) :
    dumps (.dict items) = dumps (.dict items') ↔ SameMembers items items' := by
  have hsorted : ((sortKeys items).map Prod.fst).Nodup := by
    rw [keys_sortKeys]
    exact (List.mergeSort_perm _ _).nodup_iff.mpr hnodup
  rw [dumps_dict,dumps_dict,List.append_right_inj,members_inj
    (by rw [keys_sortKeys,keys_sortKeys,hkeys]) hsorted
    (fun p hp => hitems p (mem_sortKeys.mp hp)) (fun p hp => hitems' p (mem_sortKeys.mp hp))]
  simp only [SameMembers,mem_sortKeys]

theorem isAscii_codeUnit (n : ℕ) : IsAscii (codeUnit n) := by
  have hdigit : ∀ n, (hexDigit n).val < 128 := by
    intro n
    unfold hexDigit
    split_ifs
    · exact Nat.lt_trans (Nat.add_lt_add_left (Nat.mod_lt n (by decide)) 48) (by decide)
    · exact Nat.lt_trans (Nat.add_lt_add_left (Nat.mod_lt n (by decide)) 87) (by decide)
  have hstart : IsAscii [backslash,letterU] := by decide
  refine isAscii_append.mpr ⟨hstart,?_⟩
  simp only [IsAscii,List.forall_mem_cons]
  exact ⟨hdigit _,hdigit _,hdigit _,hdigit _,nofun⟩

theorem isAscii_escapeChar (c : CodePoint) : IsAscii (escapeChar c) := by
  unfold escapeChar
  cases hletter : escapes.get c with
  | some letter =>
    have hletters : escapes.all (fun p => IsAscii [backslash,p.2]) = true := by decide
    exact of_decide_eq_true (List.all_eq_true.mp hletters _ (Dict.mem_of_get hletter))
  | none =>
    dsimp only
    split_ifs with hprintable hc
    · simp only [isPrintable,Bool.and_eq_true,decide_eq_true_eq] at hprintable
      intro d hd
      rw [List.mem_singleton.mp hd]
      omega
    · exact isAscii_codeUnit _
    · exact isAscii_append.mpr ⟨isAscii_codeUnit _,isAscii_codeUnit _⟩

theorem isAscii_quote (s : Str) : IsAscii (quote s) := by
  have hmark : IsAscii [quoteMark] := by decide
  refine isAscii_append.mpr ⟨isAscii_append.mpr ⟨hmark,?_⟩,hmark⟩
  intro c hc
  obtain ⟨d,_,hd⟩ := List.mem_flatMap.mp hc
  exact isAscii_escapeChar d c hd

theorem isAscii_dumps {v : Value} (hv : Scalar v) : IsAscii (dumps v) := by
  cases hv with
  | str s => exact isAscii_quote s
  | int i =>
    intro c hc
    have hnumeral := intText_isNumeral i c hc
    simp only [isNumeral,Bool.or_eq_true,Bool.and_eq_true,decide_eq_true_eq] at hnumeral
    rcases hnumeral with rfl | hdigit
    · decide
    · omega

theorem isAscii_members {items : Dict Str Value} (hitems : ∀ p ∈ items, Scalar p.2) :
    IsAscii (members items) := by
  have hbrace : IsAscii (lit "\x7d") := by decide
  have hcomma : IsAscii (lit ",") := by decide
  have hcolon : IsAscii (lit ":") := by decide
  induction items with
  | nil => exact hbrace
  | cons p items ih =>
    obtain ⟨hp,hitems⟩ := List.forall_mem_cons.mp hitems
    rw [members_cons]
    refine isAscii_append.mpr ⟨isAscii_quote _,isAscii_append.mpr ⟨hcolon,
      isAscii_append.mpr ⟨isAscii_dumps hp,?_⟩⟩⟩
    cases items with
    | nil => exact hbrace
    | cons q items => exact isAscii_append.mpr ⟨hcomma,ih hitems⟩

/-- The text of a flat object is ASCII, whatever its strings are. -/
theorem isAscii_dumps_dict {items : Dict Str Value} (hitems : ∀ p ∈ items, Scalar p.2) :
    IsAscii (dumps (.dict items)) := by
  have hbrace : IsAscii (lit "\x7b") := by decide
  rw [dumps_dict]
  exact isAscii_append.mpr ⟨hbrace,isAscii_members fun p hp => hitems p (mem_sortKeys.mp hp)⟩

end
end HearthAI.Python
