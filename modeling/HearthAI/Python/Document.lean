import HearthAI.Contracts.Json
import HearthAI.Core.Dict
import HearthAI.Python.Utf16
import HearthAI.Python.Value

/-! # What `serde_json` reads in the text that `json.dumps` writes, and the other way round

A string with a lone surrogate has a text and is refused, as is a value that is nested
too deep. A number without fraction that no 64-bit integer holds is read as a float.
-/
namespace HearthAI.Python
open Text Contracts

/-- The Unicode string that is read for these code points. -/
def asText (s : Str) : Option String := ((fromUtf16 (utf16 s)).mapM toChar).map String.ofList

/-- The containers that may be opened inside each other. -/
def maxDepth : ℕ := 127

/-- The document of a value. `readFloat` is the reading of a decimal number. -/
def Value.document (readFloat : Str → Option Double) : ℕ → Value → Option Json
  | _,.none => some .null
  | _,.bool b => some (.bool b)
  | _,.int i =>
    if -2 ^ 63 ≤ i ∧ i < 2 ^ 64 then some (.int i)
    else (readFloat (lit (toString i))).map .float
  | _,.float text _ => (readFloat text).map .float
  | _,.str s => (asText s).map .str
  | 0,.list _ => Option.none
  | depth + 1,.list items => (items.mapM (Value.document readFloat depth)).map .arr
  | 0,.dict _ => Option.none
  | depth + 1,.dict items =>
    (items.mapM (fun p => (asText p.1).bind
      (fun key => (Value.document readFloat depth p.2).map (fun v => (key,v))))).map .obj

/-- The Rust side is given the text of the value. -/
def Reads (serde : SerdeJson) (dumps : Value → String) (readFloat : Str → Option Double)
    (value : Value) : Prop :=
  serde.parse (dumps value) = value.document readFloat maxDepth

mutual

/-- What `json.loads` makes of the text of a document. `float` is its reading of the others. -/
def Value.ofDocument (float : Double → Value) : Json → Value
  | .null => .none
  | .bool b => .bool b
  | .int i => .int i
  | .float d => float d
  | .str text => .str (lit text)
  | .arr items => .list (Value.ofItems float items)
  | .obj members => .dict (Dict.ofPairs (Value.ofMembers float members))

def Value.ofItems (float : Double → Value) : List Json → List Value
  | [] => []
  | item :: items => Value.ofDocument float item :: Value.ofItems float items

def Value.ofMembers (float : Double → Value) : List (String × Json) → List (Str × Value)
  | [] => []
  | (key,value) :: members =>
    (lit key,Value.ofDocument float value) :: Value.ofMembers float members

end

theorem mapM_eq_some {α β : Type} {f : α → Option β} {l : List α} {l' : List β} :
    l.mapM f = some l' ↔ List.Forall₂ (fun a b => f a = some b) l l' := by
  induction l generalizing l' with
  | nil => cases l' <;> simp
  | cons a l ih =>
    rw [List.mapM_cons]
    cases l' with
    | nil => simp [Option.bind_eq_some_iff]
    | cons b l' =>
      rw [List.forall₂_cons,← ih]
      simp [Option.bind_eq_some_iff]

theorem exists_forall₂ {α β : Type} {R : α → β → Prop} {l : List α}
    (h : ∀ a ∈ l, ∃ b, R a b) : ∃ l', List.Forall₂ R l l' := by
  induction l with
  | nil => exact ⟨[],.nil⟩
  | cons a l ih =>
    obtain ⟨⟨b,hb⟩,hl⟩ := List.forall_mem_cons.mp h
    obtain ⟨l',hl'⟩ := ih hl
    exact ⟨b :: l',.cons hb hl'⟩

section
variable {s : Str} {t : String} {c : CodePoint} {d : Char}

theorem toChar_eq_some : toChar c = some d ↔ c = ofChar d := by
  unfold toChar
  split_ifs with hvalid
  · rw [Option.some.injEq]
    constructor
    · rintro rfl
      rfl
    · rintro rfl
      exact Char.ext rfl
  · refine iff_of_false nofun ?_
    rintro rfl
    exact hvalid d.valid

theorem mapM_toChar {chars : List Char} : s.mapM toChar = some chars ↔ s = chars.map ofChar := by
  rw [mapM_eq_some]
  constructor
  · intro hall
    induction hall with
    | nil => rfl
    | cons hc _ ih => rw [List.map_cons,toChar_eq_some.mp hc,ih]
  · rintro rfl
    rw [List.forall₂_map_left_iff]
    exact List.forall₂_same.mpr (fun d _ => toChar_eq_some.mpr rfl)

theorem asText_eq_some : asText s = some t ↔ Denotes s t := by
  rw [denotes_iff,asText,Option.map_eq_some_iff]
  constructor
  · rintro ⟨chars,hchars,rfl⟩
    rw [mapM_toChar.mp hchars,lit,String.toList_ofList]
  · exact fun h => ⟨t.toList,mapM_toChar.mpr h,String.ofList_toList⟩

theorem encodeUtf8_lit (t : String) : encodeUtf8 (lit t) = some (asBytes t) := by
  unfold encodeUtf8
  rw [mapM_toChar.mpr (show lit t = t.toList.map ofChar from rfl)]
  rfl

theorem asText_lit (t : String) : asText (lit t) = some t := asText_eq_some.mpr rfl

theorem lit_append (s t : String) : lit (s ++ t) = lit s ++ lit t := by
  rw [lit,String.toList_append,List.map_append,lit,lit]

theorem lit_injective : Function.Injective lit := by
  intro t u h
  have hu := asText_lit u
  rw [← h,asText_lit] at hu
  exact Option.some.inj hu

theorem Denotes.unique {u : String} (h : Denotes s t) (h' : Denotes s u) : t = u :=
  lit_injective (h.fromUtf16.symm.trans h'.fromUtf16)

theorem lit_eq_nil {text : String} : lit text = [] ↔ text = "" :=
  ⟨fun h => lit_injective h,fun h => by rw [h]; rfl⟩

/-- Python's white space includes that of the Unicode property. -/
theorem isSpace_ofChar (h : isWhitespace d = true) : isSpace (ofChar d) = true := by
  have hval := val_ofChar d
  simp only [isWhitespace,isSpace,Bool.or_eq_true,Bool.and_eq_true,decide_eq_true_eq,
    beq_iff_eq] at h ⊢
  omega

end

section
variable {readFloat : Str → Option Double} {depth : ℕ} {value : Value}

theorem document_eq_str {t : String} :
    value.document readFloat depth = some (.str t) ↔ ∃ s, value = .str s ∧ Denotes s t := by
  cases value with
  | str s => simp [Value.document,asText_eq_some]
  | int i =>
    refine iff_of_false ?_ nofun
    unfold Value.document
    split_ifs <;> simp
  | list items => cases depth <;> simp [Value.document]
  | dict items => cases depth <;> simp [Value.document]
  | _ => simp [Value.document]

/-- Of a text below the surrogates, only one value is the document. -/
theorem document_eq_plain {t : String} (h : (lit t).all (fun c => c.val < 0xd800) = true) :
    value.document readFloat depth = some (.str t) ↔ value = .str (lit t) := by
  simp only [document_eq_str,denotes_plain h,exists_eq_right]

theorem document_lit {t : String} : (Value.str (lit t)).document readFloat depth = some (.str t) :=
  document_eq_str.mpr ⟨_,rfl,rfl⟩

theorem document_eq_null : value.document readFloat depth = some .null ↔ value = .none := by
  cases value with
  | int i =>
    refine iff_of_false ?_ nofun
    unfold Value.document
    split_ifs <;> simp
  | list items => cases depth <;> simp [Value.document]
  | dict items => cases depth <;> simp [Value.document]
  | _ => simp [Value.document]

theorem document_eq_obj {fields : List (String × Json)} :
    value.document readFloat (depth + 1) = some (.obj fields) ↔ ∃ items, value = .dict items ∧
      List.Forall₂ (fun p q => Denotes p.1 q.1 ∧ p.2.document readFloat depth = some q.2)
        items fields := by
  cases value with
  | dict items =>
    have hpair : ∀ (p : Str × Value) (q : String × Json),
        (asText p.1).bind (fun key => (p.2.document readFloat depth).map (fun v => (key,v))) =
          some q ↔ Denotes p.1 q.1 ∧ p.2.document readFloat depth = some q.2 := by
      rintro p ⟨key,v⟩
      simp only [Option.bind_eq_some_iff,Option.map_eq_some_iff,Prod.mk.injEq,asText_eq_some]
      constructor
      · rintro ⟨_,hkey,_,hv,rfl,rfl⟩
        exact ⟨hkey,hv⟩
      · rintro ⟨hkey,hv⟩
        exact ⟨key,hkey,v,hv,rfl,rfl⟩
    simp only [Value.document,Option.map_eq_some_iff,mapM_eq_some,hpair,Json.obj.injEq,
      exists_eq_right,Value.dict.injEq,exists_eq_left']
  | int i =>
    refine iff_of_false ?_ (by simp)
    unfold Value.document
    split_ifs <;> simp
  | _ => simp [Value.document]

theorem document_eq_arr {items' : List Json} :
    value.document readFloat (depth + 1) = some (.arr items') ↔ ∃ items, value = .list items ∧
      List.Forall₂ (fun v w => v.document readFloat depth = some w) items items' := by
  cases value with
  | list items =>
    simp only [Value.document,Option.map_eq_some_iff,mapM_eq_some,Json.arr.injEq,
      exists_eq_right,Value.list.injEq,exists_eq_left']
  | int i =>
    refine iff_of_false ?_ (by simp)
    unfold Value.document
    split_ifs <;> simp
  | _ => simp [Value.document]

/-- The members of an object are the items of the dict. -/
theorem lookup_document {items : List (Str × Value)} {fields : List (String × Json)}
    (h : List.Forall₂ (fun p q => Denotes p.1 q.1 ∧ p.2.document readFloat depth = some q.2)
      items fields) {name : String} (hplain : (lit name).all (fun c => c.val < 0xd800) = true) :
    fields.lookup name = (Dict.get items (lit name)).bind (Value.document readFloat depth) := by
  induction h with
  | nil => rfl
  | @cons p q items fields hpq _ ih =>
    obtain ⟨hkey,hvalue⟩ := hpq
    rw [Dict.get_cons,List.lookup_cons]
    by_cases hname : name = q.1
    · rw [← hname,denotes_plain hplain] at hkey
      rw [if_pos hkey.symm,beq_iff_eq.mpr hname,Option.bind_some,hvalue]
    · have hother : ¬lit name = p.1 := by
        intro heq
        rw [← heq] at hkey
        exact hname (Denotes.unique rfl hkey)
      rw [if_neg hother,beq_eq_false_iff_ne.mpr hname]
      exact ih

/-- Every key of the dict is the name of a member. -/
theorem keys_document {items : List (Str × Value)} {fields : List (String × Json)}
    (h : List.Forall₂ (fun p q => Denotes p.1 q.1 ∧ p.2.document readFloat depth = some q.2)
      items fields) {key : Str} (hkey : key ∈ items.map Prod.fst) :
    ∃ q ∈ fields, Denotes key q.1 := by
  induction h with
  | nil => cases hkey
  | @cons p q items fields hpq _ ih =>
    rcases List.mem_cons.mp hkey with rfl | hkey
    · exact ⟨q,List.mem_cons_self,hpq.1⟩
    · obtain ⟨q',hmem,hdenotes⟩ := ih hkey
      exact ⟨q',List.mem_cons_of_mem _ hmem,hdenotes⟩

theorem document_of_get {items : List (Str × Value)} {fields : List (String × Json)}
    (h : List.Forall₂ (fun p q => Denotes p.1 q.1 ∧ p.2.document readFloat depth = some q.2)
      items fields) {key : Str} (hvalue : Dict.get items key = some value) :
    ∃ v, value.document readFloat depth = some v := by
  induction h with
  | nil => cases hvalue
  | @cons p q items fields hpq _ ih =>
    rw [Dict.get_cons] at hvalue
    split_ifs at hvalue with hkey
    · rw [← Option.some.inj hvalue]
      exact ⟨q.2,hpq.2⟩
    · exact ih hvalue

end
end HearthAI.Python
