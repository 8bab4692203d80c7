import HearthAI.Contracts.Released
import HearthAI.Python.Document

/-! # What the derived decoders read of a value of the control plane

A struct is read from a dict or, by position, from a list. Every field is read as what its own
document is, so that no theorem below has to look at the document of the whole.
-/
namespace HearthAI.Stages
open Text Python Contracts

/-- The member of this name. A list has its members by position. -/
def memberOf (names : List String) (value : Value) (name : String) : Option Value :=
  match value with
  | .dict items => Dict.get items (lit name)
  | .list items => (names.zip items).lookup name
  | _ => none

/-- A dict without other keys, or a list without more items. -/
def Shaped (names : List String) : Value → Prop
  | .dict items => ∀ key ∈ items.map Prod.fst, ∃ name ∈ names, key = lit name
  | .list items => items.length ≤ names.length
  | _ => False

/-- A dict has every key once. -/
def UniqueKeys (value : Value) : Prop :=
  ∀ items, value = .dict items → (items.map Prod.fst).Nodup

def isList : Value → Bool
  | .list _ => true
  | _ => false

/-- The decoder reads this in the document of the value. -/
def ReadAs {α : Type} (readFloat : Str → Option Double) (depth : ℕ) (decode : Json → Option α)
    (value : Value) (a : α) : Prop :=
  ∃ v, value.document readFloat depth = some v ∧ decode v = some a

/-- An optional field that is null, or that an object does not have. -/
def LeftOut (names : List String) (value : Value) (name : String) : Prop :=
  memberOf names value name = none ∧ isList value = false ∨ memberOf names value name = some .none

/-- The text as it stands, or as the only key of an object. -/
def Spelt (text : String) (value : Value) : Prop :=
  value = .str (lit text) ∨ value = .dict [(lit text,.none)]

/-- The value has this member, which is a string of these characters. -/
def HasText (names : List String) (value : Value) (name text : String) : Prop :=
  ∃ raw, memberOf names value name = some (.str raw) ∧ Denotes raw text

/-- The value has this member, which names a variant. -/
def HasVariant (names : List String) (value : Value) (name text : String) : Prop :=
  ∃ found, memberOf names value name = some found ∧ Spelt text found

/-- Different names of a source text, all of them below the surrogates. -/
def PlainNames (names : List String) : Prop :=
  names.Nodup ∧ ∀ name ∈ names, (lit name).all (fun c => c.val < 0xd800) = true

instance (names : List String) : Decidable (PlainNames names) :=
  inferInstanceAs (Decidable (_ ∧ _))

/-- All the variants of an `enum`, by names without white space around them. -/
structure Enumerated {α : Type} (name : α → String) (variants : List α) : Prop where
  all : ∀ a, a ∈ variants
  plain : PlainNames (variants.map name)
  trimmed : ∀ a ∈ variants, strip (lit (name a)) = lit (name a)

theorem Enumerated.strip_name {α : Type} {name : α → String} {variants : List α}
    (h : Enumerated name variants) (a : α) : strip (lit (name a)) = lit (name a) :=
  h.trimmed a (h.all a)

/-- The members that a decoder finds are those of the value. -/
structure Finds (readFloat : Str → Option Double) (depth : ℕ) (names : List String)
    (value : Value) (fields : Members) : Prop where
  positional : fields.positional = isList value
  get : ∀ name ∈ names, fields.get name =
    (memberOf names value name).bind (Value.document readFloat depth)
  document : ∀ name found, memberOf names value name = some found →
    ∃ v, found.document readFloat depth = some v

theorem variantName_eq_some {v : Json} {name : String} :
    v.variantName = some name ↔ v = .str name ∨ v = .obj [(name,.null)] := by
  unfold Json.variantName
  split
  · simp
  · simp
  · rename_i hstr hobj
    refine iff_of_false nofun ?_
    rintro (rfl | rfl)
    · exact hstr name rfl
    · exact hobj name rfl

theorem lookup_named {α : Type} {name : α → String} {variants : List α} {text : String} {a : α}
    (h : (named name variants).lookup text = some a) : text = name a := by
  obtain ⟨b,_,hb⟩ := List.mem_map.mp (Dict.mem_of_get h)
  obtain ⟨rfl,rfl⟩ := Prod.mk.inj hb
  rfl

theorem members_obj_eq_some {names : List String} {fields : List (String × Json)}
    {members : Members} : (Json.obj fields).members names = some members ↔
      ((fields.map Prod.fst).Nodup ∧ ∀ p ∈ fields, p.1 ∈ names) ∧
        members = ⟨fun name => fields.lookup name,false⟩ := by
  unfold Json.members
  dsimp only
  split_ifs with h
  · rw [Option.some.injEq,eq_comm,and_iff_right h]
  · exact iff_of_false nofun (fun hs => h hs.1)

theorem members_arr_eq_some {names : List String} {items : List Json} {members : Members} :
    (Json.arr items).members names = some members ↔ items.length ≤ names.length ∧
      members = ⟨fun name => (names.zip items).lookup name,true⟩ := by
  unfold Json.members
  dsimp only
  split_ifs with h
  · rw [Option.some.injEq,eq_comm,and_iff_right h]
  · exact iff_of_false nofun (fun hs => h hs.1)

section
variable {readFloat : Str → Option Double} {depth : ℕ} {names : List String} {value : Value}
  {v : Json} {fields : Members}

theorem lookup_zip_document {names : List String} {items : List Value} {documents : List Json}
    (h : List.Forall₂ (fun v w => Value.document readFloat depth v = some w) items documents)
    (name : String) : (names.zip documents).lookup name =
      ((names.zip items).lookup name).bind (Value.document readFloat depth) := by
  induction h generalizing names with
  | nil => simp
  | @cons value w items documents hvalue _ ih =>
    cases names with
    | nil => rfl
    | cons first names =>
      rw [List.zip_cons_cons,List.zip_cons_cons,List.lookup_cons,List.lookup_cons]
      by_cases hname : name = first
      · rw [beq_iff_eq.mpr hname,Option.bind_some,hvalue]
      · rw [beq_eq_false_iff_ne.mpr hname]
        exact ih

theorem document_of_lookup {names : List String} {items : List Value} {documents : List Json}
    (h : List.Forall₂ (fun v w => Value.document readFloat depth v = some w) items documents)
    {name : String} {found : Value} (hfound : (names.zip items).lookup name = some found) :
    ∃ v, found.document readFloat depth = some v := by
  induction h generalizing names with
  | nil => simp at hfound
  | @cons value w items documents hvalue _ ih =>
    cases names with
    | nil => cases hfound
    | cons first names =>
      rw [List.zip_cons_cons,List.lookup_cons] at hfound
      split at hfound
      · exact ⟨w,Option.some.inj hfound ▸ hvalue⟩
      · exact ih hfound

/-- What the decoder of a struct finds. -/
theorem finds_of_members (hplain : PlainNames names)
    (hdocument : value.document readFloat (depth + 1) = some v)
    (hfields : v.members names = some fields) :
    Shaped names value ∧ Finds readFloat depth names value fields := by
  cases v with
  | obj members =>
    obtain ⟨items,rfl,hall⟩ := document_eq_obj.mp hdocument
    obtain ⟨⟨_,hknown⟩,rfl⟩ := members_obj_eq_some.mp hfields
    refine ⟨fun key hkey => ?_,rfl,fun name hname => lookup_document hall (hplain.2 name hname),
      fun name found hfound => document_of_get hall hfound⟩
    obtain ⟨q,hq,hdenotes⟩ := keys_document hall hkey
    exact ⟨q.1,hknown q hq,(denotes_plain (hplain.2 q.1 (hknown q hq))).mp hdenotes⟩
  | arr documents =>
    obtain ⟨items,rfl,hall⟩ := document_eq_arr.mp hdocument
    obtain ⟨hlength,rfl⟩ := members_arr_eq_some.mp hfields
    refine ⟨hall.length_eq.trans_le hlength,rfl,fun name _ => lookup_zip_document hall name,
      fun name found hfound => document_of_lookup hall hfound⟩
  | _ => cases hfields

theorem zip_sublist (names : List String) (items : List Value) :
    ((names.zip items).map Prod.fst).Sublist names := by
  induction names generalizing items with
  | nil => exact .slnil
  | cons name names ih =>
    cases items with
    | nil => exact List.nil_sublist _
    | cons item items => exact (ih items).cons_cons name

/-- A value of the shape has the members of the struct, when each of them has a document. -/
theorem members_of_shaped (hnames : names.Nodup) (hkeys : UniqueKeys value)
    (hshaped : Shaped names value)
    (hmembers : ∀ name ∈ names, ∀ found, memberOf names value name = some found →
      ∃ w, found.document readFloat depth = some w) :
    ∃ v fields, value.document readFloat (depth + 1) = some v ∧ v.members names = some fields := by
  cases value with
  | dict items =>
    have hitems : ∀ p ∈ items, ∃ q : String × Json, p.1 = lit q.1 ∧
        p.2.document readFloat depth = some q.2 := by
      intro p hp
      obtain ⟨name,hname,hkey⟩ := hshaped p.1 (List.mem_map_of_mem hp)
      have hget := Dict.get_of_mem (hkeys items rfl) (show (p.1,p.2) ∈ items from hp)
      rw [hkey] at hget
      obtain ⟨w,hw⟩ := hmembers name hname p.2 hget
      exact ⟨(name,w),hkey,hw⟩
    obtain ⟨fields,hall⟩ := exists_forall₂ hitems
    have hkept : items.map Prod.fst = (fields.map Prod.fst).map lit := by
      rw [List.map_map,← List.forall₂_eq_eq_eq,List.forall₂_map_left_iff,
        List.forall₂_map_right_iff]
      exact hall.imp fun p q h => h.1
    refine ⟨.obj fields,_,document_eq_obj.mpr ⟨items,rfl,hall.imp fun p q h =>
      ⟨congrArg utf16 h.1,h.2⟩⟩,members_obj_eq_some.mpr ⟨⟨?_,fun q hq => ?_⟩,rfl⟩⟩
    · have hnodup := hkeys items rfl
      rw [hkept] at hnodup
      exact hnodup.of_map lit
    · have hkey := List.mem_map_of_mem (f := lit) (List.mem_map_of_mem (f := Prod.fst) hq)
      rw [← hkept] at hkey
      obtain ⟨name,hname,hsame⟩ := hshaped _ hkey
      rwa [lit_injective hsame]
  | list items =>
    have hlength : items.length ≤ names.length := hshaped
    have hfound : ((names.zip items).map Prod.fst).Nodup := hnames.sublist (zip_sublist names items)
    have hitems : ∀ item ∈ items, ∃ w, item.document readFloat depth = some w := by
      intro item hitem
      rw [← List.map_snd_zip hlength] at hitem
      obtain ⟨⟨name,found⟩,hmem,rfl⟩ := List.mem_map.mp hitem
      exact hmembers name (List.of_mem_zip hmem).1 found (Dict.get_of_mem hfound hmem)
    obtain ⟨documents,hall⟩ := exists_forall₂ hitems
    exact ⟨.arr documents,_,document_eq_arr.mpr ⟨items,rfl,hall⟩,
      members_arr_eq_some.mpr ⟨hall.length_eq.symm.trans_le hlength,rfl⟩⟩
  | _ => exact hshaped.elim

/-- A struct is read from a value of its shape, field by field. -/
theorem readAs_struct_iff {α : Type} {decode : Json → Option α} {a : α} {P : Members → Prop}
    {Q : Prop} (hplain : PlainNames names) (hkeys : UniqueKeys value)
    (hdecode : ∀ v, decode v = some a ↔ ∃ fields, v.members names = some fields ∧ P fields)
    (hfields : ∀ fields, Finds readFloat depth names value fields → (P fields ↔ Q))
    (hmembers : Q → ∀ name ∈ names, ∀ found, memberOf names value name = some found →
      ∃ w, found.document readFloat depth = some w) :
    ReadAs readFloat (depth + 1) decode value a ↔ Shaped names value ∧ Q := by
  constructor
  · rintro ⟨v,hv,ha⟩
    obtain ⟨fields,hfound,hP⟩ := (hdecode v).mp ha
    obtain ⟨hshaped,hfinds⟩ := finds_of_members hplain hv hfound
    exact ⟨hshaped,(hfields fields hfinds).mp hP⟩
  · rintro ⟨hshaped,hQ⟩
    obtain ⟨v,fields,hv,hfound⟩ := members_of_shaped hplain.1 hkeys hshaped (hmembers hQ)
    obtain ⟨_,hfinds⟩ := finds_of_members hplain hv hfound
    exact ⟨v,hv,(hdecode v).mpr ⟨fields,hfound,(hfields fields hfinds).mpr hQ⟩⟩

/-! ## The fields -/

theorem readAs_string {text : String} :
    ReadAs readFloat depth Json.asString value text ↔
      ∃ raw, value = .str raw ∧ Denotes raw text := by
  constructor
  · rintro ⟨v,hv,htext⟩
    cases v <;> cases htext
    exact document_eq_str.mp hv
  · exact fun h => ⟨_,document_eq_str.mpr h,rfl⟩

theorem document_eq_int {i : Int} : value.document readFloat depth = some (.int i) ↔
    value = .int i ∧ -2 ^ 63 ≤ i ∧ i < 2 ^ 64 := by
  cases value with
  | int j =>
    unfold Value.document
    split_ifs with hrange
    · simp only [Option.some.injEq,Json.int.injEq,Value.int.injEq]
      constructor
      · rintro rfl
        exact ⟨rfl,hrange⟩
      · exact fun h => h.1
    · refine iff_of_false (by simp) ?_
      rintro ⟨hj,hi⟩
      exact hrange (Value.int.inj hj ▸ hi)
  | list items => cases depth <;> simp [Value.document]
  | dict items => cases depth <;> simp [Value.document]
  | _ => simp [Value.document]

theorem readAs_unsigned {bound n : ℕ} (hbound : bound ≤ u32Bound) :
    ReadAs readFloat depth (Json.asUnsigned bound) value n ↔ value = .int n ∧ n < bound := by
  have hlimit : (u32Bound : Int) ≤ 2 ^ 64 := by decide
  constructor
  · rintro ⟨v,hv,hn⟩
    unfold Json.asUnsigned at hn
    split at hn
    · split_ifs at hn with hlt
      obtain rfl := Option.some.inj hn
      exact ⟨(document_eq_int.mp hv).1,hlt⟩
    · cases hn
  · rintro ⟨rfl,hlt⟩
    refine ⟨.int n,document_eq_int.mpr ⟨rfl,?_,?_⟩,Json.asUnsigned_of_lt hlt⟩
    · have hneg : (-2 ^ 63 : Int) ≤ 0 := by decide
      omega
    · omega

theorem document_of_spelt {text : String} (h : Spelt text value) :
    ∃ v, value.document readFloat (depth + 1) = some v ∧ v.variantName = some text := by
  rcases h with rfl | rfl
  · exact ⟨_,document_lit,rfl⟩
  · have hitems : List.Forall₂ (fun p q => Denotes p.1 q.1 ∧
        Value.document readFloat depth p.2 = some q.2) [(lit text,.none)] [(text,.null)] :=
      .cons ⟨rfl,document_eq_null.mpr rfl⟩ .nil
    exact ⟨_,document_eq_obj.mpr ⟨_,rfl,hitems⟩,rfl⟩

theorem readAs_enum {α : Type} {name : α → String} {variants : List α} {a : α}
    (h : Enumerated name variants) :
    ReadAs readFloat (depth + 1) (Json.asEnum (named name variants)) value a ↔
      Spelt (name a) value := by
  have hname : (named name variants).lookup (name a) = some a := asEnum_name h.plain.1 (h.all a)
  have hplain := h.plain.2 (name a) (List.mem_map_of_mem (h.all a))
  unfold ReadAs Json.asEnum Spelt
  constructor
  · rintro ⟨v,hv,henum⟩
    obtain ⟨text,hvariant,hlookup⟩ := Option.bind_eq_some_iff.mp henum
    obtain rfl := lookup_named hlookup
    rcases variantName_eq_some.mp hvariant with rfl | rfl
    · exact .inl ((document_eq_plain hplain).mp hv)
    · obtain ⟨items,rfl,hitems⟩ := document_eq_obj.mp hv
      obtain _ | ⟨⟨hkey,hvalue⟩,hrest⟩ := hitems
      cases hrest
      rw [document_eq_null] at hvalue
      exact .inr (by rw [← (denotes_plain hplain).mp hkey,← hvalue])
  · intro h
    obtain ⟨v,hv,hvariant⟩ := document_of_spelt h
    exact ⟨v,hv,Option.bind_eq_some_iff.mpr ⟨_,hvariant,hname⟩⟩

theorem readAs_option {α : Type} {decode : Json → Option α} {o : Option α}
    (hv : value.document readFloat depth = some v) : v.asOption decode = some o ↔
      value = .none ∧ o = none ∨
        value ≠ .none ∧ ∃ a, o = some a ∧ ReadAs readFloat depth decode value a := by
  by_cases hnull : v = .null
  · subst hnull
    obtain rfl := document_eq_null.mp hv
    simp [Json.asOption,eq_comm]
  · have hvalue : value ≠ .none := by
      rintro rfl
      exact hnull (Option.some.inj (hv.symm.trans (document_eq_null.mpr rfl)))
    have hother : v.asOption decode = (decode v).map some := by
      cases v with
      | null => exact absurd rfl hnull
      | _ => rfl
    rw [hother,Option.map_eq_some_iff,or_iff_right (fun h => hvalue h.1),and_iff_right hvalue]
    simp only [ReadAs,hv,Option.some.injEq,exists_eq_left']
    exact ⟨fun ⟨a,ha,ho⟩ => ⟨a,ho.symm,ha⟩,fun ⟨a,ho,ha⟩ => ⟨a,ha,ho.symm⟩⟩

namespace Finds
variable {α : Type} {decode : Json → Option α} {name text : String} {a : α}

theorem required_eq_some (h : Finds readFloat depth names value fields) (hname : name ∈ names) :
    fields.required name decode = some a ↔ ∃ found, memberOf names value name = some found ∧
      ReadAs readFloat depth decode found a := by
  simp only [Members.required,h.get name hname,Option.bind_eq_some_iff,ReadAs]
  constructor
  · rintro ⟨v,⟨found,hfound,hv⟩,ha⟩
    exact ⟨found,hfound,v,hv,ha⟩
  · rintro ⟨found,hfound,v,hv,ha⟩
    exact ⟨v,⟨found,hfound,hv⟩,ha⟩

theorem optional_eq_some (h : Finds readFloat depth names value fields) (hname : name ∈ names)
    {o : Option α} : fields.optional name decode = some o ↔
      LeftOut names value name ∧ o = none ∨ ∃ found, memberOf names value name = some found ∧
        found ≠ .none ∧ ∃ a, o = some a ∧ ReadAs readFloat depth decode found a := by
  unfold Members.optional LeftOut
  rw [h.get name hname,h.positional]
  cases hmember : memberOf names value name with
  | none =>
    cases isList value <;> simp [eq_comm]
  | some found =>
    obtain ⟨v,hv⟩ := h.document name found hmember
    rw [Option.bind_some,hv]
    refine (readAs_option hv).trans ?_
    simp

/-- A field is read as what its own document is. -/
theorem required_iff {Q : Value → Prop} (h : Finds readFloat depth names value fields)
    (hname : name ∈ names) (hQ : ∀ found, memberOf names value name = some found →
      (ReadAs readFloat depth decode found a ↔ Q found)) :
    fields.required name decode = some a ↔
      ∃ found, memberOf names value name = some found ∧ Q found :=
  (h.required_eq_some hname).trans (exists_congr fun found => and_congr_right (hQ found))

theorem optional_iff {Q : Value → α → Prop} (h : Finds readFloat depth names value fields)
    (hname : name ∈ names) (hQ : ∀ found a, memberOf names value name = some found →
      (ReadAs readFloat depth decode found a ↔ Q found a)) (hnull : ∀ a, ¬Q .none a)
    {o : Option α} : fields.optional name decode = some o ↔ LeftOut names value name ∧ o = none ∨
      ∃ found a, memberOf names value name = some found ∧ o = some a ∧ Q found a := by
  rw [h.optional_eq_some hname]
  refine or_congr_right ?_
  constructor
  · rintro ⟨found,hfound,_,a,ho,ha⟩
    exact ⟨found,a,hfound,ho,(hQ found a hfound).mp ha⟩
  · rintro ⟨found,a,hfound,ho,ha⟩
    refine ⟨found,hfound,?_,a,ho,(hQ found a hfound).mpr ha⟩
    rintro rfl
    exact hnull a ha

theorem defaulted_eq_some (h : Finds readFloat depth names value fields) (hname : name ∈ names)
    {default : α} : fields.defaulted name decode default = some a ↔
      memberOf names value name = none ∧ a = default ∨
        ∃ found, memberOf names value name = some found ∧
          ReadAs readFloat depth decode found a := by
  unfold Members.defaulted
  rw [h.get name hname]
  cases hmember : memberOf names value name with
  | none => simp [eq_comm]
  | some found =>
    obtain ⟨v,hv⟩ := h.document name found hmember
    rw [Option.bind_some,hv]
    simp [ReadAs,hv]

theorem string_iff (h : Finds readFloat depth names value fields) (hname : name ∈ names) :
    fields.required name Json.asString = some text ↔ HasText names value name text := by
  rw [h.required_eq_some hname]
  simp only [readAs_string,HasText]
  exact ⟨fun ⟨_,hfound,raw,hraw,htext⟩ => ⟨raw,hraw ▸ hfound,htext⟩,
    fun ⟨raw,hfound,htext⟩ => ⟨_,hfound,raw,rfl,htext⟩⟩

theorem optionalString_iff (h : Finds readFloat depth names value fields) (hname : name ∈ names)
    {o : Option String} : fields.optional name Json.asString = some o ↔
      LeftOut names value name ∧ o = none ∨
        ∃ text, o = some text ∧ HasText names value name text := by
  rw [h.optional_eq_some hname]
  simp only [readAs_string,HasText]
  refine or_congr_right ⟨?_,?_⟩
  · rintro ⟨_,hfound,_,text,ho,raw,rfl,htext⟩
    exact ⟨text,ho,raw,hfound,htext⟩
  · rintro ⟨text,ho,raw,hfound,htext⟩
    exact ⟨_,hfound,nofun,text,ho,raw,rfl,htext⟩

theorem unsigned_iff {bound n : ℕ} (h : Finds readFloat depth names value fields)
    (hname : name ∈ names) (hbound : bound ≤ u32Bound) :
    fields.required name (Json.asUnsigned bound) = some n ↔
      memberOf names value name = some (.int n) ∧ n < bound := by
  rw [h.required_eq_some hname]
  simp only [readAs_unsigned hbound]
  exact ⟨fun ⟨_,hfound,hvalue,hn⟩ => ⟨hvalue ▸ hfound,hn⟩,fun ⟨hfound,hn⟩ => ⟨_,hfound,rfl,hn⟩⟩

theorem enum_iff {α : Type} {variant : α → String} {variants : List α} {a : α}
    (h : Finds readFloat (depth + 1) names value fields) (hname : name ∈ names)
    (hvariants : Enumerated variant variants) :
    fields.required name (Json.asEnum (named variant variants)) = some a ↔
      HasVariant names value name (variant a) := by
  rw [h.required_eq_some hname]
  simp only [readAs_enum hvariants,HasVariant]

end Finds

/-! ## What is read has a document -/

section
variable {name text : String} {found : Value}

theorem HasText.document (h : HasText names value name text)
    (hfound : memberOf names value name = some found) :
    ∃ w, found.document readFloat depth = some w := by
  obtain ⟨raw,hraw,htext⟩ := h
  obtain rfl := Option.some.inj (hraw.symm.trans hfound)
  exact ⟨_,document_eq_str.mpr ⟨raw,rfl,htext⟩⟩

theorem HasVariant.document (h : HasVariant names value name text)
    (hfound : memberOf names value name = some found) :
    ∃ w, found.document readFloat (depth + 1) = some w := by
  obtain ⟨given,hgiven,hspelt⟩ := h
  obtain rfl := Option.some.inj (hgiven.symm.trans hfound)
  obtain ⟨w,hw,_⟩ := document_of_spelt hspelt
  exact ⟨w,hw⟩

theorem LeftOut.document (h : LeftOut names value name)
    (hfound : memberOf names value name = some found) :
    ∃ w, found.document readFloat depth = some w := by
  rcases h with ⟨hnone,_⟩ | hnull
  · cases hnone.symm.trans hfound
  · obtain rfl := Option.some.inj (hnull.symm.trans hfound)
    exact ⟨_,document_eq_null.mpr rfl⟩

theorem document_of_unsigned {bound n : ℕ} (hbound : bound ≤ u32Bound)
    (h : memberOf names value name = some (.int n) ∧ n < bound)
    (hfound : memberOf names value name = some found) :
    ∃ w, found.document readFloat depth = some w := by
  obtain rfl := Option.some.inj (h.1.symm.trans hfound)
  obtain ⟨w,hw,_⟩ := (readAs_unsigned hbound).mpr ⟨rfl,h.2⟩
  exact ⟨w,hw⟩

end
end
end HearthAI.Stages
