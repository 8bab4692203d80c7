import HearthAI.Contracts.Request
import HearthAI.Jobs.WebFetch
import HearthAI.Stages.Decoded

/-! # The request that the Rust side reads from a value of the control plane -/
namespace HearthAI.Stages
open Text Python Contracts

/-- The format that the decoder takes from this item. -/
def ShowsFormat (shown : Option Value) (format : Format) : Prop :=
  match shown with
  | none => format = .markdown
  | some value => value = .str (lit format.name) ∨ value = .dict [(lit format.name,.none)]

section
variable {readFloat : Str → Option Double} {depth : ℕ} {request : WebFetchRequest}

theorem format_enumerated : Enumerated Format.name [.markdown,.text,.html] :=
  ⟨by rintro ⟨⟩ <;> decide,by decide,by decide⟩

theorem showsFormat_iff {shown : Option Value} {format : Format} : ShowsFormat shown format ↔
    shown = none ∧ format = .markdown ∨ ∃ found, shown = some found ∧ Spelt format.name found := by
  cases shown with
  | none => simp [ShowsFormat]
  | some found => simp [ShowsFormat,Spelt]

theorem ofValue_eq_some {v : Json} : WebFetchRequest.ofValue v = some request ↔
    ∃ fields, v.members WebFetchRequest.fieldNames = some fields ∧
      fields.required "url" Json.asString = some request.url ∧
      fields.defaulted "format" (Json.asEnum Format.variants) .markdown =
        some request.format := by
  unfold WebFetchRequest.ofValue
  simp only [Option.bind_eq_bind,Option.bind_eq_some_iff,Option.pure_def,Option.some.injEq]
  constructor
  · rintro ⟨fields,hfields,url,hurl,format,hformat,rfl⟩
    exact ⟨fields,hfields,hurl,hformat⟩
  · rintro ⟨fields,hfields,hurl,hformat⟩
    exact ⟨fields,hfields,request.url,hurl,request.format,hformat,rfl⟩

/-- A request is read field by field. -/
theorem reads_request {value : Value} (hkeys : UniqueKeys value) :
    ReadAs readFloat (depth + 2) WebFetchRequest.ofValue value request ↔
      Shaped WebFetchRequest.fieldNames value ∧
        HasText WebFetchRequest.fieldNames value "url" request.url ∧
        ShowsFormat (memberOf WebFetchRequest.fieldNames value "format") request.format := by
  refine readAs_struct_iff (by decide) hkeys (fun v => ofValue_eq_some) ?_ ?_
  · intro fields hfinds
    rw [← hfinds.string_iff (by decide),showsFormat_iff]
    refine and_congr_right fun _ => (hfinds.defaulted_eq_some (by decide)).trans (or_congr_right ?_)
    exact exists_congr fun found => and_congr_right fun _ => readAs_enum format_enumerated
  · rintro ⟨hurl,hformat⟩ name hname found hfound
    simp only [WebFetchRequest.fieldNames,List.mem_cons,List.not_mem_nil,or_false] at hname
    rcases hname with rfl | rfl
    · exact hurl.document hfound
    · rw [hfound] at hformat
      obtain ⟨v,hv,_⟩ := document_of_spelt hformat
      exact ⟨v,hv⟩

/-- A dict is read as an object. -/
theorem reads_dict {data : Dict Str Value} (hkeys : (data.map Prod.fst).Nodup) :
    (∃ v, (Value.dict data).document readFloat (depth + 2) = some v ∧
      WebFetchRequest.ofValue v = some request) ↔
    (∀ key ∈ data.map Prod.fst, key = lit "url" ∨ key = lit "format") ∧
      (∃ raw, data.get (lit "url") = some (.str raw) ∧ Denotes raw request.url) ∧
      ShowsFormat (data.get (lit "format")) request.format := by
  have hunique : UniqueKeys (.dict data) := fun items hitems => Value.dict.inj hitems ▸ hkeys
  have hshaped : Shaped WebFetchRequest.fieldNames (.dict data) ↔
      ∀ key ∈ data.map Prod.fst, key = lit "url" ∨ key = lit "format" :=
    forall₂_congr fun key _ => by simp [WebFetchRequest.fieldNames]
  rw [← hshaped]
  exact reads_request hunique

/-- A list is read by position. -/
theorem reads_list {items : List Value} :
    (∃ v, (Value.list items).document readFloat (depth + 2) = some v ∧
      WebFetchRequest.ofValue v = some request) ↔
    ∃ raw, ∃ shown : Option Value, items = .str raw :: shown.toList ∧ Denotes raw request.url ∧
      ShowsFormat shown request.format := by
  refine (reads_request (show UniqueKeys (.list items) from nofun)).trans ?_
  constructor
  · rintro ⟨hlength,⟨raw,hurl,hraw⟩,hformat⟩
    match items with
    | [] => cases hurl
    | [_] =>
      obtain rfl := Option.some.inj hurl
      exact ⟨raw,none,rfl,hraw,hformat⟩
    | [_,shown] =>
      obtain rfl := Option.some.inj hurl
      exact ⟨raw,some shown,rfl,hraw,hformat⟩
    | _ :: _ :: _ :: _ =>
      simp only [Shaped,WebFetchRequest.fieldNames,List.length_cons,List.length_nil] at hlength
      omega
  · rintro ⟨raw,shown,rfl,hraw,hformat⟩
    cases shown with
    | none => exact ⟨Nat.le_succ 1,⟨raw,rfl,hraw⟩,hformat⟩
    | some shown => exact ⟨Nat.le_refl 2,⟨raw,rfl,hraw⟩,hformat⟩

/-- Nothing else is read as a request. -/
theorem reads_other {value : Value} {depth : ℕ} {v : Json}
    (hv : value.document readFloat (depth + 1) = some v)
    (h : WebFetchRequest.ofValue v = some request) :
    (∃ data, value = .dict data) ∨ ∃ items, value = .list items := by
  obtain ⟨members,hmembers,_⟩ := ofValue_eq_some.mp h
  cases v with
  | obj fields =>
    obtain ⟨data,hdata,_⟩ := document_eq_obj.mp hv
    exact .inl ⟨data,hdata⟩
  | arr items =>
    obtain ⟨items',hitems,_⟩ := document_eq_arr.mp hv
    exact .inr ⟨items',hitems⟩
  | _ => cases hmembers

/-- The fetch stage reads the URL and the format that the control plane has admitted. -/
theorem fromStr_toDict {serde : SerdeJson} {dumps : Value → String}
    {passed : Jobs.WebFetchRequest} (hreads : Reads serde dumps readFloat passed.toDict) :
    WebFetchRequest.fromStr serde (dumps passed.toDict) = .ok request ↔
      Denotes passed.url request.url ∧ passed.format = lit request.format.name := by
  have hkeys : ([(lit "url",Value.str passed.url),(lit "format",.str passed.format)].map
      Prod.fst).Nodup := by
    show [lit "url",lit "format"].Nodup
    decide
  have hurl : Dict.get [(lit "url",Value.str passed.url),(lit "format",.str passed.format)]
      (lit "url") = some (.str passed.url) := rfl
  have hformat : Dict.get [(lit "url",Value.str passed.url),(lit "format",.str passed.format)]
      (lit "format") = some (.str passed.format) := rfl
  rw [fromStr_eq_ok,show serde.parse _ = _ from hreads]
  refine (reads_dict hkeys).trans ?_
  rw [hurl,hformat]
  simp [ShowsFormat]

end
end HearthAI.Stages
