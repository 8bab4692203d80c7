import HearthAI.Stages.Taken

/-! # What the control plane asks of an envelope

What it accepts is what both gates ask, with its own conditions: objects with every key, names
that are strings, and bounds on the stripped texts.
-/
namespace HearthAI.Stages
open Text Python Contracts

section
variable {parsers : Jobs.Parsers} {urls : UrlCrate} {times : TimeCrate} {url : Str → Option Url}
  {time : Str → Prop} {isDigit : CodePoint → Bool} {items members found : Dict Str Value}
  {value : Value}

/-! ## What is taken is asked -/

theorem shaped_of_exactFields {names : List String} {path : String}
    (h : Jobs.requireExactFields items (names.map lit) path [] = .ok ()) :
    Shaped names (.dict items) := (exactFields_iff.mp h).1

theorem DataTaken.bothAsk (h : DataTaken isDigit url time members)
    (hdata : envelopeField value "data" = some (.dict members)) : BothAskOfData isDigit value := by
  have hfield := dataField_eq hdata
  have hshaped := shaped_of_exactFields (show Jobs.requireExactFields members
    (Contracts.WebFetchData.fieldNames.map lit) "data" [] = .ok () from h.exactFields)
  obtain ⟨format,method,hformat,hmethod,hinert⟩ := h.output
  refine ⟨⟨_,hdata,hshaped⟩,?_,?_,?_,?_,?_,⟨format,method,⟨_,?_,.inl rfl⟩,?_,hinert⟩,?_⟩ <;>
    rw [hfield]
  · exact h.sourceId
  · exact h.finalUrl.isText
  · exact h.httpStatus
  · exact h.contentType.mono fun s hs => hs.2
  · exact h.retrievedAt.isText
  · exact hformat
  · exact .inl hmethod
  · exact h.content.isText

theorem InspectionTaken.isStruct {status : Contracts.InspectionStatus} {policyId : Option Str}
    (h : InspectionTaken status policyId found)
    (hinspection : envelopeField value "inspection" = some (.dict found)) :
    IsStruct inspectionNames (envelopeField value "inspection") :=
  ⟨_,hinspection,shaped_of_exactFields (show Jobs.requireExactFields found
    (inspectionNames.map lit) "inspection" [] = .ok () from h.exactFields)⟩

theorem ErrorTaken.isStruct {code : Contracts.ErrorCode} (h : ErrorTaken code found)
    (herror : envelopeField value "error" = some (.dict found)) :
    IsStruct errorNames (envelopeField value "error") :=
  ⟨_,herror,shaped_of_exactFields (show Jobs.requireExactFields found
    (errorNames.map lit) "error" [] = .ok () from h.exactFields)⟩

theorem SuccessTaken.bothAsk (h : SuccessTaken isDigit url time items) :
    BothAskOfSuccess isDigit (.dict items) := by
  obtain ⟨found,policyId,hinspection,hinspected⟩ := h.inspection
  obtain ⟨members,hdata,htaken⟩ := h.data
  have hfield := inspectionField_eq (show envelopeField (.dict items) _ = _ from hinspection)
  refine ⟨.inl h.status,?_,?_,htaken.bothAsk hdata,.inr h.error⟩ <;> rw [hfield]
  · exact .inl hinspected.status
  · rcases hinspected.policyId with ⟨_,hnone⟩ | ⟨raw,hraw,_,hvalid⟩
    · cases hnone
    · exact ⟨raw,hraw,hvalid⟩

theorem FailureTaken.bothAsk {code : Contracts.ErrorCode} {inspected : Contracts.InspectionStatus}
    {policyId : Option Str} (h : FailureTaken items code inspected policyId) :
    BothAskOfFailure (.dict items) code inspected := by
  obtain ⟨found,hinspection,hinspected⟩ := h.inspection
  obtain ⟨members,herror,htaken⟩ := h.error
  have hinspect := inspectionField_eq (show envelopeField (.dict items) _ = _ from hinspection)
  have hfield := errorField_eq (show envelopeField (.dict items) _ = _ from herror)
  refine ⟨.inl h.status,?_,h.permitted,?_,.inr h.data,htaken.isStruct herror,?_,?_⟩
  · rw [hinspect]
    exact .inl hinspected.status
  · rw [hinspect]
    rcases hinspected.policyId with ⟨hnull,hnone⟩ | ⟨raw,hraw,_,hvalid⟩
    · exact .inr ⟨.inr hnull,fun hmatch => h.named hmatch hnone⟩
    · exact .inl ⟨raw,hraw,hvalid⟩
  · rw [hfield]
    exact .inl htaken.coded
  · rw [hfield]
    exact htaken.message

theorem EnvelopeTaken.bothAsk (h : EnvelopeTaken isDigit url time items) :
    BothAsk isDigit (.dict items) := by
  have hshaped := shaped_of_exactFields (show Jobs.requireExactFields items
    (Envelope.fieldNames.map lit) "envelope" [] = .ok () from h.exactFields)
  have hinspection : IsStruct inspectionNames (envelopeField (.dict items) "inspection") := by
    rcases h.outcome with hsuccess | ⟨_,_,_,hfailure⟩
    · obtain ⟨_,_,hinspection,hinspected⟩ := hsuccess.inspection
      exact hinspected.isStruct hinspection
    · obtain ⟨_,hinspection,hinspected⟩ := hfailure.inspection
      exact hinspected.isStruct hinspection
  exact ⟨hshaped,h.version,h.tool,h.toolVersion,.inl h.trust,hinspection,
    h.outcome.imp SuccessTaken.bothAsk fun ⟨code,inspected,_,hfailure⟩ =>
      ⟨code,inspected,hfailure.bothAsk⟩⟩

theorem InspectionTaken.present {status : Contracts.InspectionStatus} {policyId : Option Str}
    (h : InspectionTaken status policyId found) : found.get (lit "policy_id") ≠ none := by
  rcases h.policyId with ⟨h,_⟩ | ⟨_,h,_⟩ <;> rw [h] <;> exact nofun

/-- The structs that an accepted envelope has are objects. -/
theorem objects_of_taken {data error : Value} (hinspection : items.get (lit "inspection") =
      some (.dict found)) (hdata : items.get (lit "data") = some data)
    (herror : items.get (lit "error") = some error) (hobjects : isList data = false ∧
      isList error = false) :
    ∀ found ∈ structs (.dict items), ∀ items, found ≠ some (.list items) := by
  simp only [structs,List.mem_cons,List.not_mem_nil,or_false]
  rintro _ (rfl | rfl | rfl | rfl) other
  · exact nofun
  · exact fun hlist => nomatch (Option.some.inj (hinspection.symm.trans hlist))
  · intro hlist
    obtain rfl := Option.some.inj (hdata.symm.trans hlist)
    cases hobjects.1
  · intro hlist
    obtain rfl := Option.some.inj (herror.symm.trans hlist)
    cases hobjects.2

theorem SuccessTaken.asks (h : SuccessTaken isDigit url time items)
    (htrust : Says Contracts.Trust.externalUntrusted.name (items.get (lit "trust")))
    (hcomplete : ∀ name ∈ Envelope.fieldNames, envelopeField (.dict items) name ≠ none) :
    ControlPlaneAsks url time (.dict items) := by
  obtain ⟨found,policyId,hinspection,hinspected⟩ := h.inspection
  obtain ⟨members,hdata,htaken⟩ := h.data
  obtain ⟨format,method,hformat,hmethod,_⟩ := htaken.output
  have hinspect := inspectionField_eq (show envelopeField (.dict items) _ = _ from hinspection)
  have hfield := dataField_eq (show envelopeField (.dict items) _ = _ from hdata)
  have herror := errorField_unset (.inr (show envelopeField (.dict items) _ = _ from h.error))
  refine ⟨objects_of_taken hinspection hdata h.error ⟨rfl,rfl⟩,
    ⟨hcomplete,by rw [hinspect]; exact hinspected.present⟩,?_,?_,?_,?_,?_⟩
  · simp only [variants,List.mem_cons,List.not_mem_nil,or_false]
    rintro _ (rfl | rfl | rfl | rfl | rfl | rfl)
    · exact h.status.not_dict
    · exact htrust.not_dict
    · rw [hinspect]
      exact hinspected.status.not_dict
    · rw [herror]
      exact nofun
    · rw [(hfield _).trans hformat]
      exact nofun
    · rw [hfield]
      exact hmethod.not_dict
  · rw [hfield]
    exact htaken.finalUrl.ifStripped
  · rw [hfield]
    exact (htaken.contentType.mono fun s hs => hs.1).ifStripped
  · rw [hfield]
    exact htaken.retrievedAt.ifStripped
  · rw [hfield]
    exact htaken.content.ifStripped

theorem FailureTaken.asks {code : Contracts.ErrorCode} {inspected : Contracts.InspectionStatus}
    {policyId : Option Str} (h : FailureTaken items code inspected policyId)
    (htrust : Says Contracts.Trust.externalUntrusted.name (items.get (lit "trust")))
    (hcomplete : ∀ name ∈ Envelope.fieldNames, envelopeField (.dict items) name ≠ none) :
    ControlPlaneAsks url time (.dict items) := by
  obtain ⟨found,hinspection,hinspected⟩ := h.inspection
  obtain ⟨members,herror,htaken⟩ := h.error
  have hinspect := inspectionField_eq (show envelopeField (.dict items) _ = _ from hinspection)
  have hfield := errorField_eq (show envelopeField (.dict items) _ = _ from herror)
  have hdata := dataField_unset (.inr (show envelopeField (.dict items) _ = _ from h.data))
  refine ⟨objects_of_taken hinspection h.data herror ⟨rfl,rfl⟩,
    ⟨hcomplete,by rw [hinspect]; exact hinspected.present⟩,?_,ifText_unset (.inl (hdata _)),
    ifText_unset (.inl (hdata _)),ifText_unset (.inl (hdata _)),ifText_unset (.inl (hdata _))⟩
  simp only [variants,List.mem_cons,List.not_mem_nil,or_false]
  rintro _ (rfl | rfl | rfl | rfl | rfl | rfl)
  · exact h.status.not_dict
  · exact htrust.not_dict
  · rw [hinspect]
    exact hinspected.status.not_dict
  · rw [hfield]
    exact htaken.coded.not_dict
  · rw [hdata]
    exact nofun
  · rw [hdata]
    exact nofun

theorem EnvelopeTaken.asks (h : EnvelopeTaken isDigit url time items) :
    ControlPlaneAsks url time (.dict items) := by
  have hcomplete := (exactFields_iff.mp (show Jobs.requireExactFields items
    (Envelope.fieldNames.map lit) "envelope" [] = .ok () from h.exactFields)).2
  rcases h.outcome with hsuccess | ⟨_,_,_,hfailure⟩
  · exact hsuccess.asks h.trust hcomplete
  · exact hfailure.asks h.trust hcomplete

/-! ## What is asked is taken -/

theorem dataTaken_of_asks (hdata : envelopeField value "data" = some (.dict members))
    (h : BothAskOfData isDigit value) (hasks : ControlPlaneAsks url time value) :
    DataTaken isDigit url time members := by
  have hfield := dataField_eq hdata
  obtain ⟨_,hheld,hshaped⟩ := h.held
  obtain rfl := Option.some.inj (hdata.symm.trans hheld)
  obtain ⟨format,method,⟨given,hformat,hspelt⟩,hmethod,hinert⟩ := h.output
  obtain rfl : given = .str (lit format.name) := by
    refine hspelt.resolve_right ?_
    rintro rfl
    exact hasks.names _ (by simp [variants]) _ hformat
  have hsaid := hmethod.plain (hasks.names _ (by simp [variants]))
  have hurl := h.finalUrl.stripped hasks.finalUrl
  have htype := h.contentType.and hasks.contentType
  have htime := h.retrievedAt.stripped hasks.retrievedAt
  have hcontent := h.content.stripped hasks.content
  obtain ⟨status,hstatus,hrange⟩ := h.httpStatus
  have hsource := h.sourceId
  rw [hfield] at hsource hurl hstatus htype htime hformat hsaid hcontent
  refine ⟨exactFields_iff.mpr ⟨hshaped,?_⟩,hsource,hurl,⟨status,hstatus,hrange⟩,
    htype.mono fun s hs => ⟨hs.2,hs.1⟩,htime,⟨format,method,hformat,hsaid,hinert⟩,hcontent⟩
  simp only [Contracts.WebFetchData.fieldNames,List.forall_mem_cons]
  exact ⟨hsource.present,hurl.present,Option.ne_none_iff_exists'.mpr ⟨_,hstatus⟩,htype.present,
    htime.present,Option.ne_none_iff_exists'.mpr ⟨_,hformat⟩,hsaid.present,hcontent.present,nofun⟩

theorem inspectionTaken_of_asks {status : Contracts.InspectionStatus}
    (hinspection : envelopeField value "inspection" = some (.dict found))
    (hshaped : Shaped inspectionNames (.dict found))
    (hstatus : SaysVariant status.name (inspectionField value "status"))
    (hasks : ControlPlaneAsks url time value) :
    (Stripped Jobs.PolicyId (inspectionField value "policy_id") →
      ∃ policyId, InspectionTaken status (some policyId) found) ∧
    (Unset (inspectionField value "policy_id") → InspectionTaken status none found) := by
  have hfield := inspectionField_eq hinspection
  have hsaid := hstatus.plain (hasks.names _ (by simp [variants]))
  have hpresent := hasks.complete.2
  rw [hfield] at hsaid hpresent ⊢
  have hexact : Jobs.requireExactFields found [lit "status",lit "policy_id"] "inspection" [] =
      .ok () := by
    refine exactFields_iff.mpr ⟨hshaped,?_⟩
    simp only [inspectionNames,List.forall_mem_cons]
    exact ⟨hsaid.present,hpresent,nofun⟩
  constructor
  · rintro ⟨raw,hraw,hvalid⟩
    exact ⟨strip raw,hexact,hsaid,.inr ⟨raw,hraw,rfl,hvalid⟩⟩
  · intro hunset
    exact ⟨hexact,hsaid,.inl ⟨hunset.null hpresent,rfl⟩⟩

theorem errorTaken_of_asks {code : Contracts.ErrorCode}
    {inspected : Contracts.InspectionStatus}
    (herror : envelopeField value "error" = some (.dict members))
    (hshaped : Shaped errorNames (.dict members)) (h : BothAskOfFailure value code inspected)
    (hasks : ControlPlaneAsks url time value) : ErrorTaken code members := by
  have hfield := errorField_eq herror
  have hcode := h.coded.plain (hasks.names _ (by simp [variants]))
  have hmessage := h.message
  rw [hfield] at hcode hmessage
  refine ⟨exactFields_iff.mpr ⟨hshaped,?_⟩,hcode,hmessage⟩
  simp only [errorNames,List.forall_mem_cons]
  exact ⟨hcode.present,hmessage.present,nofun⟩

theorem taken_of_asks (h : BothAsk isDigit value) (hasks : ControlPlaneAsks url time value) :
    ∃ items, value = .dict items ∧ EnvelopeTaken isDigit url time items := by
  obtain ⟨items,hitems,_⟩ :=
    IsStruct.dict ⟨value,rfl,h.shaped⟩ (hasks.objects _ (by simp [structs]))
  obtain rfl := Option.some.inj hitems
  obtain ⟨found,hinspection,hinspected⟩ := h.inspection.dict (hasks.objects _ (by simp [structs]))
  have hexact : Jobs.requireExactFields items Jobs.Envelope.fields "envelope" [] = .ok () :=
    exactFields_iff.mpr ⟨h.shaped,hasks.complete.1⟩
  have htrust := h.trust.plain (hasks.names _ (by simp [variants]))
  have hnull : ∀ name ∈ Envelope.fieldNames, Unset (envelopeField (.dict items) name) →
      envelopeField (.dict items) name = some .none :=
    fun name hname hunset => hunset.null (hasks.complete.1 name hname)
  refine ⟨items,rfl,hexact,h.version,h.tool,h.toolVersion,htrust,?_⟩
  rcases h.outcome with hsuccess | ⟨code,inspected,hfailure⟩
  · obtain ⟨members,hdata,_⟩ := hsuccess.data.held.dict (hasks.objects _ (by simp [structs]))
    obtain ⟨policyId,htaken⟩ := (inspectionTaken_of_asks hinspection hinspected
      hsuccess.inspection hasks).1 hsuccess.policy
    exact .inl ⟨hsuccess.status.plain (hasks.names _ (by simp [variants])),
      ⟨found,policyId,hinspection,htaken⟩,
      ⟨members,hdata,dataTaken_of_asks hdata hsuccess.data hasks⟩,
      hnull _ (by decide) hsuccess.error⟩
  · obtain ⟨members,herror,hmembers⟩ := hfailure.error.dict (hasks.objects _ (by simp [structs]))
    have hstatus := hfailure.status.plain (hasks.names _ (by simp [variants]))
    have hcoded := errorTaken_of_asks herror hmembers hfailure hasks
    have htaken := inspectionTaken_of_asks hinspection hinspected hfailure.inspection hasks
    rcases hfailure.policy with hpolicy | ⟨hunset,hmatch⟩
    · obtain ⟨policyId,htaken⟩ := htaken.1 hpolicy
      exact .inr ⟨code,inspected,some policyId,hstatus,⟨found,hinspection,htaken⟩,
        hfailure.permitted,fun _ => nofun,hnull _ (by decide) hfailure.data,⟨members,herror,hcoded⟩⟩
    · exact .inr ⟨code,inspected,none,hstatus,⟨found,hinspection,htaken.2 hunset⟩,
        hfailure.permitted,fun h => absurd h hmatch,hnull _ (by decide) hfailure.data,
        ⟨members,herror,hcoded⟩⟩

/-- The control plane accepts what both gates ask, with what it asks itself. -/
theorem controlPlane_iff (hshared : SharedParsers parsers urls times url time) :
    (∃ envelope, Jobs.validateEnvelope parsers value = .ok envelope) ↔
      BothAsk parsers.isDigit value ∧ ControlPlaneAsks url time value := by
  rw [controlPlane_accepts_iff hshared]
  constructor
  · rintro ⟨items,rfl,h⟩
    exact ⟨h.bothAsk,h.asks⟩
  · rintro ⟨h,hasks⟩
    exact taken_of_asks h hasks

end
end HearthAI.Stages
