import HearthAI.Stages.Asked
import HearthAI.Stages.Ingress

/-! # What the Rust gate asks of an envelope

The decoder takes arrays, left-out options and variants in objects, and the validation that
follows it takes every text as it is.
-/
namespace HearthAI.Stages
open Text Python Contracts

/-- The data that the Rust gate finds valid. -/
structure DataValid (url : Str → Option Url) (time : Str → Prop) (data : Contracts.WebFetchData) :
    Prop where
  sourceId : ShortSourceId (lit data.sourceId)
  finalUrl : BoundedUrl url (lit data.finalUrl)
  httpStatus : 100 ≤ data.httpStatus ∧ data.httpStatus ≤ 599
  contentType : MediaText (lit data.contentType)
  retrievedAt : time (lit data.retrievedAt)
  content : (lit data.content).length ≤ Contracts.maxContentChars
  inert : data.format = .html → data.conversionMethod = .source

section
variable {python : Interpreter} {level : ℕ} {readFloat : Str → Option Double}
  {url : Str → Option Url} {time : Str → Prop} {urls : UrlCrate} {times : TimeCrate}
  {parsers : Jobs.Parsers} {names : List String} {value found : Value} {name text : String}
  {isDigit : CodePoint → Bool}

theorem boundedUrl_lit : BoundedUrl url (lit text) ↔ len text ≤ Contracts.maxUrlChars ∧
    ∃ found, url (lit text) = some found ∧ checkDestination found = .ok () := by
  unfold BoundedUrl
  constructor
  · rintro ⟨text',hsame,h⟩
    obtain rfl := lit_injective hsame
    exact h
  · exact fun h => ⟨text,rfl,h⟩

theorem dataValid_iff (hshared : SharedParsers parsers urls times url time)
    {data : Contracts.WebFetchData} :
    data.validate urls times = .ok () ↔ DataValid url time data := by
  have hparse : ∀ found, urls.parse data.finalUrl = .ok found ↔
      url (lit data.finalUrl) = some found := by
    intro found
    rw [← hshared.parse]
    cases urls.parse data.finalUrl <;> simp [Except.toOption]
  have htime : (times.parseRfc3339 data.retrievedAt).isNone = true ↔
      ¬time (lit data.retrievedAt) := by
    rw [← hshared.parseRfc3339,Option.isNone_iff_eq_none,Option.isSome_iff_ne_none,not_not]
  have hcontent : (lit data.content).length = data.content.length := by
    rw [lit,List.length_map,String.length_toList]
  have hmedia :
      (¬(data.contentType.isEmpty || len data.contentType > Contracts.maxContentTypeChars) ∧
        ¬data.contentType.toList.any (fun c => isControl c || !isAscii c)) ↔
          MediaText (lit data.contentType) := by
    rw [← mediaText_iff]
    simp [and_assoc]
  unfold WebFetchData.validate
  simp only [bind_eq_ok,refuseIf_eq_ok,mapError_eq_ok,hparse,htime]
  constructor
  · rintro ⟨_,hsource,_,hlength,target,htarget,_,hcheck,_,hstatus,_,htype,_,hprintable,_,hmoment,_,
      hbounded,hinert⟩
    refine ⟨isSourceId_iff.mp (by simpa using hsource),
      boundedUrl_lit.mpr ⟨by simpa using hlength,target,htarget,hcheck⟩,by simpa using hstatus,
      hmedia.mp ⟨htype,hprintable⟩,not_not.mp hmoment,by rw [hcontent]; simpa using hbounded,
      by simpa using hinert⟩
  · intro h
    obtain ⟨hlength,target,htarget,hcheck⟩ := boundedUrl_lit.mp h.finalUrl
    obtain ⟨htype,hprintable⟩ := hmedia.mpr h.contentType
    have hbounded := h.content
    rw [hcontent] at hbounded
    refine ⟨(),?_,(),by simpa using hlength,target,htarget,(),hcheck,(),by simpa using h.httpStatus,
      (),htype,(),hprintable,(),not_not.mpr h.retrievedAt,(),by simpa using hbounded,
      by simpa using h.inert⟩
    simpa using isSourceId_iff.mpr h.sourceId

/-! ## The envelopes that are accepted -/

/-- The Rust gate accepts the envelope that it reads, if that is valid. -/
theorem envelope_fromJson_iff {serde : SerdeJson} {dumps : Value → String}
    (hloaded : Loaded python level value) (hreads : Reads serde dumps readFloat value) :
    (∃ envelope, Envelope.fromJson serde (webFetchPayload urls times) webFetchCodec
      (dumps value) = .ok envelope) ↔
        ∃ e, EnvelopeRead value e ∧ e.validate (webFetchPayload urls times) = .ok () := by
  have hread : ∀ e, (serde.parse (dumps value)).bind (Envelope.ofValue webFetchCodec) = some e ↔
      EnvelopeRead value e := by
    intro e
    rw [show serde.parse (dumps value) = _ from hreads,Option.bind_eq_some_iff]
    exact readAs_envelope_iff hloaded
  unfold Envelope.fromJson
  cases hvalue : (serde.parse (dumps value)).bind (Envelope.ofValue webFetchCodec) with
  | none =>
    constructor
    · rintro ⟨_,h⟩
      obtain ⟨_,hfound,_⟩ := bind_eq_ok.mp h
      cases hfound
    · rintro ⟨e,he,_⟩
      cases hvalue.symm.trans ((hread e).mpr he)
  | some e =>
    constructor
    · rintro ⟨_,h⟩
      obtain ⟨_,hfound,h⟩ := bind_eq_ok.mp h
      obtain rfl := Except.ok.inj hfound
      obtain ⟨_,hvalid,_⟩ := bind_eq_ok.mp h
      exact ⟨e,(hread e).mp hvalue,hvalid⟩
    · rintro ⟨e',he',hvalid⟩
      obtain rfl := Option.some.inj (hvalue.symm.trans ((hread e').mpr he'))
      exact ⟨e,bind_eq_ok.mpr ⟨e,rfl,bind_eq_ok.mpr ⟨(),hvalid,rfl⟩⟩⟩

/-- An envelope is valid when it is built like a success or like a refusal. -/
theorem valid_iff_built (hshared : SharedParsers parsers urls times url time)
    (e : WebFetchEnvelope) : e.validate (webFetchPayload urls times) = .ok () ↔
      (∃ data policyId, DataValid url time data ∧ Jobs.PolicyId (lit policyId) ∧
        e = .success (webFetchPayload urls times) data policyId) ∨
      ∃ code inspection, code.permits inspection.status = true ∧ inspection.Named ∧
        e = .refusal (webFetchPayload urls times) code inspection := by
  rw [validate_iff_built]
  refine or_congr (exists₂_congr fun data policyId => ?_) (exists₂_congr fun code inspection =>
    failure_eq_ok)
  rw [ok_eq_ok,validPolicyId_iff]
  exact and_congr_left fun _ => dataValid_iff hshared

/-! ## The fields of what is read -/

theorem hasText_iff (hloaded : Loaded python level value) :
    HasText names value name text ↔ memberOf names value name = some (.str (lit text)) := by
  constructor
  · rintro ⟨raw,hfound,hraw⟩
    obtain ⟨_,hmember⟩ := loaded_member hloaded hfound
    cases hmember with
    | str hpaired => rw [hfound,Denotes.eq_of_paired hraw hpaired]
  · exact fun h => ⟨_,h,rfl⟩

theorem HasText.ifText {P : Str → Prop} (hloaded : Loaded python level value)
    (h : HasText names value name text) (hP : P (lit text)) :
    IfText P (memberOf names value name) := by
  rw [(hasText_iff hloaded).mp h]
  intro raw hraw
  rwa [← Value.str.inj (Option.some.inj hraw)]

theorem isList_eq_true : isList value = true ↔ ∃ items, value = .list items := by
  cases value <;> simp [isList]

/-- An optional field is left out or null, and an array leaves none out. -/
theorem leftOut_iff : LeftOut names value name ↔ Unset (memberOf names value name) ∧
    (isList value = true → memberOf names value name ≠ none) := by
  unfold LeftOut Unset
  cases isList value <;> cases memberOf names value name <;> simp

theorem HasVariant.saysVariant (h : HasVariant names value name text)
    (htrimmed : strip (lit text) = lit text) : SaysVariant text (memberOf names value name) := by
  obtain ⟨found,hfound,rfl | rfl⟩ := h
  · exact .inl ⟨_,hfound,htrimmed⟩
  · exact .inr hfound

theorem HasVariant.unpadded (h : HasVariant names value name text)
    (htrimmed : strip (lit text) = lit text) :
    IfText (fun raw => strip raw = raw) (memberOf names value name) := by
  obtain ⟨found,hfound,rfl | rfl⟩ := h
  · intro raw hraw
    obtain rfl := Value.str.inj (Option.some.inj (hfound.symm.trans hraw))
    exact htrimmed
  · intro raw hraw
    cases hfound.symm.trans hraw

theorem HasVariant.present (h : HasVariant names value name text) :
    memberOf names value name ≠ none := by
  obtain ⟨found,hfound,_⟩ := h
  rw [hfound]
  exact nofun

theorem HasText.present (h : HasText names value name text) :
    memberOf names value name ≠ none := by
  obtain ⟨raw,hfound,_⟩ := h
  rw [hfound]
  exact nofun

/-- A name without white space around it is that of a variant. -/
theorem SaysVariant.variant (h : SaysVariant text (memberOf names value name))
    (hunpadded : IfText (fun raw => strip raw = raw) (memberOf names value name)) :
    HasVariant names value name text := by
  rcases h with ⟨raw,hfound,hraw⟩ | hfound
  · rw [hunpadded raw hfound] at hraw
    exact ⟨_,hfound,.inl (congrArg Value.str hraw)⟩
  · exact ⟨_,hfound,.inr rfl⟩

theorem says_hasText (h : Says text (memberOf names value name))
    (hunpadded : IfText (fun raw => strip raw = raw) (memberOf names value name)) :
    HasText names value name text := by
  obtain ⟨raw,hfound,hraw⟩ := h
  rw [hunpadded raw hfound] at hraw
  exact ⟨raw,hfound,congrArg utf16 hraw⟩

theorem strip_message (code : Contracts.ErrorCode) :
    strip (lit code.message) = lit code.message := by
  cases code <;> decide

/-! ## What is read is asked -/

theorem DataRead.bothAsk (hdigits : ∀ c : CodePoint, 48 ≤ c.val → c.val ≤ 57 → isDigit c = true)
    {data : Contracts.WebFetchData} (hloaded : Loaded python level found)
    (hdata : envelopeField value "data" = some found) (h : DataRead found data)
    (hvalid : DataValid url time data) : BothAskOfData isDigit value := by
  have hfield := dataField_eq hdata
  have htext : ∀ {name text}, HasText Contracts.WebFetchData.fieldNames found name text →
      dataField value name = some (.str (lit text)) :=
    fun h => (hfield _).trans ((hasText_iff hloaded).mp h)
  obtain ⟨_,htype,hprintable⟩ := hvalid.contentType
  refine ⟨⟨found,hdata,h.shaped⟩,?_,⟨_,htext h.finalUrl⟩,
    ⟨_,(hfield _).trans h.httpStatus.1,hvalid.httpStatus⟩,?_,⟨_,htext h.retrievedAt⟩,
    ⟨data.format,data.conversionMethod,?_,?_,hvalid.inert⟩,⟨_,htext h.content⟩⟩
  · rw [htext h.sourceId]
    exact hvalid.sourceId.stripped hdigits
  · rw [htext h.contentType]
    exact ⟨_,rfl,(length_strip_le _).trans htype,hprintable.strip⟩
  · rw [hfield]
    exact h.format
  · rw [hfield]
    exact h.method.saysVariant (method_enumerated.strip_name _)

/-- The fields that every envelope of this tool has. -/
theorem EnvelopeRead.bothAsk {envelope : WebFetchEnvelope} (hloaded : Loaded python level value)
    (h : EnvelopeRead value envelope) (hversion : envelope.envelopeVersion = 1)
    (htool : envelope.tool = "web_fetch") (htoolVersion : envelope.toolVersion = 1)
    (houtcome : BothAskOfSuccess isDigit value ∨
      ∃ code inspected, BothAskOfFailure value code inspected) : BothAsk isDigit value := by
  obtain ⟨found,hinspection,hinspected⟩ := h.inspection
  have hname := (hasText_iff hloaded).mp h.tool
  have hnumber := h.version.1
  have hnumber' := h.toolVersion.1
  rw [hversion] at hnumber
  rw [htool] at hname
  rw [htoolVersion] at hnumber'
  exact ⟨h.shaped,hnumber,⟨_,hname,by decide⟩,hnumber',
    h.trust.saysVariant (trust_enumerated.strip_name _),⟨found,hinspection,hinspected.shaped⟩,
    houtcome⟩

/-- The policy of an inspection that is read. -/
theorem InspectionRead.policy {inspection : Contracts.Inspection}
    (hloaded : Loaded python level found) (h : InspectionRead found inspection) :
    Unset (memberOf inspectionNames found "policy_id") ∧ inspection.policyId = none ∨
      ∃ text, inspection.policyId = some text ∧
        memberOf inspectionNames found "policy_id" = some (.str (lit text)) := by
  rcases h.policyId with ⟨hleft,hnone⟩ | ⟨text,hsome,htext⟩
  · exact .inl ⟨(leftOut_iff.mp hleft).1,hnone⟩
  · exact .inr ⟨text,hsome,(hasText_iff hloaded).mp htext⟩

/-- No struct that is an array leaves a field out. -/
theorem EnvelopeRead.complete {envelope : WebFetchEnvelope} (h : EnvelopeRead value envelope) :
    (∀ items, value = .list items → ∀ name ∈ Envelope.fieldNames,
      envelopeField value name ≠ none) ∧
    ∀ items, envelopeField value "inspection" = some (.list items) →
      inspectionField value "policy_id" ≠ none := by
  obtain ⟨found,hinspection,hinspected⟩ := h.inspection
  have hsome : ∀ {name found}, memberOf Envelope.fieldNames value name = some found →
      envelopeField value name ≠ none := fun hfound => Option.ne_none_iff_exists'.mpr ⟨_,hfound⟩
  constructor
  · intro items hvalue name hname
    have hlist := isList_eq_true.mpr ⟨items,hvalue⟩
    simp only [Envelope.fieldNames,List.mem_cons,List.not_mem_nil,or_false] at hname
    rcases hname with rfl | rfl | rfl | rfl | rfl | rfl | rfl | rfl
    · exact hsome h.version.1
    · exact h.tool.present
    · exact hsome h.toolVersion.1
    · exact h.status.present
    · exact h.trust.present
    · exact hsome hinspection
    · rcases h.data with ⟨hleft,_⟩ | ⟨_,_,hfound,_⟩
      · exact (leftOut_iff.mp hleft).2 hlist
      · exact hsome hfound
    · rcases h.error with ⟨hleft,_⟩ | ⟨_,_,hfound,_⟩
      · exact (leftOut_iff.mp hleft).2 hlist
      · exact hsome hfound
  · intro items hitems
    obtain rfl := Option.some.inj (hinspection.symm.trans hitems)
    rw [inspectionField_eq hinspection]
    rcases hinspected.policyId with ⟨hleft,_⟩ | ⟨_,_,htext⟩
    · exact (leftOut_iff.mp hleft).2 rfl
    · exact htext.present

/-- The texts of the server's own have no white space around them. -/
theorem EnvelopeRead.unpadded {envelope : WebFetchEnvelope} (hloaded : Loaded python level value)
    (h : EnvelopeRead value envelope) (htool : envelope.tool = "web_fetch")
    (hpolicy : ∀ policyId ∈ envelope.inspection.policyId, Jobs.PolicyId (lit policyId))
    (hcode : IfText (fun raw => strip raw = raw) (errorField value "code"))
    (hmessage : IfText (fun raw => strip raw = raw) (errorField value "message"))
    (hmethod : IfText (fun raw => strip raw = raw) (dataField value "conversion_method")) :
    ∀ found ∈ fixedTexts value, IfText (fun raw => strip raw = raw) found := by
  obtain ⟨found,hinspection,hinspected⟩ := h.inspection
  obtain ⟨_,hlevel⟩ := loaded_member hloaded hinspection
  have hinspect := inspectionField_eq hinspection
  have hnamed : strip (lit envelope.tool) = lit envelope.tool := by
    rw [htool]
    decide
  simp only [fixedTexts,List.mem_cons,List.not_mem_nil,or_false]
  rintro _ (rfl | rfl | rfl | rfl | rfl | rfl | rfl | rfl)
  · exact h.tool.ifText hloaded hnamed
  · exact h.status.unpadded (status_enumerated.strip_name _)
  · exact h.trust.unpadded (trust_enumerated.strip_name _)
  · rw [hinspect]
    exact hinspected.status.unpadded (inspectionStatus_enumerated.strip_name _)
  · rw [hinspect]
    rcases hinspected.policyId with ⟨hleft,_⟩ | ⟨text,hsome,htext⟩
    · exact ifText_unset (leftOut_iff.mp hleft).1
    · exact htext.ifText hlevel (Jobs.strip_of_isPolicyId (hpolicy text hsome).1)
  · exact hcode
  · exact hmessage
  · exact hmethod

/-- A success that is read and valid is what both gates ask, and what the Rust gate asks. -/
theorem success_asks (hdigits : ∀ c : CodePoint, 48 ≤ c.val → c.val ≤ 57 → isDigit c = true)
    {data : Contracts.WebFetchData} {policyId : String} (hloaded : Loaded python level value)
    (hvalid : DataValid url time data) (hpolicy : Jobs.PolicyId (lit policyId))
    (h : EnvelopeRead value (.success (webFetchPayload urls times) data policyId)) :
    BothAsk isDigit value ∧ RustGateAsks url time value := by
  obtain ⟨found,hinspection,hinspected⟩ := h.inspection
  obtain ⟨_,hlevel⟩ := loaded_member hloaded hinspection
  rcases h.data with ⟨_,hnone⟩ | ⟨given,_,hdata,hsame,hread⟩
  · cases hnone
  obtain rfl := Option.some.inj hsame
  obtain ⟨_,hlevel'⟩ := loaded_member hloaded hdata
  have herror : Unset (envelopeField value "error") := by
    rcases h.error with ⟨hleft,_⟩ | ⟨_,_,_,hsome,_⟩
    · exact (leftOut_iff.mp hleft).1
    · cases hsome
  have hinspect := inspectionField_eq hinspection
  have hfield := dataField_eq hdata
  have hmissing := errorField_unset herror
  constructor
  · refine h.bothAsk hloaded rfl rfl rfl
      (.inl ⟨h.status.saysVariant (status_enumerated.strip_name _),?_,?_,
        hread.bothAsk hdigits hlevel' hdata hvalid,herror⟩) <;> rw [hinspect]
    · exact hinspected.status.saysVariant (inspectionStatus_enumerated.strip_name _)
    · rcases hinspected.policy hlevel with ⟨_,hnone⟩ | ⟨text,hsome,hfound⟩
      · cases hnone
      · rw [hfound,← Option.some.inj hsome]
        exact ⟨_,rfl,by rwa [Jobs.strip_of_isPolicyId hpolicy.1]⟩
  · refine ⟨h.complete,h.unpadded hloaded rfl ?_ (ifText_unset (.inl (hmissing _)))
      (ifText_unset (.inl (hmissing _))) ?_,?_,?_,?_,?_,?_⟩
    · rintro _ ⟨⟩
      exact hpolicy
    all_goals rw [hfield]
    · exact hread.method.unpadded (method_enumerated.strip_name _)
    · exact hread.sourceId.ifText hlevel' hvalid.sourceId
    · exact hread.finalUrl.ifText hlevel' hvalid.finalUrl
    · exact hread.contentType.ifText hlevel' hvalid.contentType
    · exact hread.retrievedAt.ifText hlevel' ⟨encodable_lit _,hvalid.retrievedAt⟩
    · exact hread.content.ifText hlevel' ⟨encodable_lit _,hvalid.content⟩

/-- So is a refusal that is read. -/
theorem refusal_asks {code : Contracts.ErrorCode} {inspection : Contracts.Inspection}
    (hloaded : Loaded python level value) (hpermits : code.permits inspection.status = true)
    (hpolicy : inspection.Named)
    (h : EnvelopeRead value (.refusal (webFetchPayload urls times) code inspection)) :
    BothAsk isDigit value ∧ RustGateAsks url time value := by
  obtain ⟨found,hinspection,hinspected⟩ := h.inspection
  obtain ⟨_,hlevel⟩ := loaded_member hloaded hinspection
  have hdata : Unset (envelopeField value "data") := by
    rcases h.data with ⟨hleft,_⟩ | ⟨_,_,_,hsome,_⟩
    · exact (leftOut_iff.mp hleft).1
    · cases hsome
  rcases h.error with ⟨_,hnone⟩ | ⟨given,_,herror,hsame,hread⟩
  · cases hnone
  obtain rfl := Option.some.inj hsame
  obtain ⟨_,hlevel'⟩ := loaded_member hloaded herror
  have hinspect := inspectionField_eq hinspection
  have hfield := errorField_eq herror
  have hmissing := dataField_unset hdata
  have hnamed : ∀ policyId ∈ inspection.policyId, Jobs.PolicyId (lit policyId) := by
    intro policyId hsome
    unfold Contracts.Inspection.Named at hpolicy
    rw [hsome] at hpolicy
    exact validPolicyId_iff.mp hpolicy
  constructor
  · refine h.bothAsk hloaded rfl rfl rfl (.inr ⟨code,inspection.status,
      h.status.saysVariant (status_enumerated.strip_name _),?_,hpermits,?_,hdata,
      ⟨given,herror,hread.shaped⟩,?_,?_⟩)
    · rw [hinspect]
      exact hinspected.status.saysVariant (inspectionStatus_enumerated.strip_name _)
    · rw [hinspect]
      rcases hinspected.policy hlevel with ⟨hunset,hnone⟩ | ⟨text,hsome,hfound⟩
      · refine .inr ⟨hunset,?_⟩
        unfold Contracts.Inspection.Named at hpolicy
        rwa [show inspection.policyId = none from hnone] at hpolicy
      · have hvalid := hnamed text hsome
        exact .inl ⟨_,hfound,by rwa [Jobs.strip_of_isPolicyId hvalid.1]⟩
    · rw [hfield]
      exact hread.code.saysVariant (errorCode_enumerated.strip_name _)
    · exact ⟨_,(hfield _).trans ((hasText_iff hlevel').mp hread.message),strip_message code⟩
  · refine ⟨h.complete,h.unpadded hloaded rfl hnamed ?_ ?_ (ifText_unset (.inl (hmissing _))),
      ifText_unset (.inl (hmissing _)),ifText_unset (.inl (hmissing _)),
      ifText_unset (.inl (hmissing _)),ifText_unset (.inl (hmissing _)),
      ifText_unset (.inl (hmissing _))⟩ <;> rw [hfield]
    · exact hread.code.unpadded (errorCode_enumerated.strip_name _)
    · exact hread.message.ifText hlevel' (strip_message code)

/-! ## What is asked is read -/

/-- Data that is asked of both gates, and of the Rust gate, is read and valid. -/
theorem BothAskOfData.read (hdata : envelopeField value "data" = some found)
    (h : BothAskOfData isDigit value) (hasks : RustGateAsks url time value) :
    ∃ data, DataRead found data ∧ DataValid url time data := by
  have hfield := dataField_eq hdata
  obtain ⟨_,hheld,hshaped⟩ := h.held
  obtain rfl := Option.some.inj (hdata.symm.trans hheld)
  obtain ⟨source,hsource⟩ := h.sourceId.isText
  obtain ⟨finalUrl,hurl⟩ := h.finalUrl
  obtain ⟨status,hstatus,hrange⟩ := h.httpStatus
  obtain ⟨contentType,htype⟩ := h.contentType.isText
  obtain ⟨retrievedAt,htime⟩ := h.retrievedAt
  obtain ⟨content,hcontent⟩ := h.content
  obtain ⟨format,method,hformat,hmethod,hinert⟩ := h.output
  have hshort := hasks.sourceId source hsource
  have hmedia := hasks.contentType contentType htype
  have hunpadded := hasks.unpadded (dataField value "conversion_method") (by simp [fixedTexts])
  obtain ⟨htimeText,hmoment⟩ := hasks.retrievedAt retrievedAt htime
  obtain ⟨hcontentText,hbounded⟩ := hasks.content content hcontent
  -- none of the texts has a code point that Rust's strings cannot hold
  obtain ⟨finalUrl,rfl,hbytes⟩ := hasks.finalUrl finalUrl hurl
  obtain ⟨source,rfl⟩ := exists_lit_of_ascii hshort.ascii
  obtain ⟨contentType,rfl⟩ := exists_lit_of_ascii fun c hc =>
    (hmedia.2.2 c hc).2.trans (by decide)
  obtain ⟨retrievedAt,rfl⟩ := exists_lit htimeText
  obtain ⟨content,rfl⟩ := exists_lit hcontentText
  rw [hfield] at hsource hurl hstatus htype htime hcontent hmethod hformat hunpadded
  exact ⟨⟨source,finalUrl,status,contentType,retrievedAt,format,method,content⟩,
    ⟨hshaped,⟨_,hsource,rfl⟩,⟨_,hurl,rfl⟩,⟨hstatus,lt_of_le_of_lt hrange.2 (by decide)⟩,
      ⟨_,htype,rfl⟩,⟨_,htime,rfl⟩,hformat,hmethod.variant hunpadded,⟨_,hcontent,rfl⟩⟩,
    ⟨hshort,⟨finalUrl,rfl,hbytes⟩,hrange,hmedia,hmoment,hbounded,hinert⟩⟩

/-- The parts of an envelope that are read in the same way of a success and of a failure. -/
theorem BothAsk.read {envelope : WebFetchEnvelope} (h : BothAsk isDigit value)
    (hasks : RustGateAsks url time value) (hversion : envelope.envelopeVersion = 1)
    (htool : envelope.tool = "web_fetch") (htoolVersion : envelope.toolVersion = 1)
    (hstatus : SaysVariant envelope.status.name (envelopeField value "status"))
    (hinspection : ∃ found, envelopeField value "inspection" = some found ∧
      InspectionRead found envelope.inspection)
    (hdata : Unset (envelopeField value "data") ∧ envelope.data = none ∨
      ∃ found data, envelopeField value "data" = some found ∧ envelope.data = some data ∧
        DataRead found data)
    (herror : Unset (envelopeField value "error") ∧ envelope.error = none ∨
      ∃ found error, envelopeField value "error" = some found ∧ envelope.error = some error ∧
        ErrorRead found error) : EnvelopeRead value envelope := by
  have hleft : ∀ name ∈ Envelope.fieldNames, Unset (envelopeField value name) →
      LeftOut Envelope.fieldNames value name := by
    intro name hname hunset
    refine leftOut_iff.mpr ⟨hunset,fun hlist => ?_⟩
    obtain ⟨items,hitems⟩ := isList_eq_true.mp hlist
    exact hasks.complete.1 items hitems name hname
  have hunpadded : ∀ name ∈ ["tool","status","trust"],
      IfText (fun raw => strip raw = raw) (envelopeField value name) := by
    intro name hname
    refine hasks.unpadded _ ?_
    simp only [List.mem_cons,List.not_mem_nil,or_false] at hname
    rcases hname with rfl | rfl | rfl <;> simp [fixedTexts]
  refine ⟨h.shaped,?_,?_,?_,hstatus.variant (hunpadded _ (by simp)),?_,hinspection,
    hdata.imp_left (And.imp_left (hleft _ (by decide))),
    herror.imp_left (And.imp_left (hleft _ (by decide)))⟩
  · rw [hversion]
    exact ⟨h.version,by decide⟩
  · rw [htool]
    exact says_hasText h.tool (hunpadded _ (by simp))
  · rw [htoolVersion]
    exact ⟨h.toolVersion,by decide⟩
  · cases envelope.trust
    exact h.trust.variant (hunpadded _ (by simp))

/-- An inspection is read with the policy that it names, or with none. -/
theorem RustGateAsks.inspectionRead {status : Contracts.InspectionStatus}
    (hasks : RustGateAsks url time value)
    (hinspection : envelopeField value "inspection" = some found)
    (hshaped : Shaped inspectionNames found)
    (hstatus : SaysVariant status.name (inspectionField value "status")) :
    (Stripped Jobs.PolicyId (inspectionField value "policy_id") →
      ∃ text, Jobs.PolicyId (lit text) ∧ InspectionRead found ⟨status,some text⟩) ∧
    (Unset (inspectionField value "policy_id") → InspectionRead found ⟨status,none⟩) := by
  have hinspect := inspectionField_eq hinspection
  have hunpadded := hasks.unpadded (inspectionField value "status") (by simp [fixedTexts])
  rw [hinspect] at hstatus hunpadded
  constructor
  · rintro ⟨raw,hraw,hvalid⟩
    rw [hasks.unpadded _ (by simp [fixedTexts]) raw hraw] at hvalid
    rw [hinspect] at hraw
    obtain ⟨text,rfl⟩ := exists_lit_of_ascii (ascii_of_policyId hvalid)
    exact ⟨text,hvalid,hshaped,hstatus.variant hunpadded,.inr ⟨text,rfl,_,hraw,rfl⟩⟩
  · intro hunset
    refine ⟨hshaped,hstatus.variant hunpadded,
      .inl ⟨leftOut_iff.mpr ⟨hinspect _ ▸ hunset,fun hlist => ?_⟩,rfl⟩⟩
    obtain ⟨items,rfl⟩ := isList_eq_true.mp hlist
    have hpresent := hasks.complete.2 items hinspection
    rwa [hinspect] at hpresent

/-- A success that is asked is read as a valid success. -/
theorem BothAskOfSuccess.read (hsuccess : BothAskOfSuccess isDigit value)
    (h : BothAsk isDigit value) (hasks : RustGateAsks url time value) :
    ∃ data policyId, DataValid url time data ∧ Jobs.PolicyId (lit policyId) ∧
      EnvelopeRead value (.success (webFetchPayload urls times) data policyId) := by
  obtain ⟨found,hinspection,hshaped⟩ := h.inspection
  obtain ⟨given,hdata,_⟩ := hsuccess.data.held
  obtain ⟨policyId,hpolicy,hinspected⟩ :=
    (hasks.inspectionRead hinspection hshaped hsuccess.inspection).1 hsuccess.policy
  obtain ⟨data,hread,hvalid⟩ := hsuccess.data.read hdata hasks
  exact ⟨data,policyId,hvalid,hpolicy,h.read hasks rfl rfl rfl hsuccess.status
    ⟨found,hinspection,hinspected⟩ (.inr ⟨given,data,hdata,rfl,hread⟩) (.inl ⟨hsuccess.error,rfl⟩)⟩

/-- A failure that is asked is read as a refusal that names its policy where it has to. -/
theorem BothAskOfFailure.read {code : Contracts.ErrorCode} {inspected : Contracts.InspectionStatus}
    (hfailure : BothAskOfFailure value code inspected) (h : BothAsk isDigit value)
    (hasks : RustGateAsks url time value) :
    ∃ inspection : Contracts.Inspection, code.permits inspection.status = true ∧
      inspection.Named ∧
        EnvelopeRead value (.refusal (webFetchPayload urls times) code inspection) := by
  obtain ⟨found,hinspection,hshaped⟩ := h.inspection
  obtain ⟨given,herror,hheld⟩ := hfailure.error
  have hcode := hfailure.coded
  have hmessage := hfailure.message
  have hunpadded := hasks.unpadded (errorField value "code") (by simp [fixedTexts])
  have hunpadded' := hasks.unpadded (errorField value "message") (by simp [fixedTexts])
  rw [errorField_eq herror] at hcode hmessage hunpadded hunpadded'
  have hread : ErrorRead given (.new code) :=
    ⟨hheld,hcode.variant hunpadded,says_hasText hmessage hunpadded'⟩
  have hinspected := hasks.inspectionRead hinspection hshaped hfailure.inspection
  have hrefusal : ∀ policyId, InspectionRead found ⟨inspected,policyId⟩ →
      EnvelopeRead value (.refusal (webFetchPayload urls times) code ⟨inspected,policyId⟩) :=
    fun policyId hpolicy => h.read hasks rfl rfl rfl hfailure.status ⟨found,hinspection,hpolicy⟩
      (.inl ⟨hfailure.data,rfl⟩) (.inr ⟨given,_,herror,rfl,hread⟩)
  rcases hfailure.policy with hpolicy | ⟨hunset,hmatch⟩
  · obtain ⟨text,hvalid,hread⟩ := hinspected.1 hpolicy
    exact ⟨⟨inspected,some text⟩,hfailure.permitted,validPolicyId_iff.mpr hvalid,hrefusal _ hread⟩
  · exact ⟨⟨inspected,none⟩,hfailure.permitted,hmatch,hrefusal _ (hinspected.2 hunset)⟩

/-- The Rust gate accepts the values that are what both gates ask, and what it asks itself. -/
theorem rustGate_iff {serde : SerdeJson} {dumps : Value → String}
    (hdigits : ∀ c : CodePoint, 48 ≤ c.val → c.val ≤ 57 → isDigit c = true)
    (hshared : SharedParsers parsers urls times url time) (hloaded : Loaded python level value)
    (hreads : Reads serde dumps readFloat value) :
    (∃ envelope, Envelope.fromJson serde (webFetchPayload urls times) webFetchCodec
      (dumps value) = .ok envelope) ↔
        BothAsk isDigit value ∧ RustGateAsks url time value := by
  rw [envelope_fromJson_iff hloaded hreads]
  simp only [valid_iff_built hshared]
  constructor
  · rintro ⟨_,hread,⟨data,policyId,hvalid,hpolicy,rfl⟩ | ⟨code,inspection,hpermits,hnamed,rfl⟩⟩
    · exact success_asks hdigits hloaded hvalid hpolicy hread
    · exact refusal_asks hloaded hpermits hnamed hread
  · rintro ⟨h,hasks⟩
    rcases h.outcome with hsuccess | ⟨code,inspected,hfailure⟩
    · obtain ⟨data,policyId,hvalid,hpolicy,hread⟩ := hsuccess.read h hasks
      exact ⟨_,hread,.inl ⟨data,policyId,hvalid,hpolicy,rfl⟩⟩
    · obtain ⟨inspection,hpermits,hnamed,hread⟩ := hfailure.read h hasks
      exact ⟨_,hread,.inr ⟨code,inspection,hpermits,hnamed,rfl⟩⟩

end
end HearthAI.Stages
