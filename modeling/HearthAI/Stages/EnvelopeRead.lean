import HearthAI.Python.Loaded
import HearthAI.Stages.Wire

/-! # The envelope that the Rust side reads from a value of the control plane -/
namespace HearthAI.Stages
open Text Python Contracts

def inspectionNames : List String := ["status","policy_id"]
def errorNames : List String := ["code","message"]

/-- The decoder reads this inspection. -/
structure InspectionRead (value : Value) (inspection : Contracts.Inspection) : Prop where
  shaped : Shaped inspectionNames value
  status : HasVariant inspectionNames value "status" inspection.status.name
  policyId : LeftOut inspectionNames value "policy_id" ∧ inspection.policyId = none ∨
    ∃ text, inspection.policyId = some text ∧ HasText inspectionNames value "policy_id" text

structure ErrorRead (value : Value) (error : Contracts.ToolError) : Prop where
  shaped : Shaped errorNames value
  code : HasVariant errorNames value "code" error.code.name
  message : HasText errorNames value "message" error.message

structure DataRead (value : Value) (data : Contracts.WebFetchData) : Prop where
  shaped : Shaped Contracts.WebFetchData.fieldNames value
  sourceId : HasText Contracts.WebFetchData.fieldNames value "source_id" data.sourceId
  finalUrl : HasText Contracts.WebFetchData.fieldNames value "final_url" data.finalUrl
  httpStatus : memberOf Contracts.WebFetchData.fieldNames value "http_status" =
    some (.int data.httpStatus) ∧ data.httpStatus < u16Bound
  contentType : HasText Contracts.WebFetchData.fieldNames value "content_type" data.contentType
  retrievedAt : HasText Contracts.WebFetchData.fieldNames value "retrieved_at" data.retrievedAt
  format : HasVariant Contracts.WebFetchData.fieldNames value "format" data.format.name
  method : HasVariant Contracts.WebFetchData.fieldNames value "conversion_method"
    data.conversionMethod.name
  content : HasText Contracts.WebFetchData.fieldNames value "content" data.content

/-- The decoder reads this envelope. -/
structure EnvelopeRead (value : Value) (envelope : WebFetchEnvelope) : Prop where
  shaped : Shaped Envelope.fieldNames value
  version : memberOf Envelope.fieldNames value "envelope_version" =
    some (.int envelope.envelopeVersion) ∧ envelope.envelopeVersion < u32Bound
  tool : HasText Envelope.fieldNames value "tool" envelope.tool
  toolVersion : memberOf Envelope.fieldNames value "tool_version" =
    some (.int envelope.toolVersion) ∧ envelope.toolVersion < u32Bound
  status : HasVariant Envelope.fieldNames value "status" envelope.status.name
  trust : HasVariant Envelope.fieldNames value "trust" envelope.trust.name
  inspection : ∃ found, memberOf Envelope.fieldNames value "inspection" = some found ∧
    InspectionRead found envelope.inspection
  data : LeftOut Envelope.fieldNames value "data" ∧ envelope.data = none ∨
    ∃ found data, memberOf Envelope.fieldNames value "data" = some found ∧
      envelope.data = some data ∧ DataRead found data
  error : LeftOut Envelope.fieldNames value "error" ∧ envelope.error = none ∨
    ∃ found error, memberOf Envelope.fieldNames value "error" = some found ∧
      envelope.error = some error ∧ ErrorRead found error

section
variable {readFloat : Str → Option Double} {depth level : ℕ} {names : List String} {value : Value}
  {v : Json} {python : Interpreter}

theorem status_enumerated : Enumerated Contracts.Status.name [.ok,.rejected,.error] :=
  ⟨by rintro ⟨⟩ <;> decide,by decide,by decide⟩

theorem trust_enumerated : Enumerated Contracts.Trust.name [.externalUntrusted] :=
  ⟨by rintro ⟨⟩; decide,by decide,by decide⟩

theorem inspectionStatus_enumerated :
    Enumerated Contracts.InspectionStatus.name [.noMatch,.match,.failed,.notRun] :=
  ⟨by rintro ⟨⟩ <;> decide,by decide,by decide⟩

theorem errorCode_enumerated : Enumerated Contracts.ErrorCode.name [.contentRejected,
    .inspectionFailed,.unsafeSource,.unsupportedContent,.responseLimitExceeded,.fetchFailed,
    .deadlineExceeded,.internalError] :=
  ⟨by rintro ⟨⟩ <;> decide,by decide,by decide⟩

theorem method_enumerated :
    Enumerated Contracts.ConversionMethod.name [.native,.extracted,.basic,.passthrough,.source] :=
  ⟨by rintro ⟨⟩ <;> decide,by decide,by decide⟩

theorem inspection_ofValue_iff {inspection : Contracts.Inspection} :
    Contracts.Inspection.ofValue v = some inspection ↔
      ∃ fields, v.members inspectionNames = some fields ∧
        fields.required "status" (Json.asEnum InspectionStatus.variants) = some inspection.status ∧
        fields.optional "policy_id" Json.asString = some inspection.policyId := by
  unfold Contracts.Inspection.ofValue inspectionNames
  simp only [Option.bind_eq_bind,Option.bind_eq_some_iff,Option.pure_def,Option.some.injEq]
  constructor
  · rintro ⟨fields,hfields,status,hstatus,policyId,hpolicy,rfl⟩
    exact ⟨fields,hfields,hstatus,hpolicy⟩
  · rintro ⟨fields,hfields,hstatus,hpolicy⟩
    exact ⟨fields,hfields,_,hstatus,_,hpolicy,rfl⟩

theorem toolError_ofValue_iff {error : Contracts.ToolError} :
    Contracts.ToolError.ofValue v = some error ↔
      ∃ fields, v.members errorNames = some fields ∧
        fields.required "code" (Json.asEnum ErrorCode.variants) = some error.code ∧
        fields.required "message" Json.asString = some error.message := by
  unfold Contracts.ToolError.ofValue errorNames
  simp only [Option.bind_eq_bind,Option.bind_eq_some_iff,Option.pure_def,Option.some.injEq]
  constructor
  · rintro ⟨fields,hfields,code,hcode,message,hmessage,rfl⟩
    exact ⟨fields,hfields,hcode,hmessage⟩
  · rintro ⟨fields,hfields,hcode,hmessage⟩
    exact ⟨fields,hfields,_,hcode,_,hmessage,rfl⟩

theorem data_ofValue_iff {data : Contracts.WebFetchData} :
    Contracts.WebFetchData.ofValue v = some data ↔
      ∃ fields, v.members Contracts.WebFetchData.fieldNames = some fields ∧
        fields.required "source_id" Json.asString = some data.sourceId ∧
        fields.required "final_url" Json.asString = some data.finalUrl ∧
        fields.required "http_status" (Json.asUnsigned u16Bound) = some data.httpStatus ∧
        fields.required "content_type" Json.asString = some data.contentType ∧
        fields.required "retrieved_at" Json.asString = some data.retrievedAt ∧
        fields.required "format" (Json.asEnum Format.variants) = some data.format ∧
        fields.required "conversion_method" (Json.asEnum ConversionMethod.variants) =
          some data.conversionMethod ∧
        fields.required "content" Json.asString = some data.content := by
  unfold Contracts.WebFetchData.ofValue
  simp only [Option.bind_eq_bind,Option.bind_eq_some_iff,Option.pure_def,Option.some.injEq]
  constructor
  · rintro ⟨fields,hfields,_,h1,_,h2,_,h3,_,h4,_,h5,_,h6,_,h7,_,h8,rfl⟩
    exact ⟨fields,hfields,h1,h2,h3,h4,h5,h6,h7,h8⟩
  · rintro ⟨fields,hfields,h1,h2,h3,h4,h5,h6,h7,h8⟩
    exact ⟨fields,hfields,_,h1,_,h2,_,h3,_,h4,_,h5,_,h6,_,h7,_,h8,rfl⟩

theorem envelope_ofValue_iff {envelope : WebFetchEnvelope} :
    Envelope.ofValue webFetchCodec v = some envelope ↔
      ∃ fields, v.members Envelope.fieldNames = some fields ∧
        fields.required "envelope_version" (Json.asUnsigned u32Bound) =
          some envelope.envelopeVersion ∧
        fields.required "tool" Json.asString = some envelope.tool ∧
        fields.required "tool_version" (Json.asUnsigned u32Bound) = some envelope.toolVersion ∧
        fields.required "status" (Json.asEnum Status.variants) = some envelope.status ∧
        fields.required "trust" (Json.asEnum Trust.variants) = some envelope.trust ∧
        fields.required "inspection" Contracts.Inspection.ofValue = some envelope.inspection ∧
        fields.optional "data" Contracts.WebFetchData.ofValue = some envelope.data ∧
        fields.optional "error" Contracts.ToolError.ofValue = some envelope.error := by
  unfold Envelope.ofValue
  simp only [Option.bind_eq_bind,Option.bind_eq_some_iff,Option.pure_def,Option.some.injEq]
  constructor
  · rintro ⟨fields,hfields,_,h1,_,h2,_,h3,_,h4,_,h5,_,h6,_,h7,_,h8,rfl⟩
    exact ⟨fields,hfields,h1,h2,h3,h4,h5,h6,h7,h8⟩
  · rintro ⟨fields,hfields,h1,h2,h3,h4,h5,h6,h7,h8⟩
    exact ⟨fields,hfields,_,h1,_,h2,_,h3,_,h4,_,h5,_,h6,_,h7,_,h8,rfl⟩

theorem readAs_inspection_iff {inspection : Contracts.Inspection} (hkeys : UniqueKeys value) :
    ReadAs readFloat (depth + 2) Contracts.Inspection.ofValue value inspection ↔
      InspectionRead value inspection := by
  refine (readAs_struct_iff (by decide) hkeys (fun v => inspection_ofValue_iff)
    (fun fields hfinds => and_congr (hfinds.enum_iff (by decide) inspectionStatus_enumerated)
      (hfinds.optionalString_iff (by decide))) ?_).trans ?_
  · rintro ⟨hstatus,hpolicy⟩ name hname found hfound
    simp only [inspectionNames,List.mem_cons,List.not_mem_nil,or_false] at hname
    rcases hname with rfl | rfl
    · exact hstatus.document hfound
    · rcases hpolicy with ⟨hleft,_⟩ | ⟨_,_,htext⟩
      · exact hleft.document hfound
      · exact htext.document hfound
  · exact ⟨fun ⟨hshaped,hstatus,hpolicy⟩ => ⟨hshaped,hstatus,hpolicy⟩,
      fun h => ⟨h.shaped,h.status,h.policyId⟩⟩

theorem readAs_error_iff {error : Contracts.ToolError} (hkeys : UniqueKeys value) :
    ReadAs readFloat (depth + 2) Contracts.ToolError.ofValue value error ↔
      ErrorRead value error := by
  refine (readAs_struct_iff (by decide) hkeys (fun v => toolError_ofValue_iff)
    (fun fields hfinds => and_congr (hfinds.enum_iff (by decide) errorCode_enumerated)
      (hfinds.string_iff (by decide))) ?_).trans ?_
  · rintro ⟨hcode,hmessage⟩ name hname found hfound
    simp only [errorNames,List.mem_cons,List.not_mem_nil,or_false] at hname
    rcases hname with rfl | rfl
    · exact hcode.document hfound
    · exact hmessage.document hfound
  · exact ⟨fun ⟨hshaped,hcode,hmessage⟩ => ⟨hshaped,hcode,hmessage⟩,
      fun h => ⟨h.shaped,h.code,h.message⟩⟩

theorem readAs_data_iff {data : Contracts.WebFetchData} (hkeys : UniqueKeys value) :
    ReadAs readFloat (depth + 2) Contracts.WebFetchData.ofValue value data ↔
      DataRead value data := by
  refine (readAs_struct_iff (by decide) hkeys (fun v => data_ofValue_iff) (fun fields hfinds =>
    and_congr (hfinds.string_iff (by decide)) <| and_congr (hfinds.string_iff (by decide)) <|
    and_congr (hfinds.unsigned_iff (by decide) (by decide)) <|
    and_congr (hfinds.string_iff (by decide)) <| and_congr (hfinds.string_iff (by decide)) <|
    and_congr (hfinds.enum_iff (by decide) format_enumerated) <|
    and_congr (hfinds.enum_iff (by decide) method_enumerated)
      (hfinds.string_iff (by decide))) ?_).trans ?_
  · rintro ⟨hsource,hurl,hstatus,htype,htime,hformat,hmethod,hcontent⟩ name hname found hfound
    simp only [Contracts.WebFetchData.fieldNames,List.mem_cons,List.not_mem_nil,or_false] at hname
    rcases hname with rfl | rfl | rfl | rfl | rfl | rfl | rfl | rfl
    · exact hsource.document hfound
    · exact hurl.document hfound
    · exact document_of_unsigned (by decide) hstatus hfound
    · exact htype.document hfound
    · exact htime.document hfound
    · exact hformat.document hfound
    · exact hmethod.document hfound
    · exact hcontent.document hfound
  · constructor
    · rintro ⟨hshaped,hsource,hurl,hstatus,htype,htime,hformat,hmethod,hcontent⟩
      exact ⟨hshaped,hsource,hurl,hstatus,htype,htime,hformat,hmethod,hcontent⟩
    · exact fun h => ⟨h.shaped,h.sourceId,h.finalUrl,h.httpStatus,h.contentType,h.retrievedAt,
        h.format,h.method,h.content⟩

theorem loaded_member {python : Interpreter} {level : ℕ} (h : Loaded python level value)
    {name : String} {found : Value} (hfound : memberOf names value name = some found) :
    ∃ level, Loaded python level found := by
  cases h with
  | dict hkeys hpaired hitems => exact ⟨_,hitems _ (Dict.mem_of_get hfound)⟩
  | @list level items hitems =>
    have hmem : (name,found) ∈ names.zip items := Dict.mem_of_get hfound
    exact ⟨_,hitems found (List.of_mem_zip hmem).2⟩
  | _ => cases hfound

theorem uniqueKeys_of_loaded (h : Loaded python level value) : UniqueKeys value := by
  rintro items rfl
  cases h with
  | dict hkeys _ _ => exact hkeys

/-- An envelope is read from what `json.loads` makes, field by field. -/
theorem readAs_envelope_iff {envelope : WebFetchEnvelope} (hloaded : Loaded python level value) :
    ReadAs readFloat (depth + 3) (Envelope.ofValue webFetchCodec) value envelope ↔
      EnvelopeRead value envelope := by
  have hkeys : ∀ {name found}, memberOf Envelope.fieldNames value name = some found →
      UniqueKeys found := by
    intro name found hfound
    obtain ⟨_,hlevel⟩ := loaded_member hloaded hfound
    exact uniqueKeys_of_loaded hlevel
  refine (readAs_struct_iff (by decide) (uniqueKeys_of_loaded hloaded)
    (fun v => envelope_ofValue_iff) (fun fields hfinds =>
      and_congr (hfinds.unsigned_iff (by decide) (by decide)) <|
      and_congr (hfinds.string_iff (by decide)) <|
      and_congr (hfinds.unsigned_iff (by decide) (by decide)) <|
      and_congr (hfinds.enum_iff (by decide) status_enumerated) <|
      and_congr (hfinds.enum_iff (by decide) trust_enumerated) <|
      and_congr (hfinds.required_iff (by decide) fun found hfound =>
        readAs_inspection_iff (hkeys hfound)) <|
      and_congr (hfinds.optional_iff (by decide)
        (fun found data hfound => readAs_data_iff (hkeys hfound)) fun _ h => h.shaped)
        (hfinds.optional_iff (by decide)
          (fun found error hfound => readAs_error_iff (hkeys hfound)) fun _ h => h.shaped))
    ?_).trans ?_
  · rintro ⟨hversion,htool,htoolVersion,hstatus,htrust,⟨given,hgiven,hread⟩,hdata,herror⟩
      name hname found hfound
    simp only [Envelope.fieldNames,List.mem_cons,List.not_mem_nil,or_false] at hname
    rcases hname with rfl | rfl | rfl | rfl | rfl | rfl | rfl | rfl
    · exact document_of_unsigned (by decide) hversion hfound
    · exact htool.document hfound
    · exact document_of_unsigned (by decide) htoolVersion hfound
    · exact hstatus.document hfound
    · exact htrust.document hfound
    · obtain rfl := Option.some.inj (hgiven.symm.trans hfound)
      obtain ⟨w,hw,_⟩ := (readAs_inspection_iff (hkeys hfound)).mpr hread
      exact ⟨w,hw⟩
    · rcases hdata with ⟨hleft,_⟩ | ⟨given,_,hgiven,_,hread⟩
      · exact hleft.document hfound
      · obtain rfl := Option.some.inj (hgiven.symm.trans hfound)
        obtain ⟨w,hw,_⟩ := (readAs_data_iff (hkeys hfound)).mpr hread
        exact ⟨w,hw⟩
    · rcases herror with ⟨hleft,_⟩ | ⟨given,_,hgiven,_,hread⟩
      · exact hleft.document hfound
      · obtain rfl := Option.some.inj (hgiven.symm.trans hfound)
        obtain ⟨w,hw,_⟩ := (readAs_error_iff (hkeys hfound)).mpr hread
        exact ⟨w,hw⟩
  · constructor
    · rintro ⟨hshaped,hversion,htool,htoolVersion,hstatus,htrust,hinspection,hdata,herror⟩
      exact ⟨hshaped,hversion,htool,htoolVersion,hstatus,htrust,hinspection,hdata,herror⟩
    · exact fun h => ⟨h.shaped,h.version,h.tool,h.toolVersion,h.status,h.trust,h.inspection,h.data,
        h.error⟩

end
end HearthAI.Stages
