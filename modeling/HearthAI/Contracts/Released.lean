import HearthAI.Contracts.Request

/-! # The encoding of the `web_fetch:v1` payload -/
namespace HearthAI.Contracts

def ConversionMethod.name : ConversionMethod → String
  | .native => "native"
  | .extracted => "extracted"
  | .basic => "basic"
  | .passthrough => "passthrough"
  | .source => "source"

def ConversionMethod.variants : List (String × ConversionMethod) :=
  named ConversionMethod.name [.native,.extracted,.basic,.passthrough,.source]

namespace WebFetchData

def fieldNames : List String :=
  ["source_id","final_url","http_status","content_type","retrieved_at","format",
    "conversion_method","content"]

def toValue (data : WebFetchData) : Json :=
  .obj [("source_id",.str data.sourceId),("final_url",.str data.finalUrl),
    ("http_status",.int data.httpStatus),("content_type",.str data.contentType),
    ("retrieved_at",.str data.retrievedAt),("format",.str data.format.name),
    ("conversion_method",.str data.conversionMethod.name),("content",.str data.content)]

/-- The derived decoder. -/
def ofValue (v : Json) : Option WebFetchData := do
  let fields ← v.members fieldNames
  let sourceId ← fields.required "source_id" Json.asString
  let finalUrl ← fields.required "final_url" Json.asString
  let httpStatus ← fields.required "http_status" (Json.asUnsigned u16Bound)
  let contentType ← fields.required "content_type" Json.asString
  let retrievedAt ← fields.required "retrieved_at" Json.asString
  let format ← fields.required "format" (Json.asEnum Format.variants)
  let conversionMethod ← fields.required "conversion_method" (Json.asEnum ConversionMethod.variants)
  let content ← fields.required "content" Json.asString
  return ⟨sourceId,finalUrl,httpStatus,contentType,retrievedAt,format,conversionMethod,content⟩

end WebFetchData

def webFetchCodec : JsonCodec WebFetchData := ⟨WebFetchData.toValue,WebFetchData.ofValue⟩

theorem format_roundtrip (format : Format) :
    Json.asEnum Format.variants (.str format.name) = some format := by
  cases format <;> rfl

theorem conversionMethod_roundtrip (method : ConversionMethod) :
    Json.asEnum ConversionMethod.variants (.str method.name) = some method := by
  cases method <;> rfl

/-- A status that fits its type is read back, and all the rest with it. -/
theorem data_roundtrip {data : WebFetchData} (h : data.httpStatus < u16Bound) :
    WebFetchData.ofValue data.toValue = some data := by
  have hmembers : data.toValue.members WebFetchData.fieldNames = some ⟨_,false⟩ := members_obj (by simp)
  simp only [WebFetchData.ofValue,hmembers,Option.bind_eq_bind,Option.bind_some,Members.required]
  simp only [List.lookup_cons,String.reduceBEq,Option.bind_some,Json.asString]
  rw [Json.asUnsigned_of_lt h,Option.bind_some,format_roundtrip,Option.bind_some,
    conversionMethod_roundtrip,Option.bind_some,Option.pure_def]

section
variable {urls : UrlCrate} {times : TimeCrate} {data : WebFetchData} {e : WebFetchEnvelope}

theorem status_of_validate (h : data.validate urls times = .ok ()) :
    100 ≤ data.httpStatus ∧ data.httpStatus ≤ 599 := by
  unfold WebFetchData.validate at h
  obtain ⟨_,_,h⟩ := bind_eq_ok.mp h
  obtain ⟨_,_,h⟩ := bind_eq_ok.mp h
  obtain ⟨_,_,h⟩ := bind_eq_ok.mp h
  obtain ⟨_,_,h⟩ := bind_eq_ok.mp h
  obtain ⟨_,hstatus,_⟩ := bind_eq_ok.mp h
  simpa using refuseIf_eq_ok.mp hstatus

/-- The data of an envelope that validates is read back as it was. -/
theorem releasedData_roundtrip (h : e.validate (webFetchPayload urls times) = .ok ()) :
    Json.asOption webFetchCodec.deserialize (.ofOption webFetchCodec.serialize e.data) =
      some e.data := by
  rcases checkOutcome_eq_ok (validate_eq_ok.mp h).2.1 with
    ⟨data,_,_,hdata,_,_,hvalid⟩ | ⟨_,_,hdata,_⟩
  · have hstatus : data.httpStatus < u16Bound :=
      lt_of_le_of_lt (status_of_validate hvalid).2 (by decide)
    rw [hdata]
    exact congrArg (Option.map some) (data_roundtrip hstatus)
  · rw [hdata]
    rfl

/-- A validated envelope comes back from its text. -/
theorem fromJson_toJson {serde : SerdeJson} (h : e.validate (webFetchPayload urls times) = .ok ())
    (hserde : serde.FaithfulOn (e.toValue webFetchCodec)) :
    Envelope.fromJson serde (webFetchPayload urls times) webFetchCodec
      (serde.print (e.toValue webFetchCodec)) = .ok e := by
  obtain ⟨⟨hversion,_,htoolVersion⟩,_⟩ := validate_eq_ok.mp h
  have hvalue : (serde.parse (serde.print (e.toValue webFetchCodec))).bind
      (Envelope.ofValue webFetchCodec) = some e := by
    rw [hserde,Option.bind_some]
    exact envelope_ofValue (releasedData_roundtrip h) (by rw [hversion]; decide)
      (by rw [htoolVersion]; exact show 1 < u32Bound by decide)
  unfold Envelope.fromJson
  rw [hvalue]
  exact bind_eq_ok.mpr ⟨e,rfl,bind_eq_ok.mpr ⟨(),h,rfl⟩⟩

end
end HearthAI.Contracts
