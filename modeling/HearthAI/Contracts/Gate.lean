import HearthAI.Contracts.Envelope
import HearthAI.Contracts.Json

/-! # The envelope gate: what validates is what the constructors build

The validation is stated field by field across the envelope, and the constructors
make envelopes of two shapes. The two agree, and the encoding keeps every envelope.
-/
namespace HearthAI.Contracts

def Status.name : Status → String
  | .ok => "ok"
  | .rejected => "rejected"
  | .error => "error"

def Trust.name : Trust → String
  | .externalUntrusted => "external_untrusted"

def InspectionStatus.name : InspectionStatus → String
  | .noMatch => "no_match"
  | .match => "match"
  | .failed => "failed"
  | .notRun => "not_run"

def ErrorCode.name : ErrorCode → String
  | .contentRejected => "content_rejected"
  | .inspectionFailed => "inspection_failed"
  | .unsafeSource => "unsafe_source"
  | .unsupportedContent => "unsupported_content"
  | .responseLimitExceeded => "response_limit_exceeded"
  | .fetchFailed => "fetch_failed"
  | .deadlineExceeded => "deadline_exceeded"
  | .internalError => "internal_error"

/-- The variants of an `enum` with the names they are encoded by. -/
def named {α : Type} (name : α → String) (variants : List α) : List (String × α) :=
  variants.map (fun a => (name a,a))

def Status.variants : List (String × Status) := named Status.name [.ok,.rejected,.error]
def Trust.variants : List (String × Trust) := named Trust.name [.externalUntrusted]
def InspectionStatus.variants : List (String × InspectionStatus) :=
  named InspectionStatus.name [.noMatch,.match,.failed,.notRun]
def ErrorCode.variants : List (String × ErrorCode) :=
  named ErrorCode.name [.contentRejected,.inspectionFailed,.unsafeSource,.unsupportedContent,
    .responseLimitExceeded,.fetchFailed,.deadlineExceeded,.internalError]

def Inspection.toValue (inspection : Inspection) : Json :=
  .obj [("status",.str inspection.status.name),
    ("policy_id",.ofOption .str inspection.policyId)]

def Inspection.ofValue (v : Json) : Option Inspection := do
  let fields ← v.members ["status","policy_id"]
  let status ← fields.required "status" (Json.asEnum InspectionStatus.variants)
  let policyId ← fields.optional "policy_id" Json.asString
  return ⟨status,policyId⟩

def ToolError.toValue (error : ToolError) : Json :=
  .obj [("code",.str error.code.name),("message",.str error.message)]

def ToolError.ofValue (v : Json) : Option ToolError := do
  let fields ← v.members ["code","message"]
  let code ← fields.required "code" (Json.asEnum ErrorCode.variants)
  let message ← fields.required "message" Json.asString
  return ⟨code,message⟩

namespace Envelope
variable {P : Type} (serde : SerdeJson) (payload : Payload P) (codec : JsonCodec P)

def fieldNames : List String :=
  ["envelope_version","tool","tool_version","status","trust","inspection","data","error"]

def toValue (e : Envelope P) : Json :=
  .obj [("envelope_version",.int e.envelopeVersion),("tool",.str e.tool),
    ("tool_version",.int e.toolVersion),("status",.str e.status.name),("trust",.str e.trust.name),
    ("inspection",e.inspection.toValue),("data",.ofOption codec.serialize e.data),
    ("error",.ofOption ToolError.toValue e.error)]

def ofValue (v : Json) : Option (Envelope P) := do
  let fields ← v.members fieldNames
  let envelopeVersion ← fields.required "envelope_version" (Json.asUnsigned u32Bound)
  let tool ← fields.required "tool" Json.asString
  let toolVersion ← fields.required "tool_version" (Json.asUnsigned u32Bound)
  let status ← fields.required "status" (Json.asEnum Status.variants)
  let trust ← fields.required "trust" (Json.asEnum Trust.variants)
  let inspection ← fields.required "inspection" Inspection.ofValue
  let data ← fields.optional "data" codec.deserialize
  let error ← fields.optional "error" ToolError.ofValue
  return ⟨envelopeVersion,tool,toolVersion,status,trust,inspection,data,error⟩

/-- Parse and validate an envelope of this payload type. -/
def fromJson (value : String) : Except ContractError (Envelope P) := do
  let envelope ← match (serde.parse value).bind (ofValue codec) with
    | some envelope => .ok envelope
    | none => .error ⟨s!"envelope is not valid: {serde.errorText value}"⟩
  envelope.validate payload
  return envelope

def toJson (e : Envelope P) : Except ContractError String := do
  e.validate payload
  return serde.print (e.toValue codec)

/-- What `ok` builds, before it is validated. -/
def success (data : P) (policyId : String) : Envelope P where
  envelopeVersion := Contracts.envelopeVersion
  tool := payload.tool
  toolVersion := payload.toolVersion
  status := .ok
  trust := .externalUntrusted
  inspection := ⟨.noMatch,some policyId⟩
  data := some data
  error := none

/-- What `failure` builds, before it is validated. -/
def refusal (code : ErrorCode) (inspection : Inspection) : Envelope P where
  envelopeVersion := Contracts.envelopeVersion
  tool := payload.tool
  toolVersion := payload.toolVersion
  status := code.status
  trust := .externalUntrusted
  inspection := inspection
  data := none
  error := some (.new code)

/-- One of the server-owned constructors succeeds with this envelope. -/
def Built (e : Envelope P) : Prop :=
  (∃ data policyId, ok payload data policyId = .ok e) ∨
    ∃ code inspection, failure payload code inspection = .ok e

end Envelope

/-- A policy id, when there is one, has the shape, and a match names one. -/
def Inspection.Named (inspection : Inspection) : Prop :=
  match inspection.policyId with
  | some policyId => validPolicyId policyId = true
  | none => inspection.status ≠ .match

section
variable {P : Type} {payload : Payload P}

theorem validatePolicyId_ok {policyId : String} {u : Unit} :
    validatePolicyId policyId = .ok u ↔ validPolicyId policyId = true := by
  unfold validatePolicyId
  split_ifs with h <;> simp [h]

theorem checkPolicy_ok {e : Envelope P} {u : Unit} :
    e.checkPolicy = .ok u ↔ e.inspection.Named := by
  unfold Envelope.checkPolicy Inspection.Named
  cases e.inspection.policyId with
  | some policyId => exact validatePolicyId_ok
  | none =>
    dsimp only
    split_ifs with h <;> simp [h]

theorem ok_eq_ok {data : P} {policyId : String} {e : Envelope P} :
    Envelope.ok payload data policyId = .ok e ↔ payload.validate data = .ok () ∧
      validPolicyId policyId = true ∧ e = Envelope.success payload data policyId := by
  have hvalidate : (Envelope.success payload data policyId).validate payload =
      (do payload.validate data; validatePolicyId policyId) := by
    simp [Envelope.validate,Envelope.success,Envelope.checkOutcome,Envelope.checkPolicy]
  have hok : Envelope.ok payload data policyId = (do
      (Envelope.success payload data policyId).validate payload
      return Envelope.success payload data policyId) := rfl
  rw [hok,hvalidate,bind_eq_ok]
  constructor
  · rintro ⟨_,hvalid,he⟩
    obtain ⟨_,hdata,hpolicy⟩ := bind_eq_ok.mp hvalid
    exact ⟨hdata,validatePolicyId_ok.mp hpolicy,(Except.ok.inj he).symm⟩
  · rintro ⟨hdata,hpolicy,rfl⟩
    exact ⟨(),bind_eq_ok.mpr ⟨(),hdata,validatePolicyId_ok.mpr hpolicy⟩,rfl⟩

theorem failure_eq_ok {code : ErrorCode} {inspection : Inspection} {e : Envelope P} :
    Envelope.failure payload code inspection = .ok e ↔ code.permits inspection.status = true ∧
      inspection.Named ∧ e = Envelope.refusal payload code inspection := by
  have houtcome : (Envelope.refusal payload code inspection).checkOutcome payload =
      if code.permits inspection.status = false then .error
        ⟨s!"inspection status {inspection.status.debug} cannot accompany error code {code.debug}"⟩
      else .ok () := by
    cases code <;> simp [Envelope.refusal,Envelope.checkOutcome,ErrorCode.status,ToolError.new]
  have hfailure : Envelope.failure payload code inspection = (do
      (Envelope.refusal payload code inspection).validate payload
      return Envelope.refusal payload code inspection) := rfl
  have hvalidate : (Envelope.refusal payload code inspection).validate payload = (do
      (Envelope.refusal payload code inspection).checkOutcome payload
      (Envelope.refusal payload code inspection).checkPolicy) := by
    simp [Envelope.validate,Envelope.refusal]
  rw [hfailure,hvalidate,houtcome,bind_eq_ok]
  constructor
  · rintro ⟨_,hvalid,he⟩
    obtain ⟨_,hpermits,hpolicy⟩ := bind_eq_ok.mp hvalid
    split_ifs at hpermits with h
    exact ⟨by simpa using h,checkPolicy_ok.mp hpolicy,(Except.ok.inj he).symm⟩
  · rintro ⟨hpermits,hnamed,rfl⟩
    refine ⟨(),bind_eq_ok.mpr ⟨(),if_neg (by simp [hpermits]),?_⟩,rfl⟩
    exact checkPolicy_ok.mpr hnamed

/-- The control fields that every envelope of the payload type has. -/
theorem validate_eq_ok {e : Envelope P} : e.validate payload = .ok () ↔
    (e.envelopeVersion = envelopeVersion ∧ e.tool = payload.tool ∧
      e.toolVersion = payload.toolVersion) ∧
    e.checkOutcome payload = .ok () ∧ e.checkPolicy = .ok () := by
  unfold Envelope.validate
  split_ifs with hversion htool
  · simp [hversion]
  · refine iff_of_false (by simp) ?_
    rintro ⟨⟨_,ht,hv⟩,_⟩
    exact htool.elim (fun h => h ht) (fun h => h hv)
  · rw [not_or,not_not,not_not] at htool
    rw [bind_eq_ok]
    constructor
    · rintro ⟨_,houtcome,hpolicy⟩
      exact ⟨⟨not_not.mp hversion,htool⟩,houtcome,hpolicy⟩
    · rintro ⟨_,houtcome,hpolicy⟩
      exact ⟨(),houtcome,hpolicy⟩

/-- What the cross-field rules leave: the fields of a success or of a refusal. -/
theorem checkOutcome_eq_ok {e : Envelope P} (h : e.checkOutcome payload = .ok ()) :
    (∃ data policyId, e.status = .ok ∧ e.data = some data ∧ e.error = none ∧
      e.inspection = ⟨.noMatch,some policyId⟩ ∧ payload.validate data = .ok ()) ∨
    ∃ code, e.status = code.status ∧ e.data = none ∧ e.error = some (.new code) ∧
      code.permits e.inspection.status = true := by
  unfold Envelope.checkOutcome at h
  split at h
  · rename_i data hstatus hdata herror
    split_ifs at h with hinspection hpolicy
    obtain ⟨policyId,hpolicyId⟩ := Option.ne_none_iff_exists'.mp (by simpa using hpolicy)
    refine .inl ⟨data,policyId,hstatus,hdata,herror,?_,h⟩
    rw [← hpolicyId,← not_not.mp hinspection]
  · cases h
  · rename_i error hdata herror _
    split_ifs at h with hcode hmessage hpermits
    refine .inr ⟨error.code,?_,hdata,?_,by simpa using hpermits⟩
    · exact (not_not.mp hcode).symm
    · rw [herror,ToolError.new,← not_not.mp hmessage]
  · cases h

theorem validate_iff_built (e : Envelope P) : e.validate payload = .ok () ↔ e.Built payload := by
  constructor
  · intro h
    obtain ⟨⟨hversion,htool,htoolVersion⟩,houtcome,hpolicy⟩ := validate_eq_ok.mp h
    obtain ⟨version,tool,toolVersion,status,trust,inspection,data,error⟩ := e
    dsimp only at hversion htool htoolVersion
    subst hversion htool htoolVersion
    rcases checkOutcome_eq_ok houtcome with ⟨data,policyId,hstatus,hdata,herror,hinspection,hvalid⟩ |
      ⟨code,hstatus,hdata,herror,hpermits⟩
    · dsimp only at hstatus hdata herror hinspection
      subst hstatus hdata herror hinspection
      exact .inl ⟨data,policyId,ok_eq_ok.mpr ⟨hvalid,checkPolicy_ok.mp hpolicy,rfl⟩⟩
    · dsimp only at hstatus hdata herror
      subst hstatus hdata herror
      exact .inr ⟨code,inspection,failure_eq_ok.mpr ⟨hpermits,checkPolicy_ok.mp hpolicy,rfl⟩⟩
  · rintro (⟨data,policyId,h⟩ | ⟨code,inspection,h⟩)
    · exact (Envelope.ok_spec h).1
    · exact (Envelope.failure_spec h).1

theorem asEnum_name {α : Type} {name : α → String} {variants : List α}
    (hnodup : (variants.map name).Nodup) {a : α} (h : a ∈ variants) :
    Json.asEnum (named name variants) (.str (name a)) = some a := by
  show (named name variants).lookup (name a) = some a
  unfold named
  induction variants with
  | nil => cases h
  | cons b variants ih =>
    rw [List.map_cons,List.nodup_cons] at hnodup
    rw [List.map_cons,List.lookup_cons]
    rcases List.mem_cons.mp h with rfl | h
    · simp
    · have hne : name a ≠ name b := fun heq =>
        hnodup.1 (heq ▸ List.mem_map.mpr ⟨a,h,rfl⟩)
      rw [beq_eq_false_iff_ne.mpr hne]
      exact ih hnodup.2 h

theorem status_roundtrip (status : Status) :
    Json.asEnum Status.variants (.str status.name) = some status :=
  asEnum_name (by decide) (by cases status <;> decide)

theorem trust_roundtrip (trust : Trust) :
    Json.asEnum Trust.variants (.str trust.name) = some trust :=
  asEnum_name (by decide) (by cases trust; decide)

theorem inspectionStatus_roundtrip (status : InspectionStatus) :
    Json.asEnum InspectionStatus.variants (.str status.name) = some status :=
  asEnum_name (by decide) (by cases status <;> decide)

theorem errorCode_roundtrip (code : ErrorCode) :
    Json.asEnum ErrorCode.variants (.str code.name) = some code :=
  asEnum_name (by decide) (by cases code <;> decide)

/-- An object with every field once, in the order of the declaration. -/
theorem members_obj {fields : List (String × Json)} (h : (fields.map Prod.fst).Nodup) :
    Json.members (fields.map Prod.fst) (.obj fields) =
      some ⟨fun name => fields.lookup name,false⟩ :=
  if_pos ⟨h,fun _ hp => List.mem_map.mpr ⟨_,hp,rfl⟩⟩

theorem optionString_roundtrip (s : Option String) :
    Json.asOption Json.asString (.ofOption .str s) = some s :=
  Json.asOption_ofOption (fun s => show Json.asString (.str s) = some s from rfl)
    (fun s => show Json.str s ≠ .null from nofun) s

theorem inspection_roundtrip (inspection : Inspection) :
    Inspection.ofValue inspection.toValue = some inspection := by
  have hmembers : inspection.toValue.members ["status","policy_id"] = some ⟨_,false⟩ :=
    members_obj (by simp)
  simp only [Inspection.ofValue,hmembers,Option.bind_eq_bind,Option.bind_some,Members.required,
    Members.optional]
  simp [List.lookup,inspectionStatus_roundtrip,optionString_roundtrip]

theorem toolError_roundtrip (error : ToolError) : ToolError.ofValue error.toValue = some error := by
  have hmembers : error.toValue.members ["code","message"] = some ⟨_,false⟩ :=
    members_obj (by simp)
  simp only [ToolError.ofValue,hmembers,Option.bind_eq_bind,Option.bind_some,Members.required]
  simp [List.lookup,errorCode_roundtrip,Json.asString]

theorem optionError_roundtrip (error : Option ToolError) :
    Json.asOption ToolError.ofValue (.ofOption ToolError.toValue error) = some error :=
  Json.asOption_ofOption toolError_roundtrip (fun _ => nofun) error

/-- The versions of a Rust envelope are 32 bits wide. -/
theorem envelope_ofValue {codec : JsonCodec P} {e : Envelope P}
    (hdata : Json.asOption codec.deserialize (.ofOption codec.serialize e.data) = some e.data)
    (hversion : e.envelopeVersion < u32Bound) (htoolVersion : e.toolVersion < u32Bound) :
    Envelope.ofValue codec (e.toValue codec) = some e := by
  have hmembers : (e.toValue codec).members Envelope.fieldNames = some ⟨_,false⟩ :=
    members_obj (by simp)
  have henvelopeVersion := Json.asUnsigned_of_lt hversion
  have htool := Json.asUnsigned_of_lt htoolVersion
  simp only [Envelope.ofValue,hmembers,Option.bind_eq_bind,Option.bind_some,Members.required,
    Members.optional]
  simp only [List.lookup,String.reduceBEq,beq_self_eq_true,Option.bind_some,henvelopeVersion,htool,
    Json.asString,status_roundtrip,trust_roundtrip,inspection_roundtrip,hdata,
    optionError_roundtrip,Option.pure_def]

theorem envelope_roundtrip {codec : JsonCodec P} (hcodec : codec.Invertible) {e : Envelope P}
    (hversion : e.envelopeVersion < u32Bound) (htoolVersion : e.toolVersion < u32Bound) :
    Envelope.ofValue codec (e.toValue codec) = some e :=
  envelope_ofValue (Json.asOption_ofOption hcodec.inverse hcodec.not_null e.data) hversion
    htoolVersion

end

/-- An envelope validates exactly when a constructor has built it, and comes back from its text. -/
theorem envelope_gate {P : Type} (serde : SerdeJson) (payload : Payload P) (codec : JsonCodec P)
    (hcodec : codec.Invertible) (hversion : payload.toolVersion < u32Bound) (e : Envelope P)
    (hserde : serde.FaithfulOn (e.toValue codec)) :
    (e.validate payload = .ok () ↔ e.Built payload) ∧
      (e.Built payload → ∃ text, e.toJson serde payload codec = .ok text ∧
        Envelope.fromJson serde payload codec text = .ok e) := by
  refine ⟨validate_iff_built e,fun hbuilt => ?_⟩
  have hvalid := (validate_iff_built e).mpr hbuilt
  obtain ⟨⟨henvelope,_,htool⟩,_⟩ := validate_eq_ok.mp hvalid
  refine ⟨serde.print (e.toValue codec),bind_eq_ok.mpr ⟨(),hvalid,rfl⟩,?_⟩
  have hvalue : (serde.parse (serde.print (e.toValue codec))).bind (Envelope.ofValue codec) =
      some e := by
    rw [hserde,Option.bind_some]
    exact envelope_roundtrip hcodec (by rw [henvelope]; decide) (by rw [htool]; exact hversion)
  unfold Envelope.fromJson
  rw [hvalue]
  exact bind_eq_ok.mpr ⟨e,rfl,bind_eq_ok.mpr ⟨(),hvalid,rfl⟩⟩

/-- A second payload type, which carries a note. -/
def demoPayload : Payload String where
  tool := "demo_consumer"
  toolVersion := 1
  validate note := if note.isEmpty then .error ⟨"data.note must not be empty"⟩ else .ok ()

def demoCodec : JsonCodec String where
  serialize note := .obj [("note",.str note)]
  deserialize v := do
    let fields ← v.members ["note"]
    fields.required "note" Json.asString

def demoEnvelope : Envelope String := .success demoPayload "reused" "web-content-v1"

def demoText : String := "\x7b\"envelope_version\":1,\"tool\":\"demo_consumer\"," ++
  "\"tool_version\":1,\"status\":\"ok\",\"trust\":\"external_untrusted\"," ++
  "\"inspection\":\x7b\"status\":\"no_match\",\"policy_id\":\"web-content-v1\"\x7d," ++
  "\"data\":\x7b\"note\":\"reused\"\x7d,\"error\":null\x7d"

/-- The parser and the printer where the text is that of the demo envelope. -/
def demoSerde : SerdeJson where
  parse text := if text = demoText then some (demoEnvelope.toValue demoCodec) else none
  print _ := demoText
  errorText _ := "expected value at line 1 column 1"

theorem demoCodec_invertible : demoCodec.Invertible where
  inverse note := by
    have hmembers : (demoCodec.serialize note).members ["note"] = some ⟨_,false⟩ :=
      members_obj (by simp)
    simp only [demoCodec] at hmembers ⊢
    simp only [hmembers,Option.bind_eq_bind,Option.bind_some,Members.required]
    simp [List.lookup,Json.asString]
  not_null _ := nofun

theorem demoSerde_faithful : demoSerde.FaithfulOn (demoEnvelope.toValue demoCodec) := by
  simp only [SerdeJson.FaithfulOn,demoSerde,if_pos]

theorem envelope_gate_demo : demoEnvelope.Built demoPayload ∧
    ∃ text, demoEnvelope.toJson demoSerde demoPayload demoCodec = .ok text ∧
      Envelope.fromJson demoSerde demoPayload demoCodec text = .ok demoEnvelope := by
  obtain ⟨_,hcodec⟩ := envelope_gate demoSerde demoPayload demoCodec demoCodec_invertible
    (by decide) demoEnvelope demoSerde_faithful
  have hbuilt : demoEnvelope.Built demoPayload :=
    .inl ⟨"reused","web-content-v1",ok_eq_ok.mpr ⟨by decide,by decide,rfl⟩⟩
  exact ⟨hbuilt,hcodec hbuilt⟩

end HearthAI.Contracts
