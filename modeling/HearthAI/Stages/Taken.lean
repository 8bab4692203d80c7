import HearthAI.Stages.Asked
import HearthAI.Stages.Ingress

/-! # The envelopes that the control plane accepts

Every reader of the control plane strips a text before it looks at it, so all that is known of
a field is a property of the stripped text.
-/
namespace HearthAI.Stages
open Text Python Contracts

/-- What the control plane takes for the data of a success. -/
structure DataTaken (isDigit : CodePoint → Bool) (url : Str → Option Url) (time : Str → Prop)
    (items : Dict Str Value) : Prop where
  exactFields : Jobs.requireExactFields items Jobs.WebFetchData.fields "data" [] = .ok ()
  sourceId : Stripped (SourceId isDigit) (items.get (lit "source_id"))
  finalUrl : Stripped (WebUrl url) (items.get (lit "final_url"))
  httpStatus : IsHttpStatus (items.get (lit "http_status"))
  contentType : Stripped (fun s => s ≠ [] ∧ s.length ≤ Jobs.maxContentTypeChars ∧ PrintableAscii s)
    (items.get (lit "content_type"))
  retrievedAt : Stripped (fun s => s ≠ [] ∧ s.length ≤ 40 ∧ time s)
    (items.get (lit "retrieved_at"))
  output : ∃ (format : Format) (method : Contracts.ConversionMethod),
    items.get (lit "format") = some (.str (lit format.name)) ∧
    Says method.name (items.get (lit "conversion_method")) ∧ (format = .html → method = .source)
  content : Stripped (fun s => s.length ≤ Jobs.maxContentChars) (items.get (lit "content"))

structure InspectionTaken (status : Contracts.InspectionStatus) (policyId : Option Str)
    (items : Dict Str Value) : Prop where
  exactFields :
    Jobs.requireExactFields items [lit "status",lit "policy_id"] "inspection" [] = .ok ()
  status : Says status.name (items.get (lit "status"))
  policyId : items.get (lit "policy_id") = some .none ∧ policyId = none ∨
    ∃ raw, items.get (lit "policy_id") = some (.str raw) ∧ policyId = some (strip raw) ∧
      Jobs.PolicyId (strip raw)

structure ErrorTaken (code : Contracts.ErrorCode) (items : Dict Str Value) : Prop where
  exactFields : Jobs.requireExactFields items [lit "code",lit "message"] "error" [] = .ok ()
  coded : Says code.name (items.get (lit "code"))
  message : Says code.message (items.get (lit "message"))

/-- What the control plane takes for a success. -/
structure SuccessTaken (isDigit : CodePoint → Bool) (url : Str → Option Url) (time : Str → Prop)
    (items : Dict Str Value) : Prop where
  status : Says Contracts.Status.ok.name (items.get (lit "status"))
  inspection : ∃ found policyId, items.get (lit "inspection") = some (.dict found) ∧
    InspectionTaken .noMatch (some policyId) found
  data : ∃ found, items.get (lit "data") = some (.dict found) ∧ DataTaken isDigit url time found
  error : items.get (lit "error") = some .none

structure FailureTaken (items : Dict Str Value) (code : Contracts.ErrorCode)
    (inspected : Contracts.InspectionStatus) (policyId : Option Str) : Prop where
  status : Says code.status.name (items.get (lit "status"))
  inspection : ∃ found, items.get (lit "inspection") = some (.dict found) ∧
    InspectionTaken inspected policyId found
  permitted : code.permits inspected = true
  named : inspected = .match → policyId ≠ none
  data : items.get (lit "data") = some .none
  error : ∃ found, items.get (lit "error") = some (.dict found) ∧ ErrorTaken code found

/-- What the control plane takes for an envelope. -/
structure EnvelopeTaken (isDigit : CodePoint → Bool) (url : Str → Option Url) (time : Str → Prop)
    (items : Dict Str Value) : Prop where
  exactFields : Jobs.requireExactFields items Jobs.Envelope.fields "envelope" [] = .ok ()
  version : items.get (lit "envelope_version") = some (.int 1)
  tool : Says "web_fetch" (items.get (lit "tool"))
  toolVersion : items.get (lit "tool_version") = some (.int 1)
  trust : Says Contracts.Trust.externalUntrusted.name (items.get (lit "trust"))
  outcome : SuccessTaken isDigit url time items ∨
    ∃ code inspected policyId, FailureTaken items code inspected policyId

section
variable {parsers : Jobs.Parsers} {urls : UrlCrate} {times : TimeCrate} {url : Str → Option Url}
  {time : Str → Prop} {items : Dict Str Value} {given : Value} {text : String} {key : Str}

/-! ## The readers of a text -/

/-- A field is read when it is there and its reader accepts it. -/
theorem reads_iff {α : Type} (key : String) {check : Value → Except Jobs.Raised α}
    {P : Option Value → Prop} (hnone : ¬P none)
    (h : ∀ given, (∃ a, check given = .ok a) ↔ P (some given)) (items : Dict Str Value) :
    (∃ a, Jobs.Reads items (lit key) check a) ↔ P (items.get (lit key)) := by
  unfold Jobs.Reads
  cases hget : items.get (lit key) with
  | none => simp [hnone]
  | some given =>
    rw [← h given]
    simp

theorem says_iff {maximum : ℕ} {path : String} (hplain : strip (lit text) = lit text ∧
    lit text ≠ [] ∧ (lit text).length ≤ maximum) :
    Jobs.requireString given path maximum false = .ok (lit text) ↔ Says text (some given) := by
  rw [Jobs.requireString_eq_ok,Says,Stripped]
  constructor
  · rintro ⟨raw,rfl,hs,_⟩
    exact ⟨raw,rfl,hs.symm⟩
  · rintro ⟨raw,hraw,hs⟩
    exact ⟨raw,Option.some.inj hraw,hs.symm,.inl hplain.2.1,hplain.2.2⟩

/-- A member is read of a text that is its name. -/
theorem reads_enum_iff {α : Type} {members : List α} {valueOf : α → Str} {maximum : ℕ} {a : α}
    {path : String} {message : Str} (h : Jobs.Spelled members valueOf maximum)
    (htext : valueOf a = lit text) :
    Jobs.Reads items key (Jobs.requireEnum members valueOf · path maximum message) a ↔
      Says text (items.get key) := by
  have hplain := of_decide_eq_true (List.all_eq_true.mp h.plain a (h.all a))
  rw [htext] at hplain
  unfold Jobs.Reads
  cases hget : items.get key with
  | none => simpa [Says] using stripped_none
  | some given =>
    simp only [Option.some.injEq,exists_eq_left']
    rw [Jobs.requireEnum_eq_ok h.injective h.all,htext]
    exact says_iff hplain

/-- What `urlsplit` must show of the URL of a result. -/
theorem requireResultUrl_iff (hshared : SharedParsers parsers urls times url time)
    (path : String) : (∃ s, Jobs.requireResultUrl parsers.urlsplit given path = .ok s) ↔
      Stripped (WebUrl url) (some given) := by
  refine stringThen_iff fun s => ?_
  simp only [bind_eq_ok,mapError_eq_ok,Jobs.check_eq_ok]
  have hsame := hshared.split s
  cases hurl : url s with
  | none =>
    rw [hurl] at hsame
    refine iff_of_false ?_ (by simp)
    rintro ⟨_,parsed,hparsed,_⟩
    exact hsame parsed hparsed
  | some found =>
    rw [hurl] at hsame
    obtain ⟨parsed,hparsed,hscheme,huser,hpassword,hhost⟩ := hsame
    simp only [hparsed,Except.ok.injEq,exists_eq_left',Option.some.injEq,hscheme,scheme_iff,
      present_eq_false,huser,lit_eq_nil,hhost,present_map_lit,checkDestination_eq_ok,
      dropEmptyPassword]
    rw [← present_eq_false,hpassword,present_password]
    constructor
    · rintro ⟨_,_,⟨hweb,hname,hfilter,hhost⟩,_⟩
      exact ⟨hweb,hfilter,hhost,hname⟩
    · rintro ⟨hweb,hfilter,hhost,hname⟩
      exact ⟨s,(),⟨hweb,hname,hfilter,hhost⟩,rfl⟩

theorem requireHttpStatus_iff :
    (∃ i, Jobs.requireHttpStatus given = .ok i) ↔ IsHttpStatus (some given) := by
  constructor
  · rintro ⟨i,h⟩
    cases given with
    | int i =>
      obtain ⟨_,hrange,_⟩ := bind_eq_ok.mp h
      have hrange := Jobs.check_eq_ok.mp hrange
      exact ⟨i.toNat,by rw [Int.toNat_of_nonneg (by omega)],by omega⟩
    | _ => cases h
  · rintro ⟨status,hstatus,hrange⟩
    rw [Option.some.inj hstatus]
    exact ⟨_,requireHttpStatus_nat hrange⟩

theorem requireTimestamp_iff (hshared : SharedParsers parsers urls times url time)
    (path standard : String) :
    (∃ s, Jobs.requireTimestamp parsers.fromisoformat given path standard = .ok s) ↔
      Stripped (fun s => s ≠ [] ∧ s.length ≤ 40 ∧ time s) (some given) := by
  refine stringThen_iff fun s => ?_
  rw [← hshared.fromisoformat]
  simp only [bind_eq_ok,mapError_eq_ok]
  exact ⟨fun ⟨_,_,h,_⟩ => h,fun h => ⟨s,(),h,rfl⟩⟩

theorem exactFields_iff {names : List String} {path : String} :
    Jobs.requireExactFields items (names.map lit) path [] = .ok () ↔
      Shaped names (.dict items) ∧ ∀ name ∈ names, memberOf names (.dict items) name ≠ none := by
  rw [Jobs.requireExactFields_eq_ok,and_comm]
  refine and_congr (forall₂_congr fun key _ => ?_) ?_
  · simp only [List.mem_map,List.not_mem_nil,or_false]
    exact ⟨fun ⟨name,hname,h⟩ => ⟨name,hname,h.symm⟩,fun ⟨name,hname,h⟩ => ⟨name,hname,h.symm⟩⟩
  · rw [List.forall_mem_map]
    refine forall₂_congr fun name _ => ?_
    rw [ne_eq,memberOf,Dict.get_eq_none,not_not]

/-! ## The structs -/

theorem mirrorMethod_surjective : Function.Surjective mirrorMethod := by
  rintro ⟨⟩
  exacts [⟨.native,rfl⟩,⟨.extracted,rfl⟩,⟨.basic,rfl⟩,⟨.passthrough,rfl⟩,⟨.source,rfl⟩]

theorem inert_iff {format : Format} {method : Contracts.ConversionMethod} :
    ¬(lit format.name = lit "html" ∧ mirrorMethod method ≠ .source) ↔
      (format = .html → method = .source) := by
  rw [lit_injective.eq_iff]
  revert format method
  rintro ⟨⟩ ⟨⟩ <;> decide

theorem reads_format_iff {path : String} {output : Str} :
    Jobs.Reads items key (Jobs.requireFormat · path) output ↔
      ∃ format : Format, items.get key = some (.str (lit format.name)) ∧
        output = lit format.name := by
  unfold Jobs.Reads
  simp only [Jobs.requireFormat_eq_ok,mem_formats]
  constructor
  · rintro ⟨_,hget,rfl,format,rfl⟩
    exact ⟨format,hget,rfl⟩
  · rintro ⟨format,hget,rfl⟩
    exact ⟨_,hget,rfl,format,rfl⟩

theorem dataTaken_iff (hshared : SharedParsers parsers urls times url time) :
    (∃ data, Jobs.WebFetchData.fromDict parsers given = .ok data) ↔
      ∃ items, given = .dict items ∧ DataTaken parsers.isDigit url time items := by
  have hsource := reads_iff "source_id" stripped_none
    fun _ => requireSourceId_iff parsers.isDigit
  have hurl := reads_iff "final_url" stripped_none
    fun _ => requireResultUrl_iff hshared "data.final_url"
  have hstatus := reads_iff "http_status" (P := IsHttpStatus) (by simp [IsHttpStatus])
    fun _ => requireHttpStatus_iff
  have htype := reads_iff "content_type" stripped_none fun _ => requireContentType_iff
  have htime := reads_iff "retrieved_at" stripped_none
    fun _ => requireTimestamp_iff hshared "data.retrieved_at" "RFC 3339"
  have hcontent := reads_iff "content" stripped_none
    fun _ => requireContent_iff "data.content" Jobs.maxContentChars
  constructor
  · rintro ⟨data,h⟩
    obtain ⟨items,rfl,hexact,h⟩ := Jobs.object_eq_ok.mp h
    obtain ⟨_,hs,h⟩ := Jobs.field_eq_ok.mp h
    obtain ⟨_,hu,h⟩ := Jobs.field_eq_ok.mp h
    obtain ⟨_,hn,h⟩ := Jobs.field_eq_ok.mp h
    obtain ⟨_,hc,h⟩ := Jobs.field_eq_ok.mp h
    obtain ⟨_,ht,h⟩ := Jobs.field_eq_ok.mp h
    obtain ⟨_,hf,h⟩ := Jobs.field_eq_ok.mp h
    obtain ⟨kind,hm,h⟩ := Jobs.field_eq_ok.mp h
    obtain ⟨_,hb,h⟩ := Jobs.field_eq_ok.mp h
    obtain ⟨_,hinert,_⟩ := bind_eq_ok.mp h
    obtain ⟨format,hformat,rfl⟩ := reads_format_iff.mp hf
    obtain ⟨method,rfl⟩ := mirrorMethod_surjective kind
    exact ⟨items,rfl,hexact,(hsource items).mp ⟨_,hs⟩,(hurl items).mp ⟨_,hu⟩,
      (hstatus items).mp ⟨_,hn⟩,(htype items).mp ⟨_,hc⟩,(htime items).mp ⟨_,ht⟩,
      ⟨format,method,hformat,
        (reads_enum_iff Jobs.ConversionMethod.spelled (value_mirrorMethod method)).mp hm,
        inert_iff.mp (Jobs.check_eq_ok.mp hinert)⟩,(hcontent items).mp ⟨_,hb⟩⟩
  · rintro ⟨items,rfl,h⟩
    obtain ⟨sourceId,hs⟩ := (hsource items).mpr h.sourceId
    obtain ⟨finalUrl,hu⟩ := (hurl items).mpr h.finalUrl
    obtain ⟨httpStatus,hn⟩ := (hstatus items).mpr h.httpStatus
    obtain ⟨contentType,hc⟩ := (htype items).mpr h.contentType
    obtain ⟨retrievedAt,ht⟩ := (htime items).mpr h.retrievedAt
    obtain ⟨content,hb⟩ := (hcontent items).mpr h.content
    obtain ⟨format,method,hformat,hmethod,hinert⟩ := h.output
    refine ⟨⟨sourceId,finalUrl,httpStatus,contentType,retrievedAt,lit format.name,
      mirrorMethod method,content⟩,Jobs.object_eq_ok.mpr ⟨items,rfl,h.exactFields,?_⟩⟩
    refine Jobs.field_eq_ok.mpr ⟨_,hs,Jobs.field_eq_ok.mpr ⟨_,hu,?_⟩⟩
    refine Jobs.field_eq_ok.mpr ⟨_,hn,Jobs.field_eq_ok.mpr ⟨_,hc,?_⟩⟩
    refine Jobs.field_eq_ok.mpr ⟨_,ht,Jobs.field_eq_ok.mpr ⟨_,
      reads_format_iff.mpr ⟨format,hformat,rfl⟩,?_⟩⟩
    refine Jobs.field_eq_ok.mpr ⟨mirrorMethod method,?_,Jobs.field_eq_ok.mpr ⟨_,hb,?_⟩⟩
    · exact (reads_enum_iff Jobs.ConversionMethod.spelled (value_mirrorMethod method)).mpr hmethod
    · exact bind_eq_ok.mpr ⟨(),Jobs.check_eq_ok.mpr (inert_iff.mpr hinert),rfl⟩

theorem inspectionTaken_iff {status : Contracts.InspectionStatus} {policyId : Option Str} :
    Jobs.Inspection.fromDict given = .ok ⟨mirrorInspectionStatus status,policyId⟩ ↔
      ∃ items, given = .dict items ∧ InspectionTaken status policyId items := by
  constructor
  · intro h
    obtain ⟨items,rfl,hexact,h⟩ := Jobs.object_eq_ok.mp h
    obtain ⟨_,hs,h⟩ := Jobs.field_eq_ok.mp h
    obtain ⟨_,⟨given,hgiven,hp⟩,h⟩ := Jobs.field_eq_ok.mp h
    obtain ⟨rfl,rfl⟩ := Jobs.Inspection.mk.inj (Except.ok.inj h)
    refine ⟨items,rfl,hexact,(reads_enum_iff Jobs.InspectionStatus.spelled
      (value_mirrorInspectionStatus status)).mp hs,?_⟩
    rcases Jobs.Inspection.requirePolicy_eq_ok.mp hp with ⟨rfl,hnone⟩ | ⟨raw,rfl,hsome,hvalid⟩
    · exact .inl ⟨hgiven,hnone⟩
    · exact .inr ⟨raw,hgiven,hsome,hvalid⟩
  · rintro ⟨items,rfl,h⟩
    refine Jobs.object_eq_ok.mpr ⟨items,rfl,h.exactFields,Jobs.field_eq_ok.mpr
      ⟨_,(reads_enum_iff Jobs.InspectionStatus.spelled
        (value_mirrorInspectionStatus status)).mpr h.status,?_⟩⟩
    rcases h.policyId with ⟨hpolicy,rfl⟩ | ⟨raw,hpolicy,rfl,hvalid⟩
    · exact Jobs.field_eq_ok.mpr ⟨none,⟨_,hpolicy,rfl⟩,rfl⟩
    · exact Jobs.field_eq_ok.mpr ⟨some (strip raw),⟨_,hpolicy,
        Jobs.Inspection.requirePolicy_eq_ok.mpr (.inr ⟨raw,rfl,rfl,hvalid⟩)⟩,rfl⟩

theorem errorTaken_iff {code : Contracts.ErrorCode} :
    Jobs.EnvelopeError.fromDict given = .ok (.forCode (mirrorCode code)) ↔
      ∃ items, given = .dict items ∧ ErrorTaken code items := by
  have hmessages := errorMessages_mirrorCode code
  obtain ⟨_,_,_,hnonempty,hlength⟩ :=
    Jobs.requireString_eq_ok.mp (Jobs.requireString_errorMessages (mirrorCode code))
  constructor
  · intro h
    obtain ⟨items,rfl,hexact,h⟩ := Jobs.object_eq_ok.mp h
    obtain ⟨_,hc,h⟩ := Jobs.field_eq_ok.mp h
    obtain ⟨_,⟨given,hgiven,hm⟩,h⟩ := Jobs.field_eq_ok.mp h
    obtain ⟨_,_,h⟩ := bind_eq_ok.mp h
    obtain ⟨rfl,rfl⟩ := Jobs.EnvelopeError.mk.inj (Except.ok.inj h)
    obtain ⟨raw,rfl,hraw,_⟩ := Jobs.requireString_eq_ok.mp hm
    exact ⟨items,rfl,hexact,(reads_enum_iff Jobs.ErrorCode.spelled (value_mirrorCode code)).mp hc,
      raw,hgiven,hraw.symm.trans hmessages⟩
  · rintro ⟨items,rfl,h⟩
    obtain ⟨raw,hgiven,hm⟩ := h.message
    have hmessage : Jobs.Reads items (lit "message")
        (Jobs.requireString · "error.message" 500 false) (Jobs.errorMessages (mirrorCode code)) :=
      ⟨_,hgiven,Jobs.requireString_eq_ok.mpr ⟨raw,rfl,by rw [hm,hmessages],hnonempty,hlength⟩⟩
    exact Jobs.object_eq_ok.mpr ⟨items,rfl,h.exactFields,Jobs.field_eq_ok.mpr
      ⟨_,(reads_enum_iff Jobs.ErrorCode.spelled (value_mirrorCode code)).mpr h.coded,
        Jobs.field_eq_ok.mpr ⟨_,hmessage,bind_eq_ok.mpr ⟨(),Jobs.check_eq_ok.mpr rfl,rfl⟩⟩⟩⟩

/-! ## The envelope -/

theorem validateEnvelope_eq_ok {value : Value} {envelope : Jobs.Envelope} :
    Jobs.validateEnvelope parsers value = .ok envelope ↔ ∃ items, value = .dict items ∧
      Jobs.Envelope.Carries items Jobs.toolKey Jobs.toolVersion envelope ∧
      envelope.runPayload (Jobs.WebFetchData.payload parsers) = .ok () := by
  rw [Jobs.validateEnvelope,Jobs.Envelope.fromDict_payload,bind_eq_ok]
  constructor
  · rintro ⟨_,hread,h⟩
    obtain ⟨_,hpayload,h⟩ := bind_eq_ok.mp h
    obtain rfl := Except.ok.inj h
    obtain ⟨items,hvalue,hcarries⟩ := Jobs.Envelope.fromDict_eq_ok.mp hread
    exact ⟨items,hvalue,hcarries,hpayload⟩
  · rintro ⟨items,hvalue,hcarries,hpayload⟩
    exact ⟨envelope,Jobs.Envelope.fromDict_eq_ok.mpr ⟨items,hvalue,hcarries⟩,
      bind_eq_ok.mpr ⟨(),hpayload,rfl⟩⟩

theorem mirrorStatus_surjective : Function.Surjective mirrorStatus := by
  rintro ⟨⟩
  exacts [⟨.ok,rfl⟩,⟨.rejected,rfl⟩,⟨.error,rfl⟩]

theorem mirrorInspectionStatus_surjective : Function.Surjective mirrorInspectionStatus := by
  rintro ⟨⟩
  exacts [⟨.noMatch,rfl⟩,⟨.match,rfl⟩,⟨.failed,rfl⟩,⟨.notRun,rfl⟩]

theorem mirrorInspectionStatus_injective : Function.Injective mirrorInspectionStatus := by
  rintro ⟨⟩ ⟨⟩ <;> simp [mirrorInspectionStatus]

theorem mirrorCode_surjective : Function.Surjective mirrorCode := by
  rintro ⟨⟩
  exacts [⟨.contentRejected,rfl⟩,⟨.inspectionFailed,rfl⟩,⟨.unsafeSource,rfl⟩,
    ⟨.unsupportedContent,rfl⟩,⟨.responseLimitExceeded,rfl⟩,⟨.fetchFailed,rfl⟩,
    ⟨.deadlineExceeded,rfl⟩,⟨.internalError,rfl⟩]

theorem permitted_iff {code : Contracts.ErrorCode} {status : Contracts.InspectionStatus} :
    mirrorInspectionStatus status ∈ Jobs.permittedInspection (mirrorCode code) ↔
      code.permits status = true := by
  cases code <;> cases status <;> decide

theorem statusFor_eq_iff {code : Contracts.ErrorCode} {status : Contracts.Status} :
    Jobs.statusFor (mirrorCode code) = mirrorStatus status ↔ status = code.status := by
  cases code <;> cases status <;> decide

theorem mirrorStatus_failed {status : Contracts.Status} (h : status ≠ .ok) :
    mirrorStatus status ≠ .ok := by
  cases status with
  | ok => exact absurd rfl h
  | _ => decide

theorem code_status_ne_ok (code : Contracts.ErrorCode) : code.status ≠ .ok := by
  cases code <;> decide

section
variable {envelope : Jobs.Envelope}

/-- The fields of a success that the control plane has taken. -/
theorem successTaken_of_carries (hshared : SharedParsers parsers urls times url time)
    (h : Jobs.Envelope.Carries items Jobs.toolKey Jobs.toolVersion envelope)
    (hpayload : envelope.runPayload (Jobs.WebFetchData.payload parsers) = .ok ())
    (hok : envelope.status = .ok) : SuccessTaken parsers.isDigit url time items := by
  have hs := h.status
  obtain ⟨_,hinspection,hi⟩ := h.inspection
  obtain ⟨given,herror,he⟩ := h.error
  obtain ⟨data,hdata,hplain⟩ := h.payload
  obtain ⟨_,hgiven,hchecked⟩ := bind_eq_ok.mp ((if_pos hok).symm.trans h.checked)
  obtain ⟨_,hclear,hchecked⟩ := bind_eq_ok.mp hchecked
  obtain ⟨_,hpolicy,_⟩ := bind_eq_ok.mp hchecked
  obtain ⟨policyId,hnamed⟩ := Option.ne_none_iff_exists'.mp (Jobs.check_eq_ok.mp hpolicy)
  have hinspected : envelope.inspection = ⟨mirrorInspectionStatus .noMatch,some policyId⟩ :=
    Jobs.Inspection.mk.injEq _ _ _ _ ▸ ⟨Jobs.check_eq_ok.mp hclear,hnamed⟩
  rw [hinspected] at hi
  obtain ⟨found,rfl,htaken⟩ := inspectionTaken_iff.mp hi
  have hnull : given = .none := by
    rcases Jobs.Envelope.requireError_eq_ok.mp he with ⟨hnone,_⟩ | ⟨_,_,hsome⟩
    · exact hnone
    · cases (Jobs.check_eq_ok.mp hgiven).2.symm.trans hsome
  rw [Jobs.Envelope.runPayload,if_pos hok,hplain] at hpayload
  have hread : ∃ payload, Jobs.WebFetchData.fromDict parsers data = .ok payload := by
    cases hfound : Jobs.WebFetchData.fromDict parsers data with
    | ok payload => exact ⟨payload,rfl⟩
    | error e =>
      rw [Jobs.WebFetchData.payload,hfound] at hpayload
      cases hpayload
  obtain ⟨members,rfl,hmembers⟩ := (dataTaken_iff hshared).mp hread
  rw [hok] at hs
  exact ⟨(reads_enum_iff Jobs.Status.spelled (value_mirrorStatus .ok)).mp hs,
    ⟨found,policyId,hinspection,htaken⟩,⟨members,hdata,hmembers⟩,hnull ▸ herror⟩

/-- The fields of a failure that the control plane has taken. -/
theorem failureTaken_of_carries
    (h : Jobs.Envelope.Carries items Jobs.toolKey Jobs.toolVersion envelope)
    (hfailed : envelope.status ≠ .ok) :
    ∃ code inspected policyId, FailureTaken items code inspected policyId := by
  have hs := h.status
  obtain ⟨_,hinspection,hi⟩ := h.inspection
  obtain ⟨given,herror,he⟩ := h.error
  obtain ⟨data,hdata,hplain⟩ := h.payload
  have hchecked : envelope.checkFailure = .ok () := (if_neg hfailed).symm.trans h.checked
  unfold Jobs.Envelope.checkFailure at hchecked
  rcases Jobs.Envelope.requireError_eq_ok.mp he with ⟨_,hnone⟩ | ⟨failed,hfailure,hsome⟩
  · rw [hnone] at hchecked
    cases hchecked
  rw [hsome] at hchecked
  obtain ⟨_,hgiven,hchecked⟩ := bind_eq_ok.mp hchecked
  obtain ⟨_,hmatches,hchecked⟩ := bind_eq_ok.mp hchecked
  obtain ⟨_,hpermitted,hnamed⟩ := bind_eq_ok.mp hchecked
  obtain ⟨code,hcode⟩ := mirrorCode_surjective failed.code
  obtain ⟨status,hstatus⟩ := mirrorStatus_surjective envelope.status
  obtain ⟨inspected,hinspected⟩ := mirrorInspectionStatus_surjective envelope.inspection.status
  have hmatches := Jobs.check_eq_ok.mp hmatches
  have hpermitted := Jobs.check_eq_ok.mp hpermitted
  have hnamed := Jobs.check_eq_ok.mp hnamed
  rw [← hcode,← hstatus,statusFor_eq_iff] at hmatches
  rw [← hcode,← hinspected,permitted_iff] at hpermitted
  rw [← hinspected] at hnamed
  rw [Jobs.EnvelopeError.eq_forCode hfailure,← hcode] at hfailure
  rw [← hstatus,hmatches] at hs
  obtain ⟨found,rfl,htaken⟩ := inspectionTaken_iff.mp
    (show Jobs.Inspection.fromDict _ = .ok ⟨mirrorInspectionStatus inspected,
      envelope.inspection.policyId⟩ by rw [hinspected]; exact hi)
  obtain ⟨members,rfl,hmembers⟩ := errorTaken_iff.mp hfailure
  have hnull : data = .none := by
    have hempty := Jobs.check_eq_ok.mp hgiven
    rw [hplain] at hempty
    cases data with
    | none => rfl
    | _ => cases hempty
  exact ⟨code,inspected,envelope.inspection.policyId,
    (reads_enum_iff Jobs.Status.spelled (value_mirrorStatus code.status)).mp hs,
    ⟨found,hinspection,htaken⟩,hpermitted,fun hmatch hnone => hnamed ⟨congrArg _ hmatch,hnone⟩,
    hnull ▸ hdata,⟨members,herror,hmembers⟩⟩

theorem taken_of_carries (hshared : SharedParsers parsers urls times url time)
    (h : Jobs.Envelope.Carries items Jobs.toolKey Jobs.toolVersion envelope)
    (hpayload : envelope.runPayload (Jobs.WebFetchData.payload parsers) = .ok ()) :
    EnvelopeTaken parsers.isDigit url time items := by
  obtain ⟨_,htool,hnamed⟩ := h.named
  rw [h.expected.1] at hnamed
  have hversion := h.version
  rw [h.current] at hversion
  have htoolVersion := h.numbered
  rw [h.expected.2] at htoolVersion
  have htrust := h.trust
  refine ⟨h.exactFields,hversion,?_,htoolVersion,?_,?_⟩
  · rw [htool]
    exact (says_iff (by decide)).mp hnamed
  · cases hkind : envelope.trust
    rw [hkind] at htrust
    exact (reads_enum_iff Jobs.Trust.spelled rfl).mp htrust
  · by_cases hok : envelope.status = .ok
    · exact .inl (successTaken_of_carries hshared h hpayload hok)
    · exact .inr (failureTaken_of_carries h hok)

end

/-- The fields that the control plane reads in the same way of a success and of a failure. -/
theorem carries_of_taken {status : Contracts.Status} {inspection : Jobs.Inspection}
    {error : Option Jobs.EnvelopeError} {isDigit : CodePoint → Bool}
    (h : EnvelopeTaken isDigit url time items)
    (hstatus : Says status.name (items.get (lit "status")))
    (hinspection : Jobs.Reads items (lit "inspection") Jobs.Inspection.fromDict inspection)
    (herror : Jobs.Reads items (lit "error") Jobs.Envelope.requireError error)
    (hdata : items.get (lit "data") = some given)
    (hchecked : Jobs.Envelope.check ⟨1,Jobs.toolKey,1,mirrorStatus status,.externalUntrusted,
      inspection,.plain given,error⟩ none = .ok ()) :
    Jobs.Envelope.Carries items Jobs.toolKey Jobs.toolVersion ⟨1,Jobs.toolKey,1,mirrorStatus status,
      .externalUntrusted,inspection,.plain given,error⟩ where
  exactFields := h.exactFields
  version := h.version
  current := rfl
  named := by
    obtain ⟨tool,htool,hname⟩ := h.tool
    exact ⟨_,htool,(says_iff (by decide)).mpr ⟨tool,rfl,hname⟩⟩
  numbered := h.toolVersion
  expected := ⟨rfl,rfl⟩
  status := (reads_enum_iff Jobs.Status.spelled (value_mirrorStatus status)).mpr hstatus
  trust := (reads_enum_iff Jobs.Trust.spelled rfl).mpr h.trust
  inspection := hinspection
  error := herror
  payload := ⟨_,hdata,rfl⟩
  checked := hchecked

theorem accepted_of_taken (hshared : SharedParsers parsers urls times url time)
    (h : EnvelopeTaken parsers.isDigit url time items) :
    ∃ envelope, Jobs.validateEnvelope parsers (.dict items) = .ok envelope := by
  rcases h.outcome with hsuccess | ⟨code,inspected,policyId,hfailure⟩
  · obtain ⟨found,policyId,hinspection,hinspected⟩ := hsuccess.inspection
    obtain ⟨members,hdata,htaken⟩ := hsuccess.data
    obtain ⟨payload,hpayload⟩ := (dataTaken_iff hshared).mpr ⟨members,rfl,htaken⟩
    have hread :
        (Jobs.WebFetchData.fromDict parsers (.dict members)).map (fun _ => ()) = .ok () := by
      rw [hpayload]
      rfl
    have hcarries := carries_of_taken h hsuccess.status
      ⟨_,hinspection,inspectionTaken_iff.mpr ⟨found,rfl,hinspected⟩⟩
      ⟨_,hsuccess.error,rfl⟩ hdata rfl
    exact ⟨_,validateEnvelope_eq_ok.mpr ⟨items,rfl,hcarries,hread⟩⟩
  · obtain ⟨found,hinspection,hinspected⟩ := hfailure.inspection
    obtain ⟨members,herror,htaken⟩ := hfailure.error
    have hfailed := mirrorStatus_failed (code_status_ne_ok code)
    have herror : Jobs.Reads items (lit "error") Jobs.Envelope.requireError
        (some (.forCode (mirrorCode code))) := ⟨_,herror,Jobs.Envelope.requireError_eq_ok.mpr
      (.inr ⟨_,errorTaken_iff.mpr ⟨members,rfl,htaken⟩,rfl⟩)⟩
    have hchecked : Jobs.Envelope.check ⟨1,Jobs.toolKey,1,mirrorStatus code.status,
        .externalUntrusted,⟨mirrorInspectionStatus inspected,policyId⟩,.plain .none,
        some (.forCode (mirrorCode code))⟩ none = .ok () := by
      refine (if_neg hfailed).trans (bind_eq_ok.mpr ⟨(),Jobs.check_eq_ok.mpr rfl,?_⟩)
      refine bind_eq_ok.mpr ⟨(),Jobs.check_eq_ok.mpr (statusFor_eq_iff.mpr rfl),?_⟩
      refine bind_eq_ok.mpr ⟨(),Jobs.check_eq_ok.mpr (permitted_iff.mpr hfailure.permitted),?_⟩
      refine Jobs.check_eq_ok.mpr ?_
      rintro ⟨hmatch,hnone⟩
      exact hfailure.named (mirrorInspectionStatus_injective hmatch) hnone
    have hcarries := carries_of_taken h hfailure.status
      ⟨_,hinspection,inspectionTaken_iff.mpr ⟨found,rfl,hinspected⟩⟩ herror hfailure.data hchecked
    exact ⟨_,validateEnvelope_eq_ok.mpr ⟨items,rfl,hcarries,if_neg hfailed⟩⟩

/-- The control plane accepts the values with these fields. -/
theorem controlPlane_accepts_iff (hshared : SharedParsers parsers urls times url time)
    {value : Value} : (∃ envelope, Jobs.validateEnvelope parsers value = .ok envelope) ↔
      ∃ items, value = .dict items ∧ EnvelopeTaken parsers.isDigit url time items := by
  constructor
  · rintro ⟨envelope,h⟩
    obtain ⟨items,hvalue,hcarries,hpayload⟩ := validateEnvelope_eq_ok.mp h
    exact ⟨items,hvalue,taken_of_carries hshared hcarries hpayload⟩
  · rintro ⟨items,rfl,h⟩
    exact accepted_of_taken hshared h

end
end HearthAI.Stages
