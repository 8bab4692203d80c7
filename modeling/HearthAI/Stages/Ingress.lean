import HearthAI.Contracts.Released
import HearthAI.Stages.Texts

/-! # The envelope on its way into the control plane

The inspection stage prints an envelope that its own gate has validated, and the control
plane validates what it reads. The second gate measures some fields in another way, and
these are all the envelopes that it turns away.
-/
namespace HearthAI.Stages
open Text Python Contracts

def mirrorStatus : Contracts.Status → Jobs.Status
  | .ok => .ok
  | .rejected => .rejected
  | .error => .error

def mirrorTrust : Contracts.Trust → Jobs.Trust
  | .externalUntrusted => .externalUntrusted

def mirrorInspectionStatus : Contracts.InspectionStatus → Jobs.InspectionStatus
  | .noMatch => .noMatch
  | .match => .match
  | .failed => .failed
  | .notRun => .notRun

def mirrorCode : Contracts.ErrorCode → Jobs.ErrorCode
  | .contentRejected => .contentRejected
  | .inspectionFailed => .inspectionFailed
  | .unsafeSource => .unsafeSource
  | .unsupportedContent => .unsupportedContent
  | .responseLimitExceeded => .responseLimitExceeded
  | .fetchFailed => .fetchFailed
  | .deadlineExceeded => .deadlineExceeded
  | .internalError => .internalError

def mirrorMethod : Contracts.ConversionMethod → Jobs.ConversionMethod
  | .native => .native
  | .extracted => .extracted
  | .basic => .basic
  | .passthrough => .passthrough
  | .source => .source

/-- The payload with the same fields. -/
def mirrorData (data : Contracts.WebFetchData) : Jobs.WebFetchData where
  sourceId := lit data.sourceId
  finalUrl := lit data.finalUrl
  httpStatus := data.httpStatus
  contentType := lit data.contentType
  retrievedAt := lit data.retrievedAt
  format := lit data.format.name
  conversionMethod := mirrorMethod data.conversionMethod
  content := lit data.content

/-- The envelope with the same fields. -/
def mirror (envelope : WebFetchEnvelope) : Jobs.Envelope where
  envelopeVersion := envelope.envelopeVersion
  tool := lit envelope.tool
  toolVersion := envelope.toolVersion
  status := mirrorStatus envelope.status
  trust := mirrorTrust envelope.trust
  inspection :=
    ⟨mirrorInspectionStatus envelope.inspection.status,envelope.inspection.policyId.map lit⟩
  data := .plain ((envelope.data.map (fun data => (mirrorData data).toDict)).getD .none)
  error := envelope.error.map (fun error => ⟨mirrorCode error.code,lit error.message⟩)

/-- What the control plane asks of a payload, and the Rust gate does not. -/
structure Legible (parsers : Jobs.Parsers) (data : Contracts.WebFetchData) : Prop where
  finalUrl : ∃ url, Jobs.requireResultUrl parsers.urlsplit (.str (lit data.finalUrl))
    "data.final_url" = .ok url
  contentType : strip (lit data.contentType) ≠ []
  retrievedAt : ∃ time, Jobs.requireTimestamp parsers.fromisoformat (.str (lit data.retrievedAt))
    "data.retrieved_at" "RFC 3339" = .ok time

section
variable {float : Double → Value} {value : Value} {parsers : Jobs.Parsers}
  {urls : UrlCrate} {times : TimeCrate}

/-! ## The value of the text -/

theorem value_mirrorStatus (status : Contracts.Status) :
    (mirrorStatus status).value = lit status.name := by
  cases status <;> rfl

theorem value_mirrorInspectionStatus (status : Contracts.InspectionStatus) :
    (mirrorInspectionStatus status).value = lit status.name := by
  cases status <;> rfl

theorem value_mirrorCode (code : Contracts.ErrorCode) : (mirrorCode code).value = lit code.name := by
  cases code <;> rfl

theorem value_mirrorMethod (method : Contracts.ConversionMethod) :
    (mirrorMethod method).value = lit method.name := by
  cases method <;> rfl

theorem ofDocument_ofOption {α : Type} {encode : α → Json} {write : α → Value} {o : Option α}
    (hencode : ∀ a ∈ o, Value.ofDocument float (encode a) = write a) :
    Value.ofDocument float (.ofOption encode o) = (o.map write).getD .none := by
  cases o with
  | none => rfl
  | some a => exact hencode a rfl

theorem ofDocument_data (data : Contracts.WebFetchData) :
    Value.ofDocument float data.toValue = (mirrorData data).toDict := by
  rw [Jobs.WebFetchData.toDict,mirrorData,value_mirrorMethod]
  rfl

theorem ofDocument_inspection (inspection : Contracts.Inspection) :
    Value.ofDocument float inspection.toValue = Jobs.Inspection.toDict
      ⟨mirrorInspectionStatus inspection.status,inspection.policyId.map lit⟩ := by
  obtain ⟨status,policyId⟩ := inspection
  rw [Jobs.Inspection.toDict,value_mirrorInspectionStatus]
  cases policyId <;> rfl

theorem ofDocument_error (error : Contracts.ToolError) :
    Value.ofDocument float error.toValue =
      Jobs.EnvelopeError.toDict ⟨mirrorCode error.code,lit error.message⟩ := by
  rw [Jobs.EnvelopeError.toDict,value_mirrorCode]
  rfl

/-- What is read of the text of an envelope is the mirror image of the envelope. -/
theorem ofDocument_envelope (envelope : WebFetchEnvelope) :
    Value.ofDocument float (envelope.toValue webFetchCodec) = (mirror envelope).toDict := by
  have hdata : Value.ofDocument float (.ofOption webFetchCodec.serialize envelope.data) =
      (envelope.data.map (fun data => (mirrorData data).toDict)).getD .none :=
    ofDocument_ofOption fun data _ => ofDocument_data data
  have herror : Value.ofDocument float (.ofOption Contracts.ToolError.toValue envelope.error) =
      ((mirror envelope).error.map Jobs.EnvelopeError.toDict).getD .none := by
    rw [mirror,Option.map_map]
    exact ofDocument_ofOption fun error _ => ofDocument_error error
  rw [Jobs.Envelope.toDict,← herror,mirror,value_mirrorStatus,← ofDocument_inspection,← hdata]
  rfl

/-! ## The envelope of the value -/

theorem errorMessages_mirrorCode (code : Contracts.ErrorCode) :
    Jobs.errorMessages (mirrorCode code) = lit code.message := by
  cases code <;> rfl

theorem statusFor_mirrorCode (code : Contracts.ErrorCode) :
    Jobs.statusFor (mirrorCode code) = mirrorStatus code.status := by
  cases code <;> rfl

theorem permitted_mirrorCode {code : Contracts.ErrorCode} {status : Contracts.InspectionStatus}
    (h : code.permits status = true) :
    mirrorInspectionStatus status ∈ Jobs.permittedInspection (mirrorCode code) := by
  revert h
  cases code <;> cases status <;> decide

/-- What the Rust gate accepts passes every check of the other gate but that of the payload. -/
theorem mirror_wellformed {envelope : WebFetchEnvelope}
    (h : envelope.validate (webFetchPayload urls times) = .ok ()) : (mirror envelope).Wellformed := by
  obtain ⟨⟨hversion,htool,htoolVersion⟩,houtcome,hpolicy⟩ := validate_eq_ok.mp h
  have hnamed := checkPolicy_ok.mp hpolicy
  refine ⟨?_,?_,?_,?_,?_⟩
  · show (envelope.envelopeVersion : Int) = _
    rw [hversion]
    rfl
  · have hname : (mirror envelope).tool = lit "web_fetch" := congrArg lit htool
    rw [hname]
    decide
  · rintro policyId hmem
    obtain ⟨text,htext,rfl⟩ := Option.map_eq_some_iff.mp hmem
    unfold Contracts.Inspection.Named at hnamed
    rw [htext] at hnamed
    exact validPolicyId_iff.mp hnamed
  · rintro error hmem
    obtain ⟨carried,hcarried,rfl⟩ := Option.map_eq_some_iff.mp hmem
    rcases checkOutcome_eq_ok houtcome with ⟨_,_,_,_,hnone,_⟩ | ⟨code,_,_,herror,_⟩
    · rw [hnone] at hcarried
      cases hcarried
    · obtain rfl := Option.some.inj (herror.symm.trans hcarried)
      exact congrArg (Jobs.EnvelopeError.mk _) (errorMessages_mirrorCode code).symm
  · rcases checkOutcome_eq_ok houtcome with ⟨data,policyId,hstatus,hdata,herror,hinspection,_⟩ |
      ⟨code,hstatus,hdata,herror,hpermits⟩
    · obtain ⟨version,tool,toolVersion,status,trust,inspection,found,error⟩ := envelope
      dsimp only at hstatus hdata herror hinspection
      subst hstatus hdata herror hinspection
      refine bind_eq_ok.mpr ⟨(),Jobs.check_eq_ok.mpr ⟨rfl,rfl⟩,?_⟩
      refine bind_eq_ok.mpr ⟨(),Jobs.check_eq_ok.mpr rfl,?_⟩
      exact bind_eq_ok.mpr ⟨(),Jobs.check_eq_ok.mpr nofun,rfl⟩
    · obtain ⟨version,tool,toolVersion,status,trust,inspection,found,error⟩ := envelope
      dsimp only at hstatus hdata herror hnamed hpermits
      subst hstatus hdata herror
      have hfailed : mirrorStatus code.status ≠ .ok := by cases code <;> decide
      refine (if_neg hfailed).trans ?_
      refine bind_eq_ok.mpr ⟨(),Jobs.check_eq_ok.mpr rfl,?_⟩
      refine bind_eq_ok.mpr ⟨(),Jobs.check_eq_ok.mpr (statusFor_mirrorCode code),?_⟩
      refine bind_eq_ok.mpr ⟨(),Jobs.check_eq_ok.mpr (permitted_mirrorCode hpermits),?_⟩
      refine Jobs.check_eq_ok.mpr ?_
      rintro ⟨hmatch,hnone⟩
      obtain ⟨inspected,policyId⟩ := inspection
      obtain rfl : policyId = none := Option.map_eq_none_iff.mp hnone
      have hmirror : mirrorInspectionStatus inspected = .match := hmatch
      cases inspected with
      | «match» => exact hnamed rfl
      | _ => cases hmirror

/-! ## The payload of the value -/

theorem requireHttpStatus_nat {status : ℕ} (h : 100 ≤ status ∧ status ≤ 599) :
    Jobs.requireHttpStatus (.int status) = .ok (status : Int) :=
  bind_eq_ok.mpr ⟨(),Jobs.check_eq_ok.mpr (by omega),rfl⟩

theorem requireContentType_lit {text : String} (hlength : len text ≤ maxContentTypeChars)
    (hprintable : ∀ c ∈ text.toList, isControl c = false ∧ isAscii c = true) :
    (∃ found, Jobs.requireContentType (.str (lit text)) = .ok found) ↔ strip (lit text) ≠ [] := by
  rw [requireContentType_iff]
  constructor
  · rintro ⟨raw,hraw,hnonempty,_⟩
    obtain rfl := Value.str.inj (Option.some.inj hraw)
    exact hnonempty
  · intro hnonempty
    have hshort := (length_strip_le (lit text)).trans ((length_lit_le text).trans hlength)
    exact ⟨_,rfl,hnonempty,hshort,(printable_lit.mp hprintable).strip⟩

/-- The fields that both gates measure alike. -/
structure Measured (data : Contracts.WebFetchData) : Prop where
  sourceId : isSourceId data.sourceId = true
  httpStatus : 100 ≤ data.httpStatus ∧ data.httpStatus ≤ 599
  contentType : len data.contentType ≤ maxContentTypeChars
  printable : ∀ c ∈ data.contentType.toList, isControl c = false ∧ isAscii c = true
  content : data.content.length ≤ maxContentChars
  inert : data.format = .html → data.conversionMethod = .source

theorem measured {data : Contracts.WebFetchData} (h : data.validate urls times = .ok ()) :
    Measured data := by
  have hstatus := status_of_validate h
  unfold WebFetchData.validate at h
  obtain ⟨_,hsource,h⟩ := bind_eq_ok.mp h
  obtain ⟨_,_,h⟩ := bind_eq_ok.mp h
  obtain ⟨url,_,h⟩ := bind_eq_ok.mp h
  obtain ⟨_,_,h⟩ := bind_eq_ok.mp h
  obtain ⟨_,_,h⟩ := bind_eq_ok.mp h
  obtain ⟨_,htype,h⟩ := bind_eq_ok.mp h
  obtain ⟨_,hprintable,h⟩ := bind_eq_ok.mp h
  obtain ⟨_,_,h⟩ := bind_eq_ok.mp h
  obtain ⟨_,hcontent,hinert⟩ := bind_eq_ok.mp h
  refine ⟨by simpa using refuseIf_eq_ok.mp hsource,hstatus,?_,fun c hc => ?_,
    by simpa using refuseIf_eq_ok.mp hcontent,by simpa using refuseIf_eq_ok.mp hinert⟩
  · have hshort := refuseIf_eq_ok.mp htype
    simp only [Bool.or_eq_true,not_or,decide_eq_true_eq,not_lt] at hshort
    exact hshort.2
  · have hchars := refuseIf_eq_ok.mp hprintable
    simp only [List.any_eq_true,not_exists,not_and,Bool.or_eq_true,not_or] at hchars
    simpa using hchars c hc

theorem data_accepted_iff {data : Contracts.WebFetchData}
    (hdigits : ∀ c : CodePoint, 48 ≤ c.val → c.val ≤ 57 → parsers.isDigit c = true)
    (h : Measured data) :
    (∃ found, Jobs.WebFetchData.fromDict parsers (mirrorData data).toDict = .ok found) ↔
      Legible parsers data := by
  constructor
  · rintro ⟨found,hfound⟩
    obtain ⟨items,hitems,_,hfound⟩ := Jobs.object_eq_ok.mp hfound
    obtain rfl := Value.dict.inj hitems
    obtain ⟨_,_,hfound⟩ := Jobs.field_eq_ok.mp hfound
    obtain ⟨url,⟨_,hgiven,hurl⟩,hfound⟩ := Jobs.field_eq_ok.mp hfound
    obtain rfl := Option.some.inj hgiven
    obtain ⟨_,_,hfound⟩ := Jobs.field_eq_ok.mp hfound
    obtain ⟨contentType,⟨_,hgiven,htype⟩,hfound⟩ := Jobs.field_eq_ok.mp hfound
    obtain rfl := Option.some.inj hgiven
    obtain ⟨retrievedAt,⟨_,hgiven,htime⟩,_⟩ := Jobs.field_eq_ok.mp hfound
    obtain rfl := Option.some.inj hgiven
    exact ⟨⟨url,hurl⟩,(requireContentType_lit h.contentType h.printable).mp ⟨contentType,htype⟩,
      ⟨retrievedAt,htime⟩⟩
  · rintro ⟨⟨url,hurl⟩,htype,⟨time,htime⟩⟩
    obtain ⟨sourceId,hsource⟩ := (requireSourceId_iff parsers.isDigit).mpr
      ((isSourceId_iff.mp h.sourceId).stripped hdigits)
    obtain ⟨contentType,htype⟩ := (requireContentType_lit h.contentType h.printable).mpr htype
    have hformat : Jobs.requireFormat (.str (lit data.format.name)) "data.format" =
        .ok (lit data.format.name) :=
      Jobs.requireFormat_eq_ok.mpr ⟨rfl,mem_formats.mpr ⟨_,rfl⟩⟩
    have hshort : (strip (lit data.content)).length ≤ Jobs.maxContentChars := by
      have hlength := length_strip_le (lit data.content)
      rw [lit,List.length_map,String.length_toList] at hlength
      exact hlength.trans h.content
    obtain ⟨content,hcontent⟩ := (requireContent_iff "data.content" _).mpr ⟨_,rfl,hshort⟩
    refine ⟨⟨sourceId,url,data.httpStatus,contentType,time,lit data.format.name,
      mirrorMethod data.conversionMethod,content⟩,
      Jobs.object_eq_ok.mpr ⟨_,rfl,Jobs.exactFields_of_keys rfl,?_⟩⟩
    refine Jobs.field_eq_ok.mpr ⟨_,⟨_,rfl,hsource⟩,?_⟩
    refine Jobs.field_eq_ok.mpr ⟨_,⟨_,rfl,hurl⟩,?_⟩
    refine Jobs.field_eq_ok.mpr ⟨_,⟨_,rfl,requireHttpStatus_nat h.httpStatus⟩,?_⟩
    refine Jobs.field_eq_ok.mpr ⟨_,⟨_,rfl,htype⟩,?_⟩
    refine Jobs.field_eq_ok.mpr ⟨_,⟨_,rfl,htime⟩,?_⟩
    refine Jobs.field_eq_ok.mpr ⟨_,⟨_,rfl,hformat⟩,?_⟩
    refine Jobs.field_eq_ok.mpr ⟨_,⟨_,rfl,Jobs.ConversionMethod.spelled.requireEnum _ _ _⟩,?_⟩
    refine Jobs.field_eq_ok.mpr ⟨_,⟨_,rfl,hcontent⟩,?_⟩
    refine bind_eq_ok.mpr ⟨(),Jobs.check_eq_ok.mpr ?_,rfl⟩
    rintro ⟨hhtml,hmethod⟩
    have hname : data.format = .html := by
      revert hhtml
      cases data.format <;> decide
    exact hmethod (congrArg mirrorMethod (h.inert hname))

/-- The control plane turns away exactly the envelopes with a payload that it cannot read, and it
writes down the others as they came. -/
theorem ingress_accepts_iff (parsers : Jobs.Parsers)
    (hdigits : ∀ c : CodePoint, 48 ≤ c.val → c.val ≤ 57 → parsers.isDigit c = true)
    {envelope : WebFetchEnvelope} (h : envelope.validate (webFetchPayload urls times) = .ok ())
    (hvalue : value = Value.ofDocument float (envelope.toValue webFetchCodec)) :
    ((∃ carried, Jobs.validateEnvelope parsers value = .ok carried) ↔
      ∀ data ∈ envelope.data, Legible parsers data) ∧
    ∀ carried, Jobs.validateEnvelope parsers value = .ok carried → carried.toDict = value := by
  obtain rfl := hvalue.trans (ofDocument_envelope envelope)
  obtain ⟨again,hagain,hsame⟩ := (mirror_wellformed h).readsBack
  obtain ⟨⟨_,htool,htoolVersion⟩,houtcome,_⟩ := validate_eq_ok.mp h
  have hread : Jobs.Envelope.fromDict (mirror envelope).toDict Jobs.toolKey Jobs.toolVersion none =
      .ok again := by
    rw [show Jobs.toolKey = (mirror envelope).tool from (congrArg lit htool).symm,
      show (Jobs.toolVersion : Int) = (mirror envelope).toolVersion from
        (congrArg Int.ofNat htoolVersion).symm]
    exact hagain
  have hrun : Jobs.validateEnvelope parsers (mirror envelope).toDict =
      (again.runPayload (Jobs.WebFetchData.payload parsers)).map (fun _ => again) := by
    rw [Jobs.validateEnvelope,Jobs.Envelope.fromDict_payload,hread]
    rfl
  have hwritten := Jobs.Envelope.written_of_toDict hsame
  have hstatus : again.status = (mirror envelope).status := by
    show again.written.status = (mirror envelope).written.status
    rw [hwritten]
  have hdata : again.data = (mirror envelope).data := by
    obtain ⟨_,_,hcarries⟩ := Jobs.Envelope.fromDict_eq_ok.mp hread
    obtain ⟨given,_,hplain⟩ := hcarries.payload
    have hsame := congrArg Jobs.Envelope.data hwritten
    rw [Jobs.Envelope.written,hplain] at hsame
    rw [hplain]
    exact hsame
  have haccepts : (∃ carried, Jobs.validateEnvelope parsers (mirror envelope).toDict = .ok carried) ↔
      again.runPayload (Jobs.WebFetchData.payload parsers) = .ok () := by
    rw [hrun]
    cases again.runPayload (Jobs.WebFetchData.payload parsers) <;> simp [Except.map]
  refine ⟨haccepts.trans ?_,fun carried hcarried => ?_⟩
  · rw [Jobs.Envelope.runPayload,hstatus,hdata]
    rcases checkOutcome_eq_ok houtcome with ⟨data,policyId,hok,hdata,_,_,hvalid⟩ |
      ⟨code,hfailed,hdata,_,_⟩
    · have hmirror : (mirror envelope).status = .ok := congrArg mirrorStatus hok
      have hpayload : (mirror envelope).data = .plain (mirrorData data).toDict := by
        rw [mirror,hdata]
        rfl
      rw [if_pos hmirror,hpayload,hdata]
      refine Iff.trans ?_ ((data_accepted_iff hdigits (measured hvalid)).trans ?_)
      · show (Jobs.WebFetchData.fromDict parsers (mirrorData data).toDict).map (fun _ => ()) = .ok () ↔ _
        cases Jobs.WebFetchData.fromDict parsers (mirrorData data).toDict <;> simp [Except.map]
      · simp
    · have hmirror : (mirror envelope).status ≠ .ok := by
        show mirrorStatus envelope.status ≠ .ok
        rw [hfailed]
        cases code <;> decide
      rw [if_neg hmirror,hdata]
      simp
  · rw [hrun] at hcarried
    cases hpayload : again.runPayload (Jobs.WebFetchData.payload parsers) with
    | error e =>
      rw [hpayload] at hcarried
      cases hcarried
    | ok u =>
      rw [hpayload] at hcarried
      obtain rfl := Except.ok.inj hcarried
      exact hsame

end
/-- A clock library that knows one time. -/
def nineTimes : TimeCrate where
  parseRfc3339 text := if text = "2026-01-05T09:00:00Z" then some ⟨1767603600000000000,0⟩ else none
  formatRfc3339 _ := some "2026-01-05T09:00:00Z"

def nineParsers : Jobs.Parsers where
  urlsplit := oneSplit shortText
  fromisoformat s := if s = lit "2026-01-05T09:00:00+00:00" then .ok () else .error .valueError
  isDigit c := decide (48 ≤ c.val ∧ c.val ≤ 57)

/-- A page of the site, as it is released. -/
def pageData (contentType : String) : Contracts.WebFetchData :=
  ⟨"source-1",shortText,200,contentType,"2026-01-05T09:00:00Z",.markdown,.native,"hello"⟩

def pagePayload : Payload Contracts.WebFetchData :=
  webFetchPayload (oneUrl shortText (sitePage "/")) nineTimes

def pageEnvelope (contentType : String) : WebFetchEnvelope :=
  Envelope.success pagePayload (pageData contentType) "core-1"

/-- The page is taken with its media type, and not with a blank. -/
theorem ingress_accepts_page :
    (∃ carried, Jobs.validateEnvelope nineParsers (mirror (pageEnvelope "text/html")).toDict =
      .ok carried) ∧
    ¬∃ carried, Jobs.validateEnvelope nineParsers (mirror (pageEnvelope " ")).toDict = .ok carried := by
  have hdigits : ∀ c : CodePoint, 48 ≤ c.val → c.val ≤ 57 → nineParsers.isDigit c = true :=
    fun c hfirst hlast => decide_eq_true ⟨hfirst,hlast⟩
  have htext : (pageEnvelope "text/html").validate pagePayload = .ok () := by decide
  have hblank : (pageEnvelope " ").validate pagePayload = .ok () := by decide
  have hvalue : ∀ contentType, (mirror (pageEnvelope contentType)).toDict =
      Value.ofDocument (fun _ => .none) ((pageEnvelope contentType).toValue webFetchCodec) :=
    fun contentType => (ofDocument_envelope (pageEnvelope contentType)).symm
  have hlegible : Legible nineParsers (pageData "text/html") :=
    ⟨⟨lit shortText,rfl⟩,by decide,⟨lit "2026-01-05T09:00:00Z",rfl⟩⟩
  constructor
  · refine (ingress_accepts_iff nineParsers hdigits htext (hvalue "text/html")).1.mpr ?_
    rintro _ ⟨⟩
    exact hlegible
  · intro haccepted
    have hblank' := (ingress_accepts_iff nineParsers hdigits hblank (hvalue " ")).1.mp
      haccepted _ rfl
    exact hblank'.contentType (by decide)

end HearthAI.Stages
