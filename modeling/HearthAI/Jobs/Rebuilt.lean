import HearthAI.Jobs.Normal

/-! # Which envelopes the gate takes back -/
namespace HearthAI.Jobs
open Python

/-- The envelope is accepted from what is written of it, and then written the same. -/
def Envelope.ReadsBack (envelope : Envelope) : Prop :=
  ∃ again, fromDict envelope.toDict envelope.tool envelope.toolVersion none = .ok again ∧
    again.toDict = envelope.toDict

/-- A policy identifier that the gate accepts. -/
def PolicyId (policyId : Str) : Prop := isPolicyId policyId = true ∧ policyId.length ≤ 64

theorem strip_of_isPolicyId {s : Str} (h : isPolicyId s = true) : strip s = s := by
  refine Text.trimMatches_of_forall fun c hc => ?_
  have hletters : lit "-_." = [45,95,46] := by decide
  rw [isPolicyId,Bool.and_eq_true,List.all_eq_true,hletters] at h
  have hsafe := h.2 c hc
  simp only [Bool.or_eq_true,Bool.and_eq_true,decide_eq_true_eq,List.contains_cons,
    List.contains_nil,Bool.or_false,beq_iff_eq] at hsafe
  rcases hsafe with (hletter | hdigit) | rfl | rfl | rfl
  · simp only [isSpace,Bool.or_eq_false_iff,Bool.and_eq_false_iff,decide_eq_false_iff_not,
      beq_eq_false_iff_ne]
    omega
  · simp only [isSpace,Bool.or_eq_false_iff,Bool.and_eq_false_iff,decide_eq_false_iff_not,
      beq_eq_false_iff_ne]
    omega
  · decide
  · decide
  · decide

theorem Inspection.requirePolicy_eq_ok {value : Value} {policyId : Option Str} :
    requirePolicy value = .ok policyId ↔ value = .none ∧ policyId = none ∨
      ∃ raw, value = .str raw ∧ policyId = some (strip raw) ∧ PolicyId (strip raw) := by
  cases value with
  | none => simp [requirePolicy,eq_comm]
  | str raw =>
    simp only [requirePolicy]
    rw [bind_eq_ok]
    constructor
    · rintro ⟨s,hs,h⟩
      obtain ⟨_,hraw,rfl,_,hlength⟩ := requireString_eq_ok.mp hs
      obtain rfl := Value.str.inj hraw
      obtain ⟨_,hpolicy,h⟩ := bind_eq_ok.mp h
      exact .inr ⟨raw,rfl,(Except.ok.inj h).symm,check_eq_ok.mp hpolicy,hlength⟩
    · rintro (⟨hnone,_⟩ | ⟨raw',hraw,rfl,hpolicy,hlength⟩)
      · cases hnone
      · obtain rfl := Value.str.inj hraw
        have hnonempty : strip raw ≠ [] := by
          intro hempty
          rw [hempty] at hpolicy
          cases hpolicy
        exact ⟨_,requireString_eq_ok.mpr ⟨raw,rfl,rfl,.inl hnonempty,hlength⟩,
          bind_eq_ok.mpr ⟨(),check_eq_ok.mpr hpolicy,rfl⟩⟩
  | _ => simp [requirePolicy,requireString,Bind.bind,Except.bind]

theorem InspectionStatus.spelled : Spelled members value 32 :=
  ⟨by rintro ⟨⟩ <;> decide,by decide,by decide⟩

theorem Status.spelled : Spelled members value 32 := ⟨by rintro ⟨⟩ <;> decide,by decide,by decide⟩
theorem Trust.spelled : Spelled members value 32 := ⟨by rintro ⟨⟩; decide,by decide,by decide⟩

theorem ErrorCode.spelled : Spelled members value 64 :=
  ⟨by rintro ⟨⟩ <;> decide,by decide,by decide⟩

/-- Every fixed message is one that the gate reads as it is. -/
theorem requireString_errorMessages (code : ErrorCode) :
    requireString (.str (errorMessages code)) "error.message" 500 false =
      .ok (errorMessages code) := by
  cases code <;> rfl

theorem Inspection.fromDict_toDict {inspection : Inspection}
    (h : ∀ policyId ∈ inspection.policyId, PolicyId policyId) :
    fromDict inspection.toDict = .ok inspection := by
  refine object_eq_ok.mpr ⟨_,rfl,exactFields_of_keys rfl,?_⟩
  refine field_eq_ok.mpr ⟨_,⟨_,rfl,InspectionStatus.spelled.requireEnum _ _ _⟩,?_⟩
  refine field_eq_ok.mpr ⟨inspection.policyId,⟨_,rfl,requirePolicy_eq_ok.mpr ?_⟩,rfl⟩
  cases hpolicy : inspection.policyId with
  | none => exact .inl ⟨rfl,rfl⟩
  | some policyId =>
    have hvalid := h policyId hpolicy
    have hstrip := strip_of_isPolicyId hvalid.1
    exact .inr ⟨policyId,rfl,by rw [hstrip],by rwa [hstrip]⟩

/-- A parsed inspection names a policy that the gate accepts. -/
theorem Inspection.policy_of_fromDict {value : Value} {inspection : Inspection}
    (h : fromDict value = .ok inspection) : ∀ policyId ∈ inspection.policyId, PolicyId policyId := by
  obtain ⟨_,_,_,h⟩ := object_eq_ok.mp h
  obtain ⟨status,_,h⟩ := field_eq_ok.mp h
  obtain ⟨found,⟨_,_,hfound⟩,h⟩ := field_eq_ok.mp h
  obtain rfl := Except.ok.inj h
  rintro policyId hmem
  rcases requirePolicy_eq_ok.mp hfound with ⟨_,rfl⟩ | ⟨raw,_,rfl,hvalid⟩
  · cases hmem
  · obtain rfl := Option.some.inj hmem
    exact hvalid

theorem Inspection.toDict_injective : Function.Injective toDict := by
  rintro ⟨status,policyId⟩ ⟨status',policyId'⟩ h
  simp only [toDict,Value.dict.injEq,List.cons.injEq,Prod.mk.injEq,Value.str.injEq,true_and,
    and_true] at h
  obtain rfl := InspectionStatus.spelled.injective h.1
  cases policyId <;> cases policyId' <;> simp_all

theorem EnvelopeError.toDict_injective : Function.Injective toDict := by
  rintro ⟨code,message⟩ ⟨code',message'⟩ h
  simp only [toDict,Value.dict.injEq,List.cons.injEq,Prod.mk.injEq,Value.str.injEq,true_and,
    and_true] at h
  obtain rfl := ErrorCode.spelled.injective h.1
  rw [h.2]

theorem EnvelopeError.fromDict_forCode (code : ErrorCode) :
    fromDict (forCode code).toDict = .ok (forCode code) := by
  refine object_eq_ok.mpr ⟨_,rfl,exactFields_of_keys rfl,?_⟩
  refine field_eq_ok.mpr ⟨code,⟨_,rfl,ErrorCode.spelled.requireEnum code _ _⟩,?_⟩
  refine field_eq_ok.mpr ⟨_,⟨_,rfl,requireString_errorMessages code⟩,?_⟩
  exact bind_eq_ok.mpr ⟨(),check_eq_ok.mpr rfl,rfl⟩

/-- A parsed error carries the fixed message of its code. -/
theorem EnvelopeError.eq_forCode {value : Value} {error : EnvelopeError}
    (h : fromDict value = .ok error) : error = forCode error.code := by
  obtain ⟨_,_,_,h⟩ := object_eq_ok.mp h
  obtain ⟨code,_,h⟩ := field_eq_ok.mp h
  obtain ⟨message,_,h⟩ := field_eq_ok.mp h
  obtain ⟨_,hfixed,h⟩ := bind_eq_ok.mp h
  obtain rfl := Except.ok.inj h
  rw [forCode,← check_eq_ok.mp hfixed]

namespace Envelope

/-- The envelope with the data that its written form holds. -/
def written (envelope : Envelope) : Envelope :=
  { envelope with data := .plain envelope.data.toDict }

/-- What the gate checks of an envelope. -/
structure Wellformed (envelope : Envelope) : Prop where
  current : envelope.envelopeVersion = Jobs.envelopeVersion
  named : strip envelope.tool = envelope.tool ∧ envelope.tool ≠ [] ∧ envelope.tool.length ≤ 64
  policy : ∀ policyId ∈ envelope.inspection.policyId, PolicyId policyId
  fixed : ∀ error ∈ envelope.error, error = .forCode error.code
  checked : envelope.written.check none = .ok ()

theorem requireError_eq_ok {value : Value} {error : Option EnvelopeError} :
    requireError value = .ok error ↔ value = .none ∧ error = none ∨
      ∃ found, EnvelopeError.fromDict value = .ok found ∧ error = some found := by
  cases value with
  | none => simp [requireError,EnvelopeError.fromDict,requireObject,Bind.bind,Except.bind,eq_comm]
  | dict items =>
    simp only [requireError]
    rw [bind_eq_ok]
    constructor
    · rintro ⟨found,hfound,h⟩
      exact .inr ⟨found,hfound,(Except.ok.inj h).symm⟩
    · rintro (⟨hnone,_⟩ | ⟨found,hfound,rfl⟩)
      · cases hnone
      · exact ⟨found,hfound,rfl⟩
  | _ => simp [requireError,EnvelopeError.fromDict,requireObject,Bind.bind,Except.bind]

/-- A fixed error is read back, and so is none. -/
theorem requireError_toDict {error : Option EnvelopeError}
    (h : ∀ found ∈ error, found = .forCode found.code) :
    requireError ((error.map EnvelopeError.toDict).getD .none) = .ok error := by
  cases error with
  | none => rfl
  | some found =>
    refine requireError_eq_ok.mpr (.inr ⟨found,?_,rfl⟩)
    have hfixed := EnvelopeError.fromDict_forCode found.code
    rwa [← h found rfl] at hfixed

theorem Wellformed.readsBack {envelope : Envelope} (h : Wellformed envelope) :
    envelope.ReadsBack := by
  refine ⟨envelope.written,fromDict_eq_ok.mpr ⟨_,rfl,?_⟩,rfl⟩
  exact {
    exactFields := exactFields_of_keys rfl
    version := rfl
    current := h.current
    named := ⟨_,rfl,requireString_eq_ok.mpr
      ⟨_,rfl,h.named.1.symm,.inl h.named.2.1,h.named.2.2⟩⟩
    numbered := rfl
    expected := ⟨rfl,rfl⟩
    status := ⟨_,rfl,Status.spelled.requireEnum _ _ _⟩
    trust := ⟨_,rfl,Trust.spelled.requireEnum _ _ _⟩
    inspection := ⟨_,rfl,Inspection.fromDict_toDict h.policy⟩
    error := ⟨_,rfl,requireError_toDict h.fixed⟩
    payload := ⟨_,rfl,rfl⟩
    checked := h.checked }

theorem written_of_toDict {again envelope : Envelope} (h : again.toDict = envelope.toDict) :
    again.written = envelope.written := by
  obtain ⟨version,tool,toolVersion,status,trust,inspection,data,error⟩ := again
  obtain ⟨version',tool',toolVersion',status',trust',inspection',data',error'⟩ := envelope
  simp only [toDict,Value.dict.injEq,List.cons.injEq,Prod.mk.injEq,Value.str.injEq,Value.int.injEq,
    true_and,and_true] at h
  obtain ⟨rfl,rfl,rfl,hstatus,hinspection,hdata,herror⟩ := h
  obtain rfl := Status.spelled.injective hstatus
  obtain rfl := Inspection.toDict_injective hinspection
  have hsame : error = error' := by
    cases error with
    | none =>
      cases error' with
      | none => rfl
      | some found => simp [EnvelopeError.toDict] at herror
    | some found =>
      cases error' with
      | none => simp [EnvelopeError.toDict] at herror
      | some found' => exact congrArg some (EnvelopeError.toDict_injective herror)
  rw [written,written,hdata,hsame]

/-- An envelope that is parsed is one that the gate accepts. -/
theorem Carries.wellformed {data : Dict Str Value} {tool : Str} {toolVersion : Int}
    {envelope : Envelope} (h : Carries data tool toolVersion envelope) : Wellformed envelope := by
  obtain ⟨_,_,hnamed⟩ := h.named
  obtain ⟨raw,_,hraw,hnonempty,hlength⟩ := requireString_eq_ok.mp hnamed
  obtain ⟨_,_,hinspection⟩ := h.inspection
  obtain ⟨_,_,herror⟩ := h.error
  obtain ⟨given,_,hplain⟩ := h.payload
  refine ⟨h.current,⟨?_,by simpa using hnonempty,hlength⟩,Inspection.policy_of_fromDict hinspection,
    fun error hmem => ?_,?_⟩
  · rw [hraw,strip_strip]
  · rcases requireError_eq_ok.mp herror with ⟨_,hnone⟩ | ⟨found,hfound,hsome⟩
    · rw [hnone] at hmem
      cases hmem
    · rw [hsome] at hmem
      obtain rfl := Option.some.inj hmem
      exact EnvelopeError.eq_forCode hfound
  · have hwritten : envelope.written = envelope := by
      cases envelope
      subst hplain
      rfl
    rw [hwritten]
    exact h.checked

theorem ReadsBack.wellformed {envelope : Envelope} (h : envelope.ReadsBack) :
    Wellformed envelope := by
  obtain ⟨again,hread,hsame⟩ := h
  obtain ⟨data,hdata,hcarries⟩ := fromDict_eq_ok.mp hread
  obtain ⟨given,_,hplain⟩ := hcarries.payload
  have hagain : again = envelope.written := by
    rw [← written_of_toDict hsame,written,hplain]
    cases again
    subst hplain
    rfl
  subst hagain
  have h := hcarries.wellformed
  exact ⟨h.current,h.named,h.policy,h.fixed,h.checked⟩

theorem readsBack_iff {envelope : Envelope} : envelope.ReadsBack ↔ Wellformed envelope :=
  ⟨ReadsBack.wellformed,Wellformed.readsBack⟩

end Envelope

/-- The three ways to an envelope. -/
inductive Construction
  | ok (tool : Str) (toolVersion : Int) (data : Data) (policyId : Str)
  | failure (tool : Str) (toolVersion : Int) (code : ErrorCode) (inspection : Inspection)
  | fromDict (value : Value) (tool : Str) (toolVersion : Int) (payload : Option PayloadValidator)

namespace Construction

def run : Construction → Except Raised Envelope
  | ok tool toolVersion data policyId => .ok (.ok tool toolVersion data policyId)
  | failure tool toolVersion code inspection => Envelope.failure tool toolVersion code inspection
  | fromDict value tool toolVersion payload => Envelope.fromDict value tool toolVersion payload

def tool : Construction → Str
  | ok tool _ _ _ => tool
  | failure tool _ _ _ => tool
  | fromDict _ tool _ _ => tool

/-- The arguments that `ok` and `failure` take as they are given, and the gate checks. -/
def Sound : Construction → Prop
  | ok tool _ data policyId => tool ≠ [] ∧ data.toDict ≠ .none ∧ PolicyId policyId
  | failure tool _ _ inspection => tool ≠ [] ∧ ∀ policyId ∈ inspection.policyId, PolicyId policyId
  | fromDict _ _ _ _ => True

end Construction

section
variable {tool : Str} {toolVersion : Int}

theorem Data.isNone_plain {value : Value} : (Data.plain value).isNone = false ↔ value ≠ .none := by
  cases value <;> simp [Data.isNone]

/-- The constructor of a success checks none of its arguments. -/
theorem Envelope.wellformed_ok {data : Data} {policyId : Str} (hlength : tool.length ≤ 64)
    (hstrip : strip tool = tool) : Wellformed (ok tool toolVersion data policyId) ↔
      tool ≠ [] ∧ data.toDict ≠ .none ∧ PolicyId policyId := by
  constructor
  · intro h
    obtain ⟨_,hdata,_⟩ := bind_eq_ok.mp h.checked
    exact ⟨h.named.2.1,Data.isNone_plain.mp (check_eq_ok.mp hdata).1,h.policy policyId rfl⟩
  · rintro ⟨hnonempty,hdata,hpolicy⟩
    refine ⟨rfl,⟨hstrip,hnonempty,hlength⟩,?_,nofun,?_⟩
    · intro given hgiven
      rwa [← Option.some.inj hgiven]
    · refine bind_eq_ok.mpr ⟨(),check_eq_ok.mpr ⟨Data.isNone_plain.mpr hdata,rfl⟩,?_⟩
      refine bind_eq_ok.mpr ⟨(),check_eq_ok.mpr rfl,?_⟩
      exact bind_eq_ok.mpr ⟨(),check_eq_ok.mpr nofun,rfl⟩

/-- The constructor of a failure checks its arguments, but for the form of the policy. -/
theorem Envelope.wellformed_failure {code : ErrorCode} {inspection : Inspection}
    {envelope : Envelope} (hlength : tool.length ≤ 64) (hstrip : strip tool = tool)
    (h : failure tool toolVersion code inspection = .ok envelope) : Wellformed envelope ↔
      tool ≠ [] ∧ ∀ policyId ∈ inspection.policyId, PolicyId policyId := by
  obtain ⟨_,hchecked,h⟩ := bind_eq_ok.mp h
  obtain rfl := Except.ok.inj h
  constructor
  · intro h
    exact ⟨h.named.2.1,h.policy⟩
  · rintro ⟨hnonempty,hpolicy⟩
    refine ⟨rfl,⟨hstrip,hnonempty,hlength⟩,hpolicy,fun error hmem => ?_,hchecked⟩
    obtain rfl := Option.some.inj hmem
    rfl

end

/-- What a constructor returns is read back, exactly when it was given the name of a tool, data, and
an identifier of a policy. -/
theorem readsBack_iff_sound {construction : Construction} {envelope : Envelope}
    (hlength : construction.tool.length ≤ 64) (hstrip : strip construction.tool = construction.tool)
    (hrun : construction.run = .ok envelope) : envelope.ReadsBack ↔ construction.Sound := by
  rw [Envelope.readsBack_iff]
  cases construction with
  | ok tool toolVersion data policyId =>
    obtain rfl := Except.ok.inj hrun
    exact Envelope.wellformed_ok hlength hstrip
  | failure tool toolVersion code inspection =>
    exact Envelope.wellformed_failure hlength hstrip hrun
  | fromDict value tool toolVersion payload =>
    refine iff_of_true ?_ trivial
    cases payload with
    | none =>
      obtain ⟨_,_,hcarries⟩ := Envelope.fromDict_eq_ok.mp hrun
      exact hcarries.wellformed
    | some validate =>
      rw [Construction.run,Envelope.fromDict_payload] at hrun
      obtain ⟨parsed,hparsed,hrun⟩ := bind_eq_ok.mp hrun
      obtain ⟨_,_,hrun⟩ := bind_eq_ok.mp hrun
      obtain rfl := Except.ok.inj hrun
      obtain ⟨_,_,hcarries⟩ := Envelope.fromDict_eq_ok.mp hparsed
      exact hcarries.wellformed

def exampleInspection (policyId : String) : Inspection := ⟨.match,some (lit policyId)⟩

def exampleRejection : Construction :=
  .failure (lit "web_fetch") 1 .contentRejected (exampleInspection "core-1")

/-- A failure that names a policy is read back. -/
theorem rejection_readsBack :
    ∃ envelope, exampleRejection.run = .ok envelope ∧ exampleRejection.Sound ∧
      (envelope.ReadsBack ↔ exampleRejection.Sound) :=
  ⟨_,rfl,⟨by decide,fun _ h => Option.some.inj h ▸ ⟨by decide,by decide⟩⟩,
    readsBack_iff_sound (by decide) (by decide) rfl⟩

/-- A success without data, and a failure with a policy in capitals, are not read back. -/
theorem not_readsBack :
    ¬(Envelope.ok (lit "web_fetch") 1 (.plain .none) (lit "core-1")).ReadsBack ∧
    ∃ envelope, Envelope.failure (lit "web_fetch") 1 .contentRejected (exampleInspection "CORE 1") =
      .ok envelope ∧ ¬envelope.ReadsBack := by
  refine ⟨fun h => ?_,_,rfl,fun h => ?_⟩
  · have hchecked := (Envelope.readsBack_iff.mp h).checked
    cases hchecked
  · have hpolicy := (Envelope.readsBack_iff.mp h).policy (lit "CORE 1") rfl
    exact absurd hpolicy.1 (by decide)

end HearthAI.Jobs
