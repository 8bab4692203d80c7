import HearthAI.Inspect.Reports

/-! # When the reported status is the status of the run

An envelope that reports no checks is truthful when none was made. The pipeline and
the report each have a way to say so after the passes have begun.
-/
namespace HearthAI.Inspect
open Text Contracts Effect

/-- What a run starts with. -/
def Inspector.start (inspector : Inspector) (clock : ℕ → ℕ) : Meter :=
  (Inspection.new inspector.bundle.detector clock inspector.deadline).meter

/-- The ways to report that no check was made of a response that was scanned. -/
inductive Misreported (engine : Engine) (chain : List Converter) (policyId : String) (start : Meter)
    (read : Except ContractError Handed) : Prop
  /-- No inspection can be reported under the policy's name. -/
  | policy (started : Started start read) (unshaped : validPolicyId policyId = false)
  | undecodable (h : Undecodable engine start read)
  | unreportable (h : Unreportable engine chain start read)

section
variable (engine : Engine) (inspector : Inspector) (chain : List Converter) (clock : ℕ → ℕ)
  (runId : String) (read : Except ContractError Handed)

theorem fresh_start : Fresh (inspector.start clock)
    (.new inspector.bundle.detector clock inspector.deadline) :=
  ⟨rfl,rfl,fun _ _ h => absurd h List.not_mem_nil⟩

variable {engine}

/-- A failure that can be reported is the envelope of the caller. -/
theorem failure_refusal {code : ErrorCode} {inspection : Contracts.Inspection} (audit : AuditRecord)
    (hpermits : code.permits inspection.status = true) (hnamed : inspection.Named) :
    (Inspector.failure engine code inspection audit).envelope =
      .refusal (webFetchPayload engine.urls engine.times) code inspection := by
  have hok : Envelope.failure (webFetchPayload engine.urls engine.times) code inspection = .ok _ :=
    failure_eq_ok.mpr ⟨hpermits,hnamed,rfl⟩
  simp only [Inspector.failure,hok]

theorem failure_fallback {code : ErrorCode} {inspection : Contracts.Inspection} (audit : AuditRecord)
    (h : ¬(code.permits inspection.status = true ∧ inspection.Named)) :
    (Inspector.failure engine code inspection audit).envelope =
      Inspector.internalErrorEnvelope := by
  cases hfailure : Envelope.failure (webFetchPayload engine.urls engine.times) code inspection with
  | ok envelope =>
    obtain ⟨hpermits,hnamed,_⟩ := failure_eq_ok.mp hfailure
    exact absurd ⟨hpermits,hnamed⟩ h
  | error e => simp only [Inspector.failure,hfailure]

theorem notRun_named : Contracts.Inspection.notRun.Named := nofun

/-- The inspection field that a stop is reported with. -/
def Stop.inspection (stop : Stop) (policyId : String) : Contracts.Inspection :=
  ⟨stop.status,if stop.status = .notRun then none else some policyId⟩

theorem Stop.inspection_named {stop : Stop} {policyId : String} :
    (stop.inspection policyId).Named ↔
      stop.status = .notRun ∨ validPolicyId policyId = true := by
  unfold Stop.inspection Inspection.Named
  by_cases hstatus : stop.status = .notRun <;> simp [hstatus]

theorem report_error (stop : Stop) (audit : AuditRecord) :
    inspector.report engine (.error stop) audit = Inspector.failure engine stop.code
      (stop.inspection inspector.bundle.policyId) { audit with matchedRules := stop.matched } := rfl

/-- A stop that claims no checks is reported so, in its own words or by the fallback. -/
theorem report_notRun {stop : Stop} (audit : AuditRecord) (h : stop.status = .notRun) :
    (inspector.report engine (.error stop) audit).envelope.inspection.status = .notRun := by
  rw [report_error]
  by_cases hreported : stop.code.permits (stop.inspection inspector.bundle.policyId).status = true ∧
      (stop.inspection inspector.bundle.policyId).Named
  · rw [failure_refusal _ hreported.1 hreported.2]
    exact h
  · rw [failure_fallback _ hreported]
    rfl

/-- Data is reported under a policy whose name has the shape, if it satisfies the contract. -/
theorem report_data {d : WebFetchData} (audit : AuditRecord)
    (hvalid : d.validate engine.urls engine.times = .ok ())
    (hpolicy : validPolicyId inspector.bundle.policyId = true) :
    inspector.report engine (.ok d) audit = ⟨.success (webFetchPayload engine.urls engine.times) d
      inspector.bundle.policyId,{ audit with outcome := "ok" }⟩ := by
  have hok : Envelope.ok (webFetchPayload engine.urls engine.times) d inspector.bundle.policyId =
      .ok (.success (webFetchPayload engine.urls engine.times) d inspector.bundle.policyId) :=
    ok_eq_ok.mpr ⟨hvalid,hpolicy,rfl⟩
  unfold Inspector.report
  dsimp only
  rw [hok]

theorem report_withheld {d : WebFetchData} (audit : AuditRecord)
    (h : ¬(d.validate engine.urls engine.times = .ok () ∧
      validPolicyId inspector.bundle.policyId = true)) :
    inspector.report engine (.ok d) audit =
      Inspector.failure engine .internalError .notRun audit := by
  cases hok : Envelope.ok (webFetchPayload engine.urls engine.times) d inspector.bundle.policyId with
  | ok envelope =>
    obtain ⟨hvalid,hpolicy,_⟩ := ok_eq_ok.mp hok
    exact absurd ⟨hvalid,hpolicy⟩ h
  | error e =>
    unfold Inspector.report
    dsimp only
    rw [hok]

/-- The report does not count scans of its own. -/
theorem report_scans (result : Except Stop WebFetchData) (audit : AuditRecord) :
    (inspector.report engine result audit).audit.scans = audit.scans := by
  cases result with
  | error stop => rfl
  | ok d =>
    by_cases h : d.validate engine.urls engine.times = .ok () ∧
        validPolicyId inspector.bundle.policyId = true
    · rw [report_data inspector audit h.1 h.2]
    · rw [report_withheld inspector audit h]
      rfl

/-- An envelope without data is determined by its code, its status and the policy. -/
theorem report_refusal {result : Except Stop WebFetchData} {audit : AuditRecord}
    (h : (inspector.report engine result audit).envelope.status ≠ .ok) :
    ∃ code status, (inspector.report engine result audit).envelope =
      .refusal (webFetchPayload engine.urls engine.times) code
        ⟨status,if status = .notRun then none else some inspector.bundle.policyId⟩ := by
  cases result with
  | error stop =>
    rw [report_error]
    by_cases hreported : stop.code.permits (stop.inspection inspector.bundle.policyId).status = true ∧
        (stop.inspection inspector.bundle.policyId).Named
    · exact ⟨stop.code,stop.status,failure_refusal _ hreported.1 hreported.2⟩
    · exact ⟨.internalError,.notRun,failure_fallback _ hreported⟩
  | ok d =>
    by_cases hvalid : d.validate engine.urls engine.times = .ok () ∧
        validPolicyId inspector.bundle.policyId = true
    · rw [report_data inspector audit hvalid.1 hvalid.2] at h
      exact absurd rfl h
    · rw [report_withheld inspector audit hvalid]
      exact ⟨.internalError,.notRun,failure_refusal _ rfl notRun_named⟩

theorem Started.fetched {start : Meter} {read : Except ContractError Handed}
    (h : Started start read) : ∃ artifact body, read = .ok (.fetched artifact body) := by
  match read,h with
  | .ok (.fetched artifact body),_ => exact ⟨artifact,body,rfl⟩

variable {read chain}

/-- A response that passes every check has the pipeline return its data. -/
theorem Unreportable.returns {s : Inspection} (h : Unreportable engine chain s.meter read) :
    ∃ d t, pipeline engine chain read s = (.ok d,t) := by
  match read,h with
  | .ok (.fetched artifact body),⟨checks,d,hreach,hall,_⟩ =>
    obtain ⟨t,hrun⟩ := (pipeline_clears chain _).returns s checks d hreach hall
    exact ⟨d,t,hrun⟩

/-- Data that is returned breaks a rule for results exactly when a field of its artifact does. -/
theorem unreportable_iff {s t : Inspection} {d : WebFetchData} (hstarted : Started s.meter read)
    (hrun : pipeline engine chain read s = (.ok d,t)) :
    Unreportable engine chain s.meter read ↔ ¬d.validate engine.urls engine.times = .ok () := by
  obtain ⟨artifact,body,rfl⟩ := hstarted.fetched
  obtain ⟨checks,hreach,hall,_⟩ := (pipeline_clears chain _).only s d t hrun
  rw [clearance_validates hreach]
  constructor
  · rintro ⟨_,_,_,_,h⟩
    exact h
  · exact fun h => ⟨checks,d,hreach,hall,h⟩

/-- A run that was stopped. -/
theorem stop_truthful_iff {start : Meter} {stop : Stop} {t : Inspection} (audit : AuditRecord)
    (haccount : Account engine start read stop t)
    (hreportable : ¬Unreportable engine chain start read) :
    ((inspector.report engine (.error stop) audit).envelope.inspection.status = .notRun →
      t.detector.scans = 0) ↔ ¬Misreported engine chain inspector.bundle.policyId start read := by
  by_cases hstarted : Started start read
  · obtain ⟨hscans,hstatus⟩ := haccount.started hstarted
    by_cases hnotRun : stop.status = .notRun
    · refine iff_of_false (fun h => Nat.ne_of_gt hscans (h (report_notRun inspector audit hnotRun))) ?_
      exact fun h => h (.undecodable (hstatus.mp hnotRun))
    · rw [report_error]
      by_cases hpolicy : validPolicyId inspector.bundle.policyId = true
      · have hpermits : stop.code.permits stop.status = true := by
          rcases haccount.permits with h | ⟨code,hread,_⟩
          · exact h
          · obtain ⟨_,_,hfetched⟩ := hstarted.fetched
            rw [hread] at hfetched
            cases hfetched
        rw [failure_refusal _ hpermits (Stop.inspection_named.mpr (.inr hpolicy))]
        refine iff_of_true (fun h => absurd h hnotRun) ?_
        rintro (⟨_,hunshaped⟩ | h | h)
        · rw [hpolicy] at hunshaped
          cases hunshaped
        · exact hnotRun (hstatus.mpr h)
        · exact hreportable h
      · have hnamed : ¬(stop.inspection inspector.bundle.policyId).Named := fun h =>
          (Stop.inspection_named.mp h).elim hnotRun hpolicy
        rw [failure_fallback _ fun h => hnamed h.2]
        refine iff_of_false (fun h => Nat.ne_of_gt hscans (h rfl)) ?_
        exact fun h => h (.policy hstarted (by simpa using hpolicy))
  · refine iff_of_true (fun _ => haccount.idle hstarted) ?_
    rintro (⟨h,_⟩ | h | h)
    · exact hstarted h
    · exact hstarted h.started
    · exact hreportable h

/-- A run that was made in full. -/
theorem data_truthful_iff {start : Meter} {d : WebFetchData} {t : Inspection} (audit : AuditRecord)
    (hbegun : Begun t) (hstarted : Started start read) (hdecodable : ¬Undecodable engine start read)
    (hvalidates : Unreportable engine chain start read ↔
      ¬d.validate engine.urls engine.times = .ok ()) :
    ((inspector.report engine (.ok d) audit).envelope.inspection.status = .notRun →
      t.detector.scans = 0) ↔ ¬Misreported engine chain inspector.bundle.policyId start read := by
  by_cases h : d.validate engine.urls engine.times = .ok () ∧
      validPolicyId inspector.bundle.policyId = true
  · rw [report_data inspector audit h.1 h.2]
    refine iff_of_true nofun ?_
    rintro (⟨_,hunshaped⟩ | hun | hun)
    · rw [h.2] at hunshaped
      cases hunshaped
    · exact hdecodable hun
    · exact hvalidates.mp hun h.1
  · rw [report_withheld inspector audit h,failure_refusal _ rfl notRun_named]
    refine iff_of_false (fun hscans => Nat.ne_of_gt hbegun.scans (hscans rfl)) (fun hnot => hnot ?_)
    by_cases hpolicy : validPolicyId inspector.bundle.policyId = true
    · exact .unreportable (hvalidates.mpr fun hvalid => h ⟨hvalid,hpolicy⟩)
    · exact .policy hstarted (by simpa using hpolicy)

end

/-- The envelope reports no checks after a scan exactly on the listed ways. -/
theorem notRun_truthful_iff (engine : Engine) (inspector : Inspector) (chain : List Converter)
    (clock : ℕ → ℕ) (runId : String) (read : Except ContractError Handed) :
    ((inspector.inspect engine chain clock runId read).1.envelope.inspection.status = .notRun →
      (inspector.inspect engine chain clock runId read).1.audit.scans = 0) ↔
    ¬Misreported engine chain inspector.bundle.policyId (inspector.start clock) read := by
  have haccount := pipeline_account engine chain read (fresh_start inspector clock)
  have hinspect : ∀ result t, pipeline engine chain read
      (.new inspector.bundle.detector clock inspector.deadline) = (result,t) →
      (inspector.inspect engine chain clock runId read).1 =
        inspector.report engine result (inspector.audit runId t).1 := by
    intro result t hrun
    unfold Inspector.inspect
    rw [hrun]
  rcases hrun : pipeline engine chain read
    (.new inspector.bundle.detector clock inspector.deadline) with ⟨stop | d,t⟩
  · rw [hinspect _ _ hrun,report_scans]
    rw [hrun,exit_error] at haccount
    refine stop_truthful_iff inspector (inspector.audit runId t).1 haccount fun h => ?_
    obtain ⟨_,_,hreturns⟩ := h.returns
    rw [hrun] at hreturns
    cases hreturns
  · rw [hinspect _ _ hrun,report_scans]
    rw [hrun,exit_ok] at haccount
    obtain ⟨hbegun,hstarted,hdecodable⟩ := haccount
    exact data_truthful_iff inspector (inspector.audit runId t).1 hbegun hstarted hdecodable
      (unreportable_iff hstarted hrun)

/-- Rules that match nothing. -/
def quietBundle : RuleBundle := ⟨"web-content-v1","",1,fun _ _ => .ok []⟩

/-- A page of one byte. -/
def latinArtifact (bodySha256 : String) : FetchArtifact where
  artifactVersion := artifactVersion
  runId := "run-1"
  sourceId := "source-1"
  requestedUrlSha256 := "8198d1bac40a1033653a78e48800cefc9e6b974ff075c66e5548b5c1e145a2b0"
  finalUrl := "https://example.org/"
  httpStatus := 200
  contentType := some "text/plain; charset=utf-8"
  contentEncoding := none
  redirects := 0
  retrievedAt := "2026-10-01T12:00:00Z"
  format := .markdown
  bodyBytes := 1
  bodySha256 := bodySha256
  policyProfile := "production"

/-- Decoders to which the body is not UTF-8. -/
def strictEngine : Engine where
  codecs :=
    { gzip := fun _ => ⟨[],true⟩
      zlib := fun _ => ⟨[],true⟩
      forBom := fun _ => none
      forLabel := fun label => if label = "utf-8" then some "UTF-8" else none
      decodeWithoutBomHandling := fun _ _ => ("",true)
      decodeWithoutReplacement := fun _ _ => none }
  urls := ⟨fun _ => .error "",fun _ _ => .error "",fun _ => ""⟩
  times := ⟨fun _ => none,fun _ => none⟩
  isAlphanumeric := fun c => isAsciiDigit c || isAsciiLowercase c

/-- The letter e with an acute accent, in Latin-1. -/
def latinRead : Except ContractError Handed := .ok (.fetched
  (latinArtifact "de2e331d891ae267a7009cb45b4e8830f170e0c937288ea2731a1941c7a53b0d") [0xe9])

/-- Three scans have been made of the response that is reported as not inspected. -/
theorem notRun_after_scans :
    ((Inspector.new quietBundle).inspect strictEngine [] (fun _ => 0) "run-1"
      latinRead).1.envelope.inspection.status = .notRun ∧
    ((Inspector.new quietBundle).inspect strictEngine [] (fun _ => 0) "run-1"
      latinRead).1.audit.scans = 3 := by
  decide

/-- Two inspections under one policy that fail alike are answered with the same bytes. -/
theorem failure_uniform (serde : SerdeJson) (codec : JsonCodec WebFetchData)
    (first second : Inspector) (hpolicy : first.bundle.policyId = second.bundle.policyId)
    (engine engine' : Engine) (chain chain' : List Converter) (clock clock' : ℕ → ℕ)
    (runId runId' : String) (read read' : Except ContractError Handed) {e e' : WebFetchEnvelope}
    (he : e = (first.inspect engine chain clock runId read).1.envelope)
    (he' : e' = (second.inspect engine' chain' clock' runId' read').1.envelope)
    (hfailed : e.status ≠ .ok) (hfailed' : e'.status ≠ .ok)
    (hcode : e.error.map ToolError.code = e'.error.map ToolError.code)
    (hstatus : e.inspection.status = e'.inspection.status) :
    ∃ text, e.toJson serde (webFetchPayload engine.urls engine.times) codec = .ok text ∧
      e'.toJson serde (webFetchPayload engine'.urls engine'.times) codec = .ok text := by
  obtain ⟨result,audit,hreport⟩ : ∃ result audit,
      (first.inspect engine chain clock runId read).1 = first.report engine result audit := ⟨_,_,rfl⟩
  obtain ⟨result',audit',hreport'⟩ : ∃ result audit,
      (second.inspect engine' chain' clock' runId' read').1 = second.report engine' result audit :=
    ⟨_,_,rfl⟩
  rw [hreport] at he
  rw [hreport'] at he'
  have hvalid := (first.report_envelope engine result audit).1
  have hvalid' := (second.report_envelope engine' result' audit').1
  rw [← he] at hvalid
  rw [← he'] at hvalid'
  have hsame : e = e' := by
    subst he he'
    obtain ⟨code,status,hrefusal⟩ := report_refusal first hfailed
    obtain ⟨code',status',hrefusal'⟩ := report_refusal second hfailed'
    rw [hrefusal,hrefusal'] at hcode hstatus ⊢
    obtain rfl : code = code' := Option.some.inj hcode
    obtain rfl : status = status' := hstatus
    rw [hpolicy]
    rfl
  subst hsame
  exact ⟨_,bind_eq_ok.mpr ⟨(),hvalid,rfl⟩,bind_eq_ok.mpr ⟨(),hvalid',rfl⟩⟩

/-- Rules that match every body, under one name or another. -/
def loudBundle : RuleBundle :=
  ⟨"web-content-v1","",2,fun _ data => .ok [if data = [0x61] then "first" else "second"]⟩

/-- Two pages of one letter. -/
def firstRead : Except ContractError Handed := .ok (.fetched
  (latinArtifact "ca978112ca1bbdcafac231b39a23dc4da786eff8147c4e72b9807785afee48bb") [0x61])
def secondRead : Except ContractError Handed := .ok (.fetched
  { latinArtifact "3e23e8160039594a33894f6564e1b1348bbd7a0088d42c4acb73eeaed59c009d" with
    httpStatus := 404 } [0x62])

def rejectionText : String := "\x7b\"envelope_version\":1,\"tool\":\"web_fetch\"," ++
  "\"tool_version\":1,\"status\":\"rejected\",\"trust\":\"external_untrusted\"," ++
  "\"inspection\":\x7b\"status\":\"match\",\"policy_id\":\"web-content-v1\"\x7d,\"data\":null," ++
  "\"error\":\x7b\"code\":\"content_rejected\"," ++
  "\"message\":\"Response content was withheld from model context.\"\x7d\x7d"

/-- Two pages that trip different rules get the same answer. -/
theorem failure_uniform_rejected : ∃ e e' : WebFetchEnvelope, ∃ text,
    e = ((Inspector.new loudBundle).inspect strictEngine [] (fun _ => 0) "run-1"
      firstRead).1.envelope ∧
    e' = ((Inspector.new loudBundle).inspect strictEngine [] (fun _ => 7) "run-1"
      secondRead).1.envelope ∧
    e.toJson ⟨fun _ => none,fun _ => rejectionText,fun _ => ""⟩
      (webFetchPayload strictEngine.urls strictEngine.times)
      ⟨fun _ => .null,fun _ => none⟩ = .ok text ∧
    e'.toJson ⟨fun _ => none,fun _ => rejectionText,fun _ => ""⟩
      (webFetchPayload strictEngine.urls strictEngine.times)
      ⟨fun _ => .null,fun _ => none⟩ = .ok text := by
  obtain ⟨text,htext,htext'⟩ := failure_uniform
    ⟨fun _ => none,fun _ => rejectionText,fun _ => ""⟩ ⟨fun _ => .null,fun _ => none⟩
    (.new loudBundle) (.new loudBundle) rfl strictEngine strictEngine [] []
    (fun _ => 0) (fun _ => 7) "run-1" "run-1" firstRead secondRead rfl rfl (by decide) (by decide)
    (by decide) (by decide)
  exact ⟨_,_,text,rfl,rfl,htext,htext'⟩

end HearthAI.Inspect
