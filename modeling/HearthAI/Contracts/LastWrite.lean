import HearthAI.Contracts.Authenticity

/-! # The last completed write is what the reader gets

One handle writes any number of results over whatever its directory held, and no file
operation fails or is interrupted. A call that its own checks refuse touches no file.
-/
namespace HearthAI.Contracts
open Text Hex LengthPrefix Transition

/-- One call of `write_fetched` or `write_failure`, and what it returned. -/
structure Written where
  record : Handed
  result : Except ContractError Unit

/-- The operations of a call, each of them done whole. -/
def performAll (operations : List Operation) (directory : Directory) : Directory :=
  operations.foldl (fun directory operation => operation.apply operation.size directory) directory

/-- HMAC-SHA256 yields 32 bytes. -/
def Crypto.Sized (crypto : Crypto) : Prop :=
  ∀ key message, (crypto.hmacSha256 key message).length = 32

section
variable (crypto : Crypto) (codecs : HandoffCodecs)

def Handoff.perform (handoff : Handoff) (record : Handed) (directory : Directory) :
    Except ContractError Unit × Directory :=
  match (⟨handoff,record⟩ : Call).write crypto codecs with
  | .error error => (.error error,directory)
  | .ok operations => (.ok (),performAll operations directory)

/-- One call in a sequence of calls on one handle. -/
def Handoff.Writes (handoff : Handoff) (before : Directory) (call : Written) (after : Directory) :
    Prop :=
  handoff.perform crypto codecs call.record before = (call.result,after)

variable {crypto codecs} {handoff : Handoff} {before after : Directory}

theorem Handoff.Writes.of_ok {record : Handed}
    (h : handoff.Writes crypto codecs before ⟨record,.ok ()⟩ after) :
    ∃ operations, (⟨handoff,record⟩ : Call).write crypto codecs = .ok operations ∧
      after = performAll operations before := by
  unfold Handoff.Writes Handoff.perform at h
  cases hwrite : (⟨handoff,record⟩ : Call).write crypto codecs with
  | error error =>
    rw [hwrite] at h
    cases h
  | ok operations =>
    rw [hwrite] at h
    cases h
    exact ⟨operations,rfl,rfl⟩

/-- A refused call leaves the directory as it was. -/
theorem Handoff.Writes.of_refused {call : Written}
    (h : handoff.Writes crypto codecs before call after) (hrefused : call.result ≠ .ok ()) :
    after = before := by
  unfold Handoff.Writes Handoff.perform at h
  cases hwrite : (⟨handoff,call.record⟩ : Call).write crypto codecs with
  | error error =>
    rw [hwrite] at h
    exact (congrArg Prod.snd h).symm
  | ok operations =>
    rw [hwrite] at h
    exact absurd (congrArg Prod.fst h).symm hrefused

theorem writes_refused {log : List Written} (h : Run (handoff.Writes crypto codecs) before log after)
    (hrefused : ∀ call ∈ log, call.result ≠ .ok ()) : after = before := by
  induction h with
  | nil => rfl
  | snoc _ hlast ih =>
    rw [hlast.of_refused (hrefused _ (by simp))]
    exact ih (fun call hmem => hrefused call (List.mem_append_left _ hmem))

theorem len_seal_sized (hsized : crypto.Sized) (stageBytes artifactBytes : Bytes)
    (digest : Option String) :
    len (handoff.seal crypto stageBytes artifactBytes digest) < 2 ^ 63 := by
  rw [len_seal,hsized]
  decide

theorem read_fetched {directory : Directory} {stageBytes artifactBytes body : Buffer}
    {artifact : FetchArtifact} (hsized : crypto.Sized)
    (hstage : directory .stage = .ok stageBytes.bytes)
    (hartifact : directory .artifact = .ok artifactBytes.bytes)
    (hbody : directory .body = .ok body.bytes)
    (hseal : directory .seal = .ok (asBytes (handoff.seal crypto stageBytes.bytes
      artifactBytes.bytes (some (crypto.sha256Hex body.bytes)))))
    (hnonempty : artifactBytes.bytes ≠ [])
    (houtcome : codecs.stage.decode stageBytes.bytes = .ok (.ok .fetch handoff.runId))
    (hdecode : codecs.artifact.decode artifactBytes.bytes = .ok artifact)
    (hversion : artifact.artifactVersion = artifactVersion)
    (hrun : artifact.runId = handoff.runId) (hlength : body.bytes.length = artifact.bodyBytes)
    (hdigest : crypto.sha256Hex body.bytes = artifact.bodySha256) :
    handoff.read crypto codecs directory = .ok (.fetched artifact body.bytes) :=
  read_sealed (len_seal_sized hsized _ _ _) hstage hartifact hbody hseal hnonempty houtcome hdecode
    hversion hrun hlength hdigest

theorem read_writeFetched (hsized : crypto.Sized) (hstage : codecs.stage.Invertible)
    (hartifact : codecs.artifact.Invertible)
    (hempty : ∀ artifact, codecs.artifact.decode [] ≠ .ok artifact) {artifact : FetchArtifact}
    {body : Buffer} {operations : List Operation}
    (hwrite : handoff.writeFetched crypto codecs artifact body.bytes = .ok operations)
    (hversion : artifact.artifactVersion = artifactVersion) (directory : Directory) :
    handoff.read crypto codecs (performAll operations directory) =
      .ok (.fetched artifact body.bytes) := by
  obtain ⟨stageBytes,artifactBytes,⟨hrun,hlength,hdigest⟩,houtcome,hencode,rfl⟩ :=
    writeFetched_eq_ok.mp hwrite
  have hdecode := hartifact _ _ hencode
  have hnonempty : artifactBytes.bytes ≠ [] := by
    intro hnil
    rw [hnil] at hdecode
    exact hempty artifact hdecode
  refine read_fetched hsized ?_ ?_ ?_ ?_ hnonempty (hstage _ _ houtcome) hdecode hversion hrun
    hlength hdigest
  all_goals simp [performAll,Operation.apply,Operation.size,Function.update,hdigest]

/-- A recorded failure takes the files of an earlier response away. -/
theorem files_writeFailure {code : ErrorCode} {operations : List Operation}
    (hwrite : handoff.writeFailure crypto codecs code = .ok operations) (directory : Directory) :
    performAll operations directory .artifact = .error .notFound ∧
      performAll operations directory .body = .error .notFound := by
  obtain ⟨stageBytes,_,h⟩ := bind_eq_ok.mp hwrite
  cases h
  constructor
  · simp [performAll,Operation.apply,Function.update]
  · simp [performAll,Operation.apply,Function.update]

theorem read_failed (hsized : crypto.Sized) (hstage : codecs.stage.Invertible) {code : ErrorCode}
    {operations : List Operation}
    (hwrite : handoff.writeFailure crypto codecs code = .ok operations) (directory : Directory) :
    handoff.read crypto codecs (performAll operations directory) = .ok (.failed code) := by
  obtain ⟨stageBytes,hencode,_⟩ := bind_eq_ok.mp hwrite
  obtain ⟨operations',hwrite',hread⟩ := read_writeFailure hstage (encode_ok hencode)
    (len_seal_sized hsized _ _ _) directory
  rw [hwrite] at hwrite'
  cases hwrite'
  exact hread

/-- Over any directory and after any calls on a handle, a read returns what the last
call that returned `Ok` recorded. -/
theorem read_last_write (hsized : crypto.Sized) (hstage : codecs.stage.Invertible)
    (hartifact : codecs.artifact.Invertible)
    (hempty : ∀ artifact, codecs.artifact.decode [] ≠ .ok artifact) {earlier later : List Written}
    {record : Handed}
    (hrun : Run (handoff.Writes crypto codecs) before (earlier ++ ⟨record,.ok ()⟩ :: later) after)
    (hrefused : ∀ call ∈ later, call.result ≠ .ok ()) :
    (∀ artifact (body : Buffer), record = .fetched artifact body.bytes →
        artifact.artifactVersion = artifactVersion →
        handoff.read crypto codecs after = .ok (.fetched artifact body.bytes)) ∧
      ∀ code, record = .failed code → handoff.read crypto codecs after = .ok (.failed code) ∧
        after .artifact = .error .notFound ∧ after .body = .error .notFound := by
  obtain ⟨written,hwritten,hlater⟩ :=
    hrun.split (show _ = (earlier ++ [⟨record,.ok ()⟩]) ++ later by simp)
  obtain ⟨directory,_,hlast⟩ := hwritten.split rfl
  obtain rfl := writes_refused hlater hrefused
  obtain ⟨operations,hwrite,rfl⟩ := hlast.of_single.of_ok
  constructor
  · rintro artifact body rfl hversion
    exact read_writeFetched hsized hstage hartifact hempty hwrite hversion directory
  · rintro code rfl
    exact ⟨read_failed hsized hstage hwrite directory,files_writeFailure hwrite directory⟩

end

/-- SHA-256 of `<html>hi</html>`, and the seal of that page as run `run-1` hands it over. -/
def pageCrypto : Crypto where
  sha256 := fun _ => [190,182,212,46,46,55,47,243,95,247,58,242,164,189,83,208,228,64,240,113,128,
    184,158,166,113,54,169,44,143,128,168,186]
  hmacSha256 := fun _ _ => [235,143,94,49,139,160,43,215,159,3,75,219,171,8,135,206,9,0,127,245,
    215,142,136,222,226,135,78,129,52,152,174,8]

def pageArtifact : FetchArtifact where
  artifactVersion := artifactVersion
  runId := "run-1"
  sourceId := "source-1"
  requestedUrlSha256 := "3641c5f2274c5471278ab5bf1df6d1858d8aa392d85c51301abed2122a3c634f"
  finalUrl := "https://example.com/page"
  httpStatus := 200
  contentType := some "text/html"
  contentEncoding := none
  redirects := 0
  retrievedAt := "2026-09-12T12:00:00Z"
  format := .markdown
  bodyBytes := 15
  bodySha256 := "beb6d42e2e372ff35ff73af2a4bd53d0e440f07180b89ea67136a92c8f80a8ba"
  policyProfile := "test"

def pageArtifactText : String := "\x7b\"artifact_version\":1,\"run_id\":\"run-1\"," ++
  "\"source_id\":\"source-1\",\"requested_url_sha256\":" ++
  "\"3641c5f2274c5471278ab5bf1df6d1858d8aa392d85c51301abed2122a3c634f\"," ++
  "\"final_url\":\"https://example.com/page\",\"http_status\":200," ++
  "\"content_type\":\"text/html\",\"content_encoding\":null,\"redirects\":0," ++
  "\"retrieved_at\":\"2026-09-12T12:00:00Z\",\"format\":\"markdown\",\"body_bytes\":15," ++
  "\"body_sha256\":\"beb6d42e2e372ff35ff73af2a4bd53d0e440f07180b89ea67136a92c8f80a8ba\"," ++
  "\"policy_profile\":\"test\"\x7d"

theorem fits_of_single {l : List Char} {n : ℕ}
    (h : l.all (fun c => (String.utf8EncodeChar c).length == 1) = true) (hl : l.length < n) :
    (asBytes (String.ofList l)).length < n := by
  have hlen := len_of_single fun c hc => eq_of_beq (List.all_eq_true.mp h c hc)
  rw [len] at hlen
  omega

theorem fits_append {s t : String} {n : ℕ} (hs : (asBytes s).length < n)
    (ht : (asBytes t).length < 128) : (asBytes (s ++ t)).length < n + 128 := by
  rw [asBytes_append,List.length_append]
  omega

theorem pageArtifactText_fits : (asBytes pageArtifactText).length < 2 ^ 63 := by
  have hfits : (asBytes pageArtifactText).length < 1024 := by
    unfold pageArtifactText
    iterate 7 refine fits_append ?_ (fits_of_single (by decide) (by decide))
    exact fits_of_single (by decide) (by decide)
  omega

def pageOutcomeText : String := "\x7b\"stage_version\":1,\"stage\":\"fetch\"," ++
  "\"run_id\":\"run-1\",\"code\":null\x7d"

def pageCodecs : HandoffCodecs where
  stage := codecOf (.ok .fetch "run-1") pageOutcomeText (by decide)
  artifact := codecOf pageArtifact pageArtifactText pageArtifactText_fits

def pageHandoff : Handoff := letterHandoff "handoff"

def pageBody : Buffer := ⟨asBytes "<html>hi</html>",by decide⟩

/-- The same page for another run. -/
def strayArtifact : FetchArtifact := { pageArtifact with runId := "run-2" }

/-- Over a directory full of other files, and before a call for another run. -/
theorem read_last_write_page : ∃ after, Run (pageHandoff.Writes pageCrypto pageCodecs)
    (fun _ => .ok [1,2,3])
    [⟨.fetched pageArtifact pageBody.bytes,.ok ()⟩,⟨.fetched strayArtifact pageBody.bytes,
      .error ⟨"artifact belongs to a different run"⟩⟩] after ∧
    pageHandoff.read pageCrypto pageCodecs after =
      .ok (.fetched pageArtifact pageBody.bytes) := by
  have hempty : ∀ artifact, pageCodecs.artifact.decode [] ≠ .ok artifact := by
    intro artifact h
    have htext : asBytes "" ≠ asBytes pageArtifactText := by
      intro hnil
      obtain ⟨_,htail⟩ := String.append_eq_empty_iff.mp (asBytes_injective hnil).symm
      revert htail
      decide
    rw [asBytes_empty] at htext
    simp only [pageCodecs,codecOf,if_neg htext,reduceCtorEq] at h
  have hdigest : pageCrypto.sha256Hex pageBody.bytes = pageArtifact.bodySha256 := by decide
  obtain ⟨operations,hwrite⟩ : ∃ operations, pageHandoff.writeFetched pageCrypto pageCodecs
      pageArtifact pageBody.bytes = .ok operations :=
    ⟨_,writeFetched_eq_ok.mpr ⟨_,_,⟨rfl,rfl,hdigest⟩,codecOf_encode _ _ _,codecOf_encode _ _ _,
      rfl⟩⟩
  have hstray : pageHandoff.writeFetched pageCrypto pageCodecs strayArtifact pageBody.bytes =
      .error ⟨"artifact belongs to a different run"⟩ := bind_eq_error.mpr (.inl rfl)
  have hfirst : pageHandoff.Writes pageCrypto pageCodecs (fun _ => .ok [1,2,3])
      ⟨.fetched pageArtifact pageBody.bytes,.ok ()⟩
      (performAll operations fun _ => .ok [1,2,3]) := by
    simp only [Handoff.Writes,Handoff.perform,Call.write]
    rw [hwrite]
  have hsecond : ∀ directory, pageHandoff.Writes pageCrypto pageCodecs directory
      ⟨.fetched strayArtifact pageBody.bytes,.error ⟨"artifact belongs to a different run"⟩⟩
      directory := by
    intro directory
    simp only [Handoff.Writes,Handoff.perform,Call.write,hstray]
  have hrun : Run (pageHandoff.Writes pageCrypto pageCodecs) (fun _ => .ok [1,2,3])
      ([] ++ ⟨.fetched pageArtifact pageBody.bytes,.ok ()⟩ :: [⟨.fetched strayArtifact pageBody.bytes,
        .error ⟨"artifact belongs to a different run"⟩⟩])
      (performAll operations fun _ => .ok [1,2,3]) := (Run.single hfirst).snoc (hsecond _)
  exact ⟨_,hrun,(read_last_write (fun _ _ => rfl) (codecOf_invertible _ _ _)
    (codecOf_invertible _ _ _) hempty hrun (by simp)).1 pageArtifact pageBody
      rfl rfl⟩

end HearthAI.Contracts
