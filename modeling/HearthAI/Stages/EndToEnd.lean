import HearthAI.Inspect.Budget
import HearthAI.Stages.Delivery
import HearthAI.Stages.InspectStage
import HearthAI.Stages.Story

/-! # From the network to the released result

Fetch stages write to a volume, file operation by file operation, and somebody without their
keys rewrites it in between. What an inspection releases comes from one fetch.
-/
namespace HearthAI.Stages
open Text LengthPrefix Contracts Inspect Effect Transition

/-- A fetch stage, on the network it finds. -/
structure FetchRun where
  world : Fetch.World
  job : FetchJob
  confined : world.http.Confined

/-- The fetch stage makes this call: it hands over what it fetched, or says why it did not. -/
def FetchRun.Makes (crypto : Crypto) (run : FetchRun) (call : Call) : Prop :=
  run.world.sha256Hex = crypto.sha256Hex ∧ call.handoff = run.job.handoff ∧
    match call.record with
    | .fetched artifact body => ∃ trace, run.job.fetch run.world = (.ok ⟨artifact,body⟩,trace)
    | .failed code => (run.job.fetch run.world).1 = .error code ∨ code = .internalError

def Issued (crypto : Crypto) (call : Call) : Prop := ∃ run : FetchRun, run.Makes crypto call

/-- A step of the volume in which nobody but a fetch stage begins to write. -/
def StageStep (crypto : Crypto) (codecs : HandoffCodecs) (v w : Volume) : Prop :=
  Volume.Step crypto codecs v w ∧ ∀ writer ∈ w.writers,
    (∃ old ∈ v.writers, old.call = writer.call) ∨ Issued crypto writer.call

/-- The volumes that stages and an adversary can make. -/
abbrev Staged (crypto : Crypto) (codecs : HandoffCodecs) : Volume → Prop :=
  Reachable Volume.Start (StageStep crypto codecs)

/-- Where released data comes from. -/
structure Provenance (bench : Bench) (runId : String) (key : HandoffKey) (bundle : RuleBundle)
    (data : WebFetchData) (events : List Event) (run : FetchRun) (fetched : Fetch.Fetched)
    (trace : Fetch.Trace) : Prop where
  sameRun : run.job.handoff.runId = runId
  sameKey : run.job.handoff.key = key
  fetch : run.job.fetch run.world = (.ok fetched,trace)
  /-- Every connection of the fetch went where the policy allows. -/
  safe : Fetch.RunSafe run.world run.job.policy (.ok fetched) trace
  /-- The artifact and the body are what the last server gave. -/
  traced : ∃ requested, run.job.request.destinationUrl run.world.urls = .ok requested ∧
    Fetch.Traced run.world run.job.fetcher run.job.handoff.runId run.job.request requested fetched trace
  /-- Every form of the response was scanned, and none matched. The content is the text of the
  response, or what the conversion that the data names has made of it. -/
  passed : ∃ media text,
    Passed bench.engine bundle.rules fetched.artifact media fetched.body text data events ∧
    Origin bench.engine bench.libraries media text data

section
variable {crypto : Crypto} {codecs : HandoffCodecs} {volume : Volume}

/-- Whoever writes, and whoever has written a seal, is a fetch stage. -/
structure Accounted (crypto : Crypto) (volume : Volume) : Prop where
  writers : ∀ writer ∈ volume.writers, Issued crypto writer.call
  sealings : ∀ sealing ∈ volume.sealings, Issued crypto sealing.call

theorem accounted_perform (h : Accounted crypto volume) {call : Call} (hcall : Issued crypto call)
    (operation : Operation) (cut : ℕ) (writers : List Writer) :
    ∀ sealing ∈ (volume.perform call operation cut writers).sealings, Issued crypto sealing.call := by
  intro sealing hmem
  rcases List.mem_append.mp hmem with hnew | hold
  · unfold Operation.sealing at hnew
    split at hnew
    · rw [List.mem_singleton.mp hnew]
      exact hcall
    · cases hnew
  · exact h.sealings sealing hold

theorem accounted_step {v w : Volume} (h : Accounted crypto v)
    (hstep : StageStep crypto codecs v w) : Accounted crypto w := by
  obtain ⟨hstep,hbegun⟩ := hstep
  refine ⟨fun writer hmem => ?_,?_⟩
  · rcases hbegun writer hmem with ⟨old,hold,hcall⟩ | hissued
    · exact hcall ▸ h.writers old hold
    · exact hissued
  · cases hstep with
    | begin call operations hwrite => exact h.sealings
    | tamper directory contents hknown => exact h.sealings
    | interrupted before after call operation rest cut hwriter =>
      exact accounted_perform h (h.writers ⟨call,operation :: rest⟩ (by simp [hwriter])) _ _ _
    | finish before after call operation rest hwriter =>
      exact accounted_perform h (h.writers ⟨call,operation :: rest⟩ (by simp [hwriter])) _ _ _

theorem accounted_of_staged (h : Staged crypto codecs volume) : Accounted crypto volume := by
  refine h.invariant ?_ (fun _ _ haccounted hstep => accounted_step haccounted hstep)
  rintro start ⟨hwriters,hsealings,_⟩
  exact ⟨by simp [hwriters],by simp [hsealings]⟩

theorem reachable_of_staged (h : Staged crypto codecs volume) :
    Reachable Volume.Start (Volume.Step crypto codecs) volume := by
  induction h with
  | start h => exact .start h
  | step _ hstep ih => exact ih.step hstep.1

/-- What is read was handed over by a fetch stage of the same run, under the same key. -/
theorem handed_issued (ideal : crypto.Ideal) (hstage : codecs.stage.Invertible)
    (hartifact : codecs.artifact.Invertible) (h : Staged crypto codecs volume) {handoff : Handoff}
    {handed : Handed}
    (hread : handoff.read crypto codecs (volume.directories handoff.directory) = .ok handed) :
    ∃ call, Issued crypto call ∧ call.handoff.runId = handoff.runId ∧
      call.handoff.key = handoff.key ∧ call.record = handed := by
  have hgenuine := genuine_of_reachable (reachable_of_staged h)
  obtain ⟨stageBytes,artifactBytes,body,sealed,recorded,hsealed,htext,hmatch,hyields⟩ := read_ok hread
  obtain ⟨sealing,hmem,hlead⟩ := hgenuine.directories handoff.directory sealed hsealed
  exact ⟨sealing.call,(accounted_of_staged h).sealings sealing hmem,
    (hgenuine.sealings sealing hmem).record_eq ideal hstage hartifact hlead htext hmatch hyields⟩

/-- A fetch that succeeds has gone only where its policy allows. -/
theorem fetch_runSafe {run : FetchRun} {fetched : Fetch.Fetched} {trace : Fetch.Trace}
    (h : run.job.fetch run.world = (.ok fetched,trace)) :
    Fetch.RunSafe run.world run.job.policy (.ok fetched) trace := by
  have hspec : Triple (· = .start)
      (run.job.fetcher.fetch run.world run.job.handoff.runId run.job.request)
      (fun fetched => Fetch.RunSafe run.world run.job.policy (.ok fetched)) (fun _ _ => True) := by
    unfold Fetch.Fetcher.fetch
    refine Triple.bind (M := fun _ trace => trace = ⟨[],1⟩) ⟨by rintro _ rfl; rfl⟩ fun started => ?_
    refine Triple.bind (M := fun _ trace => trace = ⟨[],1⟩) ?_ fun requested => ?_
    · exact Triple.lift (fun _ _ _ hs => hs) fun _ _ _ _ => trivial
    have hloop : Triple (fun trace => Fetch.Followed run.world run.job.policy 0 0 trace.hops)
        (run.job.fetcher.fetchLoop run.world run.job.handoff.runId run.job.request requested started
          requested 0 0) (fun fetched => Fetch.RunSafe run.world run.job.policy (.ok fetched))
        (fun code => Fetch.RunSafe run.world run.job.policy (.error code)) :=
      Fetch.fetchLoop_spec run.confined _ _ _ _ _ _ _ _
    refine hloop.consequence (fun trace htrace => ?_) (fun _ _ h => h) fun _ _ _ => trivial
    rw [htrace]
    exact Fetch.followed_nil
  exact hspec.ok rfl h

end

/-- Whatever happens to the volume, a released result comes from one fetch of the same run. -/
theorem release_provenance (bench : Bench) (ideal : bench.host.crypto.Ideal)
    (hstage : bench.host.codecs.stage.Invertible) (hartifact : bench.host.codecs.artifact.Invertible)
    {volume : Volume} (hstaged : Staged bench.host.crypto bench.host.codecs volume)
    (arguments : InspectArguments) {device : Device}
    (hdevice : device.directory = volume.directories (pathText arguments.artifactDir))
    (outlet : Outlet) (hsuccess : (arguments.main bench device outlet).code = .success) :
    ∃ (envelope : WebFetchEnvelope) (key : HandoffKey) (bundle : RuleBundle) (data : WebFetchData)
      (run : FetchRun) (fetched : Fetch.Fetched) (trace : Fetch.Trace), arguments.Ready bench key bundle ∧
      (arguments.main bench device outlet).outlet =
        outlet.after arguments.out (bench.host.serde.print (envelope.toValue webFetchCodec)) ∧
      envelope.data = some data ∧
      Provenance bench arguments.runId key bundle data
        (arguments.inspect bench key bundle device.directory).2.events run fetched trace := by
  obtain ⟨key,bundle,envelope,data,hready,hemitted,hdata,artifact,media,body,text,hread,hpassed,
    horigin⟩ := main_released hsuccess
  have hread' : (arguments.handoff key).read bench.host.crypto bench.host.codecs
      (volume.directories (arguments.handoff key).directory) = .ok (.fetched artifact body) := by
    rw [show (arguments.handoff key).directory = pathText arguments.artifactDir from rfl,← hdevice]
    exact hread
  obtain ⟨call,⟨run,hsha,hhandoff,hmade⟩,hrun,hkey,hrecord⟩ :=
    handed_issued ideal hstage hartifact hstaged hread'
  rw [hrecord] at hmade
  obtain ⟨trace,hfetch⟩ := hmade
  refine ⟨envelope,key,bundle,data,run,⟨artifact,body⟩,trace,hready,hemitted,hdata,?_⟩
  rw [hhandoff] at hrun hkey
  exact ⟨hrun,hkey,hfetch,fetch_runSafe hfetch,
    (Fetch.fetch_traces run.world run.job.fetcher run.job.handoff.runId run.job.request).ok rfl hfetch,
    media,text,hpassed,horigin⟩

section
variable {crypto : Crypto} {codecs : HandoffCodecs} {volume : Volume} {call : Call}
  {operation : Operation} {rest : List Operation} {others : List Writer}

/-- What is in a directory may be put back. -/
theorem staged_restore (h : Staged crypto codecs volume) {after : Volume}
    (hafter : Staged crypto codecs after) (hsealings : ∀ s ∈ volume.sealings, s ∈ after.sealings)
    (directory : String) :
    Staged crypto codecs { after with
      directories := Function.update after.directories directory (volume.directories directory) } := by
  have hgenuine := genuine_of_reachable (reachable_of_staged h)
  refine hafter.step ⟨.tamper after directory _ ((hgenuine.directories directory).mono hsealings),?_⟩
  exact fun writer hmem => .inl ⟨writer,hmem,rfl⟩

theorem staged_finish (h : Staged crypto codecs volume)
    (hwriters : volume.writers = ⟨call,operation :: rest⟩ :: others) :
    Staged crypto codecs (volume.perform call operation operation.size (⟨call,rest⟩ :: others)) := by
  refine h.step ⟨.finish volume [] others call operation rest hwriters,fun writer hmem => .inl ?_⟩
  rw [hwriters]
  rcases List.mem_cons.mp hmem with rfl | hold
  · exact ⟨_,List.mem_cons_self,rfl⟩
  · exact ⟨writer,List.mem_cons_of_mem _ hold,rfl⟩

theorem staged_interrupted (h : Staged crypto codecs volume)
    (hwriters : volume.writers = ⟨call,operation :: rest⟩ :: others) (cut : ℕ) :
    Staged crypto codecs (volume.perform call operation cut volume.writers) :=
  h.step ⟨.interrupted volume [] others call operation rest cut hwriters,
    fun writer hmem => .inl ⟨writer,hmem,rfl⟩⟩

/-- The volume is left as the device, in the directory of the call. -/
def Matches (call : Call) (volume after : Volume) (device : Device) : Prop :=
  after.directories = Function.update volume.directories call.handoff.directory device.directory

/-- An operation on the device is nothing, or one or two steps of the volume. -/
theorem attempt_simulated (h : Staged crypto codecs volume)
    (hwriters : volume.writers = ⟨call,operation :: rest⟩ :: others) {device mid : Device}
    (hdevice : device.directory = volume.directories call.handoff.directory)
    {result : Except ContractError Unit} (hattempt : operation.attempt device = (result,mid)) :
    ∃ after, Staged crypto codecs after ∧ Matches call volume after mid ∧
      (result = .ok () → after.writers = ⟨call,rest⟩ :: others) := by
  have hsame : Matches call volume volume device := by
    unfold Matches
    rw [hdevice,Function.update_eq_self]
  have hfinish := staged_finish h hwriters
  cases operation with
  | createDirAll =>
    obtain ⟨hresult,rfl⟩ := Prod.mk.inj hattempt
    cases hfate : device.fates device.used with
    | done => exact ⟨_,hfinish,hdevice ▸ rfl,fun _ => rfl⟩
    | refused text =>
      rw [hfate] at hresult
      exact ⟨volume,h,hsame,fun hok => by rw [← hresult] at hok; cases hok⟩
    | cut n text =>
      rw [hfate] at hresult
      exact ⟨volume,h,hsame,fun hok => by rw [← hresult] at hok; cases hok⟩
  | remove name =>
    -- A file that could not be removed is taken away and put back.
    have hback := staged_restore h hfinish (fun _ hmem => List.mem_append_right _ hmem)
      call.handoff.directory
    simp only [Operation.attempt] at hattempt
    split at hattempt
    · obtain ⟨_,rfl⟩ := Prod.mk.inj hattempt
      refine ⟨_,hfinish,?_,fun _ => rfl⟩
      simp only [Matches,Volume.perform,Operation.apply,Device.after,hdevice]
    · obtain ⟨_,rfl⟩ := Prod.mk.inj hattempt
      refine ⟨_,hback,?_,fun _ => rfl⟩
      simp only [Matches,Volume.perform,Function.update_idem,Device.after,hdevice]
  | put name bytes =>
    obtain ⟨hresult,rfl⟩ := Prod.mk.inj hattempt
    cases hfate : device.fates device.used with
    | done =>
      refine ⟨_,hfinish,?_,fun _ => rfl⟩
      simp only [Matches,Volume.perform,Operation.apply,Operation.size,List.take_length,Device.after,
        Fate.write,hdevice]
    | refused text =>
      rw [hfate] at hresult
      refine ⟨volume,h,?_,fun hok => by rw [← hresult] at hok; cases hok⟩
      simp only [Matches,Device.after,Fate.write,Function.update_eq_self,hdevice]
    | cut n text =>
      rw [hfate] at hresult
      refine ⟨_,staged_interrupted h hwriters n,?_,fun hok => by rw [← hresult] at hok; cases hok⟩
      simp only [Matches,Volume.perform,Operation.apply,Device.after,Fate.write,hdevice]

theorem Matches.trans {v w after : Volume} {mid device : Device} (h : Matches call v w mid)
    (h' : Matches call w after device) : Matches call v after device := by
  unfold Matches at h h' ⊢
  rw [h',h,Function.update_idem]

theorem Matches.directory {v after : Volume} {device : Device} (h : Matches call v after device) :
    device.directory = after.directories call.handoff.directory := by
  rw [h,Function.update_self]

/-- Induction on the operations that are left. -/
theorem attemptAll_simulated (operations : List Operation) (h : Staged crypto codecs volume)
    (hwriters : volume.writers = ⟨call,operations⟩ :: others) {device : Device}
    (hdevice : device.directory = volume.directories call.handoff.directory) :
    ∃ after, Staged crypto codecs after ∧
      Matches call volume after (attemptAll operations device).2 := by
  induction operations generalizing volume device with
  | nil =>
    refine ⟨volume,h,?_⟩
    unfold Matches
    rw [show (attemptAll [] device).2.directory = _ from hdevice,Function.update_eq_self]
  | cons operation rest ih =>
    rw [attemptAll_cons]
    rcases hattempt : operation.attempt device with ⟨e | _,mid⟩
    · obtain ⟨after,hafter,hmatches,_⟩ := attempt_simulated h hwriters hdevice hattempt
      exact ⟨after,hafter,hmatches⟩
    · obtain ⟨w,hw,hmatches,hpending⟩ := attempt_simulated h hwriters hdevice hattempt
      obtain ⟨after,hafter,hmatches'⟩ := ih hw (hpending rfl) hmatches.directory
      exact ⟨after,hafter,hmatches.trans hmatches'⟩

theorem callAttempt_simulated (call : Call) (h : Staged crypto codecs volume)
    (hissued : Issued crypto call) {device : Device} (hdevice : device.directory = volume.directories call.handoff.directory) :
    ∃ after, Staged crypto codecs after ∧
      Matches call volume after (call.attempt crypto codecs device).2 := by
  unfold Call.attempt
  cases hwrite : call.write crypto codecs with
  | error e =>
    refine ⟨volume,h,?_⟩
    unfold Matches
    rw [show ((Effect.lift (.error e) >>= attemptAll) device).2.directory = _ from hdevice,
      Function.update_eq_self]
  | ok operations =>
    refine attemptAll_simulated operations (h.step ⟨.begin volume call operations hwrite,?_⟩) rfl hdevice
    intro writer hmem
    rcases List.mem_cons.mp hmem with rfl | hold
    · exact .inr hissued
    · exact .inl ⟨writer,hold,rfl⟩

end

section
variable {host : Host} {volume : Volume} {run : FetchRun} {device : Device}

end

/-- The site of one page, seen by primitives that keep everything. -/
def keptWorld : Fetch.World := { pageWorld 200 with sha256Hex := keepingCrypto.sha256Hex }

def keptJob : FetchJob := ⟨⟨.production,[]⟩,⟨"/handoff","run-1",miniKey,runOne_short⟩,pageRequest⟩

def keptRun : FetchRun := ⟨keptWorld,keptJob,Fetch.firstAddressClient_confined _⟩

def keptArtifact : FetchArtifact where
  artifactVersion := artifactVersion
  runId := "run-1"
  sourceId := "source-1"
  requestedUrlSha256 := keepingCrypto.sha256Hex (asBytes "http://example.com/")
  finalUrl := "http://example.com/"
  httpStatus := 200
  contentType := some "text/plain"
  contentEncoding := none
  redirects := 0
  retrievedAt := "2026-10-01T12:00:00Z"
  format := .markdown
  bodyBytes := 2
  bodySha256 := keepingCrypto.sha256Hex (asBytes "ok")
  policyProfile := "production"

theorem keptRun_fetch : ∃ trace, keptJob.fetch keptWorld = (.ok ⟨keptArtifact,asBytes "ok"⟩,trace) := by
  have hnow : Fetch.instantNow keptWorld .start = (.ok 0,⟨[],1⟩) := rfl
  have hurl : (Effect.lift ((keptJob.request.destinationUrl keptWorld.urls).mapError
      (fun _ => ErrorCode.unsafeSource)) : Fetch.Network Url) ⟨[],1⟩ = (.ok pageUrl,⟨[],1⟩) := rfl
  unfold FetchJob.fetch Fetch.Fetcher.fetch
  rw [bind_ok hnow,bind_ok hurl,Fetch.Fetcher.fetchLoop]
  exact ⟨_,rfl⟩

def keptPage : Direct pageEngine where
  artifact := keptArtifact
  media := ⟨"text/plain",none⟩
  body := asBytes "ok"
  decodedBytes := asBytes "ok"
  text := "ok"
  media_eq := by decide
  decoded_eq := identity_decoded (by decide)
  text_eq := rfl
  direct := .inr (by decide)

def keptCodecs : HandoffCodecs where
  stage := codecOf (.ok .fetch "run-1") "stage" stage_fits
  artifact := codecOf keptArtifact "artifact" artifact_fits

/-- A bench with one rule that matches nothing. -/
def keptBench : Bench where
  host := { miniHost with crypto := keepingCrypto, codecs := keptCodecs }
  ruleDirectory _ := oneRule "web-content-v1"
  parseManifest := parseOneRule "web-content-v1"
  compiler := ⟨fun _ _ => .ok (),fun _ _ _ => .ok [],fun _ => 0⟩
  engine := pageEngine
  libraries := ⟨fun _ _ => none,fun _ => none⟩
  clock _ := 0
  auditText _ := .error "not printed"

def keptArguments : InspectArguments where
  runId := "run-1"
  artifactDir := [.name "handoff"]
  rules := [.name "rules"]
  handoffKey := [.name "key"]
  out := none
  keepArtifact := false
  fits := runOne_short

def keptBundle : RuleBundle :=
  ⟨"web-content-v1",keepingCrypto.sha256Hex (asBytes ruleText),1,fun _ _ => .ok []⟩

theorem keptArguments_ready :
    keptArguments.Ready keptBench miniKey keptBundle := by
  refine ⟨by decide,?_⟩
  have hmanifest : parseOneRule "web-content-v1" (manifestText "web-content-v1") =
      .ok ⟨1,"web-content-v1"⟩ := if_pos rfl
  have hrules : (extension "all.yar" == some "yar") = true := by decide
  have hother : (extension "bundle.json" == some "yar") = false := by decide
  have hread : [(⟨"all.yar",.ok ruleText⟩ : RuleFile)].foldlM readSource (0,[]) =
      .ok (28,[ruleText]) := rfl
  have hadd : [ruleText].foldlM (addRules keptBench.compiler) ([],0) = .ok ([ruleText],1) := rfl
  unfold RuleBundle.load
  simp only [keptBench,oneRule,Option.elim,Bind.bind,Except.bind,Except.mapError,hmanifest,List.filter,
    hrules,hother,List.mergeSort_singleton,hread]
  exact rfl

/-- The page is handed over on a device that does not fail. -/
theorem kept_stored : ∃ after : Device,
    (⟨keptJob.handoff,.fetched keptArtifact (asBytes "ok")⟩ : Call).attempt keepingCrypto keptCodecs
      miniDevice = (.ok (),after) := by
  obtain ⟨operations,hwrite⟩ : ∃ operations,
      (⟨keptJob.handoff,.fetched keptArtifact (asBytes "ok")⟩ : Call).write keepingCrypto keptCodecs =
        .ok operations :=
    ⟨_,writeFetched_eq_ok.mpr ⟨_,_,⟨rfl,by decide,rfl⟩,codecOf_encode _ _ _,codecOf_encode _ _ _,rfl⟩⟩
  unfold Call.attempt
  rw [hwrite]
  exact attemptAll_done operations fun _ => rfl

theorem kept_read {after : Device}
    (h : (⟨keptJob.handoff,.fetched keptArtifact (asBytes "ok")⟩ : Call).attempt keepingCrypto
      keptCodecs miniDevice = (.ok (),after)) :
    keptJob.handoff.read keepingCrypto keptCodecs after.directory =
      .ok (.fetched keptArtifact (asBytes "ok")) := by
  obtain ⟨stageBytes,artifactBytes,_,hstage,hartifact,hstageFile,hartifactFile,hbodyFile,hsealFile⟩ :=
    stored_fetched h
  obtain rfl : ⟨asBytes "stage",by decide⟩ = stageBytes :=
    Except.ok.inj ((codecOf_encode _ _ _).symm.trans hstage)
  obtain rfl : ⟨asBytes "artifact",by decide⟩ = artifactBytes :=
    Except.ok.inj ((codecOf_encode _ _ _).symm.trans hartifact)
  have hbody : after.directory .body = .ok (⟨asBytes "ok",by decide⟩ : Buffer).bytes := hbodyFile
  refine read_sealed ?_ hstageFile hartifactFile hbody hsealFile (by decide)
    (codecOf_invertible _ _ _ _ _ hstage) (codecOf_invertible _ _ _ _ _ hartifact) rfl rfl rfl rfl
  exact len_seal_keeping (by decide) (by decide) (by decide) (by decide) (by decide)

/-- The inspection of the page clears it. -/
theorem kept_inspected (directory : Directory)
    (hread : keptJob.handoff.read keepingCrypto keptCodecs directory =
      .ok (.fetched keptArtifact (asBytes "ok"))) :
    (keptArguments.inspect keptBench miniKey keptBundle
      directory).1.envelope.status = .ok := by
  have hread' : keptArguments.read keptBench miniKey directory =
      .ok (.fetched keptPage.artifact keptPage.body) := hread
  have hreportable : Reportable pageEngine keptArtifact :=
    ⟨by decide,by decide,⟨pageUrl,rfl,rfl⟩,by decide,⟨"2026-10-01T12:00:00Z",rfl,rfl⟩⟩
  have hdeliverable := deliverable_of_reportable keptPage.media_eq rfl hreportable
  unfold InspectArguments.inspect
  rw [hread']
  refine hdeliverable.clean (.new keptBundle) keptBench.libraries.chain (fun _ => 0) "run-1"
    (asBytes "ok") (by decide) ?_
  have hstart : Spent (fun _ => 0) inspectionDeadline 0
      (.new keptBundle.detector (fun _ => 0) inspectionDeadline) :=
    ⟨fun _ _ => rfl,rfl,fun ⟨_,h⟩ => absurd h List.not_mem_nil,rfl,rfl⟩
  rcases hrun : pipeline pageEngine keptBench.libraries.chain
    (.ok (.fetched keptPage.artifact keptPage.body))
    (.new keptBundle.detector (fun _ => 0) inspectionDeadline) with ⟨stop | data,s⟩
  · exfalso
    rcases (pipeline_spent keptPage keptBench.libraries.chain).error hstart hrun with
      ⟨_,hover⟩ | ⟨_,hexcused⟩
    · have hfits := keptPage.total_le (by decide) (by decide) (by decide)
      omega
    · rcases hexcused with ⟨n,hlate⟩ | hlong | htime
      · exact absurd hlate (show ¬inspectionDeadline ≤ 0 by decide)
      · exact absurd hlong (by decide)
      · exact htime "2026-10-01T12:00:00Z" rfl
  · exact ⟨data,s,hrun⟩

/-- A volume with the handoff of the page, from which the bench releases it. -/
theorem kept_volume : ∃ (volume : Volume) (device : Device) (outlet : Outlet),
    Staged keepingCrypto keptCodecs volume ∧
    device.directory = volume.directories (pathText keptArguments.artifactDir) ∧
    (keptArguments.main keptBench device outlet).code = .success := by
  obtain ⟨device,hstored⟩ := kept_stored
  obtain ⟨trace,hfetch⟩ := keptRun_fetch
  let empty : Volume := ⟨fun _ _ => .error .notFound,[],[]⟩
  have hempty : Staged keepingCrypto keptCodecs empty := .start ⟨rfl,rfl,fun _ => ⟨_,rfl⟩⟩
  obtain ⟨volume,hstaged,hmatches⟩ := callAttempt_simulated
    ⟨keptJob.handoff,.fetched keptArtifact (asBytes "ok")⟩ hempty ⟨keptRun,rfl,rfl,trace,hfetch⟩
    (show miniDevice.directory = _ from rfl)
  rw [hstored] at hmatches
  obtain ⟨hvalid,_⟩ := inspect_envelope keptBench keptArguments miniKey keptBundle device.directory
  obtain ⟨exit,lines,hanswer,hsuccess,_⟩ :=
    deliver_eq keptArguments device ⟨.error .notFound,[],.done⟩ hvalid
  refine ⟨volume,device,⟨.error .notFound,[],.done⟩,hstaged,hmatches.directory,?_⟩
  rw [main_ready keptArguments_ready,hanswer]
  exact hsuccess.mpr ⟨kept_inspected device.directory (kept_read hstored),rfl⟩

theorem release_provenance_kept : ∃ (volume : Volume) (device : Device) (outlet : Outlet),
    Staged keepingCrypto keptCodecs volume ∧
    (keptArguments.main keptBench device outlet).code = .success ∧
    ∃ (envelope : WebFetchEnvelope) (key : HandoffKey) (bundle : RuleBundle) (data : WebFetchData)
      (run : FetchRun) (fetched : Fetch.Fetched) (trace : Fetch.Trace),
      keptArguments.Ready keptBench key bundle ∧
      (keptArguments.main keptBench device outlet).outlet =
        outlet.after none (keptBench.host.serde.print (envelope.toValue webFetchCodec)) ∧
      envelope.data = some data ∧
      Provenance keptBench "run-1" key bundle data
        (keptArguments.inspect keptBench key bundle device.directory).2.events run fetched trace := by
  obtain ⟨volume,device,outlet,hstaged,hdevice,hsuccess⟩ := kept_volume
  exact ⟨volume,device,outlet,hstaged,hsuccess,
    release_provenance keptBench keepingCrypto_ideal (codecOf_invertible _ _ _)
      (codecOf_invertible _ _ _) hstaged keptArguments hdevice outlet hsuccess⟩

end HearthAI.Stages
