import HearthAI.Jobs.Interleaving

/-! # Which later admissions on an identity return its run

The store compares digests of the canonical JSON text, which writes a character beyond U+FFFF and
its two surrogates alike.
-/
namespace HearthAI.Jobs
open Text Python Transition

/-- The definition that a call names, and its request by that definition. -/
structure Validates (service : RunService) (call : Call) (definition : ToolDefinition)
    (request : definition.Request) : Prop where
  resolved : service.registry.resolve call.toolKey call.toolVersion = .ok definition
  valid : definition.validateRequest call.payload = .ok request

/-- The two calls have one validated request. -/
def SameRequest (service : RunService) (call call' : Call) : Prop :=
  ∃ definition request, Validates service call definition request ∧
    Validates service call' definition request

/-- The call has the identity of an earlier one, which created this run. -/
def Repeats (earlier : List Event) (call first : Call) (run : Run) : Prop :=
  first.identity = call.identity ∧ ∃ id now, Event.admission first id now (.ok (run,true)) ∈ earlier

/-- A later admission on the identity of a run returns it exactly when it has the same validated
request. -/
def ReturnsSame (service : RunService) (log : List Event) : Prop :=
  EachEvent (fun earlier event => ∀ call id now answer first run,
    event = .admission call id now answer → Repeats earlier call first run →
      ((∃ state, answer = .ok ({ run with state := state },false)) ↔
        SameRequest service first call)) log

/-- The two calls have no two requests that differ while their fields are written the same. Only a
request that has a record to store counts for the later call. -/
def TellsApart (service : RunService) (first call : Call) : Prop :=
  ∀ definition p q, Validates service first definition p → Validates service call definition q →
    (∃ view, definition.storageView q = .ok view) →
      SameFields (definition.toDict p) (definition.toDict q) → p = q

/-- Every later admission on an identity can be told from the first. -/
def EachTold (service : RunService) (log : List Event) : Prop :=
  EachEvent (fun earlier event => ∀ call id now answer first run,
    event = .admission call id now answer → Repeats earlier call first run →
      TellsApart service first call) log

/-- The text is the canonical one of the request of an admission. -/
def Digested (service : RunService) (log : List Event) (text : Bytes) : Prop :=
  ∃ call id now answer definition request, Event.admission call id now answer ∈ log ∧
    Validates service call definition request ∧
    encodeUtf8 (definition.canonical request) = some text

/-- SHA-256 tells the canonical texts of the admissions apart. -/
def CollisionFree (service : RunService) (log : List Event) : Prop :=
  ∀ text text', Digested service log text → Digested service log text' →
    service.sha256Hex text = service.sha256Hex text' → text = text'

section
variable {service : RunService} {t : Traffic} {log : List Event} {call : Call} {id : Str} {now : Int}
  {answer : Except AdmitError (Run × Bool)} {starting : Option Start}
  {store store' : InMemoryRunStore} {run : Run} {profile : ResolvedWorkerProfile}
  {definition : ToolDefinition} {p q : definition.Request} {first : Call} {firstId : Str}
  {firstNow : Int} {existing : Run}

/-- A call on the identity of a stored run returns the run exactly when it offers one of the same
digest. -/
theorem Offers.returns_iff (h : Offers service call id now store answer starting store')
    (hkey : store.keys.get call.identity = some run.id)
    (hrun : store.runs.get run.id = some existing)
    (hexisting : ∃ state, existing = { run with state := state }) :
    (∃ state, answer = .ok ({ run with state := state },false)) ↔
      ∃ offered profile, service.prepare call id now = .ok (offered,profile) ∧
        offered.requestDigest = run.requestDigest := by
  obtain ⟨state,rfl⟩ := hexisting
  have hidentity : ∀ offered profile, service.prepare call id now = .ok (offered,profile) →
      store.keys.get offered.identity = some run.id := by
    intro offered profile hprepare
    obtain ⟨_,_,hprepares⟩ := prepare_eq_ok.mp hprepare
    rwa [hprepares.identity]
  cases h with
  | refused hprepare =>
    refine iff_of_false (by rintro ⟨_,h⟩; cases h) ?_
    rintro ⟨offered,profile,hoffered,_⟩
    rw [hprepare] at hoffered
    cases hoffered
  | conflict hprepare hstore =>
    refine iff_of_false (by rintro ⟨_,h⟩; cases h) ?_
    rintro ⟨offered,profile,hoffered,hdigest⟩
    obtain ⟨rfl,rfl⟩ := Prod.mk.inj (Except.ok.inj (hprepare.symm.trans hoffered))
    cases hstore.eq_of_found (hidentity _ _ hprepare) hrun hdigest.symm
  | @attached offered found profile hprepare hstore =>
    cases hstore with
    | found hkey' hrun' hdigest =>
      obtain rfl := Option.some.inj ((hidentity _ _ hprepare).symm.trans hkey')
      obtain rfl := Option.some.inj (hrun.symm.trans hrun')
      exact iff_of_true ⟨state,rfl⟩ ⟨offered,profile,hprepare,hdigest.symm⟩
  | created hprepare hfree _ =>
    rw [hidentity _ _ hprepare] at hfree
    cases hfree

/-- A later call on the identity of a call offers a run by the same definition. -/
theorem Prepares.repeat_iff
    (h : Prepares service definition first firstId firstNow run profile p)
    (hidentity : first.identity = call.identity) :
    (∃ offered profile, service.prepare call id now = .ok (offered,profile) ∧
        offered.requestDigest = run.requestDigest) ↔
      ∃ q, Validates service call definition q ∧ (∃ view, definition.storageView q = .ok view) ∧
        service.digest definition q = .ok run.requestDigest := by
  obtain ⟨_,htool,hversion,hkey⟩ : first.callerId = call.callerId ∧
      first.toolKey = call.toolKey ∧ first.toolVersion = call.toolVersion ∧
      first.idempotencyKey = call.idempotencyKey := by
    simpa [Call.identity] using hidentity
  have hresolved := h.resolved
  rw [htool,hversion] at hresolved
  constructor
  · rintro ⟨offered,profile,hprepare,hdigest⟩
    obtain ⟨other,q,hq⟩ := prepare_eq_ok.mp hprepare
    obtain rfl := Except.ok.inj (hresolved.symm.trans hq.resolved)
    exact ⟨q,⟨hresolved,hq.valid⟩,⟨_,hq.stored⟩,hdigest ▸ hq.digest⟩
  · rintro ⟨q,hq,⟨view,hview⟩,hdigest⟩
    have hvalidKey := h.key
    rw [hkey] at hvalidKey
    obtain ⟨offered,hoffered⟩ :=
      exists_prepares hvalidKey hq.resolved h.trusted hq.valid hview id now
    refine ⟨offered,profile,prepare_eq_ok.mpr ⟨definition,q,hoffered⟩,?_⟩
    exact Except.ok.inj (hoffered.digest.symm.trans hdigest)

theorem sameRequest_iff (hp : Validates service first definition p) :
    SameRequest service first call ↔ Validates service call definition p := by
  constructor
  · rintro ⟨other,q,hq,hcall⟩
    obtain rfl := Except.ok.inj (hp.resolved.symm.trans hq.resolved)
    obtain rfl := Except.ok.inj (hp.valid.symm.trans hq.valid)
    exact hcall
  · intro hcall
    exact ⟨definition,p,hp,hcall⟩

theorem tellsApart_iff (hp : Validates service first definition p) :
    TellsApart service first call ↔ ∀ q, Validates service call definition q →
      (∃ view, definition.storageView q = .ok view) →
        SameFields (definition.toDict p) (definition.toDict q) → p = q := by
  constructor
  · intro h q hq hview hsame
    exact h definition p q hp hq hview hsame
  · intro h other p' q hp' hq hview hsame
    obtain rfl := Except.ok.inj (hp.resolved.symm.trans hp'.resolved)
    obtain rfl := Except.ok.inj (hp.valid.symm.trans hp'.valid)
    exact h q hq hview hsame

/-- Without a collision, the digests of two requests agree exactly when their fields are written the
same. -/
theorem digest_eq_iff (hsha : CollisionFree service log)
    (hp : ∀ text, encodeUtf8 (definition.canonical p) = some text → Digested service log text)
    (hq : ∀ text, encodeUtf8 (definition.canonical q) = some text → Digested service log text)
    {digest : Str} (hdigest : service.digest definition p = .ok digest) :
    service.digest definition q = .ok digest ↔
      SameFields (definition.toDict p) (definition.toDict q) := by
  rw [← definition.canonical_inj]
  constructor
  · intro hdigest'
    obtain ⟨text,htext,rfl⟩ := digest_eq_ok.mp hdigest
    obtain ⟨text',htext',hsame⟩ := digest_eq_ok.mp hdigest'
    have hsame := hsha text text' (hp text htext) (hq text' htext') (lit_injective hsame)
    exact encodeUtf8_injective htext (hsame ▸ htext')
  · intro hsame
    rw [← hdigest,RunService.digest,RunService.digest,hsame]

/-- A later call on the identity of a run treats the request as it should, exactly when the two can
be told apart. -/
theorem Offers.told_iff (h : Offers service call id now store answer starting store')
    (hp : Prepares service definition first firstId firstNow run profile p)
    (hidentity : first.identity = call.identity)
    (hkey : store.keys.get call.identity = some run.id)
    (hrun : store.runs.get run.id = some existing)
    (hexisting : ∃ state, existing = { run with state := state })
    (hdigest : ∀ q, Validates service call definition q →
      (service.digest definition q = .ok run.requestDigest ↔
        SameFields (definition.toDict p) (definition.toDict q))) :
    ((∃ state, answer = .ok ({ run with state := state },false)) ↔
      SameRequest service first call) ↔ TellsApart service first call := by
  have hvalid : Validates service first definition p := ⟨hp.resolved,hp.valid⟩
  rw [h.returns_iff hkey hrun hexisting,hp.repeat_iff hidentity,sameRequest_iff hvalid,
    tellsApart_iff hvalid]
  constructor
  · intro hiff q hq hview hsame
    have hcall := hiff.mp ⟨q,hq,hview,(hdigest q hq).mpr hsame⟩
    exact Except.ok.inj (hcall.valid.symm.trans hq.valid)
  · intro htold
    constructor
    · rintro ⟨q,hq,hview,hsame⟩
      rwa [htold q hq hview ((hdigest q hq).mp hsame)]
    · intro hcall
      exact ⟨p,hcall,⟨_,hp.stored⟩,hp.digest⟩

/-- Later admissions on an identity return its run for the same request only, exactly when each can
be told from the first. -/
theorem returnsSame_iff (h : Transition.Run (Step service) .new log t)
    (hsha : CollisionFree service log) : ReturnsSame service log ↔ EachTold service log := by
  have htold : ∀ earlier later call id now answer first run,
      log = earlier ++ .admission call id now answer :: later → Repeats earlier call first run →
        (((∃ state, answer = .ok ({ run with state := state },false)) ↔
          SameRequest service first call) ↔ TellsApart service first call) := by
    intro earlier later call id now answer first run hlog hrepeats
    obtain ⟨hidentity,firstId,firstNow,hmem⟩ := hrepeats
    obtain ⟨mid,hearlier,hrest⟩ := h.split hlog
    have hcut : Event.admission call id now answer :: later =
        [.admission call id now answer] ++ later := rfl
    obtain ⟨_,hlast,_⟩ := hrest.split hcut
    have hmid := sound_of_run hearlier
    obtain ⟨profile,hprepare⟩ := hmid.prepared first firstId firstNow run hmem
    obtain ⟨definition,p,hp⟩ := prepare_eq_ok.mp hprepare
    obtain ⟨state,hrun⟩ := hmid.unaltered run ⟨_,hmem,rfl⟩
    have hkey : mid.store.keys.get run.identity = some run.id :=
      (hmid.consistent.keyed _ _ hrun).2
    rw [hp.identity,hidentity] at hkey
    have hfirst : Event.admission first firstId firstNow (.ok (run,true)) ∈ log :=
      hlog ▸ List.mem_append_left _ hmem
    have hcall : Event.admission call id now answer ∈ log := by
      rw [hlog]
      exact List.mem_append_right _ List.mem_cons_self
    cases hlast.of_single with
    | admission hoffer =>
      refine (RunService.offer_offers hoffer).told_iff hp hidentity hkey hrun ⟨state,rfl⟩ ?_
      intro q hq
      exact digest_eq_iff hsha
        (fun text htext => ⟨_,_,_,_,definition,p,hfirst,⟨hp.resolved,hp.valid⟩,htext⟩)
        (fun text htext => ⟨_,_,_,_,definition,q,hcall,hq,htext⟩) hp.digest
  constructor
  · rintro hreturns earlier event later hlog call id now answer first run rfl hrepeats
    exact (htold _ _ _ _ _ _ _ _ hlog hrepeats).mp
      (hreturns _ _ _ hlog _ _ _ _ _ _ rfl hrepeats)
  · rintro htells earlier event later hlog call id now answer first run rfl hrepeats
    exact (htold _ _ _ _ _ _ _ _ hlog hrepeats).mpr
      (htells _ _ _ hlog _ _ _ _ _ _ rfl hrepeats)

/-- The store and its runs keep their invariants under any interleaving, and later admissions find
their run by their request, exactly when each can be told from the first of its identity. -/
theorem lifecycle_iff (h : Transition.Run (Step service) .new log t)
    (hsha : CollisionFree service log) :
    (Orderly service log t ∧ ReturnsSame service log) ↔ EachTold service log :=
  (and_iff_right (orderly_of_run h)).trans (returnsSame_iff h hsha)

end

/-- The news request is admitted and started, a retry finds its run, and the run moves on. -/
def newsLog : List Event :=
  [.admission newsCall (lit "run-1") 0 (.ok (newsRun (lit "run-1"),true)),
    .start (lit "run-1",researchProfile),
    .admission newsCall (lit "run-2") 0 (.ok (newsRun (lit "run-1"),false)),
    .transition (lit "run-1") .accepted .starting
      (.ok { newsRun (lit "run-1") with state := .starting })]

def newsTraffic : Traffic :=
  ⟨⟨[(lit "run-1",{ newsRun (lit "run-1") with state := .starting })],
    [(newsCall.identity,lit "run-1")]⟩,[],[(lit "run-1",researchProfile)]⟩

theorem news_run : Transition.Run (Step researchService) .new newsLog newsTraffic := by
  have hprepare : ∀ id, researchService.prepare newsCall id 0 = .ok (newsRun id,researchProfile) :=
    fun id => prepare_eq_ok.mpr ⟨_,_,news_prepares id⟩
  have hfirst : researchService.offer newsCall (lit "run-1") 0 Traffic.new.store =
      (.ok (newsRun (lit "run-1"),true),some ((newsRun (lit "run-1")).id,researchProfile),
        InMemoryRunStore.empty.add (newsRun (lit "run-1"))) :=
    RunService.offer_new (hprepare (lit "run-1")) rfl rfl
  have hretry : researchService.offer newsCall (lit "run-2") 0
      (InMemoryRunStore.empty.add (newsRun (lit "run-1"))) =
        (.ok (newsRun (lit "run-1"),false),none,
          InMemoryRunStore.empty.add (newsRun (lit "run-1"))) :=
    RunService.offer_again (hprepare (lit "run-2")) rfl rfl rfl
  have hempty : Transition.Run (Step researchService) .new [] .new := .nil
  have hadmitted := hempty.snoc (.admission hfirst)
  have hstarted := hadmitted.snoc (.start List.mem_cons_self)
  exact (hstarted.snoc (.admission hretry)).snoc (.transition rfl)

/-- The worker fails, and a late report that it runs is turned away. -/
def endedLog : List Event :=
  newsLog ++ [.transition (lit "run-1") .starting .failed
    (.ok { newsRun (lit "run-1") with state := .failed })] ++
  [.transition (lit "run-1") .starting .running
    (.error (.transitionConflict (lit "expected starting, found failed")))]

def endedTraffic : Traffic :=
  { newsTraffic with
    store := { newsTraffic.store with
      runs := [(lit "run-1",{ newsRun (lit "run-1") with state := .failed })] } }

theorem ended_run : Transition.Run (Step researchService) .new endedLog endedTraffic := by
  have hfailed : newsTraffic.store.transition (lit "run-1") .starting .failed =
      (.ok { newsRun (lit "run-1") with state := .failed },endedTraffic.store) := rfl
  have hlate : endedTraffic.store.transition (lit "run-1") .starting .running =
      (.error (.transitionConflict (lit "expected starting, found failed")),endedTraffic.store) := rfl
  exact (news_run.snoc (.transition hfailed)).snoc (.transition hlate)

theorem history_ended_news : .failed ∈ history (lit "run-1") endedLog ∧
    (endedTraffic.store.runs.get (lit "run-1")).map Run.state = some .failed := by
  have hfailed : .failed ∈ history (lit "run-1") endedLog := by decide
  exact ⟨hfailed,history_ended ended_run hfailed (by decide)⟩

theorem news_collisionFree : CollisionFree researchService newsLog := by
  have hcanonical : ∀ text, Digested researchService newsLog text →
      encodeUtf8 (webResearchDefinition.canonical ⟨lit "Current news",lit "standard",8⟩) =
        some text := by
    rintro text ⟨call,id,now,answer,definition,request,hmem,hvalidates,htext⟩
    have hcall : call = newsCall := by
      simp only [newsLog,List.mem_cons,Event.admission.injEq,reduceCtorEq,List.not_mem_nil,or_false,
        false_or] at hmem
      exact hmem.elim And.left And.left
    rw [hcall] at hvalidates
    obtain rfl := Except.ok.inj ((news_prepares id).resolved.symm.trans hvalidates.resolved)
    obtain rfl := Except.ok.inj ((news_prepares id).valid.symm.trans hvalidates.valid)
    exact htext
  intro text text' htext htext' _
  exact Option.some.inj ((hcanonical text htext).symm.trans (hcanonical text' htext'))

theorem news_lifecycle : (Orderly researchService newsLog newsTraffic ∧
    ReturnsSame researchService newsLog) ↔ EachTold researchService newsLog :=
  lifecycle_iff news_run news_collisionFree

/-- A character beyond U+FFFF, and the two surrogates that it is written with. -/
def smiley : Str := [0x1f600]
def smileySurrogates : Str := [0xd83d,0xde00]

def smileyCall (question : Str) : Call :=
  { newsCall with payload := .dict [(lit "question",.str question)] }

def smileyService : RunService :=
  { researchService with
    sha256Hex := fun _ => "43c5aa3bfd2bf37c00053c482c62cbe3eaff1d951195ab011e2071e5874221c5" }

def smileyRun (id question : Str) : Run :=
  { newsRun id with
    requestDigest := lit "43c5aa3bfd2bf37c00053c482c62cbe3eaff1d951195ab011e2071e5874221c5"
    request := WebResearchRequest.toDict ⟨question,lit "standard",8⟩ }

theorem smiley_prepares (id : Str) {question : Str}
    (hvalid : WebResearchRequest.fromDict (.dict [(lit "question",.str question)]) =
      .ok ⟨question,lit "standard",8⟩) :
    Prepares smileyService webResearchDefinition (smileyCall question) id 0 (smileyRun id question)
      researchProfile ⟨question,lit "standard",8⟩ where
  key := (news_prepares id).key
  resolved := rfl
  trusted := rfl
  valid := hvalid
  stored := rfl
  digest := by
    obtain ⟨bytes,hbytes⟩ := Option.isSome_iff_exists.mp
      (webResearchDefinition.canonical_encodable ⟨question,lit "standard",8⟩)
    exact digest_eq_ok.mpr ⟨bytes,hbytes,rfl⟩
  runId := rfl
  identity := rfl
  grants := rfl
  budgets := rfl
  policy := (news_prepares id).policy
  fresh := rfl
  time := rfl

/-- A question and another spelling of it are admitted on one identity. -/
def smileyLog : List Event :=
  [.admission (smileyCall smiley) (lit "run-1") 0 (.ok (smileyRun (lit "run-1") smiley,true)),
    .admission (smileyCall smileySurrogates) (lit "run-2") 0
      (.ok (smileyRun (lit "run-1") smiley,false))]

theorem smiley_run : ∃ t, Transition.Run (Step smileyService) .new smileyLog t := by
  have hfirst : smileyService.offer (smileyCall smiley) (lit "run-1") 0 Traffic.new.store =
      (.ok (smileyRun (lit "run-1") smiley,true),
        some ((smileyRun (lit "run-1") smiley).id,researchProfile),
          InMemoryRunStore.empty.add (smileyRun (lit "run-1") smiley)) :=
    RunService.offer_new (prepare_eq_ok.mpr ⟨_,_,smiley_prepares (lit "run-1") rfl⟩) rfl rfl
  have hother : smileyService.offer (smileyCall smileySurrogates) (lit "run-2") 0
      (InMemoryRunStore.empty.add (smileyRun (lit "run-1") smiley)) =
        (.ok (smileyRun (lit "run-1") smiley,false),none,
          InMemoryRunStore.empty.add (smileyRun (lit "run-1") smiley)) :=
    RunService.offer_again (prepare_eq_ok.mpr ⟨_,_,smiley_prepares (lit "run-2") rfl⟩) rfl rfl rfl
  have hempty : Transition.Run (Step smileyService) .new [] .new := .nil
  exact ⟨_,(hempty.snoc (.admission hfirst)).snoc (.admission hother)⟩

/-- Both questions have one canonical text. -/
theorem smiley_sameFields :
    SameFields (WebResearchRequest.toDict ⟨smiley,lit "standard",8⟩)
      (WebResearchRequest.toDict ⟨smileySurrogates,lit "standard",8⟩) := by
  refine ⟨_,_,rfl,rfl,?_⟩
  have hquestion : utf16 smiley = utf16 smileySurrogates := by decide
  refine Iff.mpr (sameMembers_cons rfl rfl webResearchDefinition.names_nodup) ⟨.str hquestion,?_⟩
  refine Iff.mpr (sameMembers_cons rfl rfl (by decide)) ⟨.str rfl,?_⟩
  refine Iff.mpr (sameMembers_cons rfl rfl (List.nodup_singleton _)) ⟨.int 8,?_⟩
  exact fun p hp => absurd hp List.not_mem_nil

theorem smiley_collisionFree : CollisionFree smileyService smileyLog := by
  have hcanonical : ∀ text, Digested smileyService smileyLog text →
      encodeUtf8 (webResearchDefinition.canonical ⟨smiley,lit "standard",8⟩) = some text := by
    rintro text ⟨call,id,now,answer,definition,request,hmem,hvalidates,htext⟩
    have hcall : call = smileyCall smiley ∨ call = smileyCall smileySurrogates := by
      simp only [smileyLog,List.mem_cons,Event.admission.injEq,List.not_mem_nil,or_false] at hmem
      exact hmem.imp And.left And.left
    rcases hcall with rfl | rfl
    · obtain rfl := Except.ok.inj ((smiley_prepares id rfl).resolved.symm.trans hvalidates.resolved)
      obtain rfl := Except.ok.inj ((smiley_prepares id rfl).valid.symm.trans hvalidates.valid)
      exact htext
    · obtain rfl := Except.ok.inj ((smiley_prepares id rfl).resolved.symm.trans hvalidates.resolved)
      obtain rfl := Except.ok.inj ((smiley_prepares id rfl).valid.symm.trans hvalidates.valid)
      rw [webResearchDefinition.canonical_inj.mpr smiley_sameFields]
      exact htext
  intro text text' htext htext' _
  exact Option.some.inj ((hcanonical text htext).symm.trans (hcanonical text' htext'))

/-- The surrogates get the run of the character, though no two texts collide. -/
theorem surrogates_share_run : ∃ t, Transition.Run (Step smileyService) .new smileyLog t ∧
    CollisionFree smileyService smileyLog ∧
    ¬(Orderly smileyService smileyLog t ∧ ReturnsSame smileyService smileyLog) := by
  obtain ⟨t,hrun⟩ := smiley_run
  refine ⟨t,hrun,smiley_collisionFree,?_⟩
  rintro ⟨_,hreturns⟩
  have hsame := hreturns [_] _ [] rfl _ _ _ _ (smileyCall smiley) (smileyRun (lit "run-1") smiley)
    rfl ⟨rfl,lit "run-1",0,List.mem_singleton.mpr rfl⟩
  have hvalid : Validates smileyService (smileyCall smiley) webResearchDefinition
      ⟨smiley,lit "standard",8⟩ := ⟨rfl,rfl⟩
  have hother := (sameRequest_iff hvalid).mp (hsame.mp ⟨.accepted,rfl⟩)
  have hparsed : WebResearchRequest.fromDict (smileyCall smileySurrogates).payload =
      .ok ⟨smileySurrogates,lit "standard",8⟩ := rfl
  have hquestion := Except.ok.inj (hother.valid.symm.trans hparsed)
  exact absurd (congrArg WebResearchRequest.question hquestion) (by decide)

end HearthAI.Jobs
