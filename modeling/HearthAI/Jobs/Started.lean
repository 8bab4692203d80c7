import HearthAI.Core.Transition
import HearthAI.Jobs.Runs

/-! # Which runs are started

A run and its key are stored before `executor.start` is called, and stay stored when it
raises.
-/
namespace HearthAI.Jobs
open Python Transition

/-- The world and the outcomes after a sequence of calls on a new store. -/
def serve (service : RunService) (turns : List Turn) :
    World × List (Except AdmitError (Run × Bool)) :=
  turns.foldl (fun served turn =>
    (( service.admit turn served.1).2,served.2 ++ [( service.admit turn served.1).1]))
    (⟨.empty,[]⟩,[])

/-- `executor.start` was called for this run and returned. -/
def World.Started (world : World) (runId : Str) : Prop := runId ∈ world.started.map Prod.fst

instance (world : World) (runId : Str) : Decidable (world.Started runId) :=
  inferInstanceAs (Decidable (runId ∈ world.started.map Prod.fst))

/-- What a call returns has been started when the last call is over. -/
def NeverUnstarted (service : RunService) (turns : List Turn) : Prop :=
  ∀ run created, Except.ok (run,created) ∈ (serve service turns).2 →
    (serve service turns).1.Started run.id

/-- The key of the call belongs to a run for the same content that was not started. -/
def MeetsOrphan (service : RunService) (world : World) (turn : Turn) : Prop :=
  ∃ run profile existingId existing,
    service.prepare turn.call turn.id turn.now = .ok (run,profile) ∧
    world.store.keys.get run.identity = some existingId ∧
    world.store.runs.get existingId = some existing ∧
    existing.requestDigest = run.requestDigest ∧ ¬world.Started existingId

/-- The call creates this run, and its `executor.start` raises. -/
def StartRaises (service : RunService) (world : World) (turn : Turn) (runId : Str) : Prop :=
  ∃ run profile, service.prepare turn.call turn.id turn.now = .ok (run,profile) ∧ run.id = runId ∧
    world.store.keys.get run.identity = none ∧ world.store.runs.get run.id = none ∧
    turn.fails.isSome = true

section
variable {service : RunService} {turns : List Turn} {turn : Turn} {world world' : World}
  {outcome : Except AdmitError (Run × Bool)}

theorem serve_snoc (service : RunService) (turns : List Turn) (turn : Turn) :
    serve service (turns ++ [turn]) =
      (( service.admit turn (serve service turns).1).2,
        (serve service turns).2 ++ [( service.admit turn (serve service turns).1).1]) := by
  rw [serve,List.foldl_append]
  rfl

/-- What is known of the world after some calls and of what they returned. -/
structure Served (world : World) (outcomes : List (Except AdmitError (Run × Bool))) : Prop where
  consistent : world.store.Consistent
  returned : ∀ run created, Except.ok (run,created) ∈ outcomes →
    (world.store.runs.get run.id).isSome = true
  stored : ∀ runId, world.Started runId → (world.store.runs.get runId).isSome = true

theorem get_add {store : InMemoryRunStore} {run other : Run} {runId : Str} :
    (store.add run).runs.get runId = some other ↔
      runId = run.id ∧ run = other ∨ runId ≠ run.id ∧ store.runs.get runId = some other := by
  rw [InMemoryRunStore.add,Dict.get_set]
  split_ifs with hid
  · simp [hid]
  · simp [hid]

/-- What is offered under a new key and a new ID is created. -/
theorem Creates.eq_of_new {store store' : InMemoryRunStore} {run : Run}
    {result : Except StoreError (Run × Bool)} (h : Creates store run result store')
    (hkey : store.keys.get run.identity = none) (hrun : store.runs.get run.id = none) :
    result = .ok (run,true) := by
  cases h with
  | found hkey' _ _ =>
    rw [hkey] at hkey'
    cases hkey'
  | conflict hkey' _ _ =>
    rw [hkey] at hkey'
    cases hkey'
  | missing hkey' _ =>
    rw [hkey] at hkey'
    cases hkey'
  | duplicate _ hrun' =>
    rw [hrun] at hrun'
    cases hrun'
  | created _ _ => rfl

theorem isSome_get_add {store : InMemoryRunStore} {runId : Str} (run : Run)
    (h : (store.runs.get runId).isSome = true) : ((store.add run).runs.get runId).isSome = true := by
  rw [InMemoryRunStore.add,Dict.get_set]
  split_ifs
  · rfl
  · exact h

theorem isSome_get_add_self (store : InMemoryRunStore) (run : Run) :
    ((store.add run).runs.get run.id).isSome = true := by
  rw [InMemoryRunStore.add,Dict.get_set_self]
  rfl

theorem mem_append_ok {outcomes : List (Except AdmitError (Run × Bool))} {run : Run}
    {created : Bool} (hmem : Except.ok (run,created) ∈ outcomes ++ [outcome]) :
    Except.ok (run,created) ∈ outcomes ∨ outcome = .ok (run,created) := by
  rcases List.mem_append.mp hmem with hmem | hmem
  · exact .inl hmem
  · exact .inr (List.mem_singleton.mp hmem).symm

/-- A call keeps what was known, and what it returns is stored. -/
theorem Served.snoc {outcomes : List (Except AdmitError (Run × Bool))} (h : Served world outcomes)
    (hstep : AdmitStep service turn world outcome world') :
    Served world' (outcomes ++ [outcome]) := by
  cases hstep with
  | refused _ =>
    refine ⟨h.consistent,fun run created hmem => ?_,h.stored⟩
    exact h.returned run created ((mem_append_ok hmem).resolve_right nofun)
  | conflict _ _ =>
    refine ⟨h.consistent,fun run created hmem => ?_,h.stored⟩
    exact h.returned run created ((mem_append_ok hmem).resolve_right nofun)
  | attached _ hstore =>
    refine ⟨h.consistent,fun run created hmem => ?_,h.stored⟩
    rcases mem_append_ok hmem with hmem | hlast
    · exact h.returned run created hmem
    · obtain ⟨rfl,_⟩ := Prod.mk.inj (Except.ok.inj hlast)
      cases hstore with
      | found _ hrun _ =>
        rw [(h.consistent.keyed _ _ hrun).1,hrun]
        rfl
  | failed _ hstore _ =>
    refine ⟨hstore.consistent h.consistent,fun run created hmem => ?_,fun runId hstarted => ?_⟩
    · exact isSome_get_add _ (h.returned run created ((mem_append_ok hmem).resolve_right nofun))
    · exact isSome_get_add _ (h.stored runId hstarted)
  | @started offer profile _ hstore _ =>
    refine ⟨hstore.consistent h.consistent,fun run created hmem => ?_,fun runId hstarted => ?_⟩
    · rcases mem_append_ok hmem with hmem | hlast
      · exact isSome_get_add _ (h.returned run created hmem)
      · obtain ⟨rfl,_⟩ := Prod.mk.inj (Except.ok.inj hlast)
        exact isSome_get_add_self _ _
    · rw [World.Started,List.map_append,List.mem_append] at hstarted
      rcases hstarted with hstarted | hstarted
      · exact isSome_get_add _ (h.stored runId hstarted)
      · rw [List.mem_singleton.mp hstarted]
        exact isSome_get_add_self _ _

theorem served_serve (service : RunService) (turns : List Turn) :
    Served (serve service turns).1 (serve service turns).2 := by
  induction turns using List.reverseRecOn with
  | nil =>
    refine ⟨InMemoryRunStore.consistent_empty,fun run created hmem => ?_,fun runId hstarted => ?_⟩
    · exact absurd hmem List.not_mem_nil
    · exact absurd hstarted List.not_mem_nil
  | append_singleton turns turn ih =>
    have hstep := service.admit_step turn (serve service turns).1
    rw [serve_snoc]
    exact ih.snoc hstep

/-- A run that was stored and not started is not started by a later call. -/
theorem AdmitStep.started_iff (h : AdmitStep service turn world outcome world') {runId : Str}
    (hstored : (world.store.runs.get runId).isSome = true) :
    world'.Started runId ↔ world.Started runId := by
  cases h with
  | refused _ => rfl
  | conflict _ _ => rfl
  | attached _ _ => rfl
  | failed _ _ _ => rfl
  | @started run profile _ hstore _ =>
    have hne : runId ≠ run.id := by
      rintro rfl
      cases hstore with
      | created _ hrun =>
        rw [hrun] at hstored
        cases hstored
    rw [World.Started,World.Started,List.map_append,List.mem_append,List.map_singleton,
      List.mem_singleton,or_iff_left hne]

/-- After a call, the runs that are stored and not started are those from before, and the one that
it created if its start raised. -/
theorem AdmitStep.orphan_iff (h : AdmitStep service turn world outcome world')
    (hstarted : ∀ runId, world.Started runId → (world.store.runs.get runId).isSome = true)
    {runId : Str} : ((world'.store.runs.get runId).isSome = true ∧ ¬world'.Started runId) ↔
      ((world.store.runs.get runId).isSome = true ∧ ¬world.Started runId) ∨
        StartRaises service world turn runId := by
  have hidle : ∀ {P : Prop}, ¬StartRaises service world turn runId →
      (P ↔ P ∨ StartRaises service world turn runId) := fun h => (or_iff_left h).symm
  cases h with
  | refused hprepare =>
    refine hidle ?_
    rintro ⟨_,_,hprepare',_⟩
    rw [hprepare] at hprepare'
    cases hprepare'
  | conflict hprepare hstore =>
    refine hidle ?_
    rintro ⟨_,_,hprepare',_,hkey,hrun,_⟩
    obtain ⟨rfl,rfl⟩ := Prod.mk.inj (Except.ok.inj (hprepare.symm.trans hprepare'))
    cases hstore.eq_of_new hkey hrun
  | attached hprepare hstore =>
    refine hidle ?_
    rintro ⟨_,_,hprepare',_,hkey,hrun,_⟩
    obtain ⟨rfl,rfl⟩ := Prod.mk.inj (Except.ok.inj (hprepare.symm.trans hprepare'))
    cases hstore.eq_of_new hkey hrun
  | @failed run profile message hprepare hstore hfails =>
    cases hstore with
    | created hkey hrun =>
      by_cases hid : run.id = runId
      · subst hid
        refine iff_of_true ⟨isSome_get_add_self _ _,fun hold => ?_⟩
          (.inr ⟨run,profile,hprepare,rfl,hkey,hrun,by rw [hfails]; rfl⟩)
        have hsome := hstarted _ hold
        rw [hrun] at hsome
        cases hsome
      · have hother : ¬StartRaises service world turn runId := by
          rintro ⟨_,_,hprepare',hid',_⟩
          obtain ⟨rfl,rfl⟩ := Prod.mk.inj (Except.ok.inj (hprepare.symm.trans hprepare'))
          exact hid hid'
        dsimp only
        rw [or_iff_left hother,InMemoryRunStore.add,Dict.get_set,if_neg (Ne.symm hid)]
        rfl
  | @started run profile hprepare hstore hfails =>
    have hother : ¬StartRaises service world turn runId := by
      rintro ⟨_,_,_,_,_,_,hraises⟩
      rw [hfails] at hraises
      cases hraises
    rw [or_iff_left hother]
    by_cases hid : run.id = runId
    · subst hid
      refine iff_of_false (fun h => h.2 ?_) (fun h => ?_)
      · rw [World.Started,List.map_append,List.mem_append]
        exact .inr (List.mem_singleton.mpr rfl)
      · cases hstore with
        | created _ hrun =>
          rw [hrun] at h
          cases h.1
    · rw [World.Started,List.map_append,List.map_singleton,List.mem_append,List.mem_singleton,
        or_iff_left (Ne.symm hid),InMemoryRunStore.add,Dict.get_set,if_neg (Ne.symm hid)]
      rfl

/-- The runs that are stored and not started are those whose own `executor.start` raised. -/
theorem unstarted_iff (service : RunService) (turns : List Turn) {runId : Str} :
    (((serve service turns).1.store.runs.get runId).isSome = true ∧
        ¬(serve service turns).1.Started runId) ↔
      SomeEvent (fun earlier turn => StartRaises service (serve service earlier).1 turn runId)
        turns := by
  induction turns using List.reverseRecOn with
  | nil =>
    refine iff_of_false (fun h => by cases h.1) ?_
    rintro ⟨earlier,turn,later,hlog,_⟩
    simp at hlog
  | append_singleton turns turn ih =>
    have hstep := service.admit_step turn (serve service turns).1
    rw [serve_snoc,someEvent_snoc,← ih]
    exact hstep.orphan_iff (served_serve service turns).stored

/-- A call meets an orphan exactly when it is for a run whose own start raised. -/
theorem meetsOrphan_iff (service : RunService) (turns : List Turn) :
    MeetsOrphan service (serve service turns).1 turn ↔ ∃ run profile existingId existing,
      service.prepare turn.call turn.id turn.now = .ok (run,profile) ∧
      (serve service turns).1.store.keys.get run.identity = some existingId ∧
      (serve service turns).1.store.runs.get existingId = some existing ∧
      existing.requestDigest = run.requestDigest ∧
      SomeEvent (fun earlier turn => StartRaises service (serve service earlier).1 turn existingId)
        turns := by
  unfold MeetsOrphan
  refine exists_congr fun run => exists_congr fun profile => exists_congr fun existingId =>
    exists_congr fun existing => and_congr_right fun _ => and_congr_right fun _ =>
      and_congr_right fun hrun => and_congr_right fun _ => ?_
  rw [← unstarted_iff,hrun]
  exact (and_iff_right rfl).symm

/-- Where no start raises, every run that is returned was started. -/
theorem neverUnstarted_of_reliable (h : ∀ turn ∈ turns, turn.fails = none) :
    NeverUnstarted service turns := by
  intro run created hmem
  by_contra hnot
  have hstored := (served_serve service turns).returned run created hmem
  obtain ⟨earlier,turn,later,rfl,_,_,_,_,_,_,hraises⟩ :=
    (unstarted_iff service turns).mp ⟨hstored,hnot⟩
  rw [h turn (by simp)] at hraises
  cases hraises

/-- A call meets an orphan exactly when it returns a run that was not started. -/
theorem AdmitStep.meetsOrphan (h : AdmitStep service turn world outcome world')
    (hworld : world.store.Consistent) : MeetsOrphan service world turn ↔
      ∃ existing, outcome = .ok (existing,false) ∧ ¬world.Started existing.id := by
  constructor
  · rintro ⟨run,profile,existingId,existing,hprepare,hkey,hrun,hdigest,hstarted⟩
    obtain rfl := (hworld.keyed _ _ hrun).1
    cases h with
    | refused hprepare' =>
      rw [hprepare] at hprepare'
      cases hprepare'
    | conflict hprepare' hstore =>
      obtain ⟨rfl,rfl⟩ := Prod.mk.inj (Except.ok.inj (hprepare.symm.trans hprepare'))
      cases hstore.eq_of_found hkey hrun hdigest
    | attached hprepare' hstore =>
      obtain ⟨rfl,rfl⟩ := Prod.mk.inj (Except.ok.inj (hprepare.symm.trans hprepare'))
      cases hstore.eq_of_found hkey hrun hdigest
      exact ⟨_,rfl,hstarted⟩
    | failed hprepare' hstore _ =>
      obtain ⟨rfl,rfl⟩ := Prod.mk.inj (Except.ok.inj (hprepare.symm.trans hprepare'))
      cases hstore.eq_of_found hkey hrun hdigest
    | started hprepare' hstore _ =>
      obtain ⟨rfl,rfl⟩ := Prod.mk.inj (Except.ok.inj (hprepare.symm.trans hprepare'))
      cases hstore.eq_of_found hkey hrun hdigest
  · rintro ⟨existing,rfl,hstarted⟩
    cases h with
    | attached hprepare hstore =>
      cases hstore with
      | found hkey hrun hdigest =>
        refine ⟨_,_,_,_,hprepare,hkey,hrun,hdigest,?_⟩
        rwa [← (hworld.keyed _ _ hrun).1]

/-- One more call keeps the promise exactly when it meets no orphan. -/
theorem neverUnstarted_snoc : NeverUnstarted service (turns ++ [turn]) ↔
    NeverUnstarted service turns ∧ ¬MeetsOrphan service (serve service turns).1 turn := by
  have hserved := served_serve service turns
  have hstep := service.admit_step turn (serve service turns).1
  unfold NeverUnstarted
  rw [serve_snoc,hstep.meetsOrphan hserved.consistent]
  generalize serve service turns = served at *
  generalize service.admit turn served.1 = result at *
  obtain ⟨outcome,world'⟩ := result
  dsimp only at hstep ⊢
  constructor
  · intro h
    refine ⟨fun run created hmem => ?_,?_⟩
    · have hstarted := h run created (List.mem_append_left _ hmem)
      rwa [hstep.started_iff (hserved.returned run created hmem)] at hstarted
    · rintro ⟨existing,houtcome,hnot⟩
      have hstarted := h existing false (List.mem_append_right _ (by rw [houtcome]; simp))
      rw [houtcome] at hstep
      cases hstep with
      | attached _ _ => exact hnot hstarted
  · rintro ⟨h,hmeets⟩ run created hmem
    rcases mem_append_ok hmem with hmem | hlast
    · rw [hstep.started_iff (hserved.returned run created hmem)]
      exact h run created hmem
    · rw [hlast] at hstep
      cases hstep with
      | attached _ _ => exact not_not.mp fun hnot => hmeets ⟨run,hlast,hnot⟩
      | started _ _ _ =>
        rw [World.Started,List.map_append,List.mem_append]
        exact .inr (List.mem_singleton.mpr rfl)

/-- Every run that is returned was started, exactly when no call meets an orphan. -/
theorem neverUnstarted_iff (service : RunService) (turns : List Turn) :
    NeverUnstarted service turns ↔
      EachEvent (fun earlier turn => ¬MeetsOrphan service (serve service earlier).1 turn) turns := by
  induction turns using List.reverseRecOn with
  | nil => exact iff_of_true (fun run created hmem => absurd hmem List.not_mem_nil) .nil
  | append_singleton turns turn ih => rw [neverUnstarted_snoc,eachEvent_snoc,ih]

end

def newsKey : Str := lit "123e4567-e89b-12d3-a456-426614174000"

def newsCall : Call where
  callerId := lit "open-webui"
  toolKey := lit "web_research"
  toolVersion := 1
  idempotencyKey := newsKey
  payload := .dict [(lit "question",.str (lit "Current news"))]

def researchProfile : ResolvedWorkerProfile := ⟨lit "web-research-v1",90⟩

def newsDigest : String := "883f93d7bb7c3bc6cfa32f3c7da47d5df67045d89a6992d0f53387e5849e9d1b"

def researchService : RunService where
  registry := ⟨[((lit "web_research",1),webResearchDefinition)]⟩
  profiles := [(lit "web-research-v1",researchProfile)]
  int16 text := if text = lit "123e4567e89b12d3a456426614174000" then
    some 0x123e4567e89b12d3a456426614174000 else none
  sha256Hex _ := newsDigest

def newsRun (id : Str) : Run where
  id := id
  callerId := lit "open-webui"
  toolKey := lit "web_research"
  toolVersion := 1
  idempotencyKey := newsKey
  requestDigest := lit newsDigest
  request := WebResearchRequest.toDict ⟨lit "Current news",lit "standard",8⟩
  grants := {lit "search",lit "fetch",lit "infer"}
  budgets := ⟨6,8,6000000,48000,8000,90⟩
  policyVersion := lit "web_research:v1"
  state := .accepted
  createdAt := 0

theorem news_prepares (id : Str) : Prepares researchService webResearchDefinition newsCall id 0
    (newsRun id) researchProfile ⟨lit "Current news",lit "standard",8⟩ where
  key := by decide
  resolved := rfl
  trusted := rfl
  valid := rfl
  stored := rfl
  digest := by
    obtain ⟨bytes,hbytes⟩ := Option.isSome_iff_exists.mp
      (webResearchDefinition.canonical_encodable ⟨lit "Current news",lit "standard",8⟩)
    exact digest_eq_ok.mpr ⟨bytes,hbytes,rfl⟩
  runId := rfl
  identity := rfl
  grants := rfl
  budgets := rfl
  policy := rfl
  fresh := rfl
  time := rfl

/-- A start that raised is not made up for by the retry, which returns the run. -/
theorem retry_returns_unstarted : ¬NeverUnstarted researchService
    [⟨newsCall,lit "run-1",0,some (lit "quota exceeded")⟩,⟨newsCall,lit "run-2",0,none⟩] := by
  have hprepare : ∀ id, researchService.prepare newsCall id 0 = .ok (newsRun id,researchProfile) :=
    fun id => prepare_eq_ok.mpr ⟨_,_,news_prepares id⟩
  have hfirst : (serve researchService
      [⟨newsCall,lit "run-1",0,some (lit "quota exceeded")⟩]).1 =
        ⟨InMemoryRunStore.empty.add (newsRun (lit "run-1")),[]⟩ := by
    show ( researchService.admit ⟨newsCall,lit "run-1",0,_⟩ ⟨.empty,[]⟩).2 = _
    unfold RunService.admit
    dsimp only
    rw [hprepare]
    rfl
  intro h
  obtain ⟨_,hmeets⟩ := neverUnstarted_snoc.mp
    (show NeverUnstarted researchService ([_] ++ [_]) from h)
  rw [hfirst] at hmeets
  exact hmeets ⟨_,_,lit "run-1",newsRun (lit "run-1"),hprepare _,rfl,rfl,rfl,
    List.not_mem_nil⟩

end HearthAI.Jobs
