import HearthAI.Jobs.Started

/-! # How many runs one UUID makes

A key is accepted by the UUID it denotes, and the store knows it by its characters.
-/
namespace HearthAI.Jobs
open Python Transition

/-- Runs of one caller, one tool and version, and one UUID. -/
structure SameInvocation (int16 : Str → Option Int) (run other : Run) : Prop where
  caller : run.callerId = other.callerId
  tool : run.toolKey = other.toolKey
  version : run.toolVersion = other.toolVersion
  uuid : parseUuid int16 run.idempotencyKey = parseUuid int16 other.idempotencyKey

/-- An invocation has one run at most, and one worker at most was started for it. -/
structure OneInvocation (int16 : Str → Option Int) (world : World) : Prop where
  run : ∀ runId otherId run other, world.store.runs.get runId = some run →
    world.store.runs.get otherId = some other → SameInvocation int16 run other → runId = otherId
  worker : world.started.Pairwise (fun first second => ∀ run other,
    world.store.runs.get first.1 = some run → world.store.runs.get second.1 = some other →
      ¬SameInvocation int16 run other)

/-- The call offers a run under a new spelling of a key, whose UUID the store knows by another. -/
def Respelled (service : RunService) (world : World) (turn : Turn) : Prop :=
  ∃ run profile otherId other,
    service.prepare turn.call turn.id turn.now = .ok (run,profile) ∧
    world.store.keys.get run.identity = none ∧ world.store.runs.get run.id = none ∧
    world.store.runs.get otherId = some other ∧
    other.idempotencyKey ≠ run.idempotencyKey ∧ SameInvocation service.int16 run other

section
variable {service : RunService} {turns : List Turn} {turn : Turn} {world world' : World}
  {outcome : Except AdmitError (Run × Bool)} {int16 : Str → Option Int}

theorem SameInvocation.symm {run other : Run} (h : SameInvocation int16 run other) :
    SameInvocation int16 other run := ⟨h.caller.symm,h.tool.symm,h.version.symm,h.uuid.symm⟩

/-- With one spelling, an invocation is an identity. -/
theorem SameInvocation.identity {run other : Run} (h : SameInvocation int16 run other)
    (hkey : run.idempotencyKey = other.idempotencyKey) : run.identity = other.identity := by
  rw [Run.identity,Run.identity,h.caller,h.tool,h.version,hkey]

/-- Every worker is one of a stored run, and no run has two. -/
structure Staffed (world : World) : Prop where
  consistent : world.store.Consistent
  stored : ∀ runId, world.Started runId → (world.store.runs.get runId).isSome = true
  once : (world.started.map Prod.fst).Nodup

theorem staffed_serve (service : RunService) (turns : List Turn) :
    Staffed (serve service turns).1 := by
  have hserved := served_serve service turns
  refine ⟨hserved.consistent,hserved.stored,?_⟩
  clear hserved
  induction turns using List.reverseRecOn with
  | nil => exact List.nodup_nil
  | append_singleton turns turn ih =>
    have hstored := (served_serve service turns).stored
    have hstep := service.admit_step turn (serve service turns).1
    rw [serve_snoc]
    generalize (serve service turns).1 = world at *
    dsimp only
    generalize service.admit turn world = result at *
    obtain ⟨outcome,world'⟩ := result
    dsimp only at hstep ⊢
    cases hstep with
    | refused _ => exact ih
    | conflict _ _ => exact ih
    | attached _ _ => exact ih
    | failed _ _ _ => exact ih
    | @started run profile _ hstore _ =>
      cases hstore with
      | created _ hrun =>
        rw [List.map_append,List.map_singleton,← List.concat_eq_append,List.nodup_concat]
        refine ⟨fun hmem => ?_,ih⟩
        have hsome := hstored run.id hmem
        rw [hrun] at hsome
        cases hsome

/-- With each run started at most once, one run of an invocation means one worker. -/
theorem Staffed.once_iff (h : Staffed world) : OneInvocation int16 world ↔
    ∀ runId otherId run other, world.store.runs.get runId = some run →
      world.store.runs.get otherId = some other → SameInvocation int16 run other →
        runId = otherId := by
  refine ⟨OneInvocation.run,fun hrun => ⟨hrun,?_⟩⟩
  have hpairwise := List.pairwise_map.mp h.once
  refine hpairwise.imp fun {first second} hne run other hfirst hsecond hsame => ?_
  exact hne (hrun _ _ run other hfirst hsecond hsame)

/-- A stored run of the same invocation as a new one is spelled otherwise. -/
theorem respelled_iff {run : Run} {profile : ResolvedWorkerProfile}
    (hconsistent : world.store.Consistent)
    (hprepare : service.prepare turn.call turn.id turn.now = .ok (run,profile))
    (hkey : world.store.keys.get run.identity = none)
    (hrun : world.store.runs.get run.id = none) :
    Respelled service world turn ↔ ∃ otherId other, world.store.runs.get otherId = some other ∧
      SameInvocation service.int16 run other := by
  constructor
  · rintro ⟨run',profile',otherId,other,hprepare',_,_,hother,_,hsame⟩
    obtain ⟨rfl,_⟩ := Prod.mk.inj (Except.ok.inj (hprepare.symm.trans hprepare'))
    exact ⟨otherId,other,hother,hsame⟩
  · rintro ⟨otherId,other,hother,hsame⟩
    refine ⟨run,profile,otherId,other,hprepare,hkey,hrun,hother,fun hspelled => ?_,hsame⟩
    have hknown := (hconsistent.keyed _ _ hother).2
    rw [← hsame.identity hspelled.symm,hkey] at hknown
    cases hknown

/-- A new run keeps invocations apart exactly when no stored run is of its invocation. -/
theorem oneRun_add {store : InMemoryRunStore} {run : Run} (hrun : store.runs.get run.id = none) :
    (∀ runId otherId first second, (store.add run).runs.get runId = some first →
      (store.add run).runs.get otherId = some second → SameInvocation int16 first second →
        runId = otherId) ↔
    (∀ runId otherId first second, store.runs.get runId = some first →
      store.runs.get otherId = some second → SameInvocation int16 first second →
        runId = otherId) ∧
      ¬∃ otherId other, store.runs.get otherId = some other ∧ SameInvocation int16 run other := by
  have hne : ∀ {runId other}, store.runs.get runId = some other → runId ≠ run.id := by
    rintro _ _ hother rfl
    rw [hrun] at hother
    cases hother
  constructor
  · intro h
    refine ⟨fun runId otherId first second hfirst hsecond => ?_,?_⟩
    · exact h runId otherId first second (get_add.mpr (.inr ⟨hne hfirst,hfirst⟩))
        (get_add.mpr (.inr ⟨hne hsecond,hsecond⟩))
    · rintro ⟨otherId,other,hother,hsame⟩
      exact hne hother (h run.id otherId run other (get_add.mpr (.inl ⟨rfl,rfl⟩))
        (get_add.mpr (.inr ⟨hne hother,hother⟩)) hsame).symm
  · rintro ⟨h,hnew⟩ runId otherId first second hfirst hsecond hsame
    rcases get_add.mp hfirst with ⟨rfl,rfl⟩ | ⟨_,hfirst⟩ <;>
      rcases get_add.mp hsecond with ⟨rfl,rfl⟩ | ⟨_,hsecond⟩
    · rfl
    · exact absurd ⟨otherId,second,hsecond,hsame⟩ hnew
    · exact absurd ⟨runId,first,hfirst,hsame.symm⟩ hnew
    · exact h runId otherId first second hfirst hsecond hsame

/-- One more call keeps invocations apart exactly when it does not respell a key. -/
theorem oneInvocation_snoc : OneInvocation service.int16 (serve service (turns ++ [turn])).1 ↔
    OneInvocation service.int16 (serve service turns).1 ∧
      ¬Respelled service (serve service turns).1 turn := by
  have hbefore := staffed_serve service turns
  have hafter := staffed_serve service (turns ++ [turn])
  have hstep := service.admit_step turn (serve service turns).1
  rw [hbefore.once_iff,hafter.once_iff]
  rw [serve_snoc]
  generalize (serve service turns).1 = world at *
  dsimp only
  generalize service.admit turn world = result at *
  obtain ⟨outcome,world'⟩ := result
  dsimp only at hstep ⊢
  have hidle : ∀ {P : Prop}, ¬Respelled service world turn →
      (P ↔ P ∧ ¬Respelled service world turn) := fun h => (and_iff_left h).symm
  cases hstep with
  | refused hprepare =>
    refine hidle ?_
    rintro ⟨_,_,_,_,hprepare',_⟩
    rw [hprepare] at hprepare'
    cases hprepare'
  | conflict hprepare hstore =>
    refine hidle ?_
    rintro ⟨run,profile,_,_,hprepare',hkey,hrun,_⟩
    obtain ⟨rfl,rfl⟩ := Prod.mk.inj (Except.ok.inj (hprepare.symm.trans hprepare'))
    cases hstore.eq_of_new hkey hrun
  | attached hprepare hstore =>
    refine hidle ?_
    rintro ⟨run,profile,_,_,hprepare',hkey,hrun,_⟩
    obtain ⟨rfl,rfl⟩ := Prod.mk.inj (Except.ok.inj (hprepare.symm.trans hprepare'))
    cases hstore.eq_of_new hkey hrun
  | failed hprepare hstore _ =>
    cases hstore with
    | created hkey hrun =>
      rw [respelled_iff hbefore.consistent hprepare hkey hrun]
      exact oneRun_add hrun
  | started hprepare hstore _ =>
    cases hstore with
    | created hkey hrun =>
      rw [respelled_iff hbefore.consistent hprepare hkey hrun]
      exact oneRun_add hrun

/-- Each invocation has one run and one worker at most, exactly when no call respells a key. -/
theorem oneInvocation_iff (service : RunService) (turns : List Turn) :
    OneInvocation service.int16 (serve service turns).1 ↔
      EachEvent (fun earlier turn => ¬Respelled service (serve service earlier).1 turn) turns := by
  induction turns using List.reverseRecOn with
  | nil =>
    refine iff_of_true ⟨?_,.nil⟩ .nil
    rintro _ _ _ _ ⟨⟩
  | append_singleton turns turn ih => rw [oneInvocation_snoc,eachEvent_snoc,ih]

/-- An accepted key is the text of its UUID, up to the case of letters. -/
theorem lower_of_accepted {key : Str} (h : validateIdempotencyKey int16 key = .ok ()) :
    ∃ n, parseUuid int16 key = some n ∧ lower key = uuidText n := by
  unfold validateIdempotencyKey at h
  split at h
  · cases h
  · next n hparse =>
    split_ifs at h with hlower
    exact ⟨n,hparse,(not_not.mp hlower).symm⟩

/-- The stored runs were offered by the calls, under accepted keys. -/
theorem accepted_serve (service : RunService) (turns : List Turn) {runId : Str} {run : Run}
    (hrun : (serve service turns).1.store.runs.get runId = some run) :
    validateIdempotencyKey service.int16 run.idempotencyKey = .ok () ∧
      ∃ turn ∈ turns, run.identity = turn.call.identity := by
  induction turns using List.reverseRecOn generalizing runId run with
  | nil => cases hrun
  | append_singleton turns turn ih =>
    have hkeep : (serve service turns).1.store.runs.get runId = some run →
        validateIdempotencyKey service.int16 run.idempotencyKey = .ok () ∧
          ∃ earlier ∈ turns ++ [turn], run.identity = earlier.call.identity := by
      intro h
      obtain ⟨hkey,earlier,hmem,hsame⟩ := ih h
      exact ⟨hkey,earlier,List.mem_append_left _ hmem,hsame⟩
    have hnew : ∀ {offer profile},
        service.prepare turn.call turn.id turn.now = .ok (offer,profile) →
        ((serve service turns).1.store.add offer).runs.get runId = some run →
        validateIdempotencyKey service.int16 run.idempotencyKey = .ok () ∧
          ∃ earlier ∈ turns ++ [turn], run.identity = earlier.call.identity := by
      intro offer profile hprepare h
      rcases get_add.mp h with ⟨rfl,rfl⟩ | ⟨_,h⟩
      · obtain ⟨_,_,hprepares⟩ := prepare_eq_ok.mp hprepare
        have hkey := hprepares.key
        rw [← hprepares.spelling] at hkey
        exact ⟨hkey,turn,by simp,hprepares.identity⟩
      · exact hkeep h
    have hstep := service.admit_step turn (serve service turns).1
    rw [serve_snoc] at hrun
    generalize service.admit turn (serve service turns).1 = result at hstep hrun
    obtain ⟨outcome,world'⟩ := result
    dsimp only at hstep hrun
    cases hstep with
    | refused _ => exact hkeep hrun
    | conflict _ _ => exact hkeep hrun
    | attached _ _ => exact hkeep hrun
    | failed hprepare _ _ => exact hnew hprepare hrun
    | started hprepare _ _ => exact hnew hprepare hrun

/-- The two calls are for one invocation, under two accepted spellings of its key. -/
structure Respells (int16 : Str → Option Int) (call other : Call) : Prop where
  caller : call.callerId = other.callerId
  tool : call.toolKey = other.toolKey
  version : call.toolVersion = other.toolVersion
  accepted : validateIdempotencyKey int16 call.idempotencyKey = .ok ()
  acceptedOther : validateIdempotencyKey int16 other.idempotencyKey = .ok ()
  uuid : parseUuid int16 call.idempotencyKey = parseUuid int16 other.idempotencyKey
  spelled : call.idempotencyKey ≠ other.idempotencyKey

/-- A key is respelled only after a call of the sequence that spelled it otherwise. -/
theorem respells_of_respelled {earlier : List Turn}
    (h : Respelled service (serve service earlier).1 turn) :
    ∃ other ∈ earlier, Respells service.int16 turn.call other.call := by
  obtain ⟨run,profile,otherId,stored,hprepare,_,_,hstored,hspelled,hsame⟩ := h
  obtain ⟨_,_,hprepares⟩ := prepare_eq_ok.mp hprepare
  obtain ⟨haccepted,other,hmem,hother⟩ := accepted_serve service earlier hstored
  have hidentity := hprepares.identity
  simp only [Run.identity,Call.identity,Prod.mk.injEq] at hidentity hother
  obtain ⟨hcaller,htool,hversion,hkey⟩ := hidentity
  obtain ⟨hcaller',htool',hversion',hkey'⟩ := hother
  refine ⟨other,hmem,?_,?_,?_,hprepares.key,hkey' ▸ haccepted,?_,?_⟩
  · rw [← hcaller,← hcaller',hsame.caller]
  · rw [← htool,← htool',hsame.tool]
  · rw [← hversion,← hversion',hsame.version]
  · rw [← hkey,← hkey',hsame.uuid]
  · rw [← hkey,← hkey']
    exact hspelled.symm

/-- Calls that spell each key in one way have one run and one worker for an invocation. -/
theorem oneInvocation_of_spelled
    (h : ∀ turn ∈ turns, ∀ other ∈ turns, ¬Respells service.int16 turn.call other.call) :
    OneInvocation service.int16 (serve service turns).1 := by
  induction turns using List.reverseRecOn with
  | nil =>
    refine ⟨?_,.nil⟩
    rintro _ _ _ _ ⟨⟩
  | append_singleton turns turn ih =>
    refine oneInvocation_snoc.mpr ⟨ih fun turn hmem other hmem' => ?_,fun hrespelled => ?_⟩
    · exact h turn (List.mem_append_left _ hmem) other (List.mem_append_left _ hmem')
    · obtain ⟨other,hmem,hrespells⟩ := respells_of_respelled hrespelled
      exact h turn (by simp) other (List.mem_append_left _ hmem) hrespells

/-- Two keys in lower case do not spell one UUID. -/
theorem not_respells_of_lower {call other : Call}
    (hcall : lower call.idempotencyKey = call.idempotencyKey)
    (hother : lower other.idempotencyKey = other.idempotencyKey) :
    ¬Respells int16 call other := by
  intro h
  obtain ⟨n,hn,htext⟩ := lower_of_accepted h.accepted
  obtain ⟨m,hm,htext'⟩ := lower_of_accepted h.acceptedOther
  obtain rfl : n = m := by
    have huuid := h.uuid
    rw [hn,hm] at huuid
    exact Option.some.inj huuid
  exact h.spelled (by rw [← hcall,htext,← htext',hother])

/-- Callers that write their keys in lower case respell none. -/
theorem not_respelled_of_lower {earlier : List Turn}
    (hlower : ∀ turn ∈ earlier, lower turn.call.idempotencyKey = turn.call.idempotencyKey)
    (hturn : lower turn.call.idempotencyKey = turn.call.idempotencyKey) :
    ¬Respelled service (serve service earlier).1 turn := by
  intro h
  obtain ⟨other,hmem,hrespells⟩ := respells_of_respelled h
  exact not_respells_of_lower hturn (hlower other hmem) hrespells

end

def upperKey : Str := lit "123E4567-E89B-12D3-A456-426614174000"

/-- `int(text, 16)` on the digits of the key, in either case. -/
def spelledService : RunService :=
  { researchService with int16 := fun text => researchService.int16 (lower text) }

def spelledCall (key : Str) : Call := { newsCall with idempotencyKey := key }
def spelledRun (id key : Str) : Run := { newsRun id with idempotencyKey := key }

theorem spelled_prepares (id : Str) {key : Str}
    (hkey : validateIdempotencyKey spelledService.int16 key = .ok ()) :
    spelledService.prepare (spelledCall key) id 0 = .ok (spelledRun id key,researchProfile) := by
  have h := news_prepares id
  exact prepare_eq_ok.mpr ⟨_,_,⟨hkey,h.resolved,h.trusted,h.valid,h.stored,h.digest,h.runId,rfl,
    h.grants,h.budgets,h.policy,h.fresh,h.time⟩⟩

def lowerTurn : Turn := ⟨spelledCall newsKey,lit "run-1",0,none⟩
def upperTurn : Turn := ⟨spelledCall upperKey,lit "run-2",0,none⟩

/-- One UUID in lower case alone makes one run, however often it comes. -/
theorem oneInvocation_of_spelled_lower :
    OneInvocation spelledService.int16 (serve spelledService [lowerTurn,lowerTurn,lowerTurn]).1 := by
  refine oneInvocation_of_spelled fun turn hturn other hother => ?_
  have hlower : ∀ turn ∈ [lowerTurn,lowerTurn,lowerTurn],
      lower turn.call.idempotencyKey = turn.call.idempotencyKey := by decide
  exact not_respells_of_lower (hlower turn hturn) (hlower other hother)

/-- One UUID in lower and in upper case makes two runs. -/
theorem two_spellings_two_runs :
    ¬OneInvocation spelledService.int16 (serve spelledService [lowerTurn,upperTurn]).1 := by
  have hfirst : (serve spelledService [lowerTurn]).1 =
      ⟨InMemoryRunStore.empty.add (spelledRun (lit "run-1") newsKey),
        [(lit "run-1",researchProfile)]⟩ := by
    show ( spelledService.admit lowerTurn ⟨.empty,[]⟩).2 = _
    unfold RunService.admit lowerTurn
    dsimp only
    rw [spelled_prepares _ (by decide)]
    rfl
  have hboth : (serve spelledService ([lowerTurn] ++ [upperTurn])).1 =
      ⟨(InMemoryRunStore.empty.add (spelledRun (lit "run-1") newsKey)).add
        (spelledRun (lit "run-2") upperKey),
        [(lit "run-1",researchProfile),(lit "run-2",researchProfile)]⟩ := by
    rw [serve_snoc,hfirst]
    unfold RunService.admit upperTurn
    dsimp only
    rw [spelled_prepares _ (by decide)]
    rfl
  intro h
  have hid := OneInvocation.run (hboth ▸ h) (lit "run-1") (lit "run-2")
    (spelledRun (lit "run-1") newsKey) (spelledRun (lit "run-2") upperKey) rfl rfl
    ⟨rfl,rfl,rfl,by decide⟩
  exact absurd hid (by decide)

end HearthAI.Jobs
