import HearthAI.Core.History
import HearthAI.Jobs.Started

/-! # Interleaved admissions and transitions

An admission is cut where another thread can come between: after the answer of the store, and
before `executor.start`. What comes before the store is local to the call.
-/
namespace HearthAI.Jobs
open Python Transition

/-- A run ID with the profile that it is started with. -/
abbrev Start := Str × ResolvedWorkerProfile

/-- The admissions that created a run and are about to call `executor.start`, and the calls of it
so far, whether they returned or raised. -/
structure Traffic where
  store : InMemoryRunStore
  waiting : List Start
  starts : List Start

def Traffic.new : Traffic := ⟨.empty,[],[]⟩

/-- A step of some thread, with what the store answered. -/
inductive Event
  | admission (call : Call) (id : Str) (now : Int) (answer : Except AdmitError (Run × Bool))
  | start (begun : Start)
  | get (runId : Str) (answer : Except StoreError Run)
  | transition (runId : Str) (expected target : RunState) (answer : Except StoreError Run)

/-- `admit` up to the answer of the store, and what it goes on to start. -/
def RunService.offer (service : RunService) (call : Call) (id : Str) (now : Int)
    (store : InMemoryRunStore) :
    Except AdmitError (Run × Bool) × Option Start × InMemoryRunStore :=
  match service.prepare call id now with
  | .error e => (.error e,none,store)
  | .ok (run,profile) =>
    match store.createOrGet run with
    | (.error e,store) => (.error (.store e),none,store)
    | (.ok (stored,false),store) => (.ok (stored,false),none,store)
    | (.ok (stored,true),store) => (.ok (stored,true),some (stored.id,profile),store)

/-- What `admit` does after the answer of the store. -/
def World.finish (world : World) (fails : Option Str) :
    Except AdmitError (Run × Bool) × Option Start × InMemoryRunStore →
      Except AdmitError (Run × Bool) × World
  | (answer,none,store) => (answer,{ world with store := store })
  | (answer,some begun,store) =>
    match fails with
    | some message => (.error (.executor message),{ world with store := store })
    | none => (answer,⟨store,world.started ++ [begun]⟩)

/-- One step of the threads that share a store. -/
inductive Step (service : RunService) : Traffic → Event → Traffic → Prop
  | admission {t : Traffic} {call : Call} {id : Str} {now : Int}
      {answer : Except AdmitError (Run × Bool)} {starting : Option Start}
      {store : InMemoryRunStore}
      (h : service.offer call id now t.store = (answer,starting,store)) :
      Step service t (.admission call id now answer)
        { t with store := store, waiting := t.waiting ++ starting.toList }
  | start {t : Traffic} {begun : Start} (h : begun ∈ t.waiting) :
      Step service t (.start begun)
        { t with waiting := t.waiting.erase begun, starts := t.starts ++ [begun] }
  | get {t : Traffic} {runId : Str} : Step service t (.get runId (t.store.get runId)) t
  | transition {t : Traffic} {runId : Str} {expected target : RunState}
      {answer : Except StoreError Run} {store : InMemoryRunStore}
      (h : t.store.transition runId expected target = (answer,store)) :
      Step service t (.transition runId expected target answer) { t with store := store }

/-- The run that the event created. -/
def Event.created : Event → Option Run
  | admission _ _ _ (.ok (run,true)) => some run
  | _ => none

/-- The state that the event gave to a run. -/
def Event.gives (runId : Str) : Event → Option RunState
  | admission _ _ _ (.ok (run,true)) => if run.id = runId then some run.state else none
  | transition otherId _ _ (.ok run) => if otherId = runId then some run.state else none
  | _ => none

/-- The operation on the store raised, or was not reached. -/
def Event.raised : Event → Bool
  | admission _ _ _ (.error _) => true
  | get _ (.error _) => true
  | transition _ _ _ (.error _) => true
  | _ => false

/-- The states that a run went through. -/
def history (runId : Str) (log : List Event) : List RunState := log.filterMap (Event.gives runId)

/-- Some event created the run. -/
def CreatedIn (log : List Event) (run : Run) : Prop := ∃ event ∈ log, event.created = some run

/-- The calls of `executor.start` for the run of an identity. -/
def Traffic.startsOf (t : Traffic) (identity : Identity) : List Start :=
  t.starts.filter (fun begun => (t.store.runs.get begun.1).map Run.identity = some identity)

/-- The invariants of the two maps, of the states of the runs and of their starts. -/
structure Orderly (service : RunService) (log : List Event) (t : Traffic) : Prop where
  stored : ∀ identity runId, t.store.keys.get identity = some runId →
    ∃ run, t.store.runs.get runId = some run ∧ run.identity = identity
  distinct : ∀ identity identity' runId, t.store.keys.get identity = some runId →
    t.store.keys.get identity' = some runId → identity = identity'
  keyed : ∀ runId run, t.store.runs.get runId = some run →
    t.store.keys.get run.identity = some runId
  accepted : ∀ runId, ∀ state ∈ (history runId log).head?, state = .accepted
  legal : ∀ runId, (history runId log).IsChain (fun state target => target ∈ state.legal)
  current : ∀ runId, (history runId log).getLast? = (t.store.runs.get runId).map Run.state
  terminal : ∀ runId earlier event later state, log = earlier ++ event :: later →
    event.gives runId = some state → state.Terminal → ∀ other ∈ later, other.gives runId = none
  unaltered : ∀ run, CreatedIn log run →
    ∃ state, t.store.runs.get run.id = some { run with state := state }
  origin : ∀ runId run, t.store.runs.get runId = some run →
    CreatedIn log { run with state := .accepted }
  unchanged : ∀ earlier event later mid mid', log = earlier ++ event :: later →
    Transition.Run (Step service) .new earlier mid → Step service mid event mid' →
      event.raised = true → mid'.store = mid.store
  createdOnce : log.Pairwise (fun event other => ∀ run run', event.created = some run →
    other.created = some run' → run.identity ≠ run'.identity)
  startedStored : ∀ begun ∈ t.starts, (t.store.runs.get begun.1).isSome = true
  startedOnce : ∀ identity, (t.startsOf identity).length ≤ 1

/-- What `offer` can do. -/
inductive Offers (service : RunService) (call : Call) (id : Str) (now : Int)
    (store : InMemoryRunStore) :
    Except AdmitError (Run × Bool) → Option Start → InMemoryRunStore → Prop
  | refused {e : AdmitError} (hprepare : service.prepare call id now = .error e) :
      Offers service call id now store (.error e) none store
  | conflict {run : Run} {profile : ResolvedWorkerProfile} {e : StoreError}
      (hprepare : service.prepare call id now = .ok (run,profile))
      (hstore : Creates store run (.error e) store) :
      Offers service call id now store (.error (.store e)) none store
  | attached {run existing : Run} {profile : ResolvedWorkerProfile}
      (hprepare : service.prepare call id now = .ok (run,profile))
      (hstore : Creates store run (.ok (existing,false)) store) :
      Offers service call id now store (.ok (existing,false)) none store
  | created {run : Run} {profile : ResolvedWorkerProfile}
      (hprepare : service.prepare call id now = .ok (run,profile))
      (hkey : store.keys.get run.identity = none) (hrun : store.runs.get run.id = none) :
      Offers service call id now store (.ok (run,true)) (some (run.id,profile)) (store.add run)

/-- What a step does to the store and to the runs that are to start or have been started. -/
inductive Changes (service : RunService) (t : Traffic) : Event → Traffic → Prop
  | idle {event : Event} {u : Traffic} (hcreated : event.created = none)
      (hgives : ∀ runId, event.gives runId = none) (hstore : u.store = t.store)
      (hbegun : (u.waiting ++ u.starts).Perm (t.waiting ++ t.starts)) : Changes service t event u
  | created {call : Call} {id : Str} {now : Int} {run : Run} {profile : ResolvedWorkerProfile}
      (hprepare : service.prepare call id now = .ok (run,profile))
      (hkey : t.store.keys.get run.identity = none) (hrun : t.store.runs.get run.id = none) :
      Changes service t (.admission call id now (.ok (run,true)))
        { t with store := t.store.add run, waiting := t.waiting ++ [(run.id,profile)] }
  | moved {runId : Str} {expected target : RunState} {run : Run}
      (hrun : t.store.runs.get runId = some run) (hlegal : target ∈ run.state.legal) :
      Changes service t (.transition runId expected target (.ok { run with state := target }))
        { t with store := { t.store with
            runs := t.store.runs.set runId { run with state := target } } }

section
variable {service : RunService} {t u : Traffic} {event : Event} {log : List Event}
  {call : Call} {id : Str} {now : Int} {answer : Except AdmitError (Run × Bool)}
  {starting : Option Start} {store store' : InMemoryRunStore} {run : Run}
  {profile : ResolvedWorkerProfile}

theorem RunService.offer_offers
    (h : service.offer call id now store = (answer,starting,store')) :
    Offers service call id now store answer starting store' := by
  unfold RunService.offer at h
  cases hprepare : service.prepare call id now with
  | error e =>
    rw [hprepare] at h
    cases h
    exact .refused hprepare
  | ok offer =>
    obtain ⟨run,profile⟩ := offer
    have hcreates := store.createOrGet_creates run
    simp only [hprepare] at h
    generalize store.createOrGet run = result at hcreates h
    obtain ⟨outcome,after⟩ := result
    cases hcreates with
    | found hkey hrun hdigest =>
      cases h
      exact .attached hprepare (.found hkey hrun hdigest)
    | conflict hkey hrun hdigest =>
      cases h
      exact .conflict hprepare (.conflict hkey hrun hdigest)
    | missing hkey hrun =>
      cases h
      exact .conflict hprepare (.missing hkey hrun)
    | duplicate hkey hrun =>
      cases h
      exact .conflict hprepare (.duplicate hkey hrun)
    | created hkey hrun =>
      cases h
      exact .created hprepare hkey hrun

theorem RunService.offer_new (hprepare : service.prepare call id now = .ok (run,profile))
    (hkey : store.keys.get run.identity = none) (hrun : store.runs.get run.id = none) :
    service.offer call id now store = (.ok (run,true),some (run.id,profile),store.add run) := by
  simp only [RunService.offer,hprepare,InMemoryRunStore.createOrGet,hkey,hrun]

theorem RunService.offer_again {existing : Run} {runId : Str}
    (hprepare : service.prepare call id now = .ok (run,profile))
    (hkey : store.keys.get run.identity = some runId)
    (hrun : store.runs.get runId = some existing)
    (hdigest : existing.requestDigest = run.requestDigest) :
    service.offer call id now store = (.ok (existing,false),none,store) := by
  simp only [RunService.offer,hprepare,InMemoryRunStore.createOrGet,hkey,hrun,hdigest,ne_eq,
    not_true_eq_false,if_false]

/-- `admit` is `offer`, followed by the start of what it is to start. -/
theorem RunService.admit_eq_offer (service : RunService) (turn : Turn) (world : World) :
     service.admit turn world =
      world.finish turn.fails ( service.offer turn.call turn.id turn.now world.store) := by
  unfold RunService.admit RunService.offer
  cases service.prepare turn.call turn.id turn.now with
  | error e => rfl
  | ok offer =>
    obtain ⟨run,profile⟩ := offer
    dsimp only
    obtain ⟨outcome,store⟩ := world.store.createOrGet run
    cases outcome with
    | error e => rfl
    | ok stored =>
      obtain ⟨stored,created⟩ := stored
      cases created with
      | false => rfl
      | true => cases turn.fails <;> rfl

theorem Step.changes (h : Step service t event u) : Changes service t event u := by
  cases h with
  | admission h =>
    cases RunService.offer_offers h with
    | refused _ => exact .idle rfl (fun _ => rfl) rfl (by simp)
    | conflict _ _ => exact .idle rfl (fun _ => rfl) rfl (by simp)
    | attached _ _ => exact .idle rfl (fun _ => rfl) rfl (by simp)
    | created hprepare hkey hrun => exact .created hprepare hkey hrun
  | @start begun hmem =>
    refine .idle rfl (fun _ => rfl) rfl ?_
    rw [← List.append_assoc]
    have hlast := List.perm_append_singleton begun (t.waiting.erase begun ++ t.starts)
    exact hlast.trans ((List.perm_cons_erase hmem).symm.append_right t.starts)
  | get => exact .idle rfl (fun _ => rfl) rfl (.refl _)
  | @transition runId expected target answer store h =>
    have hmoves := t.store.transition_moves runId expected target
    rw [h] at hmoves
    dsimp only at hmoves
    cases hmoves with
    | missing _ => exact .idle rfl (fun _ => rfl) rfl (.refl _)
    | refused _ _ => exact .idle rfl (fun _ => rfl) rfl (.refl _)
    | moved hrun _ hlegal => exact .moved hrun hlegal

theorem prepare_fresh (h : service.prepare call id now = .ok (run,profile)) :
    run.state = .accepted := by
  obtain ⟨_,_,hprepares⟩ := prepare_eq_ok.mp h
  exact hprepares.fresh

theorem createdIn_snoc : CreatedIn (log ++ [event]) run ↔
    CreatedIn log run ∨ event.created = some run := by
  constructor
  · rintro ⟨other,hmem,hcreated⟩
    rcases List.mem_append.mp hmem with hmem | hmem
    · exact .inl ⟨other,hmem,hcreated⟩
    · rw [List.mem_singleton.mp hmem] at hcreated
      exact .inr hcreated
  · rintro (⟨other,hmem,hcreated⟩ | hcreated)
    · exact ⟨other,List.mem_append_left _ hmem,hcreated⟩
    · exact ⟨event,List.mem_append_right _ (List.mem_singleton.mpr rfl),hcreated⟩

/-- A run that is stored stays stored, and only its state can change. -/
theorem Changes.keeps (h : Changes service t event u) {runId : Str}
    (hrun : t.store.runs.get runId = some run) :
    ∃ state, u.store.runs.get runId = some { run with state := state } := by
  cases h with
  | idle _ _ hstore _ => exact ⟨run.state,by rw [hstore,hrun]⟩
  | @created _ _ _ offer _ _ _ hfree =>
    have hne : runId ≠ offer.id := by
      rintro rfl
      rw [hfree] at hrun
      cases hrun
    exact ⟨run.state,(Dict.get_set_of_ne _ hne _).trans hrun⟩
  | @moved movedId _ target moved hmoved _ =>
    by_cases hid : runId = movedId
    · subst hid
      obtain rfl := Option.some.inj (hmoved.symm.trans hrun)
      exact ⟨target,Dict.get_set_self _ _ _⟩
    · exact ⟨run.state,(Dict.get_set_of_ne _ hid _).trans hrun⟩

/-- A run that is stored was stored before, or the step created it. -/
theorem Changes.source (h : Changes service t event u) {runId : Str}
    (hrun : u.store.runs.get runId = some run) :
    (∃ state, t.store.runs.get runId = some { run with state := state }) ∨
      event.created = some run ∧ run.state = .accepted := by
  cases h with
  | idle _ _ hstore _ => exact .inl ⟨run.state,by rw [← hstore,hrun]⟩
  | created hprepare _ _ =>
    dsimp only at hrun
    rw [InMemoryRunStore.add,Dict.get_set] at hrun
    split_ifs at hrun with hid
    · obtain rfl := Option.some.inj hrun
      exact .inr ⟨rfl,prepare_fresh hprepare⟩
    · exact .inl ⟨run.state,hrun⟩
  | @moved movedId _ target moved hmoved _ =>
    dsimp only at hrun
    rw [Dict.get_set] at hrun
    split_ifs at hrun with hid
    · obtain rfl := Option.some.inj hrun
      exact .inl ⟨moved.state,by rw [hid,hmoved]⟩
    · exact .inl ⟨run.state,hrun⟩

theorem Changes.consistent (h : Changes service t event u) (ht : t.store.Consistent) :
    u.store.Consistent := by
  cases h with
  | idle _ _ hstore _ => exact hstore ▸ ht
  | created _ hkey hrun => exact ht.add hkey hrun
  | moved hrun hlegal => exact (Moves.moved hrun rfl hlegal).consistent ht

/-- What a step does to the state of one run. -/
theorem Changes.follows (h : Changes service t event u) (runId : Str) :
    RegisterStep (· = .accepted) (fun state target => target ∈ state.legal)
      ((t.store.runs.get runId).map Run.state) (event.gives runId)
      ((u.store.runs.get runId).map Run.state) := by
  cases h with
  | idle _ hgives hstore _ =>
    rw [hgives runId,hstore]
    exact .kept _
  | @created _ _ _ run _ hprepare _ hrun =>
    dsimp only [Event.gives]
    rw [InMemoryRunStore.add,Dict.get_set]
    by_cases hid : runId = run.id
    · rw [if_pos hid.symm,if_pos hid,hid,hrun]
      exact .opened (prepare_fresh hprepare)
    · rw [if_neg (Ne.symm hid),if_neg hid]
      exact .kept _
  | @moved movedId _ target run hrun hlegal =>
    dsimp only [Event.gives]
    rw [Dict.get_set]
    by_cases hid : runId = movedId
    · rw [if_pos hid.symm,if_pos hid,hid,hrun]
      exact .moved hlegal
    · rw [if_neg (Ne.symm hid),if_neg hid]
      exact .kept _

/-- A step that creates a run finds its identity and its ID free. -/
theorem Changes.free (h : Changes service t event u) (hcreated : event.created = some run) :
    t.store.keys.get run.identity = none ∧ t.store.runs.get run.id = none ∧
      u.store.runs.get run.id = some run := by
  cases h with
  | idle hnone _ _ _ =>
    rw [hnone] at hcreated
    cases hcreated
  | created _ hkey hrun =>
    obtain rfl := Option.some.inj hcreated
    exact ⟨hkey,hrun,Dict.get_set_self _ _ _⟩
  | moved _ _ => cases hcreated

theorem Changes.prepared (h : Changes service t (.admission call id now (.ok (run,true))) u) :
    ∃ profile, service.prepare call id now = .ok (run,profile) := by
  cases h with
  | idle hnone _ _ _ => cases hnone
  | created hprepare _ _ => exact ⟨_,hprepare⟩

/-- The starts to come and the starts so far only grow by the run that a step creates. -/
theorem Changes.starts (h : Changes service t event u) :
    (u.waiting ++ u.starts).Perm (t.waiting ++ t.starts) ∨
      ∃ run profile, event.created = some run ∧
        (u.waiting ++ u.starts).Perm ((run.id,profile) :: (t.waiting ++ t.starts)) := by
  cases h with
  | idle _ _ _ hbegun => exact .inl hbegun
  | @created _ _ _ run profile _ _ _ =>
    refine .inr ⟨run,profile,rfl,?_⟩
    rw [List.append_assoc]
    exact List.perm_middle
  | moved _ _ => exact .inl (.refl _)

/-- What is known of the state after a run. -/
structure Sound (service : RunService) (log : List Event) (t : Traffic) : Prop where
  consistent : t.store.Consistent
  prepared : ∀ call id now run, Event.admission call id now (.ok (run,true)) ∈ log →
    ∃ profile, service.prepare call id now = .ok (run,profile)
  unaltered : ∀ run, CreatedIn log run →
    ∃ state, t.store.runs.get run.id = some { run with state := state }
  origin : ∀ runId run, t.store.runs.get runId = some run →
    CreatedIn log { run with state := .accepted }
  createdOnce : log.Pairwise (fun event other => ∀ run run', event.created = some run →
    other.created = some run' → run.identity ≠ run'.identity)
  stored : ∀ begun ∈ t.waiting ++ t.starts, (t.store.runs.get begun.1).isSome = true
  nodup : ((t.waiting ++ t.starts).map Prod.fst).Nodup

theorem sound_new (service : RunService) : Sound service [] .new where
  consistent := InMemoryRunStore.consistent_empty
  prepared _ _ _ _ hmem := absurd hmem List.not_mem_nil
  unaltered _ h := by
    obtain ⟨_,hmem,_⟩ := h
    exact absurd hmem List.not_mem_nil
  origin _ _ h := by cases h
  createdOnce := .nil
  stored _ hmem := absurd hmem List.not_mem_nil
  nodup := List.nodup_nil

theorem Sound.snoc (ht : Sound service log t) (h : Changes service t event u) :
    Sound service (log ++ [event]) u where
  consistent := h.consistent ht.consistent
  prepared call id now run hmem := by
    rcases List.mem_append.mp hmem with hmem | hmem
    · exact ht.prepared call id now run hmem
    · rw [← List.mem_singleton.mp hmem] at h
      exact h.prepared
  unaltered run hcreated := by
    rcases createdIn_snoc.mp hcreated with hcreated | hcreated
    · obtain ⟨state,hrun⟩ := ht.unaltered run hcreated
      have hkept := h.keeps hrun
      exact hkept
    · exact ⟨run.state,(h.free hcreated).2.2⟩
  origin runId run hrun := by
    rcases h.source hrun with ⟨state,hbefore⟩ | ⟨hcreated,hfresh⟩
    · have hcreated := ht.origin runId { run with state := state } hbefore
      exact createdIn_snoc.mpr (.inl hcreated)
    · refine createdIn_snoc.mpr (.inr ?_)
      rw [hcreated,← hfresh]
  createdOnce := by
    refine List.pairwise_append.mpr ⟨ht.createdOnce,List.pairwise_singleton _ _,?_⟩
    rintro other hmem last hlast run run' hcreated hcreated' hidentity
    rw [List.mem_singleton.mp hlast] at hcreated'
    obtain ⟨state,hrun⟩ := ht.unaltered run ⟨other,hmem,hcreated⟩
    have hkey : t.store.keys.get run.identity = some run.id := (ht.consistent.keyed _ _ hrun).2
    rw [hidentity,(h.free hcreated').1] at hkey
    cases hkey
  stored begun hmem := by
    have hkept : ∀ begun ∈ t.waiting ++ t.starts, (u.store.runs.get begun.1).isSome = true := by
      intro begun hmem
      obtain ⟨run,hrun⟩ := Option.isSome_iff_exists.mp (ht.stored begun hmem)
      obtain ⟨state,hrun⟩ := h.keeps hrun
      rw [hrun]
      rfl
    rcases h.starts with hperm | ⟨run,profile,hcreated,hperm⟩
    · exact hkept begun (hperm.mem_iff.mp hmem)
    · rcases List.mem_cons.mp (hperm.mem_iff.mp hmem) with rfl | hmem
      · rw [(h.free hcreated).2.2]
        rfl
      · exact hkept begun hmem
  nodup := by
    rcases h.starts with hperm | ⟨run,profile,hcreated,hperm⟩
    · exact (hperm.map Prod.fst).nodup_iff.mpr ht.nodup
    · refine (hperm.map Prod.fst).nodup_iff.mpr (List.nodup_cons.mpr ⟨?_,ht.nodup⟩)
      intro hmem
      obtain ⟨begun,hbegun,hid⟩ := List.mem_map.mp hmem
      have hstored := ht.stored begun hbegun
      rw [hid,(h.free hcreated).2.1] at hstored
      cases hstored

theorem sound_of_run (h : Transition.Run (Step service) .new log t) : Sound service log t :=
  h.invariant (sound_new service) fun _ _ _ _ _ ht hstep => ht.snoc hstep.changes

theorem Changes.unchanged (h : Changes service t event u) (hraised : event.raised = true) :
    u.store = t.store := by
  cases h with
  | idle _ _ hstore _ => exact hstore
  | created _ _ _ => cases hraised
  | moved _ _ => cases hraised

/-- The starts of the run of an identity are starts of one run ID, and no ID is started twice. -/
theorem Sound.startedOnce (ht : Sound service log t) (identity : Identity) :
    (t.startsOf identity).length ≤ 1 := by
  have hnodup : ((t.startsOf identity).map Prod.fst).Nodup := by
    have hstarts := ht.nodup.sublist ((List.sublist_append_right t.waiting t.starts).map Prod.fst)
    exact hstarts.sublist (List.filter_sublist.map Prod.fst)
  have hkey : ∀ runId ∈ (t.startsOf identity).map Prod.fst,
      t.store.keys.get identity = some runId := by
    intro runId hmem
    obtain ⟨begun,hbegun,rfl⟩ := List.mem_map.mp hmem
    have hidentity := of_decide_eq_true (List.mem_filter.mp hbegun).2
    obtain ⟨run,hrun,rfl⟩ := Option.map_eq_some_iff.mp hidentity
    exact (ht.consistent.keyed _ _ hrun).2
  rw [← List.length_map Prod.fst]
  generalize (t.startsOf identity).map Prod.fst = runIds at hnodup hkey
  cases hget : t.store.keys.get identity with
  | none =>
    have hempty : runIds = [] := by
      refine List.eq_nil_iff_forall_not_mem.mpr fun runId hmem => ?_
      have hsome := hkey runId hmem
      rw [hget] at hsome
      cases hsome
    rw [hempty]
    exact Nat.zero_le 1
  | some runId =>
    have hsame : runIds = List.replicate runIds.length runId := by
      refine List.eq_replicate_iff.mpr ⟨rfl,fun other hmem => ?_⟩
      exact (Option.some.inj (hget.symm.trans (hkey other hmem))).symm
    rw [hsame] at hnodup
    exact List.nodup_replicate.mp hnodup

theorem history_path (h : Transition.Run (Step service) .new log t) (runId : Str) :
    Path (· = .accepted) (fun state target => target ∈ state.legal) (history runId log) ∧
      (history runId log).getLast? = (t.store.runs.get runId).map Run.state :=
  @Transition.Run.path _ _ _ _ _ _ (fun t => (t.store.runs.get runId).map Run.state) _ _ _ _ rfl
    (fun _ _ _ hstep => hstep.changes.follows runId) h

theorem orderly_of_run (h : Transition.Run (Step service) .new log t) : Orderly service log t := by
  have ht := sound_of_run h
  have hpath := history_path h
  exact {
    stored := ht.consistent.stored
    distinct := by
      intro identity identity' runId hget hget'
      obtain ⟨run,hrun,rfl⟩ := ht.consistent.stored identity runId hget
      obtain ⟨run',hrun',rfl⟩ := ht.consistent.stored identity' runId hget'
      rw [Option.some.inj (hrun.symm.trans hrun')]
    keyed := fun runId run hrun => (ht.consistent.keyed runId run hrun).2
    accepted := fun runId => (hpath runId).1.head
    legal := fun runId => (hpath runId).1.chain
    current := fun runId => (hpath runId).2
    terminal := by
      rintro runId earlier event later state rfl hgives hterminal other hother
      refine eq_none_of_final (hpath runId).1 hgives (fun target hlegal => ?_) hother
      rw [hterminal] at hlegal
      exact List.not_mem_nil hlegal
    unaltered := ht.unaltered
    origin := ht.origin
    unchanged := fun _ _ _ _ _ _ _ hstep hraised => hstep.changes.unchanged hraised
    createdOnce := ht.createdOnce
    startedStored := fun begun hmem => ht.stored begun (List.mem_append_right _ hmem)
    startedOnce := ht.startedOnce }

/-- A run that was ever succeeded, failed, timed out or cancelled is so at the end. -/
theorem history_ended (h : Transition.Run (Step service) .new log t) {runId : Str}
    {state : RunState} (hstate : state ∈ history runId log) (hends : state ∈ RunState.ends) :
    (t.store.runs.get runId).map Run.state = some state := by
  obtain ⟨event,hevent,hgives⟩ := List.mem_filterMap.mp hstate
  obtain ⟨earlier,later,rfl⟩ := List.append_of_mem hevent
  have hlater : later.filterMap (Event.gives runId) = [] :=
    List.filterMap_eq_nil_iff.mpr ((orderly_of_run h).terminal runId earlier event later state rfl
      hgives (RunState.terminal_iff.mpr hends))
  rw [← (orderly_of_run h).current runId,history,List.filterMap_append,
    List.filterMap_cons_some hgives,hlater]
  exact List.getLast?_concat

end
end HearthAI.Jobs
