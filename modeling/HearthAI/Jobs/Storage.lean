import HearthAI.Core.Dict
import HearthAI.Python.Value

/-! # The run store

Every operation holds the lock of the store, so an operation is one step from a store to
an outcome and a store.
-/
namespace HearthAI.Jobs
open Python

inductive RunState
  | accepted
  | starting
  | running
  | succeeded
  | failed
  | timedOut
  | cancelled
  deriving DecidableEq, Repr

namespace RunState

def value : RunState → Str
  | accepted => lit "accepted"
  | starting => lit "starting"
  | running => lit "running"
  | succeeded => lit "succeeded"
  | failed => lit "failed"
  | timedOut => lit "timed_out"
  | cancelled => lit "cancelled"

/-- The successors of a state. A state that the table leaves out has none. -/
def legal : RunState → List RunState
  | accepted => [starting,cancelled,timedOut,failed]
  | starting => [running,cancelled,timedOut,failed]
  | running => [succeeded,cancelled,timedOut,failed]
  | _ => []

/-- A state that no transition leaves. -/
def Terminal (state : RunState) : Prop := legal state = []

instance (state : RunState) : Decidable (Terminal state) :=
  inferInstanceAs (Decidable (legal state = []))

/-- The states at which a run ends. -/
def ends : List RunState := [succeeded,failed,timedOut,cancelled]

theorem terminal_iff {state : RunState} : state.Terminal ↔ state ∈ ends := by
  cases state <;> decide

end RunState

structure BrokerBudgets where
  searchCalls : Int
  fetchCalls : Int
  fetchedBytes : Int
  inputTokens : Int
  outputTokens : Int
  elapsedSeconds : Int
  deriving DecidableEq

/-- The time of creation is in microseconds. -/
structure Run where
  id : Str
  callerId : Str
  toolKey : Str
  toolVersion : Int
  idempotencyKey : Str
  requestDigest : Str
  request : Value
  grants : Finset Str
  budgets : BrokerBudgets
  policyVersion : Str
  state : RunState
  createdAt : Int

abbrev Identity := Str × Str × Int × Str

def Run.identity (run : Run) : Identity :=
  (run.callerId,run.toolKey,run.toolVersion,run.idempotencyKey)

inductive StoreError
  | idempotencyConflict (message : Str)
  | transitionConflict (message : Str)
  | valueError (message : Str)
  | keyError (key : Str)
  deriving DecidableEq

structure InMemoryRunStore where
  runs : Dict Str Run
  keys : Dict Identity Str

namespace InMemoryRunStore

def empty : InMemoryRunStore := ⟨[],[]⟩

def add (store : InMemoryRunStore) (run : Run) : InMemoryRunStore :=
  ⟨store.runs.set run.id run,store.keys.set run.identity run.id⟩

def createOrGet (store : InMemoryRunStore) (run : Run) :
    Except StoreError (Run × Bool) × InMemoryRunStore :=
  match store.keys.get run.identity with
  | some existingId =>
    match store.runs.get existingId with
    | none => (.error (.keyError existingId),store)
    | some existing =>
      if existing.requestDigest ≠ run.requestDigest then
        (.error (.idempotencyConflict
          (lit "idempotency key was already used for different content")),store)
      else (.ok (existing,false),store)
  | none =>
    match store.runs.get run.id with
    | some _ => (.error (.valueError (lit "duplicate run ID: " ++ run.id)),store)
    | none => (.ok (run,true),store.add run)

def get (store : InMemoryRunStore) (runId : Str) : Except StoreError Run :=
  match store.runs.get runId with
  | none => .error (.keyError runId)
  | some run => .ok run

def transition (store : InMemoryRunStore) (runId : Str) (expected target : RunState) :
    Except StoreError Run × InMemoryRunStore :=
  match store.runs.get runId with
  | none => (.error (.keyError runId),store)
  | some current =>
    if current.state ≠ expected then
      (.error (.transitionConflict (lit "expected " ++ expected.value ++ lit ", found " ++
        current.state.value)),store)
    else if target ∉ current.state.legal then
      (.error (.transitionConflict (lit "illegal transition: " ++ current.state.value ++
        lit " -> " ++ target.value)),store)
    else
      let updated := { current with state := target }
      (.ok updated,{ store with runs := store.runs.set runId updated })

end InMemoryRunStore

/-- What `create_or_get` can do. -/
inductive Creates (store : InMemoryRunStore) (run : Run) :
    Except StoreError (Run × Bool) → InMemoryRunStore → Prop
  | found {existingId : Str} {existing : Run}
      (hkey : store.keys.get run.identity = some existingId)
      (hrun : store.runs.get existingId = some existing)
      (hdigest : existing.requestDigest = run.requestDigest) :
      Creates store run (.ok (existing,false)) store
  | conflict {existingId : Str} {existing : Run} {message : Str}
      (hkey : store.keys.get run.identity = some existingId)
      (hrun : store.runs.get existingId = some existing)
      (hdigest : existing.requestDigest ≠ run.requestDigest) :
      Creates store run (.error (.idempotencyConflict message)) store
  | missing {existingId : Str} (hkey : store.keys.get run.identity = some existingId)
      (hrun : store.runs.get existingId = none) :
      Creates store run (.error (.keyError existingId)) store
  | duplicate {other : Run} {message : Str} (hkey : store.keys.get run.identity = none)
      (hrun : store.runs.get run.id = some other) :
      Creates store run (.error (.valueError message)) store
  | created (hkey : store.keys.get run.identity = none) (hrun : store.runs.get run.id = none) :
      Creates store run (.ok (run,true)) (store.add run)

/-- What `transition` can do. -/
inductive Moves (store : InMemoryRunStore) (runId : Str) (expected target : RunState) :
    Except StoreError Run → InMemoryRunStore → Prop
  | missing (hrun : store.runs.get runId = none) :
      Moves store runId expected target (.error (.keyError runId)) store
  | refused {current : Run} {message : Str} (hrun : store.runs.get runId = some current)
      (hstate : current.state = expected → target ∉ current.state.legal) :
      Moves store runId expected target (.error (.transitionConflict message)) store
  | moved {current : Run} (hrun : store.runs.get runId = some current)
      (hstate : current.state = expected) (hlegal : target ∈ current.state.legal) :
      Moves store runId expected target (.ok { current with state := target })
        { store with runs := store.runs.set runId { current with state := target } }

namespace InMemoryRunStore

theorem createOrGet_creates (store : InMemoryRunStore) (run : Run) :
    Creates store run (store.createOrGet run).1 (store.createOrGet run).2 := by
  unfold createOrGet
  cases hkey : store.keys.get run.identity with
  | some existingId =>
    dsimp only
    cases hrun : store.runs.get existingId with
    | none => exact .missing hkey hrun
    | some existing =>
      dsimp only
      split_ifs with hdigest
      · exact .conflict hkey hrun hdigest
      · exact .found hkey hrun (not_not.mp hdigest)
  | none =>
    dsimp only
    cases hrun : store.runs.get run.id with
    | some other => exact .duplicate hkey hrun
    | none => exact .created hkey hrun

theorem transition_moves (store : InMemoryRunStore) (runId : Str) (expected target : RunState) :
    Moves store runId expected target (store.transition runId expected target).1
      (store.transition runId expected target).2 := by
  unfold transition
  cases hrun : store.runs.get runId with
  | none => exact .missing hrun
  | some current =>
    dsimp only
    split_ifs with hstate hlegal
    · exact .refused hrun fun h => absurd h hstate
    · exact .moved hrun (not_not.mp hstate) hlegal
    · exact .refused hrun fun _ => hlegal

end InMemoryRunStore

/-- Every key leads to a run of its identity, and every run has its key. -/
structure InMemoryRunStore.Consistent (store : InMemoryRunStore) : Prop where
  stored : ∀ identity runId, store.keys.get identity = some runId →
    ∃ run, store.runs.get runId = some run ∧ run.identity = identity
  keyed : ∀ runId run, store.runs.get runId = some run →
    run.id = runId ∧ store.keys.get run.identity = some runId

section
variable {store store' : InMemoryRunStore} {run : Run} {runId : Str}
  {expected target : RunState}

/-- An operation that raises leaves the store as it was. -/
theorem Creates.unchanged {e : StoreError} (h : Creates store run (.error e) store') :
    store' = store := by
  cases h with
  | conflict _ _ _ => rfl
  | missing _ _ => rfl
  | duplicate _ _ => rfl

/-- A run of this identity with this digest is found. -/
theorem Creates.eq_of_found {outcome : Except StoreError (Run × Bool)} {existing : Run}
    (h : Creates store run outcome store') (hkey : store.keys.get run.identity = some runId)
    (hrun : store.runs.get runId = some existing)
    (hdigest : existing.requestDigest = run.requestDigest) : outcome = .ok (existing,false) := by
  cases h with
  | found hkey' hrun' _ =>
    obtain rfl := Option.some.inj (hkey.symm.trans hkey')
    rw [Option.some.inj (hrun.symm.trans hrun')]
  | conflict hkey' hrun' hdigest' =>
    obtain rfl := Option.some.inj (hkey.symm.trans hkey')
    obtain rfl := Option.some.inj (hrun.symm.trans hrun')
    exact absurd hdigest hdigest'
  | missing hkey' hrun' =>
    obtain rfl := Option.some.inj (hkey.symm.trans hkey')
    rw [hrun] at hrun'
    cases hrun'
  | duplicate hkey' _ =>
    rw [hkey] at hkey'
    cases hkey'
  | created hkey' _ =>
    rw [hkey] at hkey'
    cases hkey'

theorem Moves.unchanged {e : StoreError} (h : Moves store runId expected target (.error e) store') :
    store' = store := by
  cases h with
  | missing _ => rfl
  | refused _ _ => rfl

theorem InMemoryRunStore.consistent_empty : empty.Consistent where
  stored _ _ h := by cases h
  keyed _ _ h := by cases h

theorem InMemoryRunStore.Consistent.add (h : store.Consistent)
    (hkey : store.keys.get run.identity = none) (hrun : store.runs.get run.id = none) :
    (store.add run).Consistent where
  stored identity runId hget := by
    rw [InMemoryRunStore.add,Dict.get_set] at hget
    split_ifs at hget with hidentity
    · obtain rfl := Option.some.inj hget
      exact ⟨run,Dict.get_set_self _ _ _,hidentity.symm⟩
    · obtain ⟨other,hother,hsame⟩ := h.stored identity runId hget
      refine ⟨other,?_,hsame⟩
      have hne : runId ≠ run.id := by
        rintro rfl
        rw [hrun] at hother
        cases hother
      exact (Dict.get_set_of_ne _ hne _).trans hother
  keyed runId other hget := by
    rw [InMemoryRunStore.add,Dict.get_set] at hget
    split_ifs at hget with hid
    · obtain rfl := Option.some.inj hget
      exact ⟨hid.symm,by rw [hid]; exact Dict.get_set_self _ _ _⟩
    · obtain ⟨hother,hother'⟩ := h.keyed runId other hget
      refine ⟨hother,?_⟩
      have hne : other.identity ≠ run.identity := by
        intro hsame
        rw [hsame,hkey] at hother'
        cases hother'
      exact (Dict.get_set_of_ne _ hne _).trans hother'

theorem Creates.consistent {outcome : Except StoreError (Run × Bool)}
    (h : Creates store run outcome store') (hstore : store.Consistent) : store'.Consistent := by
  cases h with
  | found _ _ _ => exact hstore
  | conflict _ _ _ => exact hstore
  | missing _ _ => exact hstore
  | duplicate _ _ => exact hstore
  | created hkey hrun => exact hstore.add hkey hrun

/-- A change of state keeps the identity of the run. -/
theorem Moves.consistent {outcome : Except StoreError Run}
    (h : Moves store runId expected target outcome store') (hstore : store.Consistent) :
    store'.Consistent := by
  cases h with
  | missing _ => exact hstore
  | refused _ _ => exact hstore
  | @moved current hrun _ _ =>
    refine ⟨fun identity otherId hget => ?_,fun otherId other hget => ?_⟩
    · obtain ⟨other,hother,hsame⟩ := hstore.stored identity otherId hget
      by_cases hid : otherId = runId
      · subst hid
        obtain rfl := Option.some.inj (hother.symm.trans hrun)
        exact ⟨_,Dict.get_set_self _ _ _,hsame⟩
      · exact ⟨other,(Dict.get_set_of_ne _ hid _).trans hother,hsame⟩
    · rw [Dict.get_set] at hget
      split_ifs at hget with hid
      · obtain rfl := Option.some.inj hget
        rw [hid]
        exact hstore.keyed runId current hrun
      · exact hstore.keyed otherId other hget

/-- The stores that sequences of operations lead to. An operation that only reads changes none. -/
inductive InMemoryRunStore.Reachable : InMemoryRunStore → Prop
  | empty : Reachable empty
  | createOrGet {store : InMemoryRunStore} (run : Run) (h : Reachable store) :
      Reachable (store.createOrGet run).2
  | transition {store : InMemoryRunStore} (runId : Str) (expected target : RunState)
      (h : Reachable store) : Reachable (store.transition runId expected target).2

theorem InMemoryRunStore.Reachable.consistent (h : store.Reachable) : store.Consistent := by
  induction h with
  | empty => exact consistent_empty
  | createOrGet run _ ih => exact (createOrGet_creates _ run).consistent ih
  | transition runId expected target _ ih => exact (transition_moves _ runId _ _).consistent ih

end
end HearthAI.Jobs
