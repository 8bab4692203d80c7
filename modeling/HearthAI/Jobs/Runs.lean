import HearthAI.Jobs.Tools

/-! # Tool-neutral admission

A call draws a run ID and the time, and its `executor.start` may raise. `int(text, 16)` and
SHA-256 stay parameters.
-/
namespace HearthAI.Jobs
open Text Python

structure ResolvedWorkerProfile where
  name : Str
  activeDeadlineSeconds : Int
  deriving DecidableEq

inductive AdmitError
  | invalidIdempotencyKey (message : Str)
  | registry (error : RegistryError)
  | runtimeError (message : Str)
  | validation (error : Raised)
  | store (error : StoreError)
  | executor (message : Str)
  deriving DecidableEq

/-- `text.replace(removed, "")`, with some characters still to drop. -/
def without (removed : Str) : ℕ → Str → Str
  | _,[] => []
  | drop + 1,_ :: rest => without removed drop rest
  | 0,c :: rest =>
    if startsWith removed (c :: rest) then without removed (removed.length - 1) rest
    else c :: without removed 0 rest

/-- `str(uuid)` of a UUID by its integer. -/
def uuidText (n : ℕ) : Str :=
  let hex := (List.range 32).map (fun i => hexDigit (n / 16 ^ (31 - i)))
  join (lit "-") [hex.take 8,(hex.drop 8).take 4,(hex.drop 12).take 4,(hex.drop 16).take 4,
    hex.drop 20]

/-- The integer of `UUID(value)`, if it does not raise. -/
def parseUuid (int16 : Str → Option Int) (value : Str) : Option ℕ :=
  let bare := without (lit "uuid:") 0 (without (lit "urn:") 0 value)
  let hex := (trimMatches (fun c => c = 0x7b ∨ c = 0x7d) bare).filter (· ≠ 0x2d)
  if hex.length ≠ 32 then none
  else match int16 hex with
    | some (.ofNat n) => if n < 2 ^ 128 then some n else none
    | _ => none

def validateIdempotencyKey (int16 : Str → Option Int) (value : Str) : Except AdmitError Unit :=
  match parseUuid int16 value with
  | none => .error (.invalidIdempotencyKey (lit "Idempotency-Key must be a UUID"))
  | some n =>
    if uuidText n ≠ lower value then
      .error (.invalidIdempotencyKey (lit "Idempotency-Key must use canonical UUID form"))
    else .ok ()

structure RunService where
  registry : ToolRegistry
  profiles : Dict Str ResolvedWorkerProfile
  int16 : Str → Option Int
  sha256Hex : Bytes → String

structure Call where
  callerId : Str
  toolKey : Str
  toolVersion : Int
  idempotencyKey : Str
  payload : Value

def Call.identity (call : Call) : Identity :=
  (call.callerId,call.toolKey,call.toolVersion,call.idempotencyKey)

namespace RunService

def digest (service : RunService) (definition : ToolDefinition) (request : definition.Request) :
    Except AdmitError Str :=
  match encodeUtf8 (definition.canonical request) with
  | none => .error (.validation (.builtin .unicodeEncodeError))
  | some bytes => .ok (lit (service.sha256Hex bytes))

def trustedProfile (service : RunService) (name : Str) :
    Except AdmitError ResolvedWorkerProfile :=
  match service.profiles.get name with
  | some profile => .ok profile
  | none => .error (.runtimeError (lit "trusted worker profile is not configured: " ++ name))

/-- What `admit` does before it calls the store: the run that it will offer. -/
def prepareWith (service : RunService) (definition : ToolDefinition) (call : Call) (id : Str)
    (now : Int) : Except AdmitError (Run × ResolvedWorkerProfile) := do
  let profile ← service.trustedProfile definition.workerProfile
  let request ← (definition.validateRequest call.payload).mapError .validation
  let digest ← service.digest definition request
  let storedRequest ← (definition.storageView request).mapError .validation
  return ({
    id := id
    callerId := call.callerId
    toolKey := call.toolKey
    toolVersion := call.toolVersion
    idempotencyKey := call.idempotencyKey
    requestDigest := digest
    request := storedRequest
    grants := definition.grantsFor request
    budgets := definition.budgetsFor request
    policyVersion := versioned call.toolKey call.toolVersion
    state := .accepted
    createdAt := now },profile)

def prepare (service : RunService) (call : Call) (id : Str) (now : Int) :
    Except AdmitError (Run × ResolvedWorkerProfile) := do
  validateIdempotencyKey service.int16 call.idempotencyKey
  match service.registry.resolve call.toolKey call.toolVersion with
  | .error e => .error (.registry e)
  | .ok definition => service.prepareWith definition call id now

end RunService

/-- The store, and the calls of `executor.start` that returned. -/
structure World where
  store : InMemoryRunStore
  started : List (Str × ResolvedWorkerProfile)

/-- A call with what its environment supplies. -/
structure Turn where
  call : Call
  id : Str
  now : Int
  /-- What `executor.start` raises, if it is called. -/
  fails : Option Str

def RunService.admit (service : RunService) (turn : Turn) (world : World) :
    Except AdmitError (Run × Bool) × World :=
  match service.prepare turn.call turn.id turn.now with
  | .error e => (.error e,world)
  | .ok (run,profile) =>
    match world.store.createOrGet run with
    | (.error e,store) => (.error (.store e),{ world with store := store })
    | (.ok (stored,false),store) => (.ok (stored,false),{ world with store := store })
    | (.ok (stored,true),store) =>
      match turn.fails with
      | some message => (.error (.executor message),{ world with store := store })
      | none => (.ok (stored,true),⟨store,world.started ++ [(stored.id,profile)]⟩)

section
variable {service : RunService} {definition : ToolDefinition} {call : Call} {id : Str} {now : Int}
  {run : Run} {profile : ResolvedWorkerProfile}

/-- The run that a call with this definition and this request offers. -/
structure Prepares (service : RunService) (definition : ToolDefinition) (call : Call) (id : Str)
    (now : Int) (run : Run) (profile : ResolvedWorkerProfile) (request : definition.Request) :
    Prop where
  key : validateIdempotencyKey service.int16 call.idempotencyKey = .ok ()
  resolved : service.registry.resolve call.toolKey call.toolVersion = .ok definition
  trusted : service.profiles.get definition.workerProfile = some profile
  valid : definition.validateRequest call.payload = .ok request
  stored : definition.storageView request = .ok run.request
  digest : service.digest definition request = .ok run.requestDigest
  runId : run.id = id
  identity : run.identity = call.identity
  grants : run.grants = definition.grantsFor request
  budgets : run.budgets = definition.budgetsFor request
  policy : run.policyVersion = versioned call.toolKey call.toolVersion
  fresh : run.state = .accepted
  time : run.createdAt = now

theorem Prepares.spelling {request : definition.Request}
    (h : Prepares service definition call id now run profile request) :
    run.idempotencyKey = call.idempotencyKey := by
  have hidentity := h.identity
  simp only [Run.identity,Call.identity,Prod.mk.injEq] at hidentity
  exact hidentity.2.2.2

theorem trustedProfile_eq_ok {name : Str} :
    service.trustedProfile name = .ok profile ↔ service.profiles.get name = some profile := by
  unfold RunService.trustedProfile
  cases service.profiles.get name <;> simp

theorem prepare_eq_ok : service.prepare call id now = .ok (run,profile) ↔
    ∃ definition request, Prepares service definition call id now run profile request := by
  unfold RunService.prepare
  constructor
  · intro h
    obtain ⟨_,hkey,h⟩ := bind_eq_ok.mp h
    cases hresolve : service.registry.resolve call.toolKey call.toolVersion with
    | error e => simp [hresolve] at h
    | ok definition =>
      simp only [hresolve,RunService.prepareWith] at h
      obtain ⟨profile',hprofile,h⟩ := bind_eq_ok.mp h
      obtain ⟨request,hrequest,h⟩ := bind_eq_ok.mp h
      obtain ⟨digest,hdigest,h⟩ := bind_eq_ok.mp h
      obtain ⟨stored,hstored,h⟩ := bind_eq_ok.mp h
      obtain ⟨rfl,rfl⟩ := Prod.mk.inj (Except.ok.inj h)
      exact ⟨definition,request,hkey,hresolve,trustedProfile_eq_ok.mp hprofile,
        mapError_eq_ok.mp hrequest,mapError_eq_ok.mp hstored,hdigest,rfl,rfl,rfl,rfl,rfl,rfl,rfl⟩
  · rintro ⟨definition,request,h⟩
    refine bind_eq_ok.mpr ⟨(),h.key,?_⟩
    rw [h.resolved]
    refine bind_eq_ok.mpr ⟨profile,trustedProfile_eq_ok.mpr h.trusted,?_⟩
    refine bind_eq_ok.mpr ⟨request,mapError_eq_ok.mpr h.valid,?_⟩
    refine bind_eq_ok.mpr ⟨_,h.digest,?_⟩
    refine bind_eq_ok.mpr ⟨_,mapError_eq_ok.mpr h.stored,?_⟩
    obtain ⟨hcaller,htool,hversion,hkey⟩ : run.callerId = call.callerId ∧
        run.toolKey = call.toolKey ∧ run.toolVersion = call.toolVersion ∧
        run.idempotencyKey = call.idempotencyKey := by
      simpa [Run.identity,Call.identity] using h.identity
    cases run
    obtain ⟨_,_,_,_,_,_,hid,_,hgrants,hbudgets,hpolicy,hfresh,htime⟩ := h
    dsimp only at *
    subst hid hcaller htool hversion hkey hgrants hbudgets hpolicy hfresh htime
    rfl

/-- The digest is that of the canonical text, which can always be encoded. -/
theorem digest_eq_ok {request : definition.Request} {digest : Str} :
    service.digest definition request = .ok digest ↔
      ∃ bytes, encodeUtf8 (definition.canonical request) = some bytes ∧
        digest = lit (service.sha256Hex bytes) := by
  unfold RunService.digest
  cases encodeUtf8 (definition.canonical request) with
  | none => simp
  | some bytes => simp [eq_comm]

/-- What a call needs to offer a run. The canonical text can always be encoded. -/
theorem exists_prepares {request : definition.Request} {view : Value}
    (hkey : validateIdempotencyKey service.int16 call.idempotencyKey = .ok ())
    (hresolved : service.registry.resolve call.toolKey call.toolVersion = .ok definition)
    (htrusted : service.profiles.get definition.workerProfile = some profile)
    (hvalid : definition.validateRequest call.payload = .ok request)
    (hview : definition.storageView request = .ok view) (id : Str) (now : Int) :
    ∃ run, Prepares service definition call id now run profile request := by
  obtain ⟨bytes,hbytes⟩ := Option.isSome_iff_exists.mp (definition.canonical_encodable request)
  refine ⟨{
    id := id
    callerId := call.callerId
    toolKey := call.toolKey
    toolVersion := call.toolVersion
    idempotencyKey := call.idempotencyKey
    requestDigest := lit (service.sha256Hex bytes)
    request := view
    grants := definition.grantsFor request
    budgets := definition.budgetsFor request
    policyVersion := versioned call.toolKey call.toolVersion
    state := .accepted
    createdAt := now },?_⟩
  exact ⟨hkey,hresolved,htrusted,hvalid,hview,digest_eq_ok.mpr ⟨bytes,hbytes,rfl⟩,rfl,rfl,rfl,rfl,
    rfl,rfl,rfl⟩

end

/-- What `admit` can do. -/
inductive AdmitStep (service : RunService) (turn : Turn) (world : World) :
    Except AdmitError (Run × Bool) → World → Prop
  | refused {e : AdmitError} (hprepare : service.prepare turn.call turn.id turn.now = .error e) :
      AdmitStep service turn world (.error e) world
  | conflict {run : Run} {profile : ResolvedWorkerProfile} {e : StoreError}
      (hprepare : service.prepare turn.call turn.id turn.now = .ok (run,profile))
      (hstore : Creates world.store run (.error e) world.store) :
      AdmitStep service turn world (.error (.store e)) world
  | attached {run existing : Run} {profile : ResolvedWorkerProfile}
      (hprepare : service.prepare turn.call turn.id turn.now = .ok (run,profile))
      (hstore : Creates world.store run (.ok (existing,false)) world.store) :
      AdmitStep service turn world (.ok (existing,false)) world
  | failed {run : Run} {profile : ResolvedWorkerProfile} {message : Str}
      (hprepare : service.prepare turn.call turn.id turn.now = .ok (run,profile))
      (hstore : Creates world.store run (.ok (run,true)) (world.store.add run))
      (hfails : turn.fails = some message) :
      AdmitStep service turn world (.error (.executor message))
        { world with store := world.store.add run }
  | started {run : Run} {profile : ResolvedWorkerProfile}
      (hprepare : service.prepare turn.call turn.id turn.now = .ok (run,profile))
      (hstore : Creates world.store run (.ok (run,true)) (world.store.add run))
      (hfails : turn.fails = none) :
      AdmitStep service turn world (.ok (run,true))
        ⟨world.store.add run,world.started ++ [(run.id,profile)]⟩

theorem RunService.admit_step (service : RunService) (turn : Turn) (world : World) :
    AdmitStep service turn world ( service.admit turn world).1 ( service.admit turn world).2 := by
  unfold RunService.admit
  cases hprepare : service.prepare turn.call turn.id turn.now with
  | error e => exact .refused hprepare
  | ok offer =>
    obtain ⟨run,profile⟩ := offer
    have hcreates := world.store.createOrGet_creates run
    dsimp only
    generalize world.store.createOrGet run = result at hcreates
    obtain ⟨outcome,store⟩ := result
    cases hcreates with
    | found hkey hrun hdigest => exact .attached hprepare (.found hkey hrun hdigest)
    | conflict hkey hrun hdigest => exact .conflict hprepare (.conflict hkey hrun hdigest)
    | missing hkey hrun => exact .conflict hprepare (.missing hkey hrun)
    | duplicate hkey hrun => exact .conflict hprepare (.duplicate hkey hrun)
    | created hkey hrun =>
      cases hfails : turn.fails with
      | some message => exact .failed hprepare (.created hkey hrun) hfails
      | none => exact .started hprepare (.created hkey hrun) hfails

end HearthAI.Jobs
