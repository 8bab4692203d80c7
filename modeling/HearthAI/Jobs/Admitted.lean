import HearthAI.Jobs.GitChange
import HearthAI.Jobs.Started

/-! # Which valid requests of a shipped tool are admitted -/
namespace HearthAI.Jobs
open Text Python

/-- The tools of the repository. -/
inductive ShippedTool
  | webFetch
  | webResearch
  | gitChange
  deriving DecidableEq, Repr

def ShippedTool.definition (urlsplit : UrlSplit) (sha256Hex : Bytes → String) :
    ShippedTool → ToolDefinition
  | webFetch => webFetchDefinition urlsplit sha256Hex
  | webResearch => webResearchDefinition
  | gitChange => gitChangeDefinition

/-- The call names the tool, which is registered with its profile, has an accepted key and a valid
payload, and its executor works. -/
structure Admissible (service : RunService) (definition : ToolDefinition) (turn : Turn) : Prop where
  key : validateIdempotencyKey service.int16 turn.call.idempotencyKey = .ok ()
  named : turn.call.toolKey = definition.key ∧ turn.call.toolVersion = definition.version
  registered : service.registry.resolve definition.key definition.version = .ok definition
  trusted : (service.profiles.get definition.workerProfile).isSome = true
  valid : ∃ request, definition.validateRequest turn.call.payload = .ok request
  works : turn.fails = none

/-- A new identity gets a run, stored and started. A known one gets its run, or the conflict. -/
def AdmitsCall (service : RunService) (turn : Turn) (world : World) : Prop :=
  match world.store.keys.get turn.call.identity with
  | none => ∃ run profile, run.identity = turn.call.identity ∧
      service.admit turn world = (.ok (run,true),
        ⟨world.store.add run,world.started ++ [(run.id,profile)]⟩)
  | some runId => (∃ existing, world.store.runs.get runId = some existing ∧
        service.admit turn world = (.ok (existing,false),world)) ∨
      ∃ message, service.admit turn world =
        (.error (.store (.idempotencyConflict message)),world)

/-- The tools, by the payloads whose record may be stored: a web address needs an encoding to be
hashed, and the definition of `git_change` has no `storage_view`. -/
def ShippedTool.Records (urlsplit : UrlSplit) (payload : Value) : ShippedTool → Prop
  | webFetch => ∀ request, WebFetchRequest.fromDict urlsplit payload = .ok request →
      Utf8Encodable request.url
  | webResearch => True
  | gitChange => False

/-- A new identity is offered an ID that no stored run has. -/
def FreshId (turn : Turn) (world : World) : Prop :=
  world.store.keys.get turn.call.identity = none → world.store.runs.get turn.id = none

section
variable {urlsplit : UrlSplit} {sha256Hex : Bytes → String} {service : RunService} {turn : Turn}
  {world : World} {definition : ToolDefinition}

/-- The view that a tool stores of a valid request exists for these payloads. -/
theorem ShippedTool.records_iff (tool : ShippedTool) {payload : Value}
    {request : (tool.definition urlsplit sha256Hex).Request}
    (hvalid : (tool.definition urlsplit sha256Hex).validateRequest payload = .ok request) :
    tool.Records urlsplit payload ↔
      ∃ view, (tool.definition urlsplit sha256Hex).storageView request = .ok view := by
  cases tool with
  | webFetch =>
    have hrecords : Records urlsplit payload webFetch ↔ Utf8Encodable request.url := by
      constructor
      · intro h
        exact h request hvalid
      · intro h other hother
        obtain rfl := Except.ok.inj (hvalid.symm.trans hother)
        exact h
    rw [hrecords,Utf8Encodable]
    show _ ↔ ∃ view, WebFetchRequest.storageView sha256Hex request = .ok view
    unfold WebFetchRequest.storageView
    cases encodeUtf8 request.url <;> simp
  | webResearch => exact iff_of_true trivial ⟨_,rfl⟩
  | gitChange => exact iff_of_false id (by rintro ⟨_,h⟩; cases h)

/-- An admissible call offers a run, exactly when the definition has a view to store. -/
theorem prepare_of_admissible (h : Admissible service definition turn)
    {request : definition.Request}
    (hvalid : definition.validateRequest turn.call.payload = .ok request) :
    (∃ run profile, service.prepare turn.call turn.id turn.now = .ok (run,profile)) ↔
      ∃ view, definition.storageView request = .ok view := by
  have hresolved : service.registry.resolve turn.call.toolKey turn.call.toolVersion =
      .ok definition := by
    rw [h.named.1,h.named.2]
    exact h.registered
  constructor
  · rintro ⟨run,profile,hprepare⟩
    obtain ⟨found,other,hprepares⟩ := prepare_eq_ok.mp hprepare
    obtain rfl := Except.ok.inj (hresolved.symm.trans hprepares.resolved)
    obtain rfl := Except.ok.inj (hvalid.symm.trans hprepares.valid)
    exact ⟨_,hprepares.stored⟩
  · rintro ⟨view,hview⟩
    obtain ⟨profile,hprofile⟩ := Option.isSome_iff_exists.mp h.trusted
    obtain ⟨run,hprepares⟩ := exists_prepares h.key hresolved hprofile hvalid hview turn.id turn.now
    exact ⟨run,profile,prepare_eq_ok.mpr ⟨definition,request,hprepares⟩⟩

/-- A definition whose view raises makes the call raise. -/
theorem prepare_of_view_error (h : Admissible service definition turn)
    {request : definition.Request} {raised : Raised}
    (hvalid : definition.validateRequest turn.call.payload = .ok request)
    (hview : definition.storageView request = .error raised) :
    service.prepare turn.call turn.id turn.now = .error (.validation raised) := by
  obtain ⟨profile,hprofile⟩ := Option.isSome_iff_exists.mp h.trusted
  obtain ⟨bytes,hbytes⟩ := Option.isSome_iff_exists.mp (definition.canonical_encodable request)
  refine bind_eq_error.mpr (.inr ⟨(),h.key,?_⟩)
  rw [h.named.1,h.named.2,h.registered]
  refine bind_eq_error.mpr (.inr ⟨profile,trustedProfile_eq_ok.mpr hprofile,?_⟩)
  refine bind_eq_error.mpr (.inr ⟨request,mapError_eq_ok.mpr hvalid,?_⟩)
  refine bind_eq_error.mpr (.inr ⟨_,digest_eq_ok.mpr ⟨bytes,hbytes,rfl⟩,?_⟩)
  exact bind_eq_error.mpr (.inl (mapError_eq_error.mpr ⟨raised,hview,rfl⟩))

/-- A call that offers a run is admitted, unless it is new and its ID is taken. -/
theorem admitsCall_of_prepare {run : Run} {profile : ResolvedWorkerProfile}
    (hprepare : service.prepare turn.call turn.id turn.now = .ok (run,profile))
    (hworks : turn.fails = none) (hstore : world.store.Consistent) :
    AdmitsCall service turn world ↔ FreshId turn world := by
  obtain ⟨definition,request,hprepares⟩ := prepare_eq_ok.mp hprepare
  have hid := hprepares.runId
  have hidentity := hprepares.identity
  have hcreates := world.store.createOrGet_creates run
  unfold AdmitsCall FreshId RunService.admit
  rw [hprepare,← hidentity,← hid,hworks]
  dsimp only
  cases hkey : world.store.keys.get run.identity with
  | some runId =>
    refine iff_of_true ?_ nofun
    obtain ⟨existing,hexisting,_⟩ := hstore.stored _ _ hkey
    by_cases hdigest : existing.requestDigest = run.requestDigest
    · refine .inl ⟨existing,hexisting,?_⟩
      simp [InMemoryRunStore.createOrGet,hkey,hexisting,hdigest]
    · refine .inr ⟨lit "idempotency key was already used for different content",?_⟩
      simp [InMemoryRunStore.createOrGet,hkey,hexisting,hdigest]
  | none =>
    dsimp only
    cases hrun : world.store.runs.get run.id with
    | none =>
      refine iff_of_true ⟨run,profile,rfl,?_⟩ fun _ => rfl
      simp [InMemoryRunStore.createOrGet,hkey,hrun]
    | some other =>
      refine iff_of_false ?_ fun h => by cases h rfl
      rintro ⟨_,_,_,h⟩
      simp [InMemoryRunStore.createOrGet,hkey,hrun] at h

/-- What is refused before the store is called raises no error of the store. -/
theorem prepare_ne_store {call : Call} {id : Str} {now : Int} {error : StoreError} :
    service.prepare call id now ≠ .error (.store error) := by
  intro h
  rcases bind_eq_error.mp h with hkey | ⟨_,_,h⟩
  · unfold validateIdempotencyKey at hkey
    split at hkey
    · cases hkey
    · split_ifs at hkey
      cases hkey
  · split at h
    · cases h
    · rcases bind_eq_error.mp h with hprofile | ⟨_,_,h⟩
      · unfold RunService.trustedProfile at hprofile
        split at hprofile <;> cases hprofile
      rcases bind_eq_error.mp h with hrequest | ⟨_,_,h⟩
      · obtain ⟨_,_,hother⟩ := mapError_eq_error.mp hrequest
        cases hother
      rcases bind_eq_error.mp h with hdigest | ⟨_,_,h⟩
      · unfold RunService.digest at hdigest
        split at hdigest <;> cases hdigest
      rcases bind_eq_error.mp h with hview | ⟨_,_,h⟩
      · obtain ⟨_,_,hother⟩ := mapError_eq_error.mp hview
        cases hother
      · cases h

/-- A valid request of a shipped tool is admitted, exactly when the tool has a record to store of it
and the ID drawn for a new identity is new. -/
theorem admitsCall_iff (tool : ShippedTool)
    (h : Admissible service (tool.definition urlsplit sha256Hex) turn)
    (hreachable : world.store.Reachable) :
    AdmitsCall service turn world ↔
      tool.Records urlsplit turn.call.payload ∧ FreshId turn world := by
  obtain ⟨request,hvalid⟩ := h.valid
  rw [tool.records_iff hvalid,← prepare_of_admissible h hvalid]
  cases hprepare : service.prepare turn.call turn.id turn.now with
  | ok offer =>
    obtain ⟨run,profile⟩ := offer
    rw [admitsCall_of_prepare hprepare h.works hreachable.consistent]
    exact (and_iff_right ⟨run,profile,rfl⟩).symm
  | error e =>
    refine iff_of_false ?_ fun ⟨⟨_,_,hoffer⟩,_⟩ => by cases hoffer
    have hadmitted : service.admit turn world = (.error e,world) := by
      rw [ RunService.admit,hprepare]
    unfold AdmitsCall
    rw [hadmitted]
    split
    · rintro ⟨_,_,_,hok⟩
      cases hok
    · rintro (⟨_,_,hok⟩ | ⟨message,hconflict⟩)
      · cases hok
      · obtain rfl := Except.error.inj (Prod.mk.inj hconflict).1
        exact prepare_ne_store hprepare

end

def newsTurn : Turn := ⟨newsCall,lit "run-1",0,none⟩

theorem news_admissible : Admissible researchService webResearchDefinition newsTurn where
  key := by decide
  named := ⟨rfl,rfl⟩
  registered := rfl
  trusted := rfl
  valid := ⟨⟨lit "Current news",lit "standard",8⟩,rfl⟩
  works := rfl

theorem news_admitted : AdmitsCall researchService newsTurn ⟨.empty,[]⟩ ↔
    ShippedTool.webResearch.Records (fun _ => .error .valueError) newsCall.payload ∧
      FreshId newsTurn ⟨.empty,[]⟩ :=
  @admitsCall_iff (fun _ => .error .valueError) researchService.sha256Hex _ _ _ .webResearch
    news_admissible .empty

def gitCall : Call where
  callerId := lit "open-webui"
  toolKey := lit "git_change"
  toolVersion := 1
  idempotencyKey := newsKey
  payload := .dict [(lit "repository_id",.str (lit "hearthai")),
    (lit "instruction",.str (lit "Fix the typo"))]

def gitService : RunService where
  registry := ⟨[((lit "git_change",1),gitChangeDefinition)]⟩
  profiles := [(lit "git-change-v1",⟨lit "git-change-v1",900⟩)]
  int16 := researchService.int16
  sha256Hex _ := "5c78228fa9c4cb108111968a77d6bca6a60ef2dd3d2c239434dc9f3e6544888c"

def gitTurn : Turn := ⟨gitCall,lit "run-1",0,none⟩

/-- A valid `git_change` request ends in `AttributeError`. -/
theorem git_change_not_admitted : Admissible gitService gitChangeDefinition gitTurn ∧
    ( gitService.admit gitTurn ⟨.empty,[]⟩).1 = .error (.validation (.builtin .attributeError)) ∧
    ¬AdmitsCall gitService gitTurn ⟨.empty,[]⟩ := by
  have hadmissible : Admissible gitService gitChangeDefinition gitTurn :=
    ⟨by decide,⟨rfl,rfl⟩,rfl,rfl,⟨⟨lit "hearthai",lit "Fix the typo"⟩,rfl⟩,rfl⟩
  have hprepare : gitService.prepare gitTurn.call gitTurn.id gitTurn.now =
      .error (.validation (.builtin .attributeError)) :=
    prepare_of_view_error hadmissible rfl rfl
  have hadmitted : gitService.admit gitTurn ⟨.empty,[]⟩ =
      (.error (.validation (.builtin .attributeError)),⟨.empty,[]⟩) := by
    rw [ RunService.admit,hprepare]
  refine ⟨hadmissible,by rw [hadmitted],?_⟩
  rintro ⟨run,profile,_,hok⟩
  rw [hadmitted] at hok
  cases hok

end HearthAI.Jobs
