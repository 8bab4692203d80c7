import HearthAI.Contracts.Text
import HearthAI.Memory.Durable
import HearthAI.Memory.Failures
import HearthAI.Memory.Isolation
import HearthAI.Python.Loads

/-! # The HTTP front end of the store

A request is answered by at most one call of the store. The status says what the call
did to the disk, and a run of exchanges is a run of the calls behind them.
-/
namespace HearthAI.Memory
open Python Effect Transition

def maxBody : Int := 1 <<< 20

inductive Method
  | get
  | post
  deriving DecidableEq

structure Request where
  method : Method
  path : Str
  /-- The `Content-Length` header. -/
  contentLength : Option Str
  /-- The `X-Store-Token` header. -/
  storeToken : Option Str
  /-- What the client sends after the headers. -/
  stream : Text.Bytes

/-- A status and a JSON object. -/
structure Reply where
  code : ℕ
  payload : Dict Str Value

/-- The parts of the standard library that are left open. -/
structure Server where
  lib : Library
  python : Interpreter
  /-- The path and the query of a URL. -/
  urlparse : Str → Except Builtin (Str × Str)
  parseQs : Str → Dict Str (List Str)
  int : Str → Except Builtin Int
  /-- The text of the exception for bytes that are not a document. -/
  decodeError : Text.Bytes → String
  /-- The name of the type of an exception, and its text. -/
  surfaced : Failure → Str

/-- What the clock, the random source and git do for a request. -/
structure Given where
  now : Timestamp
  token : Str
  git : Git

/-- `{**items, **info}`. -/
def spread (items : Dict Str Value) (info : Meta) : Dict Str Value :=
  info.foldl (fun items p => items.set p.1 (match p.2 with
    | .str s => .str s
    | .strs texts => .list (texts.map .str))) items

def Created.payload (created : Created) : Dict Str Value :=
  (spread [(lit "token",.str created.token)] created.info).set (lit "entry_count")
    (.int created.entryCount)

def Described.payload (described : Described) : Dict Str Value :=
  (spread [] described.info).set (lit "entry_count") (.int described.entryCount)

def Added.payload (added : Added) : Dict Str Value :=
  (spread [] added.info).set (lit "duplicate") (.bool added.duplicate)

def Row.payload (row : Row) : Dict Str Value :=
  (spread [] row.info).set (lit "content") (.str row.content)

/-- `data.get(key, default)`, a method of dicts only. -/
def getOr (data : Value) (key : String) (default : Value) : Except Failure Value :=
  match data with
  | .dict items => .ok ((Dict.get items (lit key)).getD default)
  | _ => .error (.builtin .attributeError)

/-- The first value that the query has for a key. -/
def queryFirst (query : Dict Str (List Str)) (key : String) : Option Str :=
  ((query.get (lit key)).getD []).head?

/-- The parts of the path that are not empty. -/
def routeParts (path : Str) : List Str :=
  ((stripOf Python.slash path).splitOn Python.slash).filter (· ≠ [])

def notFound : Reply := ⟨404,[(lit "error",.str (lit "no such route"))]⟩

/-- `_token`. The document is looked at only if there is no header. -/
def Request.token (request : Request) (parts : List Str) (data : Value) (query : Dict Str (List Str)) :
    Except Failure Value := do
  let header := request.storeToken.elim .none Value.str
  let token ← if header.truthy then .ok header
    else do
      let token ← getOr data "token" .none
      return token.orElse ((queryFirst query "token").elim .none .str)
  let token := match parts with
    | first :: second :: _ => if first = lit "stores" then token.orElse (.str second) else token
    | _ => token
  if token.truthy then return token
  else .error (.invalidRequest "a store token is required")

/-- What a request asks of the store. -/
inductive Route
  | reply (reply : Reply)
  | describe (token : Value)
  | search (token : Value) (query : Str) (limit : Int)
  | call (call : Call)

/-- The reply to a call that returned. -/
def Outcome.reply : Outcome → Reply
  | .created result => ⟨201,result.payload⟩
  | .added result => ⟨if result.duplicate then 200 else 201,result.payload⟩

def Route.run (lib : Library) : Route → Op Reply
  | reply given => return given
  | describe token => do
    let disk ← Effect.read
    let result ← lift (Memory.describe lib disk.now.tree token)
    return ⟨200,result.payload⟩
  | search token query limit => do
    let disk ← Effect.read
    let rows ← lift (Memory.search lib disk.now.tree token query limit)
    return ⟨200,[(lit "entries",.list (rows.map (fun row => .dict row.payload)))]⟩
  | call request => do
    let outcome ← request.exec lib
    return outcome.reply

namespace Server
variable (server : Server)

/-- What becomes of an exception of `json.loads`: a `JSONDecodeError` is the client's fault. -/
def loadsFailure (bytes : Text.Bytes) : LoadsError → Failure
  | .decodeError => .invalidRequest ("body is not valid JSON: " ++ server.decodeError bytes)
  | .valueError => .builtin .valueError
  | .recursionError => .builtin .recursionError

/-- `_read_json`. Bytes that are not UTF-8 are no document either. -/
def readJson (request : Request) : Except Failure Value := do
  let header := request.contentLength.getD []
  let length ← if header = [] then .ok 0 else liftBuiltin (server.int header)
  if length ≤ 0 then return .dict []
  else if length > maxBody then .error (.invalidRequest "request body too large")
  else
    let bytes := request.stream.take length.toNat
    match Text.fromUtf8 bytes with
    | some text => (Python.loads server.python (lit text)).mapError (server.loadsFailure bytes)
    | none => .error (server.loadsFailure bytes .decodeError)

/-- The part of `_dispatch` that looks at the request only. -/
def route (given : Given) (request : Request) : Except Failure Route := do
  let (path,query) ← liftBuiltin (server.urlparse request.path)
  let parts := routeParts path
  let query := server.parseQs query
  let data ← (if request.method = .post then server.readJson request else .ok (.dict []))
  if parts = [lit "health"] then return .reply ⟨200,[(lit "ok",.bool true)]⟩
  else if request.method = .post ∧ parts = [lit "stores"] then do
    let purpose ← getOr data "purpose" (.str [])
    let author ← getOr data "author" (.str (lit "unknown"))
    return .call (.create given.git ⟨purpose,author,given.token,given.now⟩)
  else if parts.head? = some (lit "stores") then do
    let token ← request.token parts data query
    let tail := parts.drop 2
    if request.method = .get ∧ tail = [] then return .describe token
    else if request.method = .get ∧ tail = [lit "entries"] then do
      let q := (queryFirst query "q").getD []
      let limit ← liftBuiltin (server.int ((queryFirst query "limit").getD (lit "10")))
      return .search token q limit
    else if request.method = .post ∧ tail = [lit "entries"] then do
      let content ← getOr data "content" (.str [])
      let author ← getOr data "author" (.str (lit "unknown"))
      let tags ← getOr data "tags" .none
      return .call (.add given.git ⟨token,content,author,tags,given.now⟩)
    else return .reply notFound
  else return .reply notFound

/-- `_dispatch`. -/
def dispatch (given : Given) (request : Request) : Op Reply := do
  let route ← lift (server.route given request)
  route.run server.lib

/-- The reply to a request that raised. -/
def failed : Failure → Reply
  | .storeNotFound message => ⟨404,[(lit "error",.str (lit message))]⟩
  | .invalidRequest message => ⟨400,[(lit "error",.str (lit message))]⟩
  | e => ⟨500,[(lit "error",.str (server.surfaced e))]⟩

/-- `_guard`. -/
def guard (given : Given) (request : Request) (disk : Disk) : Reply × Disk :=
  match server.dispatch given request disk with
  | (.ok reply,after) => (reply,after)
  | (.error e,after) => (server.failed e,after)

end Server

/-- The call made something that was not there. -/
def Outcome.New : Outcome → Prop
  | .created _ => True
  | .added result => result.duplicate = false

instance : DecidablePred Outcome.New
  | .created _ => inferInstanceAs (Decidable True)
  | .added result => inferInstanceAs (Decidable (result.duplicate = false))

/-- The request is refused for what it says. -/
def Failure.Refusal : Failure → Prop
  | .invalidRequest _ => True
  | .storeNotFound _ => True
  | _ => False

def Call.token : Call → Value
  | .create _ args => .str args.token
  | .add _ args => args.token

/-- The token of the store that a request is about. -/
def Route.token : Route → Option Value
  | .reply _ => none
  | .describe token => some token
  | .search token _ _ => some token
  | .call request => some request.token

/-- How a request goes. -/
inductive Handled (server : Server) (request : Request) (disk : Disk) : Reply → Disk → Prop
  /-- The disk stays as it is, and the status does not say otherwise. -/
  | idle {reply : Reply} (hcode : reply.code ∈ [200,400,404,500]) : Handled server request disk reply disk
  | wrote {call : Call} {outcome : Outcome} {after : Disk} (hpost : request.method = .post)
      (hexec : call.exec server.lib disk = (.ok outcome,after)) (hnew : outcome.New) :
      Handled server request disk ⟨201,outcome.reply.payload⟩ after
  | broke {call : Call} {e : Failure} {after : Disk} (hpost : request.method = .post)
      (hexec : call.exec server.lib disk = (.error e,after)) (hrefusal : ¬e.Refusal) :
      Handled server request disk (server.failed e) after

/-- A request, what it met with, and the reply. -/
structure Exchange where
  given : Given
  request : Request
  reply : Reply

/-- An exchange on the working tree that a run has reached. -/
def Served (server : Server) (s : Snapshot) (exchange : Exchange) (t : Snapshot) : Prop :=
  ∃ trail, server.guard exchange.given exchange.request ⟨s,[]⟩ = (exchange.reply,⟨t,trail⟩)

/-- What a client was told is new. -/
def Exchange.reported (exchange : Exchange) : Option (Dict Str Value) :=
  if exchange.reply.code = 201 then some exchange.reply.payload else none

/-- What a call has made. -/
def Event.made (event : Event) : Option (Dict Str Value) :=
  match event.result with
  | .ok outcome => if outcome.New then some outcome.reply.payload else none
  | .error _ => none

/-- The calls behind a run of exchanges. -/
structure Behind (lib : Library) (start : Snapshot) (log : List Exchange) (t : Snapshot)
    (calls : List Event) : Prop where
  run : Run (Called lib) start calls t
  /-- The clients were told of what was made, in the order in which it was. -/
  made : calls.filterMap Event.made = log.filterMap Exchange.reported
  /-- Only a `500` leaves files that are not committed. -/
  committed : (∀ exchange ∈ log, exchange.reply.code ≠ 500) → start.head = files start.tree →
    t.head = files t.tree

/-- A request that writes under a digest, whatever comes of it. -/
def Exchange.Touches (server : Server) (digest : Str) (exchange : Exchange) : Prop :=
  ∃ call, server.route exchange.given exchange.request = .ok (.call call) ∧
    tokenDigest server.lib call.token = .ok digest

/-- No exchange has written to the store that a request is about. -/
def Untouched (server : Server) (log : List Exchange) (route : Route) : Prop :=
  ∀ token digest, route.token = some token → tokenDigest server.lib token = .ok digest →
    ∀ exchange ∈ log, ¬exchange.Touches server digest

/-- The disk between two exchanges, or at any step of the last one. -/
inductive Moment (server : Server) (start : Snapshot) : List Exchange → Snapshot → Prop
  | reached {log : List Exchange} {s : Snapshot} (h : Run (Served server) start log s) :
      Moment server start log s
  | during {log : List Exchange} {exchange : Exchange} {mid s : Snapshot}
      (h : Run (Served server) start log mid)
      (hstep : s ∈ (server.guard exchange.given exchange.request ⟨mid,[]⟩).2.trail) :
      Moment server start (log ++ [exchange]) s

section
variable {lib : Library} {git : Git} {disk after : Disk} {e : Failure}

/-- A creation that is refused has made nothing. -/
theorem createStore_refusal {args : CreateArgs} (h : createStore lib git args disk = (.error e,after))
    (hrefusal : e.Refusal) : after = disk := by
  by_cases hopens : ∃ purpose name, Opens lib disk.now.tree args purpose name
  · obtain ⟨purpose,name,hopens⟩ := hopens
    rw [createStore_opens git hopens] at h
    cases hauthor : (args.author.orElse (.str (lit "unknown"))).strip with
    | error b =>
      rw [fillStore_author git hauthor] at h
      cases h
      cases hrefusal
    | ok author =>
      by_cases hencodable : Utf8Encodable (storeText purpose author args.now)
      · rw [fillStore_spec git hauthor hencodable,bind_pure_eq_error] at h
        rcases (commit_error h).1 with rfl | ⟨⟨_,_,rfl⟩,_⟩ <;> cases hrefusal
      · rw [fillStore_unencodable git hauthor hencodable] at h
        cases h
        cases hrefusal
  · obtain ⟨e',_,hrefused⟩ := createStore_refused git disk
      (fun purpose name hopens' => hopens ⟨purpose,name,hopens'⟩)
    rw [hrefused] at h
    exact (Prod.mk.inj h).2.symm

/-- An entry that is refused has changed nothing. -/
theorem addEntry_refusal {args : EntryArgs} (h : addEntry lib git args disk = (.error e,after))
    (hrefusal : e.Refusal) : after = disk := by
  cases hprepare : prepare lib disk.now.tree args with
  | error e' =>
    rw [addEntry_refused git disk hprepare] at h
    exact (Prod.mk.inj h).2.symm
  | ok prepared =>
    cases prepared with
    | duplicate info =>
      rw [addEntry_duplicate git disk hprepare] at h
      cases (Prod.mk.inj h).1
    | write pending =>
      obtain ⟨entry,dir,digest,hready⟩ := prepare_write.mp hprepare
      have hdir := (dirFor_ok.mp hready.found).2
      rw [addEntry_write git disk hprepare] at h
      cases hfiles : dir.entries with
      | none =>
        rw [store_missing git hdir hfiles] at h
        exact (Prod.mk.inj h).2.symm
      | some files =>
        by_cases hencodable : Utf8Encodable pending.text
        · have hstore := store_spec git disk hdir hfiles hencodable
          rw [h] at hstore
          rcases hstore.1 with rfl | ⟨⟨_,_,rfl⟩,_⟩ <;> cases hrefusal
        · rw [store_unencodable git hdir hfiles hencodable] at h
          cases h
          cases hrefusal

theorem exec_refusal {call : Call} (h : call.exec lib disk = (.error e,after))
    (hrefusal : e.Refusal) : after = disk := by
  cases call with
  | create git args => exact createStore_refusal (exec_create.mp h) hrefusal
  | add git args => exact addEntry_refusal (exec_add.mp h) hrefusal

/-- Content that is there already is answered without a write. -/
theorem exec_not_new {call : Call} {outcome : Outcome} (h : call.exec lib disk = (.ok outcome,after))
    (hnew : ¬outcome.New) : after = disk := by
  cases call with
  | create git args =>
    obtain ⟨created,_,rfl⟩ := bind_pure_eq_ok.mp h
    exact absurd trivial hnew
  | add git args =>
    obtain ⟨added,hadded,rfl⟩ := bind_pure_eq_ok.mp h
    cases hprepare : prepare lib disk.now.tree args with
    | error e =>
      rw [addEntry_refused git disk hprepare] at hadded
      cases (Prod.mk.inj hadded).1
    | ok prepared =>
      cases prepared with
      | duplicate info =>
        rw [addEntry_duplicate git disk hprepare] at hadded
        exact (Prod.mk.inj hadded).2.symm
      | write pending =>
        rw [addEntry_write git disk hprepare] at hadded
        rw [Pending.store,← Effect.bind_assoc] at hadded
        obtain ⟨_,_,rfl⟩ := bind_pure_eq_ok.mp hadded
        exact absurd rfl hnew

end

section
variable {server : Server} {given : Given} {request : Request} {disk after : Disk} {e : Failure}
  {route : Route} {reply : Reply}

@[simp] theorem failed_of_not_refusal (h : ¬e.Refusal) :
    server.failed e = ⟨500,[(lit "error",.str (server.surfaced e))]⟩ := by
  cases e with
  | invalidRequest message => exact absurd trivial h
  | storeNotFound message => exact absurd trivial h
  | _ => rfl

theorem failed_code (server : Server) (e : Failure) : (server.failed e).code ∈ [200,400,404,500] := by
  cases e <;> simp [Server.failed]

theorem reply_of_new {outcome : Outcome} (h : outcome.New) :
    outcome.reply = ⟨201,outcome.reply.payload⟩ := by
  cases outcome with
  | created result => rfl
  | added result =>
    have hnew : result.duplicate = false := h
    simp [Outcome.reply,hnew]

/-- Only a POST makes a call, and a reply without one is `200` or `404`. -/
theorem route_cases (h : server.route given request = .ok route) :
    (∃ call, route = .call call ∧ request.method = .post) ∨
    (∃ reply, route = .reply reply ∧ reply.code ∈ [200,400,404,500]) ∨
    (∃ token, route = .describe token) ∨ ∃ token query limit, route = .search token query limit := by
  unfold Server.route at h
  obtain ⟨⟨path,query⟩,_,h⟩ := bind_eq_ok.mp h
  obtain ⟨data,_,h⟩ := bind_eq_ok.mp h
  dsimp only at h
  split_ifs at h with hhealth hstores hhead hdescribe hsearch hadd
  · cases h
    exact .inr (.inl ⟨_,rfl,by decide⟩)
  · obtain ⟨purpose,_,h⟩ := bind_eq_ok.mp h
    obtain ⟨author,_,h⟩ := bind_eq_ok.mp h
    cases h
    exact .inl ⟨_,rfl,hstores.1⟩
  · obtain ⟨token,_,h⟩ := bind_eq_ok.mp h
    cases h
    exact .inr (.inr (.inl ⟨_,rfl⟩))
  · obtain ⟨token,_,h⟩ := bind_eq_ok.mp h
    obtain ⟨limit,_,h⟩ := bind_eq_ok.mp h
    cases h
    exact .inr (.inr (.inr ⟨_,_,_,rfl⟩))
  · obtain ⟨token,_,h⟩ := bind_eq_ok.mp h
    obtain ⟨content,_,h⟩ := bind_eq_ok.mp h
    obtain ⟨author,_,h⟩ := bind_eq_ok.mp h
    obtain ⟨tags,_,h⟩ := bind_eq_ok.mp h
    cases h
    exact .inl ⟨_,rfl,hadd.1⟩
  · obtain ⟨token,_,h⟩ := bind_eq_ok.mp h
    cases h
    exact .inr (.inl ⟨_,rfl,by decide⟩)
  · cases h
    exact .inr (.inl ⟨_,rfl,by decide⟩)

/-- A request goes one of three ways. -/
theorem guard_handled (server : Server) (given : Given) (request : Request) (disk : Disk) :
    Handled server request disk (server.guard given request disk).1
      (server.guard given request disk).2 := by
  unfold Server.guard Server.dispatch
  cases hroute : server.route given request with
  | error e =>
    rw [bind_error (show lift _ disk = (.error e,disk) by rw [lift_apply])]
    exact .idle (failed_code server e)
  | ok route =>
    rw [bind_ok (show lift _ disk = (.ok route,disk) by rw [lift_apply])]
    rcases route_cases hroute with ⟨call,rfl,hpost⟩ | ⟨reply,rfl,hcode⟩ | ⟨token,rfl⟩ |
      ⟨token,query,limit,rfl⟩
    · rw [Route.run,bind_apply]
      rcases hexec : call.exec server.lib disk with ⟨e | outcome,after⟩
      · by_cases hrefusal : e.Refusal
        · obtain rfl := exec_refusal hexec hrefusal
          exact .idle (failed_code server e)
        · exact .broke hpost hexec hrefusal
      · by_cases hnew : outcome.New
        · have hwrote := Handled.wrote hpost hexec hnew
          rwa [← reply_of_new hnew] at hwrote
        · obtain rfl := exec_not_new hexec hnew
          refine .idle ?_
          cases outcome with
          | created result => exact absurd trivial hnew
          | added result =>
            have hduplicate : result.duplicate = true := by simpa [Outcome.New] using hnew
            simp [Outcome.reply,hduplicate]
    · exact .idle hcode
    · rw [Route.run,bind_ok (read_apply disk),bind_apply,lift_apply]
      cases describe server.lib disk.now.tree token with
      | error e => exact .idle (failed_code server e)
      | ok result => exact .idle List.mem_cons_self
    · rw [Route.run,bind_ok (read_apply disk),bind_apply,lift_apply]
      cases search server.lib disk.now.tree token query limit with
      | error e => exact .idle (failed_code server e)
      | ok rows => exact .idle List.mem_cons_self

/-- A call that made something has committed the working tree. -/
theorem called_new {s t : Snapshot} {trail : List Snapshot} {call : Call} {outcome : Outcome}
    (h : call.exec server.lib ⟨s,[]⟩ = (.ok outcome,⟨t,trail⟩)) (hnew : outcome.New) :
    t.head = files t.tree := by
  cases call with
  | create git args =>
    obtain ⟨created,hcreated,rfl⟩ := bind_pure_eq_ok.mp h
    obtain ⟨_,_,_,_,_,_,_,hhead⟩ := createStore_ok hcreated
    exact hhead
  | add git args =>
    obtain ⟨added,hadded,rfl⟩ := bind_pure_eq_ok.mp h
    rcases addEntry_ok hadded with ⟨_,_,rfl,_⟩ | ⟨_,_,_,_,_,_,_,_,_,hhead⟩
    · cases hnew
    · exact hhead

theorem Behind.step {start s t : Snapshot} {log : List Exchange} {calls : List Event}
    {exchange : Exchange} (h : Behind server.lib start log s calls)
    (hserved : Served server s exchange t) :
    ∃ more, Behind server.lib start (log ++ [exchange]) t (calls ++ more) := by
  obtain ⟨trail,hguard⟩ := hserved
  have hhandled := guard_handled server exchange.given exchange.request ⟨s,[]⟩
  rw [hguard] at hhandled
  obtain ⟨given,request,reply⟩ := exchange
  dsimp only at hhandled
  have hearlier : (∀ exchange ∈ log ++ [⟨given,request,reply⟩], exchange.reply.code ≠ 500) →
      ∀ exchange ∈ log, exchange.reply.code ≠ 500 :=
    fun hcodes exchange hexchange => hcodes exchange (List.mem_append_left _ hexchange)
  generalize hafter : (⟨t,trail⟩ : Disk) = after at hhandled
  cases hhandled with
  | idle hcode =>
    cases hafter
    have hnone : Exchange.reported ⟨given,request,reply⟩ = none := by
      refine if_neg fun h201 => ?_
      rw [show reply.code = 201 from h201] at hcode
      exact absurd hcode (by decide)
    refine ⟨[],?_,?_,fun hcodes hstart => h.committed (hearlier hcodes) hstart⟩
    · rw [List.append_nil]
      exact h.run
    · rw [List.append_nil,List.filterMap_append,List.filterMap_cons_none hnone,List.filterMap_nil,
        List.append_nil]
      exact h.made
  | @wrote call outcome _ hpost hexec hnew =>
    subst hafter
    refine ⟨[⟨call,.ok outcome⟩],h.run.snoc ⟨trail,hexec⟩,?_,fun _ _ => called_new hexec hnew⟩
    rw [List.filterMap_append,List.filterMap_append,h.made]
    simp [Event.made,Exchange.reported,hnew]
  | @broke call e _ hpost hexec hrefusal =>
    subst hafter
    refine ⟨[⟨call,.error e⟩],h.run.snoc ⟨trail,hexec⟩,?_,fun hcodes _ => ?_⟩
    · rw [List.filterMap_append,List.filterMap_append,h.made]
      simp [Event.made,Exchange.reported,hrefusal]
    · refine absurd ?_ (hcodes _ (List.mem_append_right _ (List.mem_singleton_self _)))
      rw [failed_of_not_refusal hrefusal]

/-- A run of the server is a run of the store. -/
theorem served_behind (server : Server) {start t : Snapshot} {log : List Exchange}
    (h : Run (Served server) start log t) : ∃ calls, Behind server.lib start log t calls := by
  refine h.invariant (I := fun log t => ∃ calls, Behind server.lib start log t calls)
    ⟨[],.nil,rfl,fun _ hstart => hstart⟩ ?_
  rintro log mid exchange t _ ⟨calls,hcalls⟩ hserved
  obtain ⟨more,hmore⟩ := hcalls.step hserved
  exact ⟨calls ++ more,hmore⟩

theorem exec_keeps {call : Call} {digest : Str} (h : tokenDigest server.lib call.token ≠ .ok digest) :
    Within (Keeps digest) (call.exec server.lib) := by
  cases call with
  | create git args =>
    exact Within.bind Keeps.trans (createStore_keeps git h) fun _ _ _ _ => Within.pure Keeps.refl _
  | add git args =>
    exact Within.bind Keeps.trans (addEntry_keeps git h) fun _ _ _ _ => Within.pure Keeps.refl _

/-- A request keeps the directories of all stores but the one that it writes to. -/
theorem guard_keeps {digest : Str} {exchange : Exchange} (h : ¬exchange.Touches server digest)
    (disk : Disk) : Keeps digest disk (server.guard exchange.given exchange.request disk).2 := by
  have hkeeps : Keeps digest disk (server.dispatch exchange.given exchange.request disk).2 := by
    unfold Server.dispatch
    cases hroute : server.route exchange.given exchange.request with
    | error e => exact Keeps.refl disk
    | ok route =>
      rw [bind_ok (show lift _ disk = (.ok route,disk) by rw [lift_apply])]
      cases route with
      | reply given => exact Keeps.refl disk
      | describe token =>
        exact Within.read (fun _ => Within.bind Keeps.trans (Within.lift Keeps.refl _)
          fun _ _ _ _ => Within.pure Keeps.refl _) disk
      | search token query limit =>
        exact Within.read (fun _ => Within.bind Keeps.trans (Within.lift Keeps.refl _)
          fun _ _ _ _ => Within.pure Keeps.refl _) disk
      | call request =>
        exact Within.bind Keeps.trans (exec_keeps fun hdigest => h ⟨request,hroute,hdigest⟩)
          (fun _ _ _ _ => Within.pure Keeps.refl _) disk
  unfold Server.guard
  rcases hrun : server.dispatch exchange.given exchange.request disk with ⟨e | reply,after⟩
  · rwa [hrun] at hkeeps
  · rwa [hrun] at hkeeps

theorem served_get {digest : Str} {start t : Snapshot} {log : List Exchange}
    (h : Run (Served server) start log t) :
    (∀ exchange ∈ log, ¬exchange.Touches server digest) →
      t.tree.get digest = start.tree.get digest := by
  refine h.invariant (I := fun log t => (∀ exchange ∈ log, ¬exchange.Touches server digest) →
    t.tree.get digest = start.tree.get digest) (fun _ => rfl) ?_
  rintro log mid exchange t _ ih ⟨trail,hguard⟩ huntouched
  obtain ⟨hearlier,hlast⟩ := List.forall_mem_append.mp huntouched
  have hkeeps := guard_keeps (hlast exchange (List.mem_singleton_self _)) ⟨mid,[]⟩
  rw [hguard] at hkeeps
  obtain ⟨more,_,hsame⟩ := hkeeps
  exact (hsame _ List.mem_cons_self).trans (ih hearlier)

theorem moment_get {digest : Str} {start s : Snapshot} {log : List Exchange}
    (h : Moment server start log s) (huntouched : ∀ exchange ∈ log, ¬exchange.Touches server digest) :
    s.tree.get digest = start.tree.get digest := by
  cases h with
  | reached hrun => exact served_get hrun huntouched
  | @during log exchange mid _ hrun hstep =>
    obtain ⟨hearlier,hlast⟩ := List.forall_mem_append.mp huntouched
    obtain ⟨more,htrail,hsame⟩ := guard_keeps (hlast exchange (List.mem_singleton_self _)) ⟨mid,[]⟩
    rw [htrail,List.nil_append] at hstep
    exact (hsame s (List.mem_cons_of_mem _ hstep)).trans (served_get hrun hearlier)

/-- What a GET is about does not depend on the clock, on chance or on git. -/
theorem route_get (hget : request.method = .get) (given given' : Given) :
    server.route given request = server.route given' request := by
  simp [Server.route,hget]

/-- A GET is answered from the store of its token. -/
theorem guard_get (hget : request.method = .get) (given given' : Given) (disk disk' : Disk)
    (hsame : ∀ route token, server.route given request = .ok route → route.token = some token →
      SameAnswers server.lib disk.now.tree disk'.now.tree token) :
    (server.guard given' request disk').1 = (server.guard given request disk).1 := by
  unfold Server.guard Server.dispatch
  rw [route_get hget given' given]
  cases hroute : server.route given request with
  | error e => rfl
  | ok route =>
    simp only [bind_apply,lift_apply]
    cases route with
    | reply given => rfl
    | describe token =>
      rw [Route.run,bind_ok (read_apply _),bind_ok (read_apply _),bind_apply,bind_apply,lift_apply,
        lift_apply,(hsame _ _ hroute rfl).describe]
      cases describe server.lib disk.now.tree token <;> rfl
    | search token query limit =>
      rw [Route.run,bind_ok (read_apply _),bind_ok (read_apply _),bind_apply,bind_apply,lift_apply,
        lift_apply,(hsame _ _ hroute rfl).search]
      cases search server.lib disk.now.tree token query limit <;> rfl
    | call call =>
      rcases route_cases hroute with ⟨_,_,hpost⟩ | ⟨_,hcall,_⟩ | ⟨_,hcall⟩ | ⟨_,_,_,hcall⟩
      · rw [hpost] at hget
        cases hget
      · cases hcall
      · cases hcall
      · cases hcall

/-- Requests about other stores never change what a GET is told, not even while they are
being answered. -/
theorem served_isolated (server : Server) {start s : Snapshot} {log : List Exchange}
    (h : Moment server start log s) {request : Request} {route : Route} {given : Given}
    (hget : request.method = .get) (hroute : server.route given request = .ok route)
    (huntouched : Untouched server log route) (given' : Given) :
    (server.guard given' request ⟨s,[]⟩).1 = (server.guard given request ⟨start,[]⟩).1 := by
  refine guard_get hget given given' ⟨start,[]⟩ ⟨s,[]⟩ fun route' token hroute' htoken => ?_
  obtain rfl : route = route' := Except.ok.inj (hroute.symm.trans hroute')
  exact sameAnswers_of_get fun digest hdigest =>
    moment_get h (huntouched token digest htoken hdigest)

end
def exampleServer : Server where
  lib := exampleLibrary
  python := exampleInterpreter
  urlparse path := .ok (path,[])
  parseQs _ := []
  int text := if text.all isDigit then .ok (natOf text) else .error .valueError
  decodeError _ := "not a document"
  surfaced _ := lit "an exception"

def exampleBody : String := "\x7b\"purpose\": \"household\", \"author\": \"ada\"\x7d"

def createRequest : Request where
  method := .post
  path := lit "/stores"
  contentLength := some (lit "41")
  storeToken := none
  stream := Text.asBytes exampleBody

/-- A member that is a string. -/
def textAt (key : String) : Value → Option Str
  | .dict items => (Dict.get items (lit key)).bind (fun value => match value with
    | .str s => some s
    | _ => none)
  | _ => none

theorem getOr_text {data : Value} {key : String} {s : Str} (h : textAt key data = some s)
    (default : Value) : getOr data key default = .ok (.str s) := by
  cases data with
  | dict items =>
    obtain ⟨value,hvalue,h⟩ := Option.bind_eq_some_iff.mp h
    cases value with
    | str text =>
      obtain rfl := Option.some.inj h
      simp only [getOr,hvalue,Option.getD_some]
    | _ => cases h
  | _ => cases h

theorem createRequest_route (given : Given) : exampleServer.route given createRequest =
    .ok (.call (.create given.git ⟨.str (lit "household"),.str (lit "ada"),given.token,given.now⟩)) := by
  have hbytes : createRequest.stream.take (41 : Int).toNat = Text.asBytes exampleBody := by
    decide +kernel
  have htexts : (Python.loads exampleInterpreter (lit exampleBody)).toOption.bind (fun data => do
      let purpose ← textAt "purpose" data
      let author ← textAt "author" data
      return (purpose,author)) = some (lit "household",lit "ada") := by decide +kernel
  obtain ⟨data,hdata,htexts⟩ := Option.bind_eq_some_iff.mp htexts
  have hdata : Python.loads exampleServer.python (lit exampleBody) = .ok data := by
    cases hloads : Python.loads exampleInterpreter (lit exampleBody) with
    | error e =>
      rw [hloads] at hdata
      cases hdata
    | ok data' =>
      rw [hloads] at hdata
      rw [← Option.some.inj hdata]
      exact hloads
  obtain ⟨purpose,hpurpose,htexts⟩ := Option.bind_eq_some_iff.mp htexts
  obtain ⟨author,hauthor,htexts⟩ := Option.bind_eq_some_iff.mp htexts
  obtain ⟨rfl,rfl⟩ := Prod.mk.inj (Option.some.inj htexts)
  have hlength : exampleServer.int (lit "41") = .ok 41 := by decide
  have hread : exampleServer.readJson createRequest = .ok data := by
    have hheader : createRequest.contentLength.getD [] = lit "41" := rfl
    simp only [Server.readJson,hheader]
    rw [if_neg (by decide),hlength]
    refine bind_eq_ok.mpr ⟨41,rfl,?_⟩
    rw [if_neg (by decide),if_neg (by decide),hbytes,Text.fromUtf8_asBytes]
    exact mapError_eq_ok.mpr hdata
  have hparts : routeParts (lit "/stores") = [lit "stores"] := by decide
  unfold Server.route
  refine bind_eq_ok.mpr ⟨(lit "/stores",[]),rfl,bind_eq_ok.mpr ⟨data,(if_pos rfl).trans hread,?_⟩⟩
  rw [hparts,if_neg (by decide),if_pos ⟨rfl,rfl⟩,getOr_text hpurpose,getOr_text hauthor]
  rfl
def createExchange : Exchange where
  given := ⟨exampleNow,exampleToken,.working⟩
  request := createRequest
  reply := (Outcome.created ⟨exampleToken,storeMeta (lit "household") (lit "ada") exampleNow,0⟩).reply

/-- The request is answered with the store that it makes. -/
theorem served_create : Served exampleServer .empty createExchange exampleStore := by
  obtain ⟨trail,hcreate⟩ := createStore_example
  refine ⟨trail,?_⟩
  have hexec : (Call.create .working exampleCreate).exec exampleLibrary ⟨.empty,[]⟩ = (.ok _,_) :=
    bind_ok hcreate
  have hrun : exampleServer.dispatch createExchange.given createExchange.request ⟨.empty,[]⟩ =
      (.ok createExchange.reply,⟨exampleStore,trail⟩) := by
    unfold Server.dispatch
    rw [show createExchange.request = createRequest from rfl,createRequest_route]
    exact (bind_ok rfl).trans (bind_ok hexec)
  rw [Server.guard,hrun]

/-- A GET of the example store. -/
def describeRequest : Request where
  method := .get
  path := lit "/stores"
  contentLength := none
  storeToken := some exampleToken
  stream := []

/-- The exchange that a request leads to. -/
def Server.exchange (server : Server) (given : Given) (request : Request) (s : Snapshot) : Exchange :=
  ⟨given,request,(server.guard given request ⟨s,[]⟩).1⟩

def Server.next (server : Server) (given : Given) (request : Request) (s : Snapshot) : Snapshot :=
  (server.guard given request ⟨s,[]⟩).2.now

theorem served_next (server : Server) (given : Given) (request : Request) (s : Snapshot) :
    Served server s (server.exchange given request s) (server.next given request s) :=
  ⟨(server.guard given request ⟨s,[]⟩).2.trail,rfl⟩

/-- Another store is made beside the example store. -/
def otherGiven : Given := ⟨exampleNow,lit "other",.working⟩

def failingGiven : Given := ⟨exampleNow,lit "other",⟨true,true,false⟩⟩

/-- A store is made and read, and then git fails to commit another one. -/
theorem served_behind_create : ∃ calls, Behind exampleServer.lib .empty
    [createExchange,exampleServer.exchange otherGiven describeRequest exampleStore,
      exampleServer.exchange failingGiven createRequest exampleStore]
    (exampleServer.next failingGiven createRequest exampleStore) calls := by
  have hread : exampleServer.next otherGiven describeRequest exampleStore = exampleStore := rfl
  have hsecond := served_next exampleServer otherGiven describeRequest exampleStore
  rw [hread] at hsecond
  exact served_behind exampleServer (((Run.single served_create).snoc hsecond).snoc
    (served_next exampleServer failingGiven createRequest exampleStore))

def otherStore : Snapshot := exampleServer.next otherGiven createRequest exampleStore

theorem served_isolated_other :
    (exampleServer.guard createExchange.given describeRequest ⟨otherStore,[]⟩).1 =
      (exampleServer.guard createExchange.given describeRequest ⟨exampleStore,[]⟩).1 := by
  have hmoment := Moment.reached (.single (served_next exampleServer otherGiven createRequest exampleStore))
  have hroute : exampleServer.route createExchange.given describeRequest =
      .ok (.describe (.str exampleToken)) := rfl
  refine served_isolated exampleServer hmoment rfl hroute ?_ _
  rintro token digest ⟨⟩ hdigest exchange hexchange ⟨call,hcall,hother⟩
  obtain rfl := List.mem_singleton.mp hexchange
  obtain ⟨rfl⟩ := Route.call.inj (Except.ok.inj ((createRequest_route otherGiven).symm.trans hcall))
  have hname : tokenDigest exampleServer.lib (.str exampleToken) ≠
      tokenDigest exampleServer.lib (.str (lit "other")) := by decide
  exact hname (hdigest.trans hother.symm)

end HearthAI.Memory
