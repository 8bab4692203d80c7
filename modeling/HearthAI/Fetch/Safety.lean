import HearthAI.Fetch.Loop

/-! # Destination safety of the fetch loop

The invariant is about the hops already followed: each was looked up once, every
answer was permitted, and one request was sent to one of these answers. It is
preserved by one turn of the loop, against any resolver and any server.
-/
namespace HearthAI.Fetch
open Text Contracts Effect

def Hop.answers (hop : Hop) : List IpAddr := hop.lookups.flatMap (·.answer.getD [])
def Hop.Permitted (policy : DestinationPolicy) (hop : Hop) : Prop :=
  ∀ ip ∈ hop.answers, policy.permits ip = true

def calls (hops : List Hop) : List Call := hops.flatMap (·.calls)
def Call.headerBytes (call : Call) : ℕ :=
  match call.response with
  | .ok response => measureHeaders response
  | .error _ => 0
def headerBytes (hops : List Hop) : ℕ := ((calls hops).map Call.headerBytes).sum

@[simp] theorem calls_cons (hop : Hop) (past : List Hop) :
    calls (hop :: past) = hop.calls ++ calls past := rfl
@[simp] theorem headerBytes_cons (hop : Hop) (past : List Hop) :
    headerBytes (hop :: past) = (hop.calls.map Call.headerBytes).sum + headerBytes past := by
  simp [headerBytes]

/-- What one hop may do, whatever it was told. -/
structure HopSafe (world : World) (policy : DestinationPolicy) (hop : Hop) : Prop where
  lookups : hop.lookups.length ≤ 1
  calls : hop.calls.length ≤ 1
  destination : hop.calls ≠ [] →
    (hop.url.scheme = "http" ∨ hop.url.scheme = "https") ∧
      hop.url.username = "" ∧ hop.url.password = none
  request : ∀ call ∈ hop.calls, call.request.uri = world.urls.asStr hop.url
  connections : ∀ call ∈ hop.calls, ∀ address ∈ call.connections,
    address.ip ∈ hop.answers ∧ policy.permits address.ip = true ∧
      hop.url.portOrKnownDefault = some address.port ∧
      policy.permitsPort address.port = true ∧
      (policy.profile = .production → address.port = 80 ∨ address.port = 443)
  refused : ¬hop.Permitted policy → hop.calls = []

/-- What a whole run may do. The newest hop is the head of the record. -/
structure RunSafe (world : World) (policy : DestinationPolicy)
    (result : Except ErrorCode Fetched) (trace : Trace) : Prop where
  hops : ∀ hop ∈ trace.hops, HopSafe world policy hop
  earlier : ∀ hop ∈ trace.hops.tail, hop.Permitted policy
  refused : ∀ hop ∈ trace.hops, ¬hop.Permitted policy → ∃ code, result = .error code
  requests : (calls trace.hops).length ≤ maxRedirects + 1
  headers : ∀ fetched, result = .ok fetched → headerBytes trace.hops ≤ maxHeaderBytes

/-- The hops behind a loop entry with these values of its counters. -/
structure Followed (world : World) (policy : DestinationPolicy) (total redirects : ℕ)
    (past : List Hop) : Prop where
  safe : ∀ hop ∈ past, HopSafe world policy hop
  permitted : ∀ hop ∈ past, hop.Permitted policy
  requests : (calls past).length = redirects
  bounded : redirects ≤ maxRedirects
  headers : headerBytes past = total

variable {world : World} {policy : DestinationPolicy} {total redirects : ℕ}

theorem followed_nil : Followed world policy 0 0 [] :=
  ⟨by simp,by simp,rfl,Nat.zero_le _,rfl⟩

theorem hopSafe_of_no_calls {hop : Hop} (hlookups : hop.lookups.length ≤ 1)
    (hcalls : hop.calls = []) : HopSafe world policy hop where
  lookups := hlookups
  calls := by simp [hcalls]
  destination := fun h => absurd hcalls h
  request := by simp [hcalls]
  connections := by simp [hcalls]
  refused := fun _ => hcalls

/-- One followed redirect adds its hop to the ones behind the loop. -/
theorem Followed.cons {past : List Hop} {hop : Hop} {call : Call} {response : Response}
    (h : Followed world policy total redirects past) (hsafe : HopSafe world policy hop)
    (hpermitted : hop.Permitted policy) (hcalls : hop.calls = [call])
    (hresponse : call.response = .ok response) (hbound : redirects + 1 ≤ maxRedirects) :
    Followed world policy (total + measureHeaders response) (redirects + 1) (hop :: past) where
  safe := List.forall_mem_cons.mpr ⟨hsafe,h.safe⟩
  permitted := List.forall_mem_cons.mpr ⟨hpermitted,h.permitted⟩
  requests := by simp [hcalls,h.requests]
  bounded := hbound
  headers := by simp [hcalls,Call.headerBytes,hresponse,h.headers,Nat.add_comm]

/-- The turn of the loop that is under way: its hop, and the ones behind it. -/
def OnHop (world : World) (policy : DestinationPolicy) (total redirects : ℕ) (p : Hop → Prop)
    (trace : Trace) : Prop :=
  ∃ hop past, trace.hops = hop :: past ∧ p hop ∧ Followed world policy total redirects past

theorem OnHop.imp {p q : Hop → Prop} (hpq : ∀ hop, p hop → q hop) {trace : Trace}
    (h : OnHop world policy total redirects p trace) :
    OnHop world policy total redirects q trace := by
  obtain ⟨hop,past,htrace,hp,hpast⟩ := h
  exact ⟨hop,past,htrace,hpq hop hp,hpast⟩

theorem OnHop.runSafe_error {trace : Trace} {code : ErrorCode}
    (h : OnHop world policy total redirects (HopSafe world policy) trace) :
    RunSafe world policy (.error code) trace := by
  obtain ⟨hop,past,htrace,hsafe,hpast⟩ := h
  have hrequests := hpast.requests
  have hbounded := hpast.bounded
  have hcalls := hsafe.calls
  exact {
    hops := by rw [htrace]; exact List.forall_mem_cons.mpr ⟨hsafe,hpast.safe⟩
    earlier := by rw [htrace]; exact hpast.permitted
    refused := fun _ _ _ => ⟨code,rfl⟩
    requests := by rw [htrace,calls_cons,List.length_append]; omega
    headers := fun _ h => by cases h }

/-- A hop that was answered by a response and was permitted to be. -/
def Answered (world : World) (policy : DestinationPolicy) (response : Response) (hop : Hop) :
    Prop :=
  HopSafe world policy hop ∧ hop.Permitted policy ∧
    ∃ call, hop.calls = [call] ∧ call.response = .ok response

theorem OnHop.runSafe_ok {trace : Trace} {response : Response} {fetched : Fetched}
    (h : OnHop world policy total redirects (Answered world policy response) trace)
    (htotal : total + measureHeaders response ≤ maxHeaderBytes) :
    RunSafe world policy (.ok fetched) trace := by
  obtain ⟨hop,past,htrace,⟨hsafe,hpermitted,call,hcalls,hresponse⟩,hpast⟩ := h
  have hrequests := hpast.requests
  have hbounded := hpast.bounded
  have hheaders := hpast.headers
  exact {
    hops := by rw [htrace]; exact List.forall_mem_cons.mpr ⟨hsafe,hpast.safe⟩
    earlier := by rw [htrace]; exact hpast.permitted
    refused := by
      rw [htrace]
      intro hop' hmem hforbidden
      exact absurd (List.forall_mem_cons.mpr ⟨hpermitted,hpast.permitted⟩ hop' hmem) hforbidden
    requests := by rw [htrace,calls_cons,hcalls]; simp only [List.length_append,
      List.length_cons,List.length_nil]; omega
    headers := fun _ _ => by
      rw [htrace,headerBytes_cons,hcalls]
      simp only [List.map_cons,List.map_nil,List.sum_cons,List.sum_nil,Call.headerBytes,hresponse]
      omega }

/-- A hop that was looked up and not yet connected to. -/
structure Approved (policy : DestinationPolicy) (url : Url)
    (destination : ValidatedDestination policy) (hop : Hop) : Prop where
  source : hop.url = url
  target : destination.url = url
  lookups : hop.lookups.length ≤ 1
  calls : hop.calls = []
  permitted : hop.Permitted policy
  scheme : url.scheme = "http" ∨ url.scheme = "https"
  username : url.username = ""
  password : url.password = none
  addresses : ∀ address ∈ destination.addresses,
    address.ip ∈ hop.answers ∧ url.portOrKnownDefault = some address.port

theorem instantNow_spec (p : Hop → Prop) {E : ErrorCode → Trace → Prop} :
    Triple (OnHop world policy total redirects p) (instantNow world)
      (fun _ => OnHop world policy total redirects p) E :=
  ⟨fun _ h => h⟩

theorem lookupHost_spec (url : Url) (host : String) (port : ℕ) :
    Triple (OnHop world policy total redirects (· = ⟨url,[],[]⟩)) (lookupHost world host port)
      (fun addresses => OnHop world policy total redirects
        (· = ⟨url,[⟨host,port,some addresses⟩],[]⟩))
      (fun code => RunSafe world policy (.error code)) := by
  refine ⟨fun trace h => ?_⟩
  obtain ⟨hop,past,htrace,rfl,hpast⟩ := h
  unfold lookupHost
  cases hanswer : world.lookup trace host port with
  | none =>
    refine OnHop.runSafe_error ⟨⟨url,[⟨host,port,none⟩],[]⟩,past,?_,?_,hpast⟩
    · simp [Trace.addLookup,htrace]
    · exact hopSafe_of_no_calls (by simp) rfl
  | some addresses => exact ⟨_,past,by simp [Trace.addLookup,htrace],rfl,hpast⟩

theorem runSafe_unconnected {trace : Trace} {url : Url} {lookups : List Lookup} {code : ErrorCode}
    (hlookups : lookups.length ≤ 1)
    (h : OnHop world policy total redirects (· = ⟨url,lookups,[]⟩) trace) :
    RunSafe world policy (.error code) trace := by
  refine OnHop.runSafe_error (h.imp ?_)
  rintro hop rfl
  exact hopSafe_of_no_calls hlookups rfl

theorem resolve_spec (url : Url) :
    Triple (OnHop world policy total redirects (· = ⟨url,[],[]⟩))
      (ValidatedDestination.resolve world policy url)
      (fun destination => OnHop world policy total redirects (Approved policy url destination))
      (fun code => RunSafe world policy (.error code)) := by
  have hrefuse : ∀ (code : ErrorCode) (trace : Trace),
      OnHop world policy total redirects (· = ⟨url,[],[]⟩) trace →
        RunSafe world policy (.error code) trace :=
    fun code trace => runSafe_unconnected (by simp)
  unfold ValidatedDestination.resolve
  refine Triple.bind (M := fun _ s => checkDestination url = .ok () ∧
    OnHop world policy total redirects (· = ⟨url,[],[]⟩) s) ?_ (fun _ => Triple.of_fact ?_)
  · refine Triple.lift (fun _ hok s hs => ⟨?_,hs⟩) (fun code _ => hrefuse code)
    cases hcheck : checkDestination url with
    | ok => rfl
    | error e => simp [hcheck,Except.mapError] at hok
  intro hcheck
  obtain ⟨hscheme,huser,hpassword,_⟩ := checkDestination_ok hcheck
  refine Triple.bind (M := fun host s => url.hostStr = some host ∧
    OnHop world policy total redirects (· = ⟨url,[],[]⟩) s) ?_ (fun host => Triple.of_fact ?_)
  · exact Triple.lift (fun _ hok s hs => ⟨okOr_eq_ok.mp hok,hs⟩) (fun code _ => hrefuse code)
  intro hhost
  refine Triple.bind (M := fun port s => url.portOrKnownDefault = some port ∧
    OnHop world policy total redirects (· = ⟨url,[],[]⟩) s) ?_ (fun port => Triple.of_fact ?_)
  · exact Triple.lift (fun _ hok s hs => ⟨okOr_eq_ok.mp hok,hs⟩) (fun code _ => hrefuse code)
  intro hport
  by_cases hpermits : policy.permitsPort port = true
  · rw [dif_pos hpermits]
    refine Triple.bind (lookupHost_spec url host port) (fun addresses => ?_)
    refine Triple.bind (M := fun _ => OnHop world policy total redirects
      (· = ⟨url,[⟨host,port,some addresses⟩],[]⟩)) ?_ (fun _ => ?_)
    · exact Triple.raiseIf _ _ (fun _ _ hs => hs) (fun _ _ hs => runSafe_unconnected (by simp) hs)
    by_cases hall : addresses.all policy.permits = true
    · rw [dif_pos hall]
      refine Triple.return _ (fun s hs => hs.imp ?_)
      rintro hop rfl
      refine ⟨rfl,rfl,by simp,rfl,?_,hscheme,huser,hpassword,?_⟩
      · intro ip hip
        exact List.all_eq_true.mp hall ip (by simpa [Hop.answers] using hip)
      · intro address haddress
        obtain ⟨ip,hip,rfl⟩ := List.mem_map.mp haddress
        exact ⟨by simpa [Hop.answers] using hip,hport⟩
    · rw [dif_neg hall]
      exact Triple.raise _ (fun _ hs => runSafe_unconnected (by simp) hs)
  · rw [dif_neg hpermits]
    exact Triple.raise _ (hrefuse _)

theorem send_spec (hconfined : world.http.Confined) {url : Url}
    (destination : ValidatedDestination policy) (left : ℕ) (headers : List (String × String)) :
    Triple (OnHop world policy total redirects (Approved policy url destination))
      (send world (buildAgent destination left) ⟨world.urls.asStr destination.url,headers⟩)
      (fun response => OnHop world policy total redirects (Answered world policy response))
      (fun code => RunSafe world policy (.error code)) := by
  refine ⟨fun trace h => ?_⟩
  obtain ⟨hop,past,htrace,happroved,hpast⟩ := h
  let agent := buildAgent destination left
  let request : HttpRequest := ⟨world.urls.asStr destination.url,headers⟩
  obtain ⟨connections,response,hhttp⟩ :
      ∃ connections response, world.http trace agent request = (connections,response) :=
    ⟨_,_,rfl⟩
  let call : Call := ⟨request,connections,response⟩
  have hconnections : ∀ address ∈ connections, address ∈ destination.addresses := by
    intro address haddress
    obtain ⟨uri,config,resolved,hresolved,hmem⟩ :=
      hconfined trace agent request rfl rfl address (by rw [hhttp]; exact haddress)
    have hpinned : destination.pinnedResolver uri config = .ok resolved := hresolved
    exact ValidatedDestination.mem_of_pinnedResolver hpinned hmem
  have hsafe : HopSafe world policy { hop with calls := [call] } := by
    refine ⟨happroved.lookups,by simp,fun _ => ?_,?_,?_,fun h => absurd happroved.permitted h⟩
    · rw [show ({ hop with calls := [call] } : Hop).url = url from happroved.source]
      exact ⟨happroved.scheme,happroved.username,happroved.password⟩
    · simp [call,request,happroved.source,happroved.target]
    · intro call' hcall address haddress
      rw [List.mem_singleton.mp hcall] at haddress
      have hmem := hconnections address haddress
      have hpermitted := destination.permitted address hmem
      obtain ⟨hanswer,hport⟩ := happroved.addresses address hmem
      exact ⟨hanswer,hpermitted.1,by rw [happroved.source]; exact hport,hpermitted.2,
        fun hproduction => DestinationPolicy.permitsPort_production hproduction hpermitted.2⟩
  have hafter : (trace.addCall call).hops = { hop with calls := [call] } :: past := by
    simp [Trace.addCall,htrace,happroved.calls]
  have hsend : send world agent request trace =
      (response.mapError classifyTransportError,trace.addCall call) := by
    simp only [send,hhttp,call]
  rw [hsend]
  cases response with
  | ok response => exact ⟨_,past,hafter,⟨hsafe,happroved.permitted,call,rfl,rfl⟩,hpast⟩
  | error e => exact OnHop.runSafe_error ⟨_,past,hafter,hsafe,hpast⟩

theorem beginHop_spec (url : Url) {E : ErrorCode → Trace → Prop} :
    Triple (fun trace => Followed world policy total redirects trace.hops)
      (Effect.modify (Trace.beginHop url))
      (fun _ => OnHop world policy total redirects (· = ⟨url,[],[]⟩)) E :=
  Triple.modify _ (fun trace h => ⟨_,trace.hops,rfl,rfl,h⟩)

/-- A followed redirect leaves the record as the next turn expects it. -/
theorem OnHop.followed {trace : Trace} {response : Response}
    (h : OnHop world policy total redirects (Answered world policy response) trace)
    (hbound : redirects + 1 ≤ maxRedirects) :
    Followed world policy (total + measureHeaders response) (redirects + 1) trace.hops := by
  obtain ⟨hop,past,htrace,⟨hsafe,hpermitted,call,hcalls,hresponse⟩,hpast⟩ := h
  rw [htrace]
  exact hpast.cons hsafe hpermitted hcalls hresponse hbound

/-- The loop, entered with these counters, ends in a safe run. The induction is
on the redirects left. -/
theorem fetchLoop_spec (hconfined : world.http.Confined) (deadline : ℕ) (runId : String)
    (request : WebFetchRequest) (requested : Url) (started : ℕ) (current : Url)
    (total redirects : ℕ) :
    Triple (fun trace => Followed world policy total redirects trace.hops)
      (Fetcher.fetchLoop world ⟨policy,deadline⟩ runId request requested started current total
        redirects)
      (fun fetched => RunSafe world policy (.ok fetched))
      (fun code => RunSafe world policy (.error code)) := by
  induction hleft : maxRedirects - redirects using Nat.strongRecOn
    generalizing current total redirects with
  | _ left ih =>
    rw [Fetcher.fetchLoop]
    refine Triple.bind (beginHop_spec current) (fun _ => ?_)
    refine Triple.bind (instantNow_spec _) (fun now => ?_)
    refine Triple.bind (M := fun _ => OnHop world policy total redirects
      (· = ⟨current,[],[]⟩)) ?_ (fun left => ?_)
    · exact Triple.lift (fun _ _ _ hs => hs) (fun _ _ _ hs => runSafe_unconnected (by simp) hs)
    refine Triple.bind (resolve_spec current) (fun destination => ?_)
    refine Triple.bind (send_spec hconfined destination left _) (fun response => ?_)
    dsimp only
    refine Triple.bind (M := fun _ trace => total + measureHeaders response ≤ maxHeaderBytes ∧
      OnHop world policy total redirects (Answered world policy response) trace) ?_
      (fun _ => Triple.of_fact ?_)
    · exact Triple.raiseIf _ _ (fun hlimit _ hs => ⟨Nat.not_lt.mp hlimit,hs⟩)
        (fun _ _ hs => (hs.imp (fun _ h => h.1)).runSafe_error)
    intro hlimit
    cases redirectTarget response with
    | none =>
      exact Triple.lift (fun _ _ _ hs => hs.runSafe_ok hlimit)
        (fun _ _ _ hs => (hs.imp (fun _ h => h.1)).runSafe_error)
    | some location =>
      dsimp only
      by_cases hredirects : redirects + 1 > maxRedirects
      · rw [dif_pos hredirects]
        exact Triple.raise _ (fun _ hs => (hs.imp (fun _ h => h.1)).runSafe_error)
      · rw [dif_neg hredirects]
        refine Triple.bind (M := fun _ trace =>
          Followed world policy (total + measureHeaders response) (redirects + 1) trace.hops) ?_
          (fun target => ?_)
        · exact Triple.lift (fun _ _ _ hs => hs.followed (Nat.not_lt.mp hredirects))
            (fun _ _ _ hs => (hs.imp (fun _ h => h.1)).runSafe_error)
        · exact ih _ (by omega) target _ (redirects + 1) rfl

/-- Whatever the resolver, the servers and the clock answer, a fetch is a safe run. -/
theorem fetch_destinationSafe (world : World) (hconfined : world.http.Confined)
    (fetcher : Fetcher) (runId : String) (request : WebFetchRequest) :
    RunSafe world fetcher.policy (fetcher.fetch world runId request .start).1
      (fetcher.fetch world runId request .start).2 := by
  have hunsent : ∀ code readings, RunSafe world fetcher.policy (.error code) ⟨[],readings⟩ :=
    fun code readings => ⟨by simp,by simp,by simp,by simp [calls],by simp⟩
  have hrun : Triple (· = .start) (fetcher.fetch world runId request)
      (fun fetched => RunSafe world fetcher.policy (.ok fetched))
      (fun code => RunSafe world fetcher.policy (.error code)) := by
    unfold Fetcher.fetch
    refine Triple.bind (M := fun _ trace => trace = ⟨[],1⟩) ⟨by rintro _ rfl; rfl⟩ (fun started => ?_)
    refine Triple.bind (M := fun _ trace => trace = ⟨[],1⟩) ?_ (fun requested => ?_)
    · exact Triple.lift (fun _ _ _ hs => hs) (fun code _ s hs => by rw [hs]; exact hunsent code 1)
    · refine ⟨fun trace htrace => ?_⟩
      exact (fetchLoop_spec hconfined fetcher.deadline runId request requested started requested
        0 0).exits trace (by rw [htrace]; exact followed_nil)
  have hexit := hrun.exits .start rfl
  rcases hfetch : fetcher.fetch world runId request .start with ⟨code | fetched,trace⟩
  · rw [hfetch] at hexit
    exact hexit
  · rw [hfetch] at hexit
    exact hexit

/-- A client that connects to the first address it is given. -/
def firstAddressClient (serve : Trace → Except UreqError Response) : HttpClient :=
  fun trace agent request =>
    match agent.resolver request.uri agent.config with
    | .error error => ([],.error error)
    | .ok resolved => (resolved.take 1,serve trace)

theorem firstAddressClient_confined (serve : Trace → Except UreqError Response) :
    (firstAddressClient serve).Confined := by
  intro trace agent request _ _ address haddress
  unfold firstAddressClient at haddress
  cases hresolved : agent.resolver request.uri agent.config with
  | error error => simp [hresolved] at haddress
  | ok resolved =>
    simp only [hresolved] at haddress
    exact ⟨request.uri,agent.config,resolved,hresolved,List.mem_of_mem_take haddress⟩

/-- A site that redirects its only page to itself for ever. -/
def redirectingWorld : World where
  urls :=
    { parse := fun value =>
        if value = "http://example.com/" then .ok redirectingUrl else .error "relative URL"
      join := fun base target => .ok { base with path := target }
      asStr := fun url => url.scheme ++ "://" ++ url.hostStr.getD "" ++ url.path }
  times := ⟨fun _ => none,fun _ => none⟩
  sha256Hex := fun _ => ""
  lookup := fun _ _ _ => some [.v4 ⟨93,184,216,34⟩]
  http := firstAddressClient (fun _ =>
    .ok ⟨302,[("location",[47])],fun _ => .ok []⟩)
  clock := fun _ => 0
  nowUtc := ⟨0,0⟩
where
  redirectingUrl : Url := ⟨"http","",none,some "example.com",none,"/",none,none⟩

theorem fetch_destinationSafe_redirecting :
    RunSafe redirectingWorld ⟨.production,[]⟩
      ((Fetcher.new ⟨.production,[]⟩).fetch redirectingWorld "run-1"
        ⟨"http://example.com/",.markdown⟩ .start).1
      ((Fetcher.new ⟨.production,[]⟩).fetch redirectingWorld "run-1"
        ⟨"http://example.com/",.markdown⟩ .start).2 :=
  fetch_destinationSafe redirectingWorld (firstAddressClient_confined _) (.new ⟨.production,[]⟩)
    "run-1" ⟨"http://example.com/",.markdown⟩

end HearthAI.Fetch
