import HearthAI.Fetch.Results

/-! # The artifact as a record of the fetch it came from

Each turn of the loop adds one hop with one response. All of them but the last are redirects
that were followed, and the artifact is made of the last one.
-/
namespace HearthAI.Fetch
open Text Contracts Effect

/-- The body is read up to a limit, and a longer one is an error. -/
def HttpClient.Limited (http : HttpClient) : Prop :=
  ∀ trace agent request response limit bytes, (http trace agent request).2 = .ok response →
    response.body limit = .ok bytes → bytes.length ≤ limit

/-- What the artifact and the body say of the responses, the newest first, and of the request. -/
structure Accurate (world : World) (fetcher : Fetcher) (runId : String) (request : WebFetchRequest)
    (requested current : Url) (response : Response) (earlier : List Response) (fetched : Fetched) :
    Prop where
  runId : fetched.artifact.runId = runId
  version : fetched.artifact.artifactVersion = artifactVersion
  redirects : fetched.artifact.redirects = earlier.length
  finalUrl : fetched.artifact.finalUrl = world.urls.asStr current
  httpStatus : fetched.artifact.httpStatus = response.status
  body : response.body maxWireBytes = .ok fetched.body
  bodyBytes : fetched.artifact.bodyBytes = fetched.body.length
  bodySha256 : fetched.artifact.bodySha256 = world.sha256Hex fetched.body
  requestedUrl : fetched.artifact.requestedUrlSha256 =
    world.sha256Hex (asBytes (world.urls.asStr requested))
  format : fetched.artifact.format = request.format
  profile : fetched.artifact.policyProfile = fetcher.policy.profile.asStr

/-- The client has given this response. -/
def Served (world : World) (response : Response) : Prop :=
  ∃ trace agent request, (world.http trace agent request).2 = .ok response

/-- A hop was begun for every response, every response but the last was a redirect, and the last
one makes the result. -/
def Traced (world : World) (fetcher : Fetcher) (runId : String) (request : WebFetchRequest)
    (requested : Url) (fetched : Fetched) (trace : Trace) : Prop :=
  ∃ current response earlier, answers trace.hops = response :: earlier ∧
    trace.hops.length = earlier.length + 1 ∧ earlier.length ≤ maxRedirects ∧
    (∀ followed ∈ earlier, (redirectTarget followed).isSome) ∧ redirectTarget response = none ∧
    route world.urls requested earlier = .ok current ∧ Served world response ∧
    Accurate world fetcher runId request requested current response earlier fetched

section
variable {world : World} {fetcher : Fetcher} {requested current : Url} {redirects : ℕ}

theorem complete_accurate {runId : String} {request : WebFetchRequest} {response : Response}
    {earlier : List Response} {fetched : Fetched}
    (h : fetcher.complete world runId request requested current earlier.length response =
      .ok fetched) :
    Accurate world fetcher runId request requested current response earlier fetched := by
  unfold Fetcher.complete at h
  obtain ⟨_,_,h⟩ := bind_eq_ok.mp h
  obtain ⟨media,_,h⟩ := bind_eq_ok.mp h
  cases hsupported : media.isSupported with
  | false =>
    rw [hsupported] at h
    cases h
  | true =>
    rw [hsupported] at h
    cases hcoding : (response.header "content-encoding").all isSupportedContentEncoding with
    | false =>
      simp only [hcoding] at h
      cases h
    | true =>
      simp only [hcoding] at h
      obtain ⟨body,hbody,h⟩ := bind_eq_ok.mp h
      obtain ⟨_,_,h⟩ := bind_eq_ok.mp h
      obtain rfl := Except.ok.inj h
      exact ⟨rfl,rfl,rfl,rfl,rfl,mapError_eq_ok.mp hbody,rfl,rfl,rfl,rfl,rfl⟩

/-- The loop is entered after this many redirects, each of them answered. -/
structure AfterRedirects (world : World) (requested current : Url) (redirects : ℕ)
    (past : List Hop) : Prop where
  hops : past.length = redirects
  answered : (answers past).length = redirects
  bounded : redirects ≤ maxRedirects
  followed : ∀ response ∈ answers past, (redirectTarget response).isSome
  route : route world.urls requested (answers past) = .ok current

/-- A hop is under way that has sent nothing yet. -/
def Unsent (past : List Hop) (trace : Trace) : Prop :=
  ∃ hop, trace.hops = hop :: past ∧ hop.calls = []

/-- The hop under way has had its response. -/
structure Replied (world : World) (past : List Hop) (response : Response) (trace : Trace) :
    Prop where
  answers : answers trace.hops = response :: Fetch.answers past
  hops : trace.hops.length = past.length + 1
  served : Served world response

/-- Nothing is said of a fetch that fails. -/
abbrev Anyhow (_ : ErrorCode) (_ : Trace) : Prop := True

theorem lookupHost_unsent (past : List Hop) (host : String) (port : ℕ) :
    Triple (Unsent past) (lookupHost world host port) (fun _ => Unsent past) Anyhow := by
  refine ⟨fun trace ⟨hop,htrace,hcalls⟩ => ?_⟩
  unfold lookupHost
  cases hanswer : world.lookup trace host port with
  | none => trivial
  | some addresses =>
    exact ⟨{ hop with lookups := ⟨host,port,some addresses⟩ :: hop.lookups },
      by simp [Trace.addLookup,htrace],hcalls⟩

theorem lift_unsent {α : Type} (past : List Hop) (r : Except ErrorCode α) :
    Triple (Unsent past) (lift r) (fun _ => Unsent past) Anyhow :=
  Triple.lift (fun _ _ _ hs => hs) fun _ _ _ _ => trivial

theorem resolve_unsent (past : List Hop) (policy : DestinationPolicy) (url : Url) :
    Triple (Unsent past) (ValidatedDestination.resolve world policy url)
      (fun _ => Unsent past) Anyhow := by
  unfold ValidatedDestination.resolve
  refine Triple.bind (lift_unsent past _) fun _ => ?_
  refine Triple.bind (lift_unsent past _) fun host => ?_
  refine Triple.bind (lift_unsent past _) fun port => ?_
  split_ifs
  · refine Triple.bind (lookupHost_unsent past host port) fun addresses => ?_
    refine Triple.bind (M := fun _ => Unsent past) ?_ fun _ => ?_
    · exact Triple.raiseIf _ _ (fun _ _ hs => hs) fun _ _ _ => trivial
    split_ifs
    · exact Triple.return _ fun _ hs => hs
    · exact Triple.raise _ fun _ _ => trivial
  · exact Triple.raise _ fun _ _ => trivial

theorem send_unsent (past : List Hop) (agent : Agent) (request : HttpRequest) :
    Triple (Unsent past) (send world agent request) (Replied world past) Anyhow := by
  refine ⟨fun trace ⟨hop,htrace,hcalls⟩ => ?_⟩
  unfold send
  rcases hhttp : world.http trace agent request with ⟨connections,response⟩
  cases response with
  | error e => trivial
  | ok response =>
    refine ⟨?_,?_,trace,agent,request,by rw [hhttp]⟩
    · simp [Trace.addCall,htrace,hcalls,answers,Call.answer]
    · simp [Trace.addCall,htrace]

theorem AfterRedirects.follow {past : List Hop} {response : Response} {location : String}
    {target : Url} {trace : Trace} (h : AfterRedirects world requested current redirects past)
    (hreplied : Replied world past response trace)
    (hlocation : redirectTarget response = some location)
    (hjoin : world.urls.join current location = .ok target) (hbound : redirects + 1 ≤ maxRedirects) :
    AfterRedirects world requested target (redirects + 1) trace.hops where
  hops := by rw [hreplied.hops,h.hops]
  answered := by rw [hreplied.answers,List.length_cons,h.answered]
  bounded := hbound
  followed := by
    rw [hreplied.answers]
    exact List.forall_mem_cons.mpr ⟨by simp [hlocation],h.followed⟩
  route := by
    rw [hreplied.answers]
    exact route_cons h.route hlocation hjoin

/-- Induction on the redirects left. -/
theorem fetchLoop_traced (runId : String) (request : WebFetchRequest) (started : ℕ)
    (total redirects : ℕ) :
    Triple (fun trace => AfterRedirects world requested current redirects trace.hops)
      (fetcher.fetchLoop world runId request requested started current total redirects)
      (Traced world fetcher runId request requested) Anyhow := by
  induction hleft : maxRedirects - redirects using Nat.strongRecOn
    generalizing current total redirects with
  | _ left ih =>
    rw [Fetcher.fetchLoop]
    refine ⟨fun start hstart => ?_⟩
    -- The hops of this entry are named once, so that the answer can be added to them.
    obtain ⟨past,hpast⟩ : ∃ past, start.hops = past := ⟨_,rfl⟩
    rw [hpast] at hstart
    refine (Triple.bind (P := fun trace => trace.hops = past) (M := fun _ => Unsent past) ?_
      fun _ => ?_).exits start hpast
    · exact Triple.modify _ fun trace htrace => ⟨⟨current,[],[]⟩,by rw [← htrace]; rfl,rfl⟩
    refine Triple.bind (M := fun _ => Unsent past) ⟨fun _ hs => hs⟩ fun now => ?_
    refine Triple.bind (lift_unsent past _) fun remaining => ?_
    refine Triple.bind (resolve_unsent past _ _) fun destination => ?_
    refine Triple.bind (send_unsent past _ _) fun response => ?_
    dsimp only
    refine Triple.bind (M := fun _ => Replied world past response) ?_ fun _ => ?_
    · exact Triple.raiseIf _ _ (fun _ _ hs => hs) fun _ _ _ => trivial
    cases hlocation : redirectTarget response with
    | none =>
      refine Triple.lift (fun fetched hok trace hreplied => ?_) fun _ _ _ _ => trivial
      have hcount := hstart.answered
      rw [← hcount] at hok
      refine ⟨current,response,answers past,hreplied.answers,?_,?_,hstart.followed,hlocation,
        hstart.route,hreplied.served,complete_accurate hok⟩
      · rw [hreplied.hops,hcount,hstart.hops]
      · rw [hcount]
        exact hstart.bounded
    | some location =>
      dsimp only
      by_cases hredirects : redirects + 1 > maxRedirects
      · rw [dif_pos hredirects]
        exact Triple.raise _ fun _ _ => trivial
      · rw [dif_neg hredirects]
        refine Triple.bind (M := fun target trace =>
          AfterRedirects world requested target (redirects + 1) trace.hops) ?_ fun target => ?_
        · refine Triple.lift (fun target htarget trace hreplied => ?_)
            fun _ _ _ _ => trivial
          exact hstart.follow hreplied hlocation (mapError_eq_ok.mp htarget)
            (Nat.not_lt.mp hredirects)
        · exact ih _ (by omega) _ (redirects + 1) rfl

theorem fetch_traces (world : World) (fetcher : Fetcher) (runId : String)
    (request : WebFetchRequest) : Triple (· = .start) (fetcher.fetch world runId request)
      (fun fetched trace => ∃ requested, request.destinationUrl world.urls = .ok requested ∧
        Traced world fetcher runId request requested fetched trace) Anyhow := by
  unfold Fetcher.fetch
  refine Triple.bind (M := fun _ trace => trace.hops = []) ⟨by rintro _ rfl; rfl⟩ fun started => ?_
  refine Triple.bind (M := fun requested trace => request.destinationUrl world.urls = .ok requested ∧
    trace.hops = []) ?_ fun requested => Triple.of_fact fun hrequested => ?_
  · exact Triple.lift (fun _ ha _ hs => ⟨mapError_eq_ok.mp ha,hs⟩) fun _ _ _ _ => trivial
  · refine (fetchLoop_traced runId request started 0 0).consequence (fun trace hs => ?_)
      (fun fetched trace h => ⟨requested,hrequested,h⟩) fun _ _ h => h
    rw [hs]
    exact ⟨rfl,rfl,Nat.zero_le _,nofun,rfl⟩

theorem Traced.body_length_le (hlimited : world.http.Limited) {runId : String}
    {request : WebFetchRequest} {fetched : Fetched} {trace : Trace}
    (h : Traced world fetcher runId request requested fetched trace) :
    fetched.body.length ≤ maxWireBytes := by
  obtain ⟨_,response,_,_,_,_,_,_,_,⟨_,_,_,hserved⟩,haccurate⟩ := h
  exact hlimited _ _ _ _ _ _ hserved haccurate.body

/-- What a fetch returns is a record of its run, and the body is within its limit. -/
theorem fetch_accurate (hlimited : world.http.Limited) {runId : String} {request : WebFetchRequest}
    {fetched : Fetched} {trace : Trace}
    (h : fetcher.fetch world runId request .start = (.ok fetched,trace)) :
    ∃ requested, request.destinationUrl world.urls = .ok requested ∧
      Traced world fetcher runId request requested fetched trace ∧
      fetched.body.length ≤ maxWireBytes := by
  obtain ⟨requested,hrequested,htraced⟩ := (fetch_traces world fetcher runId request).ok rfl h
  exact ⟨requested,hrequested,htraced,htraced.body_length_le hlimited⟩

end

/-- A site with one page, and an old address that leads to it. -/
def movedUrls : UrlCrate where
  parse text := if text = "http://example.com/old" then .ok (pageAt "/old") else .error "no base"
  join base target := .ok { base with path := target }
  asStr url := url.scheme ++ "://" ++ url.hostStr.getD "" ++ url.path
where
  pageAt (path : String) : Url := ⟨"http","",none,some "example.com",none,path,none,none⟩

def movedResponse : Response := ⟨301,[("location",asBytes "/new")],fun _ => .ok []⟩
def movedPage : Response :=
  ⟨200,[("content-type",asBytes "text/plain")],
    fun limit => if 2 ≤ limit then .ok (asBytes "ok") else .error .bodyExceedsLimit⟩

def movedWorld : World where
  urls := movedUrls
  times := ⟨fun _ => none,fun _ => some "2026-10-01T12:00:00Z"⟩
  sha256Hex _ := ""
  lookup _ _ _ := some [.v4 ⟨93,184,216,34⟩]
  http := firstAddressClient (fun trace =>
    .ok (if trace.hops.length = 1 then movedResponse else movedPage))
  clock _ := 0
  nowUtc := ⟨0,0⟩

def movedRequest : WebFetchRequest := ⟨"http://example.com/old",.markdown⟩

theorem movedWorld_limited : movedWorld.http.Limited := by
  intro trace agent request response limit bytes hserved hbody
  have hresponse : response = movedResponse ∨ response = movedPage := by
    simp only [movedWorld,firstAddressClient] at hserved
    split at hserved
    · cases hserved
    · rw [Except.ok.injEq] at hserved
      split_ifs at hserved
      · exact .inl hserved.symm
      · exact .inr hserved.symm
  rcases hresponse with rfl | rfl
  · cases hbody
    exact Nat.zero_le _
  · simp only [movedPage] at hbody
    split_ifs at hbody with hlimit
    cases hbody
    exact hlimit

/-- The old address is asked first, and the page is what the artifact describes. -/
theorem fetch_accurate_moved : ∃ requested fetched trace,
    (Fetcher.new ⟨.production,[]⟩).fetch movedWorld "run-1" movedRequest .start =
      (.ok fetched,trace) ∧ fetched.artifact.redirects = 1 ∧
    movedRequest.destinationUrl movedUrls = .ok requested ∧
    Traced movedWorld (.new ⟨.production,[]⟩) "run-1" movedRequest requested fetched trace ∧
    fetched.body.length ≤ maxWireBytes := by
  obtain ⟨fetched,trace,hfetch,hredirects⟩ : ∃ fetched trace,
      (Fetcher.new ⟨.production,[]⟩).fetch movedWorld "run-1" movedRequest .start =
        (.ok fetched,trace) ∧ fetched.artifact.redirects = 1 := by
    have hnow : instantNow movedWorld .start = (.ok 0,⟨[],1⟩) := rfl
    have hurl : (Effect.lift ((movedRequest.destinationUrl movedWorld.urls).mapError
        (fun _ => ErrorCode.unsafeSource)) : Network Url) ⟨[],1⟩ =
          (.ok (movedUrls.pageAt "/old"),⟨[],1⟩) := rfl
    obtain ⟨hop,hfollow⟩ : ∃ hop,
        (Fetcher.new ⟨.production,[]⟩).fetchLoop movedWorld "run-1" movedRequest
          (movedUrls.pageAt "/old") 0 (movedUrls.pageAt "/old") 0 0 ⟨[],1⟩ =
        (Fetcher.new ⟨.production,[]⟩).fetchLoop movedWorld "run-1" movedRequest
          (movedUrls.pageAt "/old") 0 (movedUrls.pageAt "/new") 16 1 ⟨[hop],2⟩ := by
      rw [Fetcher.fetchLoop]
      exact ⟨_,rfl⟩
    unfold Fetcher.fetch
    rw [bind_ok hnow,bind_ok hurl,hfollow,Fetcher.fetchLoop]
    exact ⟨_,_,rfl,rfl⟩
  obtain ⟨requested,hrequested,htraced,hbody⟩ := fetch_accurate movedWorld_limited hfetch
  exact ⟨requested,fetched,trace,hfetch,hredirects,hrequested,htraced,hbody⟩

end HearthAI.Fetch
