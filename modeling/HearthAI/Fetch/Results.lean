import HearthAI.Fetch.Safety

/-! # What a fetch returns, as a function of what the servers answered

The responses of a run fix the URL it ended on: each redirect is joined onto the URL
before it. A run that returns has completed on the last response, and a run that
fails does so with a code of the network stage.
-/
namespace HearthAI.Fetch
open Text Contracts Effect

/-- The response of a call that had one. -/
def Call.answer (call : Call) : Option Response :=
  match call.response with
  | .ok response => some response
  | .error _ => none

/-- The responses of a run, the newest first. -/
def answers (hops : List Hop) : List Response := (calls hops).filterMap Call.answer

/-- The URL that a run has got to after these responses. -/
def route (urls : UrlCrate) (requested : Url) (responses : List Response) : Except String Url :=
  (responses.reverse.filterMap redirectTarget).foldlM urls.join requested

theorem route_cons {urls : UrlCrate} {requested current target : Url} {responses : List Response}
    {response : Response} {location : String} (h : route urls requested responses = .ok current)
    (hlocation : redirectTarget response = some location)
    (hjoin : urls.join current location = .ok target) :
    route urls requested (response :: responses) = .ok target := by
  unfold route at h ⊢
  rw [List.reverse_cons,List.filterMap_append,List.foldlM_append,h]
  simp [hlocation,hjoin,Bind.bind,Except.bind,Pure.pure,Except.pure]

/-- A code of the network stage says nothing of an inspection. -/
def NetworkCode (code : ErrorCode) : Prop := code ≠ .contentRejected ∧ code ≠ .inspectionFailed

instance (code : ErrorCode) : Decidable (NetworkCode code) := inferInstanceAs (Decidable (_ ∧ _))

/-- The way out of a fetch that fails. -/
abbrev Failed (code : ErrorCode) (_ : Trace) : Prop := NetworkCode code

theorem networkCode_permits {code : ErrorCode} (h : NetworkCode code) :
    code.permits .notRun = true := by
  cases code with
  | contentRejected => exact absurd rfl h.1
  | inspectionFailed => exact absurd rfl h.2
  | _ => rfl

theorem networkCode_transport (error : UreqError) : NetworkCode (classifyTransportError error) := by
  cases error <;> exact ⟨nofun,nofun⟩

section
variable {world : World} {fetcher : Fetcher} {requested current : Url}

/-- The loop is at `current`, and the hop under way has sent nothing yet. -/
def AtHop (world : World) (requested current : Url) (trace : Trace) : Prop :=
  ∃ hop past, trace.hops = hop :: past ∧ hop.calls = [] ∧
    route world.urls requested (answers past) = .ok current

theorem lift_network {α : Type} {P : Trace → Prop} {r : Except ErrorCode α}
    (h : ∀ code, r = .error code → NetworkCode code) :
    Triple P (lift r) (fun a s => r = .ok a ∧ P s) Failed :=
  Triple.lift (fun _ ha _ hs => ⟨ha,hs⟩) (fun code hcode _ _ => h code hcode)

theorem okOr_eq_error {α : Type} {o : Option α} {code code' : ErrorCode}
    (h : okOr o code = .error code') : code = code' := by
  cases o with
  | none => exact Except.error.inj h
  | some a => cases h

theorem lookupHost_atHop (host : String) (port : ℕ) :
    Triple (AtHop world requested current) (lookupHost world host port)
      (fun _ => AtHop world requested current) Failed := by
  refine ⟨fun trace ⟨hop,past,htrace,hcalls,hroute⟩ => ?_⟩
  unfold lookupHost
  cases hanswer : world.lookup trace host port with
  | none => exact ⟨nofun,nofun⟩
  | some addresses =>
    exact ⟨{ hop with lookups := ⟨host,port,some addresses⟩ :: hop.lookups },past,
      by simp [Trace.addLookup,htrace],hcalls,hroute⟩

theorem resolve_atHop {policy : DestinationPolicy} :
    Triple (AtHop world requested current) (ValidatedDestination.resolve world policy current)
      (fun _ trace => checkDestination current = .ok () ∧ AtHop world requested current trace)
      Failed := by
  have hunsafe : NetworkCode .unsafeSource := ⟨nofun,nofun⟩
  unfold ValidatedDestination.resolve
  refine Triple.bind (lift_network ?_) fun u => Triple.of_fact fun hcheck => ?_
  · intro code hcode
    obtain ⟨_,_,rfl⟩ := mapError_eq_error.mp hcode
    exact hunsafe
  have hcheck : checkDestination current = .ok () := mapError_eq_ok.mp hcheck
  refine Triple.bind (lift_network ?_) fun host => Triple.of_fact fun _ => ?_
  · exact fun code hcode => okOr_eq_error hcode ▸ hunsafe
  refine Triple.bind (lift_network ?_) fun port => Triple.of_fact fun _ => ?_
  · exact fun code hcode => okOr_eq_error hcode ▸ hunsafe
  split_ifs
  · refine Triple.bind (lookupHost_atHop host port) fun addresses => ?_
    refine Triple.bind (M := fun _ => AtHop world requested current) ?_ fun _ => ?_
    · exact Triple.raiseIf _ _ (fun _ _ hs => hs) fun _ _ _ => ⟨nofun,nofun⟩
    split_ifs
    · exact Triple.return _ fun _ hs => ⟨hcheck,hs⟩
    · exact Triple.raise _ fun _ _ => hunsafe
  · exact Triple.raise _ fun _ _ => hunsafe

/-- The request of a hop has been answered. -/
def AtAnswer (world : World) (requested current : Url) (response : Response) (trace : Trace) :
    Prop :=
  ∃ earlier, answers trace.hops = response :: earlier ∧
    route world.urls requested earlier = .ok current

theorem send_atHop (agent : Agent) (request : HttpRequest) :
    Triple (AtHop world requested current) (send world agent request)
      (AtAnswer world requested current) Failed := by
  refine ⟨fun trace ⟨hop,past,htrace,hcalls,hroute⟩ => ?_⟩
  unfold send
  rcases hhttp : world.http trace agent request with ⟨connections,response⟩
  cases response with
  | error e => exact networkCode_transport e
  | ok response =>
    refine ⟨answers past,?_,hroute⟩
    simp [Trace.addCall,htrace,hcalls,answers,Call.answer]

/-- What the last response of a fetch has to be, and what is made of it. -/
structure Sealed (world : World) (request : WebFetchRequest) (requested current : Url)
    (response : Response) (fetched : Fetched) : Prop where
  contentType : ∃ declared media, response.header "content-type" = some declared ∧
    MediaType.parse declared = .ok media ∧ media.isSupported = true ∧
    fetched.artifact.contentType = some media.headerValue
  contentEncoding : fetched.artifact.contentEncoding = response.header "content-encoding" ∧
    (response.header "content-encoding").all isSupportedContentEncoding = true
  retrievedAt : world.times.formatRfc3339 world.nowUtc = some fetched.artifact.retrievedAt
  sourceId : fetched.artifact.sourceId = "source-1"
  requestedUrl : fetched.artifact.requestedUrlSha256 =
    world.sha256Hex (asBytes (world.urls.asStr requested))
  finalUrl : fetched.artifact.finalUrl = world.urls.asStr current
  httpStatus : fetched.artifact.httpStatus = response.status
  format : fetched.artifact.format = request.format

theorem complete_exits (world : World) (fetcher : Fetcher) (runId : String)
    (request : WebFetchRequest) (requested current : Url) (redirects : ℕ) (response : Response)
    (trace : Trace) :
    Exit (fun fetched _ => Sealed world request requested current response fetched) Failed
      (fetcher.complete world runId request requested current redirects response,trace) := by
  have hrefused : NetworkCode .unsupportedContent := by decide
  unfold Fetcher.complete
  cases htype : response.header "content-type" with
  | none => exact hrefused
  | some declared =>
    cases hparse : MediaType.parse declared with
    | error e => simpa [okOr,hparse,Bind.bind,Except.bind,Except.mapError] using hrefused
    | ok media =>
      cases hsupported : media.isSupported with
      | false =>
        simpa [okOr,hparse,hsupported,Bind.bind,Except.bind,Except.mapError,throw,throwThe,
          MonadExceptOf.throw] using hrefused
      | true =>
        cases hcoding : (response.header "content-encoding").all isSupportedContentEncoding with
        | false =>
          simpa [okOr,hparse,hsupported,hcoding,Bind.bind,Except.bind,Except.mapError,throw,throwThe,
            MonadExceptOf.throw] using hrefused
        | true =>
          cases hbody : response.body maxWireBytes with
          | error e =>
            simpa [okOr,hparse,hsupported,hcoding,hbody,Bind.bind,Except.bind,Except.mapError] using
              networkCode_transport e
          | ok body =>
            cases htime : world.times.formatRfc3339 world.nowUtc with
            | none =>
              have hinternal : NetworkCode .internalError := by decide
              simpa [okOr,hparse,hsupported,hcoding,hbody,htime,Bind.bind,Except.bind,
                Except.mapError] using hinternal
            | some retrievedAt =>
              simp only [okOr,hparse,hsupported,hcoding,Bind.bind,Except.bind,
                Except.mapError,Option.elim,Bool.not_true,Bool.false_eq_true,if_false,Pure.pure,
                Except.pure,exit_ok]
              exact ⟨⟨declared,media,htype,hparse,hsupported,rfl⟩,⟨rfl,hcoding⟩,htime,rfl,rfl,rfl,rfl,rfl⟩

/-- The result of a fetch, and the responses that it was made of. -/
def Completed (world : World) (request : WebFetchRequest) (requested : Url) (fetched : Fetched)
    (trace : Trace) : Prop :=
  ∃ current response earlier, answers trace.hops = response :: earlier ∧
    route world.urls requested earlier = .ok current ∧ checkDestination current = .ok () ∧
    Sealed world request requested current response fetched

/-- Induction on the redirects left: the loop keeps the route of the responses so far. -/
theorem fetchLoop_completed (runId : String) (request : WebFetchRequest) (started : ℕ)
    (total redirects : ℕ) :
    Triple (fun trace => route world.urls requested (answers trace.hops) = .ok current)
      (fetcher.fetchLoop world runId request requested started current total redirects)
      (Completed world request requested) Failed := by
  induction hleft : maxRedirects - redirects using Nat.strongRecOn
    generalizing current total redirects with
  | _ left ih =>
    rw [Fetcher.fetchLoop]
    refine Triple.bind (M := fun _ => AtHop world requested current) ?_ fun _ => ?_
    · exact Triple.modify _ fun trace hroute => ⟨⟨current,[],[]⟩,trace.hops,rfl,rfl,hroute⟩
    refine Triple.bind (M := fun _ => AtHop world requested current) ⟨fun _ hs => hs⟩ fun now => ?_
    refine Triple.bind (M := fun _ => AtHop world requested current) ?_ fun left => ?_
    · refine Triple.lift (fun _ _ _ hs => hs) fun code hcode _ _ => ?_
      unfold Fetcher.remaining at hcode
      split_ifs at hcode
      cases hcode
      show NetworkCode _
      decide
    refine Triple.bind resolve_atHop fun destination => Triple.of_fact fun hcheck => ?_
    refine Triple.bind (send_atHop _ _) fun response => ?_
    dsimp only
    refine Triple.bind (M := fun _ => AtAnswer world requested current response) ?_ fun _ => ?_
    · exact Triple.raiseIf _ _ (fun _ _ hs => hs) fun _ _ _ => show NetworkCode _ by decide
    cases hlocation : redirectTarget response with
    | none =>
      have hexits := complete_exits world fetcher runId request requested current redirects response
      refine Triple.lift (fun fetched hok trace hs => ?_) fun code herror trace _ => ?_
      · obtain ⟨earlier,hanswers,hroute⟩ := hs
        have hsealed := hexits trace
        rw [hok,exit_ok] at hsealed
        exact ⟨current,response,earlier,hanswers,hroute,hcheck,hsealed⟩
      · have hfailed := hexits trace
        rwa [herror,exit_error] at hfailed
    | some location =>
      dsimp only
      by_cases hredirects : redirects + 1 > maxRedirects
      · rw [dif_pos hredirects]
        exact Triple.raise _ fun _ _ => show NetworkCode _ by decide
      · rw [dif_neg hredirects]
        refine Triple.bind (M := fun target trace =>
          route world.urls requested (answers trace.hops) = .ok target) ?_ fun target => ?_
        · refine Triple.lift (fun target htarget trace hs => ?_) fun code hcode _ _ => ?_
          · obtain ⟨earlier,hanswers,hroute⟩ := hs
            rw [hanswers]
            exact route_cons hroute hlocation (mapError_eq_ok.mp htarget)
          · obtain ⟨_,_,rfl⟩ := mapError_eq_error.mp hcode
            show NetworkCode _
            decide
        · exact ih _ (by omega) _ (redirects + 1) rfl

/-- Every fetch that returns has completed on the URL the responses lead to. -/
theorem fetch_completed (world : World) (fetcher : Fetcher) (runId : String)
    (request : WebFetchRequest) : Triple (· = .start) (fetcher.fetch world runId request)
      (fun fetched trace => ∃ requested, request.destinationUrl world.urls = .ok requested ∧
        Completed world request requested fetched trace) Failed := by
  unfold Fetcher.fetch
  refine Triple.bind (M := fun _ trace => answers trace.hops = []) ⟨by rintro _ rfl; rfl⟩
    fun started => ?_
  refine Triple.bind (lift_network ?_) fun requested => Triple.of_fact fun hrequested => ?_
  · intro code hcode
    obtain ⟨_,_,rfl⟩ := mapError_eq_error.mp hcode
    exact by decide
  · have hrequested := mapError_eq_ok.mp hrequested
    refine (fetchLoop_completed runId request started 0 0).consequence (fun trace hs => ?_)
      (fun fetched trace h => ⟨requested,hrequested,h⟩) fun _ _ h => h
    rw [hs]
    rfl

end
end HearthAI.Fetch
