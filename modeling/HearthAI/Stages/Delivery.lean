import HearthAI.Fetch.Results
import HearthAI.Inspect.Truthful

/-! # From a sealed artifact to a delivered result

The fetch stage checks the request and the headers of the last response. A result has
two rules more: a bound on the URL that was reached and a range for the status.
-/
namespace HearthAI.Stages
open Text Contracts Inspect Effect

/-- A decompressor that never breaks off. -/
def Whole (codecs : Codecs) : Prop :=
  ∀ body, (codecs.gzip body).broken = false ∧ (codecs.zlib body).broken = false

/-- The artifact is never what a result is refused for. -/
structure Deliverable (engine : Engine) (artifact : FetchArtifact) : Prop where
  media : ∃ media, supportedMedia artifact = .ok media
  coding : ∀ codecs body, Whole codecs →
    decodeContentEncoding codecs body artifact.contentEncoding ≠ .error .unsupportedContent
  /-- Content within the limit makes a result that validates. -/
  validates : ∀ media content method, supportedMedia artifact = .ok media →
    content.length ≤ maxContentChars → (artifact.format = .html → method = .source) →
    ∃ text, reformatted engine artifact.retrievedAt = .ok text ∧
      (Inspected.data ⟨artifact,media,⟨content,method⟩⟩ text).validate engine.urls engine.times = .ok ()
  /-- A clean inspection ends in an envelope that says so. -/
  clean : ∀ (inspector : Inspector) (chain : List Converter) (clock : ℕ → ℕ) (runId : String)
    (body : Bytes), validPolicyId inspector.bundle.policyId = true →
    (∃ d t, pipeline engine chain (.ok (.fetched artifact body))
      (.new inspector.bundle.detector clock inspector.deadline) = (.ok d,t)) →
    (inspector.inspect engine chain clock runId (.ok (.fetched artifact body))).1.envelope.status = .ok

/-- The servers led to a URL of at most 2048 bytes, and answered there with a status of the
standard. -/
def WellAnswered (urls : UrlCrate) (request : WebFetchRequest) (responses : List Fetch.Response) :
    Prop :=
  ∃ requested current response earlier, request.destinationUrl urls = .ok requested ∧
    responses = response :: earlier ∧ Fetch.route urls requested earlier = .ok current ∧
    len (urls.asStr current) ≤ maxUrlChars ∧ 100 ≤ response.status ∧ response.status ≤ 599

section
variable {engine : Engine} {artifact : FetchArtifact}

theorem boundedRead_whole {reader : Stream} (h : reader.broken = false) (wireBytes : ℕ) :
    boundedRead reader wireBytes ≠ .error .unsupportedContent := by
  have hread : ∀ limit, ∃ bytes, reader.takeToEnd limit = some bytes := by
    intro limit
    unfold Stream.takeToEnd
    rw [h,if_neg Bool.false_ne_true]
    split_ifs
    · exact ⟨_,rfl⟩
    · exact ⟨_,rfl⟩
  unfold boundedRead
  obtain ⟨bytes,hbytes⟩ :=
    hread (min maxDecodedBytes (max (saturatingMul wireBytes maxDecodeExpansion) 4096) + 1)
  dsimp only
  rw [hbytes]
  dsimp only
  split_ifs
  · nofun
  · nofun

/-- The codings that the fetch stage admits are those that can be undone. -/
theorem decode_whole {codecs : Codecs} (hwhole : Whole codecs) {coding : Option String}
    (hsupported : coding.all isSupportedContentEncoding = true) (body : Bytes) :
    decodeContentEncoding codecs body coding ≠ .error .unsupportedContent := by
  have hknown : toAsciiLowercase (trim (coding.getD "identity")) ∈ ["","identity","gzip","deflate"] := by
    cases coding with
    | none => decide
    | some value => simpa [isSupportedContentEncoding] using hsupported
  unfold decodeContentEncoding
  dsimp only
  generalize toAsciiLowercase (trim (coding.getD "identity")) = name at hknown ⊢
  split_ifs with hidentity hlong hgzip hdeflate
  · nofun
  · nofun
  · exact boundedRead_whole (hwhole body).1 _
  · exact boundedRead_whole (hwhole body).2 _
  · simp only [List.mem_cons,List.not_mem_nil,or_false] at hknown
    tauto

/-- The two parts of an artifact that the fetch stage has settled, and the fields that a result
is checked for. -/
theorem deliverable_of_reportable {media : MediaType}
    (hmedia : supportedMedia artifact = .ok media)
    (hcoding : artifact.contentEncoding.all isSupportedContentEncoding = true)
    (hreportable : Reportable engine artifact) : Deliverable engine artifact where
  media := ⟨media,hmedia⟩
  coding := fun codecs body hwhole => decode_whole hwhole hcoding body
  validates := by
    intro media' content method hmedia' hcontent hsource
    obtain ⟨text,htext,_⟩ := hreportable.retrievedAt
    exact ⟨text,htext,(validate_data_iff ⟨artifact,media',⟨content,method⟩⟩ hmedia' hsource hcontent
      htext).mpr hreportable⟩
  clean := by
    rintro inspector chain clock runId body hpolicy ⟨d,t,hrun⟩
    obtain ⟨checks,hreach,_⟩ := (pipeline_clears chain _).only _ d t hrun
    have hvalid := (clearance_validates hreach).mpr hreportable
    have hinspect : (inspector.inspect engine chain clock runId (.ok (.fetched artifact body))).1 =
        inspector.report engine (.ok d) (inspector.audit runId t).1 := by
      unfold Inspector.inspect
      rw [hrun]
    rw [hinspect,report_data inspector _ hvalid hpolicy]
    rfl

theorem Deliverable.reportable (h : Deliverable engine artifact) : Reportable engine artifact := by
  obtain ⟨media,hmedia⟩ := h.media
  have hempty : "".length ≤ maxContentChars := by decide
  obtain ⟨text,htext,hvalid⟩ := h.validates media "" .source hmedia hempty (fun _ => rfl)
  exact (validate_data_iff ⟨artifact,media,⟨"",.source⟩⟩ hmedia (fun _ => rfl) hempty htext).mp hvalid

/-- The URL that the responses lead to comes out of the crate. -/
theorem produces_route {urls : UrlCrate} {requested : Url} (hrequested : urls.Produces requested)
    {responses : List Fetch.Response} {current : Url}
    (h : Fetch.route urls requested responses = .ok current) : urls.Produces current := by
  unfold Fetch.route at h
  generalize responses.reverse.filterMap Fetch.redirectTarget = locations at h
  induction locations generalizing requested with
  | nil =>
    cases h
    exact hrequested
  | cons location locations ih =>
    rw [List.foldlM_cons] at h
    obtain ⟨next,hjoin,hrest⟩ := bind_eq_ok.mp h
    exact ih (.join hrequested hjoin) hrest

theorem produces_destination {urls : UrlCrate} {request : WebFetchRequest} {requested : Url}
    (h : request.destinationUrl urls = .ok requested) : urls.Produces requested := by
  unfold WebFetchRequest.destinationUrl at h
  obtain ⟨_,_,h⟩ := bind_eq_ok.mp h
  obtain ⟨url,hparse,h⟩ := bind_eq_ok.mp h
  obtain ⟨_,_,h⟩ := bind_eq_ok.mp h
  obtain rfl := Except.ok.inj h
  exact .withoutFragment (.parse (mapError_eq_ok.mp hparse))

/-- What the fetch stage says of an artifact's media type is read back from it. -/
theorem sealed_media {world : Fetch.World} {request : WebFetchRequest} {requested current : Url}
    {response : Fetch.Response} {fetched : Fetch.Fetched}
    (h : Fetch.Sealed world request requested current response fetched) :
    ∃ media, supportedMedia fetched.artifact = .ok media := by
  obtain ⟨_,media,_,_,hsupported,htype⟩ := h.contentType
  exact ⟨media,supportedMedia_eq_ok.mpr ⟨_,htype,MediaType.parse_headerValue hsupported,hsupported⟩⟩

/-- The fields of a sealed artifact, against the rules for a result. -/
theorem sealed_reportable_iff {world : Fetch.World} {request : WebFetchRequest}
    {requested current : Url} {response : Fetch.Response} {fetched : Fetch.Fetched}
    (hurls : engine.urls = world.urls) (htimes : engine.times = world.times)
    (hround : world.urls.RoundTrips) (htime : world.times.RoundTrips)
    (hproduced : world.urls.Produces current) (hdestination : checkDestination current = .ok ())
    (h : Fetch.Sealed world request requested current response fetched) :
    Reportable engine fetched.artifact ↔ len (world.urls.asStr current) ≤ maxUrlChars ∧
      100 ≤ response.status ∧ response.status ≤ 599 := by
  constructor
  · intro hreportable
    rw [← h.finalUrl,← h.httpStatus]
    exact ⟨hreportable.finalUrl,hreportable.httpStatus⟩
  · rintro ⟨hlen,hstatus⟩
    have hparse := hround current hproduced (checkDestination_ok hdestination).1
    have hstamp := htime world.nowUtc _ h.retrievedAt
    constructor
    · rw [h.sourceId]
      decide
    · rw [h.finalUrl]
      exact hlen
    · rw [h.finalUrl,hurls]
      exact ⟨current,hparse,hdestination⟩
    · rw [h.httpStatus]
      exact hstatus
    · refine ⟨fetched.artifact.retrievedAt,?_,?_⟩
      · unfold reformatted
        rw [htimes,hstamp]
        dsimp only
        rw [h.retrievedAt]
      · rw [htimes,hstamp]
        rfl

end

/-- A sealed artifact can be delivered exactly when the servers led to a short enough URL and
answered with a status of the standard. -/
theorem fetch_deliverable_iff {world : Fetch.World} (engine : Engine)
    (hurls : engine.urls = world.urls) (htimes : engine.times = world.times)
    (hround : world.urls.RoundTrips) (htime : world.times.RoundTrips) {fetcher : Fetch.Fetcher}
    {runId : String} {request : WebFetchRequest} {fetched : Fetch.Fetched} {trace : Fetch.Trace}
    (hfetch : fetcher.fetch world runId request .start = (.ok fetched,trace)) :
    Deliverable engine fetched.artifact ↔
      WellAnswered world.urls request (Fetch.answers trace.hops) := by
  obtain ⟨requested,hrequested,current,response,earlier,hanswers,hroute,hdestination,hsealed⟩ :=
    (Fetch.fetch_completed world fetcher runId request).ok rfl hfetch
  have hproduced := produces_route (produces_destination hrequested) hroute
  have hreportable := sealed_reportable_iff hurls htimes hround htime hproduced hdestination hsealed
  constructor
  · intro hdeliverable
    obtain ⟨hlen,hstatus⟩ := hreportable.mp hdeliverable.reportable
    exact ⟨requested,current,response,earlier,hrequested,hanswers,hroute,hlen,hstatus⟩
  · rintro ⟨requested',current',response',earlier',hrequested',hanswers',hroute',hlen,hstatus⟩
    obtain rfl := Except.ok.inj (hrequested.symm.trans hrequested')
    obtain ⟨rfl,rfl⟩ := List.cons.inj (hanswers.symm.trans hanswers')
    obtain rfl := Except.ok.inj (hroute.symm.trans hroute')
    obtain ⟨media,hmedia⟩ := sealed_media hsealed
    refine deliverable_of_reportable hmedia ?_ (hreportable.mpr ⟨hlen,hstatus⟩)
    rw [hsealed.contentEncoding.1]
    exact hsealed.contentEncoding.2

/-- A site of one page. -/
def pageUrl : Url := ⟨"http","",none,some "example.com",none,"/",none,none⟩

def pageUrls : UrlCrate where
  parse text :=
    if text = "http://example.com/" then .ok pageUrl else .error "relative URL without a base"
  join _ _ := .error "invalid port number"
  asStr _ := "http://example.com/"

def noon : OffsetDateTime := ⟨1790856000000000000,0⟩

def noonTimes : TimeCrate where
  parseRfc3339 text := if text = "2026-10-01T12:00:00Z" then some noon else none
  formatRfc3339 time := if time = noon then some "2026-10-01T12:00:00Z" else none

def pageResponse (status : ℕ) : Fetch.Response :=
  ⟨status,[("content-type",asBytes "text/plain")],fun _ => .ok (asBytes "ok")⟩

/-- The page answers with this status. -/
def pageWorld (status : ℕ) : Fetch.World where
  urls := pageUrls
  times := noonTimes
  sha256Hex bytes :=
    if bytes = asBytes "ok" then "2689367b205c16ce32ed4200942b8b8b1e262dfc70d9bc9fbc77c49699a4f1df"
    else "2a1b402420ef46577471cdc7409b0fa2c6a204db316e59ade2d805435489a067"
  lookup _ _ _ := some [.v4 ⟨93,184,216,34⟩]
  http := Fetch.firstAddressClient (fun _ => .ok (pageResponse status))
  clock _ := 0
  nowUtc := noon

def pageRequest : WebFetchRequest := ⟨"http://example.com/",.markdown⟩

def pageFetch (status : ℕ) : Except ErrorCode Fetch.Fetched × Fetch.Trace :=
  (Fetch.Fetcher.new ⟨.production,[]⟩).fetch (pageWorld status) "run-1" pageRequest .start

def pageEngine : Engine where
  codecs :=
    { strictEngine.codecs with
      decodeWithoutReplacement := fun _ bytes => if bytes = asBytes "ok" then some "ok" else none }
  urls := pageUrls
  times := noonTimes
  isAlphanumeric := strictEngine.isAlphanumeric

theorem pageFetch_eq (status : ℕ) : pageFetch status =
    (Fetch.Fetcher.new ⟨.production,[]⟩).fetchLoop (pageWorld status) "run-1" pageRequest pageUrl 0
      pageUrl 0 0 ⟨[],1⟩ := by
  have hnow : Fetch.instantNow (pageWorld status) .start = (.ok 0,⟨[],1⟩) := rfl
  have hurl : (Effect.lift ((pageRequest.destinationUrl pageUrls).mapError
      (fun _ => ErrorCode.unsafeSource)) : Fetch.Network Url) ⟨[],1⟩ = (.ok pageUrl,⟨[],1⟩) := rfl
  exact (bind_ok hnow).trans (bind_ok hurl)

theorem pageUrls_roundTrips : pageUrls.RoundTrips := by
  intro url hproduced _
  have hpage : url = pageUrl := by
    induction hproduced with
    | parse hparse =>
      unfold pageUrls at hparse
      dsimp only at hparse
      split_ifs at hparse
      exact (Except.ok.inj hparse).symm
    | join hbase hjoin ih => cases hjoin
    | withoutFragment h ih =>
      rw [ih (by assumption)]
      rfl
  rw [hpage]
  rfl

theorem noonTimes_roundTrips : noonTimes.RoundTrips := by
  intro time text h
  unfold noonTimes at h ⊢
  dsimp only at h ⊢
  split_ifs at h with hnoon
  rw [← Option.some.inj h,hnoon,if_pos rfl]

/-- A page that is answered with 200 can be delivered. -/
theorem fetch_deliverable_page : ∃ fetched trace, pageFetch 200 = (.ok fetched,trace) ∧
    Deliverable pageEngine fetched.artifact := by
  obtain ⟨fetched,trace,hfetch,hanswers⟩ : ∃ fetched trace, pageFetch 200 = (.ok fetched,trace) ∧
      Fetch.answers trace.hops = [pageResponse 200] := by
    rw [pageFetch_eq,Fetch.Fetcher.fetchLoop]
    exact ⟨_,_,rfl,rfl⟩
  refine ⟨fetched,trace,hfetch,(fetch_deliverable_iff pageEngine rfl rfl pageUrls_roundTrips
    noonTimes_roundTrips hfetch).mpr ?_⟩
  exact ⟨pageUrl,pageUrl,pageResponse 200,[],rfl,hanswers,rfl,by decide,by decide,by decide⟩

/-- The page is answered with 999: it is fetched, and no result can be made of it. -/
theorem fetched_not_deliverable : ∃ fetched trace, pageFetch 999 = (.ok fetched,trace) ∧
    (Inspected.data ⟨fetched.artifact,⟨"text/plain",none⟩,⟨"ok",.passthrough⟩⟩
      "2026-10-01T12:00:00Z").validate pageUrls noonTimes =
        .error ⟨"data.http_status is not an HTTP status code"⟩ ∧
    ¬Deliverable pageEngine fetched.artifact := by
  rw [pageFetch_eq,Fetch.Fetcher.fetchLoop]
  refine ⟨_,_,rfl,by decide,fun h => ?_⟩
  have hstatus : 999 ≤ 599 := h.reportable.httpStatus.2
  omega

end HearthAI.Stages
