import HearthAI.Inspect.Correlation
import HearthAI.Stages.Delivery
import HearthAI.Stages.Wire

/-! # One request, two digests

The control plane hashes the request as it was written. The fetch stage hashes what the
`url` crate makes of it, without the fragment.
-/
namespace HearthAI.Stages
open Text Python Contracts Inspect

/-- The record of the control plane, the artifact and every audit line of its inspection
name the request by one digest. -/
def Correlated (sha256Hex : Bytes → String) (request : Jobs.WebFetchRequest)
    (artifact : FetchArtifact) : Prop :=
  ∃ digest format, request.storageView sha256Hex =
      .ok (.dict [(lit "url_sha256",.str (lit digest)),(lit "format",.str format)]) ∧
    artifact.requestedUrlSha256 = digest ∧
    ∀ (engine : Engine) (inspector : Inspector) (chain : List Converter) (clock : ℕ → ℕ)
      (runId : String) (body : Bytes),
      (inspector.inspect engine chain clock runId
        (.ok (.fetched artifact body))).1.audit.requestedUrlSha256 = some digest

/-- The URL is written the way the crate writes it, and has no fragment. -/
def Normal (urls : UrlCrate) (url : Str) : Prop :=
  ∃ text parsed, url = lit text ∧ urls.parse text = .ok parsed ∧ parsed.fragment = none ∧
    urls.asStr parsed = text

section
variable {serde : SerdeJson} {dumps : Value → String} {readFloat : Str → Option Double}
  {urlsplit : Jobs.UrlSplit} {payload : Value} {request : Jobs.WebFetchRequest}
  {fetchRequest : WebFetchRequest} {urls : UrlCrate}

/-- The two stages agree on the request exactly when their digests do. -/
theorem correlated_iff_digests {sha256Hex : Bytes → String} {artifact : FetchArtifact}
    {url normalized : String} (hurl : request.url = lit url)
    (hsealed : artifact.requestedUrlSha256 = sha256Hex (asBytes normalized)) :
    Correlated sha256Hex request artifact ↔
      sha256Hex (asBytes url) = sha256Hex (asBytes normalized) := by
  have hview : request.storageView sha256Hex =
      .ok (.dict [(lit "url_sha256",.str (lit (sha256Hex (asBytes url)))),
        (lit "format",.str request.format)]) := by
    rw [Jobs.WebFetchRequest.storageView,hurl,encodeUtf8_lit]
  constructor
  · rintro ⟨digest,format,hstored,hartifact,_⟩
    rw [hview] at hstored
    obtain ⟨hdigest,_⟩ : lit (sha256Hex (asBytes url)) = lit digest ∧ request.format = format := by
      simpa using hstored
    rw [lit_injective hdigest,← hartifact,hsealed]
  · intro h
    refine ⟨sha256Hex (asBytes url),request.format,hview,hsealed.trans h.symm,?_⟩
    intro engine inspector chain clock runId body
    rw [inspect_requestedUrl,hsealed,h]

/-- What the control plane has stripped, the Rust side finds nothing to trim from. -/
theorem trim_of_strip {text : String} (h : strip (lit text) = lit text) : trim text = text := by
  have hends : ∀ c, isSpace (ofChar c) = false → isWhitespace c = false := by
    intro c hc
    by_contra hwhite
    rw [isSpace_ofChar (by simpa using hwhite)] at hc
    cases hc
  rw [trim,trimMatches_of_ends,String.ofList_toList]
  · intro c hc
    have hfirst : (strip (lit text)).head? = some (ofChar c) := by
      rw [h,lit,List.head?_map,hc]
      rfl
    exact hends c (head?_trimMatches_eq_false hfirst)
  · intro c hc
    have hlast : (strip (lit text)).getLast? = some (ofChar c) := by
      rw [h,lit,List.getLast?_map,hc]
      rfl
    exact hends c (getLast?_trimMatches_eq_false hlast)

/-- The crate gives the text back exactly when it is written the crate's way. -/
theorem normal_iff (hround : urls.RoundTrips) {text : String} (htrim : trim text = text)
    {destination : Url} {format : Format}
    (h : WebFetchRequest.destinationUrl urls ⟨text,format⟩ = .ok destination) :
    Normal urls (lit text) ↔ text = urls.asStr destination := by
  obtain ⟨_,url,hparse,hcheck,rfl⟩ := destinationUrl_eq_ok.mp h
  dsimp only at hparse
  rw [htrim] at hparse
  constructor
  · rintro ⟨text',parsed,htext,hparsed,hfragment,hasStr⟩
    obtain rfl := lit_injective htext
    obtain rfl := Except.ok.inj (hparse.symm.trans hparsed)
    have hsame : url.withoutFragment = url := by rw [Url.withoutFragment,← hfragment]
    rw [hsame,hasStr]
  · intro htext
    have hproduced : urls.Produces url.withoutFragment := .withoutFragment (.parse hparse)
    have hagain := hround _ hproduced (checkDestination_ok hcheck).1
    rw [← htext,hparse] at hagain
    refine ⟨text,url,rfl,hparse,?_,?_⟩
    · rw [Except.ok.inj hagain]
      rfl
    · rw [Except.ok.inj hagain,← htext]

/-- The digests of a run agree exactly when the request was written the crate's way. -/
theorem correlated_iff_normal {world : Fetch.World} (hround : world.urls.RoundTrips)
    (hpassed : Jobs.WebFetchRequest.fromDict urlsplit payload = .ok request)
    (hreads : Reads serde dumps readFloat request.toDict)
    (hrequest : WebFetchRequest.fromStr serde (dumps request.toDict) = .ok fetchRequest)
    {fetcher : Fetch.Fetcher} {runId : String} {fetched : Fetch.Fetched} {trace : Fetch.Trace}
    (hfetch : fetcher.fetch world runId fetchRequest .start = (.ok fetched,trace))
    (hcollision : ∀ destination, fetchRequest.destinationUrl world.urls = .ok destination →
      world.sha256Hex (asBytes fetchRequest.url) =
        world.sha256Hex (asBytes (world.urls.asStr destination)) →
      fetchRequest.url = world.urls.asStr destination) :
    Correlated world.sha256Hex request fetched.artifact ↔ Normal world.urls request.url := by
  obtain ⟨_,raw,_,hadmits⟩ := Jobs.fromDict_eq_ok.mp hpassed
  obtain ⟨hdenotes,_⟩ := (fromStr_toDict hreads).mp hrequest
  by_cases hurl : request.url = lit fetchRequest.url
  · have hstripped : strip (lit fetchRequest.url) = lit fetchRequest.url := by
      rw [← hurl,hadmits.url,Jobs.strip_strip]
    obtain ⟨destination,hdestination,_,_,_,_,_,_,hsealed⟩ :=
      (Fetch.fetch_completed world fetcher runId fetchRequest).ok rfl hfetch
    rw [correlated_iff_digests hurl hsealed.requestedUrl,hurl,
      normal_iff hround (trim_of_strip hstripped) hdestination]
    constructor
    · exact hcollision destination hdestination
    · exact fun h => congrArg (fun text => world.sha256Hex (asBytes text)) h
  · -- two surrogates in place of a character have no digest and are no text
    refine iff_of_false ?_ ?_
    · rintro ⟨digest,format,hstored,_⟩
      refine hurl (hdenotes.eq ?_)
      unfold Utf8Encodable
      cases hencoded : encodeUtf8 request.url with
      | none =>
        rw [Jobs.WebFetchRequest.storageView,hencoded] at hstored
        cases hstored
      | some bytes => rfl
    · rintro ⟨text,_,htext,_⟩
      rw [htext] at hdenotes hurl
      exact hurl (congrArg lit (Denotes.unique rfl hdenotes))

end
/-- The page again, which may be asked for with the path left out. -/
def siteUrls : UrlCrate where
  parse text :=
    if text = "http://example.com/" ∨ text = "http://example.com" then .ok pageUrl
    else .error "relative URL without a base"
  join _ _ := .error "invalid port number"
  asStr _ := "http://example.com/"

def siteWorld : Fetch.World :=
  { pageWorld 200 with
    urls := siteUrls
    sha256Hex := fun bytes =>
      if bytes = asBytes "http://example.com" then
        "f0e6a6a97042a4f1f1c87f5f7d44315b2d852c2df5c7991cc66241bf7072d1c4"
      else (pageWorld 200).sha256Hex bytes }

def siteSplit : Jobs.UrlSplit := fun _ =>
  .ok ⟨lit "http",none,none,some (lit "example.com"),.ok none⟩

def sitePayload (url : String) : Value := .dict [(lit "url",.str (lit url))]
def siteRequest (url : String) : Jobs.WebFetchRequest := ⟨lit url,lit "markdown"⟩

def siteDumps (url : String) : Value → String := fun _ =>
  "\x7b\"url\": \"" ++ url ++ "\", \"format\": \"markdown\"\x7d"

def siteSerde (url : String) : SerdeJson where
  parse _ := some (.obj [("url",.str url),("format",.str "markdown")])
  print _ := siteDumps url .none
  errorText _ := "EOF while parsing a value at line 1 column 0"

def siteFetch (url : String) : Except ErrorCode Fetch.Fetched × Fetch.Trace :=
  (Fetch.Fetcher.new ⟨.production,[]⟩).fetch siteWorld "run-1" ⟨url,.markdown⟩ .start

theorem site_reads (url : String) :
    Reads (siteSerde url) (siteDumps url) (fun _ => none) (siteRequest url).toDict := by
  have hdocument : (siteRequest url).toDict.document (fun _ => none) maxDepth =
      some (.obj [("url",.str url),("format",.str "markdown")]) :=
    document_eq_obj.mpr ⟨_,rfl,.cons ⟨rfl,document_lit⟩ (.cons ⟨rfl,document_lit⟩ .nil)⟩
  exact hdocument.symm

theorem site_fromStr (url : String) : WebFetchRequest.fromStr (siteSerde url)
    (siteDumps url (siteRequest url).toDict) = .ok ⟨url,.markdown⟩ :=
  (fromStr_toDict (site_reads url)).mpr ⟨rfl,rfl⟩

theorem siteUrls_roundTrips : siteUrls.RoundTrips := by
  intro url hproduced _
  have hpage : url = pageUrl := by
    induction hproduced with
    | parse hparse =>
      unfold siteUrls at hparse
      dsimp only at hparse
      split_ifs at hparse
      exact (Except.ok.inj hparse).symm
    | join hbase hjoin ih => cases hjoin
    | withoutFragment h ih =>
      rw [ih (by assumption)]
      rfl
  rw [hpage]
  rfl

theorem siteFetch_sealed (url : String)
    (hurl : WebFetchRequest.destinationUrl siteUrls ⟨url,.markdown⟩ = .ok pageUrl) :
    ∃ fetched trace, siteFetch url = (.ok fetched,trace) ∧
      fetched.artifact.requestedUrlSha256 = siteWorld.sha256Hex (asBytes "http://example.com/") := by
  have hnow : Fetch.instantNow siteWorld .start = (.ok 0,⟨[],1⟩) := rfl
  have hlift : (Effect.lift ((WebFetchRequest.destinationUrl siteUrls ⟨url,.markdown⟩).mapError
      (fun _ => ErrorCode.unsafeSource)) : Fetch.Network Url) ⟨[],1⟩ = (.ok pageUrl,⟨[],1⟩) := by
    rw [hurl]
    rfl
  have hloop : siteFetch url = (Fetch.Fetcher.new ⟨.production,[]⟩).fetchLoop siteWorld "run-1"
      ⟨url,.markdown⟩ pageUrl 0 pageUrl 0 0 ⟨[],1⟩ :=
    (Effect.bind_ok hnow).trans (Effect.bind_ok hlift)
  rw [hloop,Fetch.Fetcher.fetchLoop]
  exact ⟨_,_,rfl,rfl⟩

/-- Asked for with its path, the page has one digest. -/
theorem correlated_page : ∃ fetched trace, siteFetch "http://example.com/" = (.ok fetched,trace) ∧
    Correlated siteWorld.sha256Hex (siteRequest "http://example.com/") fetched.artifact := by
  obtain ⟨fetched,trace,hfetch,_⟩ := siteFetch_sealed "http://example.com/" rfl
  have hpassed : Jobs.WebFetchRequest.fromDict siteSplit (sitePayload "http://example.com/") =
      .ok (siteRequest "http://example.com/") := rfl
  exact ⟨fetched,trace,hfetch,(correlated_iff_normal siteUrls_roundTrips hpassed (site_reads _)
    (site_fromStr _) hfetch (fun _ _ _ => rfl)).mpr ⟨_,pageUrl,rfl,rfl,rfl,rfl⟩⟩

/-- The payload leaves the path out: it is admitted and fetched, under two digests. -/
theorem not_correlated_bare : ∃ fetched trace, siteFetch "http://example.com" = (.ok fetched,trace) ∧
    Jobs.WebFetchRequest.fromDict siteSplit (sitePayload "http://example.com") =
      .ok (siteRequest "http://example.com") ∧
    WebFetchRequest.fromStr (siteSerde "http://example.com")
      (siteDumps "http://example.com" (siteRequest "http://example.com").toDict) =
        .ok ⟨"http://example.com",.markdown⟩ ∧
    ¬Correlated siteWorld.sha256Hex (siteRequest "http://example.com") fetched.artifact := by
  obtain ⟨fetched,trace,hfetch,hsealed⟩ := siteFetch_sealed "http://example.com" rfl
  refine ⟨fetched,trace,hfetch,rfl,site_fromStr _,?_⟩
  rw [correlated_iff_digests rfl hsealed]
  decide

end HearthAI.Stages
