import HearthAI.Jobs.Contracts

/-! # The thin definition of `web_fetch:v1` that admits a request

`urllib.parse.urlsplit` and SHA-256 stay parameters.
-/
namespace HearthAI.Jobs
open Text Python

def toolKey : Str := lit "web_fetch"
def toolVersion : ℕ := 1
def workerProfile : Str := lit "web-fetch-v1"
def maxUrlChars : ℕ := 2048
def formats : List Str := [lit "markdown",lit "text",lit "html"]

/-- `urllib.parse.SplitResult`. The property `port` may raise. -/
structure SplitResult where
  scheme : Str
  username : Option Str
  password : Option Str
  hostname : Option Str
  port : Except Builtin (Option ℕ)

abbrev UrlSplit := Str → Except Builtin SplitResult

/-- The truth value of a string that may be `None`. -/
def present (value : Option Str) : Bool := value.any (fun s => s ≠ [])

/-- A string of `FORMATS`. Membership raises for what cannot be hashed. -/
def requireFormat (value : Value) (path : String) : Except Raised Str :=
  match value with
  | .str name => do
    check (name ∈ formats) (lit s!"{path} must be markdown, text, or html")
    return name
  | .list _ => .error (.builtin .typeError)
  | .dict _ => .error (.builtin .typeError)
  | _ => .error (.contract (lit s!"{path} must be markdown, text, or html"))

def checkFetchable (urlsplit : UrlSplit) (url : Str) : Except Raised Unit := do
  let parsed ← (urlsplit (strip url)).mapError .builtin
  check (parsed.scheme = lit "http" ∨ parsed.scheme = lit "https")
    (lit "request.url must be an HTTP(S) URL")
  check (present parsed.username = false ∧ present parsed.password = false)
    (lit "request.url must not contain userinfo")
  check (present parsed.hostname = true) (lit "request.url must have a host")
  let port ← parsed.port.mapError (fun exception =>
    if exception = .valueError then .contract (lit "request.url has an invalid port")
    else .builtin exception)
  check (∀ p ∈ port, p = 80 ∨ p = 443) (lit "request.url must use the default web ports")

/-- A URL, and optionally an output format. -/
structure WebFetchRequest where
  url : Str
  format : Str
  deriving DecidableEq

namespace WebFetchRequest

def fromDict (urlsplit : UrlSplit) (value : Value) : Except Raised WebFetchRequest := do
  let data ← requireObject value "request"
  requireExactFields data [lit "url"] "request" [lit "format"]
  let url ← requireString (← item data (lit "url")) "request.url" maxUrlChars false
  checkFetchable urlsplit url
  let output := (data.get (lit "format")).getD (.str (lit "markdown"))
  let format ← requireFormat output "request.format"
  return ⟨url,format⟩

def toDict (request : WebFetchRequest) : Value :=
  .dict [(lit "url",.str request.url),(lit "format",.str request.format)]

/-- What durable records may keep. -/
def storageView (sha256Hex : Bytes → String) (request : WebFetchRequest) : Except Raised Value :=
  match encodeUtf8 request.url with
  | none => .error (.builtin .unicodeEncodeError)
  | some bytes => .ok (.dict [(lit "url_sha256",.str (lit (sha256Hex bytes))),
      (lit "format",.str request.format)])

end WebFetchRequest

/-- What `urlsplit` shows of a URL that may be fetched. -/
def Fetchable (urlsplit : UrlSplit) (url : Str) : Prop :=
  ∃ parsed port, urlsplit url = .ok parsed ∧
    (parsed.scheme = lit "http" ∨ parsed.scheme = lit "https") ∧
    (present parsed.username = false ∧ present parsed.password = false) ∧
    present parsed.hostname = true ∧ parsed.port = .ok port ∧ ∀ p ∈ port, p = 80 ∨ p = 443

section
variable {urlsplit : UrlSplit}

theorem strip_strip (s : Str) : strip (strip s) = strip s :=
  strip_of_ends (fun _ h => head?_trimMatches_eq_false h)
    (fun _ h => getLast?_trimMatches_eq_false h)

theorem requireFormat_eq_ok {value : Value} {path : String} {name : Str} :
    requireFormat value path = .ok name ↔ value = .str name ∧ name ∈ formats := by
  cases value with
  | str s =>
    rw [requireFormat,bind_eq_ok]
    constructor
    · rintro ⟨_,hknown,hs⟩
      obtain rfl := Except.ok.inj hs
      exact ⟨rfl,check_eq_ok.mp hknown⟩
    · rintro ⟨hs,hknown⟩
      obtain rfl := Value.str.inj hs
      exact ⟨(),check_eq_ok.mpr hknown,rfl⟩
  | _ => simp [requireFormat]

theorem checkFetchable_eq_ok {url : Str} {u : Unit} :
    checkFetchable urlsplit url = .ok u ↔ Fetchable urlsplit (strip url) := by
  unfold checkFetchable Fetchable
  constructor
  · intro h
    obtain ⟨parsed,hparsed,h⟩ := bind_eq_ok.mp h
    obtain ⟨_,hscheme,h⟩ := bind_eq_ok.mp h
    obtain ⟨_,huser,h⟩ := bind_eq_ok.mp h
    obtain ⟨_,hhost,h⟩ := bind_eq_ok.mp h
    obtain ⟨port,hport,h⟩ := bind_eq_ok.mp h
    exact ⟨parsed,port,mapError_eq_ok.mp hparsed,check_eq_ok.mp hscheme,check_eq_ok.mp huser,
      check_eq_ok.mp hhost,mapError_eq_ok.mp hport,check_eq_ok.mp h⟩
  · rintro ⟨parsed,port,hparsed,hscheme,huser,hhost,hport,hweb⟩
    refine bind_eq_ok.mpr ⟨parsed,mapError_eq_ok.mpr hparsed,?_⟩
    refine bind_eq_ok.mpr ⟨(),check_eq_ok.mpr hscheme,?_⟩
    refine bind_eq_ok.mpr ⟨(),check_eq_ok.mpr huser,?_⟩
    refine bind_eq_ok.mpr ⟨(),check_eq_ok.mpr hhost,?_⟩
    exact bind_eq_ok.mpr ⟨port,mapError_eq_ok.mpr hport,check_eq_ok.mpr hweb⟩

/-- What an admitted payload looks like, and the request that is made of it. -/
structure Admits (urlsplit : UrlSplit) (data : Dict Str Value) (raw : Str)
    (request : WebFetchRequest) : Prop where
  known : ∀ key ∈ data.map Prod.fst, key = lit "url" ∨ key = lit "format"
  given : data.get (lit "url") = some (.str raw)
  url : request.url = strip raw
  nonempty : request.url ≠ []
  short : request.url.length ≤ maxUrlChars
  fetchable : Fetchable urlsplit request.url
  format : (data.get (lit "format")).getD (.str (lit "markdown")) = .str request.format
  named : request.format ∈ formats

theorem fromDict_eq_ok {value : Value} {request : WebFetchRequest} :
    WebFetchRequest.fromDict urlsplit value = .ok request ↔
      ∃ data raw, value = .dict data ∧ Admits urlsplit data raw request := by
  unfold WebFetchRequest.fromDict
  constructor
  · intro h
    obtain ⟨data,hdata,h⟩ := bind_eq_ok.mp h
    obtain ⟨_,hfields,h⟩ := bind_eq_ok.mp h
    obtain ⟨given,hgiven,h⟩ := bind_eq_ok.mp h
    obtain ⟨url,hurl,h⟩ := bind_eq_ok.mp h
    obtain ⟨_,hfetchable,h⟩ := bind_eq_ok.mp h
    obtain ⟨format,hformat,h⟩ := bind_eq_ok.mp h
    obtain rfl := Except.ok.inj h
    obtain ⟨raw,rfl,rfl,hnonempty,hshort⟩ := requireString_eq_ok.mp hurl
    obtain ⟨houtput,hnamed⟩ := requireFormat_eq_ok.mp hformat
    have hfetch := checkFetchable_eq_ok.mp hfetchable
    rw [strip_strip] at hfetch
    refine ⟨data,raw,requireObject_eq_ok.mp hdata,?_,item_eq_ok.mp hgiven,rfl,
      by simpa using hnonempty,hshort,hfetch,houtput,hnamed⟩
    simpa using (requireExactFields_eq_ok.mp hfields).2
  · rintro ⟨data,raw,rfl,h⟩
    have hkey : lit "url" ∈ data.map Prod.fst := by
      by_contra hmissing
      have hnone := Dict.get_eq_none.mpr hmissing
      rw [h.given] at hnone
      cases hnone
    refine bind_eq_ok.mpr ⟨data,rfl,?_⟩
    refine bind_eq_ok.mpr ⟨(),requireExactFields_eq_ok.mpr ⟨by simpa using hkey,
      by simpa using h.known⟩,?_⟩
    refine bind_eq_ok.mpr ⟨_,item_eq_ok.mpr h.given,?_⟩
    refine bind_eq_ok.mpr ⟨request.url,requireString_eq_ok.mpr
      ⟨raw,rfl,h.url,.inl h.nonempty,h.short⟩,?_⟩
    refine bind_eq_ok.mpr ⟨(),checkFetchable_eq_ok.mpr ?_,?_⟩
    · rw [h.url,strip_strip,← h.url]
      exact h.fetchable
    · exact bind_eq_ok.mpr ⟨request.format,requireFormat_eq_ok.mpr ⟨h.format,h.named⟩,rfl⟩

end
end HearthAI.Jobs
