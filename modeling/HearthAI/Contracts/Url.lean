import HearthAI.Contracts.Text

/-! # URLs and timestamps, as the `url` and `time` crates deliver them

Parsing, joining and serializing are the crates' own code and stay parameters.
A parsed URL is the record of its components.
-/
namespace HearthAI.Contracts

/-- `url::Url`. `port` is absent when it is the scheme's default one. -/
structure Url where
  scheme : String
  username : String
  password : Option String
  hostStr : Option String
  port : Option ℕ
  path : String
  query : Option String
  fragment : Option String
  deriving DecidableEq, Repr

/-- `Url::port_or_known_default`. -/
def Url.portOrKnownDefault (url : Url) : Option ℕ :=
  url.port.or <|
    if url.scheme = "http" ∨ url.scheme = "ws" then some 80
    else if url.scheme = "https" ∨ url.scheme = "wss" then some 443
    else if url.scheme = "ftp" then some 21
    else none

/-- `Url::set_fragment(None)`. -/
def Url.withoutFragment (url : Url) : Url := { url with fragment := none }

/-- The functions of the `url` crate. A failed parse carries its message. -/
structure UrlCrate where
  parse : String → Except String Url
  join : Url → String → Except String Url
  asStr : Url → String

/-- The URLs that come out of the crate. -/
inductive UrlCrate.Produces (urls : UrlCrate) : Url → Prop
  | parse {text : String} {url : Url} (h : urls.parse text = .ok url) : Produces urls url
  | join {base url : Url} {target : String} (hbase : Produces urls base)
      (h : urls.join base target = .ok url) : Produces urls url
  | withoutFragment {url : Url} (h : Produces urls url) : Produces urls url.withoutFragment

/-- The serialization of a web URL is parsed as that URL. -/
def UrlCrate.RoundTrips (urls : UrlCrate) : Prop :=
  ∀ url, urls.Produces url → url.scheme = "http" ∨ url.scheme = "https" →
    urls.parse (urls.asStr url) = .ok url

/-- `time::OffsetDateTime`: an instant and the offset it is written in. -/
structure OffsetDateTime where
  unixNanoseconds : Int
  offsetSeconds : Int
  deriving DecidableEq, Repr

/-- Parsing and formatting with the well-known `Rfc3339` description. -/
structure TimeCrate where
  parseRfc3339 : String → Option OffsetDateTime
  formatRfc3339 : OffsetDateTime → Option String

/-- A timestamp that was formatted is parsed as the time it was formatted from. -/
def TimeCrate.RoundTrips (times : TimeCrate) : Prop :=
  ∀ time text, times.formatRfc3339 time = some text → times.parseRfc3339 text = some time

end HearthAI.Contracts
