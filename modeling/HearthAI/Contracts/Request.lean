import HearthAI.Contracts.Gate
import HearthAI.Contracts.WebFetch

/-! # Requests as they come over the wire -/
namespace HearthAI.Contracts

def Format.name : Format → String
  | .markdown => "markdown"
  | .text => "text"
  | .html => "html"

def Format.variants : List (String × Format) := named Format.name [.markdown,.text,.html]

namespace WebFetchRequest

def fieldNames : List String := ["url","format"]

/-- The derived decoder. The format has a default. -/
def ofValue (v : Json) : Option WebFetchRequest := do
  let fields ← v.members fieldNames
  let url ← fields.required "url" Json.asString
  let format ← fields.defaulted "format" (Json.asEnum Format.variants) .markdown
  return ⟨url,format⟩

/-- `serde_json::from_str`, which is all that the fetch stage does with its request file. -/
def fromStr (serde : SerdeJson) (value : String) : Except ContractError WebFetchRequest :=
  match (serde.parse value).bind ofValue with
  | some request => .ok request
  | none => .error ⟨s!"request is not valid: {serde.errorText value}"⟩

def fromJson (serde : SerdeJson) (urls : UrlCrate) (value : String) :
    Except ContractError WebFetchRequest := do
  let request ← fromStr serde value
  let _ ← request.validatedUrl urls
  return request

end WebFetchRequest

section
variable {urls : UrlCrate} {request : WebFetchRequest} {url : Url}

theorem fromStr_eq_ok {serde : SerdeJson} {value : String} :
    WebFetchRequest.fromStr serde value = .ok request ↔
      ∃ v, serde.parse value = some v ∧ WebFetchRequest.ofValue v = some request := by
  unfold WebFetchRequest.fromStr
  rw [← Option.bind_eq_some_iff]
  cases (serde.parse value).bind WebFetchRequest.ofValue <;> simp

theorem checkDestination_eq_ok {u : Unit} : checkDestination url = .ok u ↔
    (url.scheme = "http" ∨ url.scheme = "https") ∧ url.username = "" ∧ url.password = none ∧
      ∃ host, url.hostStr = some host ∧ host ≠ "" := by
  constructor
  · exact checkDestination_ok
  · rintro ⟨hscheme,huser,hpassword,host,hhost,hne⟩
    unfold checkDestination
    rw [if_neg (by tauto),if_neg (by simp [huser,hpassword]),if_neg (by simp [hhost,hne])]

theorem checkFetchable_eq_ok {u : Unit} : checkFetchable url = .ok u ↔
    checkDestination url = .ok () ∧ ∀ port ∈ url.port, port = 80 ∨ port = 443 := by
  unfold checkFetchable
  constructor
  · intro h
    obtain ⟨_,hcheck,h⟩ := bind_eq_ok.mp h
    refine ⟨hcheck,fun port hport => ?_⟩
    rw [Option.mem_def.mp hport] at h
    dsimp only at h
    split_ifs at h with hweb
    exact hweb
  · rintro ⟨hcheck,hweb⟩
    refine bind_eq_ok.mpr ⟨(),hcheck,?_⟩
    cases hport : url.port with
    | none => rfl
    | some port => exact if_pos (hweb port hport)

theorem destinationUrl_eq_ok {destination : Url} :
    request.destinationUrl urls = .ok destination ↔
      Text.len request.url ≤ maxUrlChars ∧ ∃ url, urls.parse (Text.trim request.url) = .ok url ∧
        checkDestination url = .ok () ∧ destination = url.withoutFragment := by
  unfold WebFetchRequest.destinationUrl
  constructor
  · intro h
    obtain ⟨_,hlen,h⟩ := bind_eq_ok.mp h
    obtain ⟨url,hparse,h⟩ := bind_eq_ok.mp h
    obtain ⟨_,hcheck,h⟩ := bind_eq_ok.mp h
    exact ⟨Nat.not_lt.mp (refuseIf_eq_ok.mp hlen),url,mapError_eq_ok.mp hparse,hcheck,
      (Except.ok.inj h).symm⟩
  · rintro ⟨hlen,url,hparse,hcheck,rfl⟩
    refine bind_eq_ok.mpr ⟨(),refuseIf_eq_ok.mpr (Nat.not_lt.mpr hlen),?_⟩
    refine bind_eq_ok.mpr ⟨url,mapError_eq_ok.mpr hparse,?_⟩
    exact bind_eq_ok.mpr ⟨(),hcheck,rfl⟩

/-- A request passes exactly when its URL is short and one of the URLs that may be fetched. -/
theorem validatedUrl_eq_ok : (∃ destination, request.validatedUrl urls = .ok destination) ↔
    Text.len request.url ≤ maxUrlChars ∧
      ∃ url, urls.parse (Text.trim request.url) = .ok url ∧ checkFetchable url = .ok () := by
  unfold WebFetchRequest.validatedUrl
  constructor
  · rintro ⟨destination,h⟩
    obtain ⟨destination',hdestination,h⟩ := bind_eq_ok.mp h
    obtain ⟨_,hfetchable,_⟩ := bind_eq_ok.mp h
    obtain ⟨hlen,url,hparse,hcheck,rfl⟩ := destinationUrl_eq_ok.mp hdestination
    exact ⟨hlen,url,hparse,checkFetchable_eq_ok.mpr
      ⟨hcheck,(checkFetchable_eq_ok.mp hfetchable).2⟩⟩
  · rintro ⟨hlen,url,hparse,hfetchable⟩
    obtain ⟨hcheck,hport⟩ := checkFetchable_eq_ok.mp hfetchable
    refine ⟨url.withoutFragment,bind_eq_ok.mpr ⟨url.withoutFragment,
      destinationUrl_eq_ok.mpr ⟨hlen,url,hparse,hcheck,rfl⟩,bind_eq_ok.mpr ⟨(),?_,rfl⟩⟩⟩
    exact checkFetchable_eq_ok.mpr
      ⟨checkDestination_eq_ok.mpr (checkDestination_eq_ok.mp hcheck),hport⟩

end
end HearthAI.Contracts
