import HearthAI.Contracts.Text
import HearthAI.Contracts.Limits

/-! # The media types and charsets both stages accept -/
namespace HearthAI.Contracts
open Text

/-- A parsed `Content-Type`. -/
structure MediaType where
  /-- Lowercased `type/subtype` with no parameters. -/
  essence : String
  /-- Lowercased charset parameter, when the response gave one. -/
  charset : Option String
  deriving DecidableEq, Repr

def supportedMediaTypes : List String :=
  ["text/html","application/xhtml+xml","text/plain","text/markdown","text/csv","text/xml",
    "application/xml","application/json"]

def supportedCharsets : List String :=
  ["utf-8","utf8","us-ascii","ascii","iso-8859-1","latin1","windows-1252","utf-16","utf-16le",
    "utf-16be"]

namespace MediaType

/-- One parameter of the header. A part without `=` is skipped. -/
def parseParameter (charset : Option String) (parameter : String) :
    Except ContractError (Option String) :=
  match splitOnce '=' parameter with
  | none => .ok charset
  | some (name,raw) =>
    if toAsciiLowercase (trim name) = "charset" then
      let cleaned := toAsciiLowercase (trim (trimChar '"' (trim raw)))
      if cleaned = "" then .error ⟨"content type has an empty charset"⟩ else .ok (some cleaned)
    else .ok charset

/-- Parse a `Content-Type` header value. -/
def parse (value : String) : Except ContractError MediaType := do
  let parts := split ';' value
  let essence := toAsciiLowercase (trim (parts.headD ""))
  refuseIf (essence = "" ∨ (split '/' essence).length ≠ 2 ∨ "" ∈ split '/' essence)
    "content type is not a media type"
  let charset ← parts.tail.foldlM parseParameter none
  return ⟨essence,charset⟩

def isSupported (media : MediaType) : Bool :=
  supportedMediaTypes.contains media.essence && media.charset.all supportedCharsets.contains

def isHtml (media : MediaType) : Bool :=
  media.essence == "text/html" || media.essence == "application/xhtml+xml"

/-- The header form, rebuilt from the parsed parts. -/
def headerValue (media : MediaType) : String :=
  match media.charset with
  | some charset => s!"{media.essence}; charset={charset}"
  | none => media.essence

/-- The parameters are read after the part before the first semicolon. -/
theorem parse_append {essence : String} {media : MediaType} (hplain : ';' ∉ essence.toList)
    (hparse : parse essence = .ok media) (parameters : String) :
    parse (essence ++ String.singleton ';' ++ parameters) = (do
      let charset ← (split ';' parameters).foldlM parseParameter none
      return ⟨media.essence,charset⟩) := by
  unfold parse at hparse ⊢
  rw [split_of_not_mem hplain] at hparse
  rw [split_append hplain]
  obtain ⟨_,hshape,hreturn⟩ := bind_eq_ok.mp hparse
  obtain rfl := Except.ok.inj hreturn
  show (refuseIf _ _ >>= fun _ => _) = _
  rw [List.headD_cons] at hshape
  rw [List.headD_cons,hshape]
  rfl

theorem parse_essence : ∀ essence ∈ supportedMediaTypes, ';' ∉ essence.toList ∧
    parse essence = .ok ⟨essence,none⟩ := by decide

theorem parse_charset : ∀ charset ∈ supportedCharsets, ';' ∉ (" charset=" ++ charset).toList ∧
    parseParameter none (" charset=" ++ charset) = .ok (some charset) := by decide

/-- The header form of a supported type is parsed as that type. -/
theorem parse_headerValue {media : MediaType} (h : media.isSupported = true) :
    parse media.headerValue = .ok media := by
  obtain ⟨essence,charset⟩ := media
  obtain ⟨hessence,hcharset⟩ := Bool.and_eq_true_iff.mp h
  obtain ⟨hplain,hparse⟩ := parse_essence essence (by simpa using hessence)
  cases charset with
  | none => exact hparse
  | some charset =>
    obtain ⟨hplain',hparameter⟩ := parse_charset charset (by simpa using hcharset)
    have hvalue : headerValue ⟨essence,some charset⟩ =
        essence ++ String.singleton ';' ++ (" charset=" ++ charset) := by
      have hlabel : "; charset=" = String.singleton ';' ++ " charset=" := by decide
      show essence ++ "; charset=" ++ charset = _
      rw [hlabel,String.append_assoc,String.append_assoc,String.append_assoc]
    rw [hvalue,parse_append hplain hparse,split_of_not_mem hplain',List.foldlM_cons,hparameter]
    rfl

end MediaType

/-- Content codings the inspector can undo under its own limits. -/
def isSupportedContentEncoding (value : String) : Bool :=
  ["","identity","gzip","deflate"].contains (toAsciiLowercase (trim value))

end HearthAI.Contracts
