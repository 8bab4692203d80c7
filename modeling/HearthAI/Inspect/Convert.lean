import HearthAI.Contracts.WebFetch

/-! # Local conversion and the quality of its output

Every converter is handed the same downloaded HTML. The HTML libraries are
parameters; the fixed chain is built from them.
-/
namespace HearthAI.Inspect
open Text Contracts

/-- One converter's output, before it has been inspected or judged. -/
structure Candidate where
  content : String
  method : ConversionMethod
  deriving DecidableEq, Repr

inductive Quality
  | usable
  | poor (reason : String)
  deriving DecidableEq, Repr

/-- Structure the source document has. -/
structure SourceSignals where
  hasHeadings : Bool
  hasTables : Bool
  hasCode : Bool
  deriving DecidableEq, Repr

/-- `str::contains` with a string pattern. -/
def contains (pattern text : String) : Bool :=
  text.toList.tails.any (fun rest => pattern.toList.isPrefixOf rest)

def SourceSignals.of (html : String) : SourceSignals :=
  let lowered := toAsciiLowercase html
  { hasHeadings := ["<h1","<h2","<h3","<h4"].any (fun tag => contains tag lowered)
    hasTables := contains "<table" lowered
    hasCode := contains "<pre" lowered || contains "<code" lowered }

/-- One way of turning the downloaded HTML into returnable text, or failing to. -/
structure Converter where
  method : ConversionMethod
  convert : String → Format → Option Candidate

inductive OutputFormat
  | plain
  | markdown
  deriving DecidableEq, Repr

inductive PreprocessingPreset
  | standard
  | minimal
  deriving DecidableEq, Repr

/-- The options the pipeline sets; the others keep the library's defaults. -/
structure ConversionOptions where
  outputFormat : OutputFormat
  preset : PreprocessingPreset
  removeNavigation : Bool
  removeForms : Bool
  extractMetadata : Bool
  deriving DecidableEq, Repr

/-- `html_to_markdown_rs` and `dom_smoothie`: converted content, and article content. -/
structure HtmlLibraries where
  convert : String → ConversionOptions → Option String
  readability : String → Option String

namespace HtmlLibraries
variable (libraries : HtmlLibraries)

def toMarkdown (html : String) (format : Format) (preset : PreprocessingPreset)
    (removeNavigation : Bool) : Option String :=
  libraries.convert html
    { outputFormat := match format with
        | .text => .plain
        | .markdown | .html => .markdown
      preset := preset
      removeNavigation := removeNavigation
      removeForms := removeNavigation
      extractMetadata := false }

def extractMainContent (html : String) : Option String :=
  match libraries.readability html with
  | none => none
  | some content => if (trim content).isEmpty then none else some content

/-- Native conversion with content cleanup. -/
def nativeCleanup : Converter where
  method := .native
  convert source format :=
    (libraries.toMarkdown source format .standard true).map (⟨·,.native⟩)

/-- Main-content extraction, then plain conversion of what it selected. -/
def mainContentExtraction : Converter where
  method := .extracted
  convert source format := (libraries.extractMainContent source).bind
    (fun article => (libraries.toMarkdown article format .minimal false).map (⟨·,.extracted⟩))

/-- Conversion without aggressive boilerplate removal. -/
def plainConversion : Converter where
  method := .basic
  convert source format :=
    (libraries.toMarkdown source format .minimal false).map (⟨·,.basic⟩)

/-- The fixed fallback order. -/
def chain : List Converter :=
  [libraries.nativeCleanup,libraries.mainContentExtraction,libraries.plainConversion]

end HtmlLibraries

def startsWith (lead line : String) : Bool := lead.toList.isPrefixOf line.toList

def isLinkItem (line : String) : Bool :=
  let bullet := startsWith "- " line || startsWith "* " line || startsWith "+ " line
  (bullet || startsWith "[" line) && contains "](" line

/-- `str::lines`: a final line break opens no further line, and a line that ends with a line
break loses a carriage return before it. -/
def lines (text : String) : List String :=
  let pieces := text.toList.splitOn '\n'
  let ended := pieces.dropLast.map (fun piece =>
    if piece.getLast? = some '\r' then piece.dropLast else piece)
  (ended ++ pieces.getLast?.toList.filter (· ≠ [])).map String.ofList

/-- Decide whether a candidate is worth returning. `isAlphanumeric` is the
classification of the Unicode tables. -/
def quality (isAlphanumeric : Char → Bool) (candidate : Candidate) (format : Format)
    (signals : SourceSignals) : Quality :=
  let content := trim candidate.content
  if content.isEmpty then .poor "empty output"
  else if !content.toList.any isAlphanumeric then .poor "no readable text"
  else
    let rows := ((lines content).map trim).filter (fun line => !line.isEmpty)
    let linkLines := (rows.filter isLinkItem).length
    let prose := ((rows.filter (fun line => !isLinkItem line)).map len).sum
    if 5 ≤ rows.length ∧ rows.length * 8 ≤ linkLines * 10 ∧ prose < 200 then
      .poor "navigation only"
    else if format = .markdown ∧ signals.hasHeadings ∧ !rows.any (startsWith "#") then
      .poor "headings lost"
    else if format = .markdown ∧ signals.hasTables ∧ !rows.any (startsWith "|") then
      .poor "tables lost"
    else .usable

end HearthAI.Inspect
