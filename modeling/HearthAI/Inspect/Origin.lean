import HearthAI.Inspect.Chain
import HearthAI.Inspect.Deliver
import HearthAI.Inspect.Release

/-! # Which conversion released content comes from

The fixed chain makes three attempts on one document. Released data names the attempt its
content was made by, and a usable text is never passed over for one that is not.
-/
namespace HearthAI.Inspect
open Text Contracts

namespace HtmlLibraries
variable (libraries : HtmlLibraries)

/-- The candidate is what the libraries make of the document in the way it names. -/
def Made (source : String) (format : Format) (candidate : Candidate) : Prop :=
  match candidate.method with
  | .native => libraries.toMarkdown source format .standard true = some candidate.content
  | .extracted => ∃ article, libraries.extractMainContent source = some article ∧
      libraries.toMarkdown article format .minimal false = some candidate.content
  | .basic => libraries.toMarkdown source format .minimal false = some candidate.content
  | .source | .passthrough => False

/-- The three converters of the chain make these candidates and no others. -/
theorem chain_made {source : String} {format : Format} {candidate : Candidate} :
    (∃ converter ∈ libraries.chain, converter.convert source format = some candidate) ↔
      libraries.Made source format candidate := by
  obtain ⟨content,method⟩ := candidate
  unfold chain Made
  cases method <;> simp [nativeCleanup,mainContentExtraction,plainConversion,Option.bind_eq_some_iff]

end HtmlLibraries

section
variable {engine : Engine} {text : String} {format : Format} {signals : SourceSignals}
  {chain : List Converter} {fallback : Option Candidate} {checks : List Check} {made : Candidate}

/-- Induction on the chain: what it settles on was made by one of its converters, and nothing that
they made is usable unless this is. -/
theorem chainScript_made
    (h : chainScript engine text format signals chain fallback = .reach checks made) :
    (fallback = some made ∨
        ∃ converter ∈ chain, converter.convert text format = some made) ∧
      (quality engine.isAlphanumeric made format signals = .usable ∨
        ∀ converter ∈ chain, ∀ other, converter.convert text format = some other →
          quality engine.isAlphanumeric other format signals ≠ .usable) := by
  induction chain generalizing fallback checks with
  | nil =>
    cases fallback with
    | none => cases h
    | some candidate =>
      obtain ⟨_,rfl⟩ := Script.pure_eq_reach.mp h
      exact ⟨.inl rfl,.inr fun _ hmem => absurd hmem List.not_mem_nil⟩
  | cons converter chain ih =>
    obtain ⟨_,_,_,_,hrest,_⟩ := Script.bind_eq_reach.mp h
    cases hconvert : converter.convert text format with
    | none =>
      rw [hconvert] at hrest
      obtain ⟨hmade,hbest⟩ := ih hrest
      refine ⟨hmade.imp id fun ⟨other,hmem,hother⟩ => ⟨other,List.mem_cons_of_mem _ hmem,hother⟩,
        hbest.imp id fun hpoor other hmem candidate hother => ?_⟩
      rcases List.mem_cons.mp hmem with rfl | hmem
      · rw [hconvert] at hother
        cases hother
      · exact hpoor other hmem candidate hother
    | some candidate =>
      rw [hconvert] at hrest
      obtain ⟨_,_,_,_,hrest,_⟩ := Script.bind_eq_reach.mp hrest
      by_cases husable : quality engine.isAlphanumeric candidate format signals = .usable
      · rw [if_pos husable] at hrest
        obtain ⟨_,rfl⟩ := Script.pure_eq_reach.mp hrest
        exact ⟨.inr ⟨converter,List.mem_cons_self,hconvert⟩,.inl husable⟩
      rw [if_neg husable] at hrest
      -- a poor candidate may still be the one that is kept
      obtain ⟨kept,hkept,hrest⟩ : ∃ kept, (kept = fallback ∨ kept = some candidate) ∧
          ∃ checks, chainScript engine text format signals chain kept = .reach checks made := by
        split_ifs at hrest
        · exact ⟨some candidate,.inr rfl,_,hrest⟩
        · exact ⟨fallback,.inl rfl,_,hrest⟩
      obtain ⟨_,hrest⟩ := hrest
      obtain ⟨hmade,hbest⟩ := ih hrest
      refine ⟨?_,hbest.imp id fun hpoor other hmem another hother => ?_⟩
      · rcases hmade with hmade | ⟨other,hmem,hother⟩
        · rcases hkept with rfl | rfl
          · exact .inl hmade
          · obtain rfl := Option.some.inj hmade
            exact .inr ⟨converter,List.mem_cons_self,hconvert⟩
        · exact .inr ⟨other,List.mem_cons_of_mem _ hmem,hother⟩
      · rcases List.mem_cons.mp hmem with rfl | hmem
        · obtain rfl := Option.some.inj (hconvert.symm.trans hother)
          exact husable
        · exact hpoor other hmem another hother

end

/-- How the content of released data has come from the text of the response. -/
inductive Origin (engine : Engine) (libraries : HtmlLibraries) (media : MediaType) (text : String)
    (d : WebFetchData) : Prop
  /-- HTML that was asked for is returned as it is. -/
  | source (method : d.conversionMethod = .source) (format : d.format = .html)
      (content : d.content = text)
  /-- So is a document that is no HTML. -/
  | passthrough (method : d.conversionMethod = .passthrough) (format : d.format ≠ .html)
      (plain : media.isHtml = false) (content : d.content = text)
  | converted (format : d.format ≠ .html) (html : media.isHtml = true)
      (made : libraries.Made text d.format ⟨d.content,d.conversionMethod⟩)
      (best : quality engine.isAlphanumeric ⟨d.content,d.conversionMethod⟩ d.format (.of text) =
          .usable ∨
        ∀ other, libraries.Made text d.format other →
          quality engine.isAlphanumeric other d.format (.of text) ≠ .usable)

section
variable {engine : Engine} {libraries : HtmlLibraries} {artifact : FetchArtifact}
  {media : MediaType} {text retrievedAt : String} {checks : List Check} {inspected : Inspected}

theorem inspected_origin
    (h : Inspected.script engine libraries.chain ⟨artifact,media,text⟩ = .reach checks inspected) :
    Origin engine libraries media text (inspected.data retrievedAt) := by
  unfold Inspected.script Normalized.inspectedScript at h
  split_ifs at h with hhtml hmedia
  · obtain ⟨_,_,_,_,hreturn,_⟩ := Script.bind_eq_reach.mp h
    obtain ⟨_,rfl⟩ := Script.pure_eq_reach.mp hreturn
    exact .source rfl hhtml rfl
  · obtain ⟨_,_,_,_,hreturn,_⟩ := Script.bind_eq_reach.mp h
    obtain ⟨_,rfl⟩ := Script.pure_eq_reach.mp hreturn
    exact .passthrough rfl hhtml (by simpa using hmedia) rfl
  · obtain ⟨_,candidate,_,hcandidate,hreturn,_⟩ := Script.bind_eq_reach.mp h
    obtain ⟨_,rfl⟩ := Script.pure_eq_reach.mp hreturn
    obtain ⟨hmade,hbest⟩ := chainScript_made hcandidate
    have hmade : ∃ converter ∈ libraries.chain,
        converter.convert text artifact.format = some candidate :=
      hmade.elim (fun hnone => nomatch hnone) id
    refine .converted hhtml (by simpa using hmedia) (libraries.chain_made.mp hmade) ?_
    refine hbest.imp id fun hpoor other hother => ?_
    obtain ⟨converter,hmem,hconvert⟩ := libraries.chain_made.mpr hother
    exact hpoor converter hmem other hconvert

end

/-- Released data, with everything that was scanned and the conversion it names. -/
def ReleasedBy (engine : Engine) (libraries : HtmlLibraries) (scanner : Scanner)
    (read : Except ContractError Handed) (d : WebFetchData) (events : List Event) : Prop :=
  ∃ artifact media body text, read = .ok (.fetched artifact body) ∧
    Passed engine scanner artifact media body text d events ∧ Origin engine libraries media text d

theorem decode_eq_ok {engine : Engine} {received : Received} {text : String} :
    received.decode engine = .ok text ↔
      DecodesTo engine received.artifact received.media received.body text := bind_eq_ok

/-- The text of a response is settled by its body and its headers. -/
theorem DecodesTo.unique {engine : Engine} {artifact : FetchArtifact} {media : MediaType}
    {body : Bytes} {text text' : String} (h : DecodesTo engine artifact media body text)
    (h' : DecodesTo engine artifact media body text') : text = text' := by
  have hdecode : Received.decode engine ⟨artifact,media,body⟩ = .ok text := decode_eq_ok.mpr h
  exact Except.ok.inj (hdecode.symm.trans (decode_eq_ok.mpr h'))

section
variable {engine : Engine} {libraries : HtmlLibraries} {scanner : Scanner}
  {read : Except ContractError Handed} {d : WebFetchData} {s t : Inspection}

theorem releasedBy_of_run (h : ReleasedFrom engine scanner read d t.events)
    (hrun : pipeline engine libraries.chain read s = (.ok d,t)) :
    ReleasedBy engine libraries scanner read d t.events := by
  obtain ⟨artifact,media,body,text,hread,hpassed⟩ := h
  refine ⟨artifact,media,body,text,hread,hpassed,?_⟩
  obtain ⟨_,hscript,_⟩ := (pipeline_clears libraries.chain read).only s d t hrun
  obtain ⟨received,text',inspected,_,_,hread',hmedia,hdecode,hinspected,_,_,rfl⟩ :=
    clearance_inspected hscript
  rw [hread] at hread'
  obtain ⟨rfl,rfl⟩ := Handed.fetched.inj (Except.ok.inj hread')
  obtain rfl := Except.ok.inj (hpassed.supported.symm.trans hmedia)
  obtain rfl := hpassed.decoded.unique (decode_eq_ok.mp hdecode)
  exact inspected_origin hinspected

end

/-- Content is released under the name of the conversion that has made it. -/
theorem inspect_origin (engine : Engine) (libraries : HtmlLibraries) (inspector : Inspector)
    (clock : ℕ → ℕ) (runId : String) (read : Except ContractError Handed)
    (h : (inspector.inspect engine libraries.chain clock runId read).1.envelope.status = .ok) :
    ∃ d, (inspector.inspect engine libraries.chain clock runId read).1.envelope.data = some d ∧
      ReleasedBy engine libraries inspector.bundle.rules read d
        (inspector.inspect engine libraries.chain clock runId read).2.events := by
  have hstart := covered_new inspector.bundle clock inspector.deadline
  have hspec := pipeline_spec engine inspector.bundle.rules libraries.chain read
  dsimp only [Inspector.inspect] at h ⊢
  rcases hrun : pipeline engine libraries.chain read
    (.new inspector.bundle.detector clock inspector.deadline) with ⟨result,session⟩
  rw [hrun] at h
  obtain ⟨_,hok,_⟩ := inspector.report_envelope engine result (inspector.audit runId session).1
  obtain ⟨d,rfl,hdata⟩ := hok h
  have hreleased : ReleasedFrom engine inspector.bundle.rules read d session.events :=
    hspec.ok hstart hrun
  have hby : ReleasedBy engine libraries inspector.bundle.rules read d session.events :=
    releasedBy_of_run hreleased hrun
  exact ⟨d,hdata,hby⟩

/-- A cleanup that leaves a row of stars, no article, and a plain conversion that has the text. -/
def starsLibraries : HtmlLibraries where
  convert _ options := some (if options.removeNavigation then "***" else "page")
  readability _ := none

def markupEngine : Engine where
  codecs :=
    { bareEngine.codecs with
      forLabel := fun _ => some "UTF-8"
      decodeWithoutReplacement := fun _ _ => some "page" }
  urls := ⟨fun _ => .ok ⟨"http","",none,some "example.com",none,"/",none,none⟩,fun _ _ => .error "",
    fun _ => "http://example.com/"⟩
  times := ⟨fun _ => some ⟨0,0⟩,fun _ => some "2026-10-01T12:00:00Z"⟩
  isAlphanumeric := Char.isAlphanum

def markupData : WebFetchData where
  sourceId := "source-1"
  finalUrl := "http://example.com/"
  httpStatus := 200
  contentType := "text/html"
  retrievedAt := "2026-10-01T12:00:00Z"
  format := .markdown
  conversionMethod := .basic
  content := "page"

def markupChecks : List Check :=
  [.deadline,.scan [],.scan (asBytes "http://example.com/"),.scan (asBytes "text/html"),
    .deadline,.scan (asBytes "page"),.scan (asBytes (decodeEntities "page")),
    .scan (asBytes (deobfuscate (decodeEntities "page"))),
    .deadline,.scan (asBytes "***"),.deadline,.deadline,.scan (asBytes "page"),
    .deadline,.scan (asBytes (combined markupData))]

def markupInspector : Inspector := ⟨⟨"web-content-v1","",1,fun _ _ => .ok []⟩,1⟩

theorem markup_released : (markupInspector.inspect markupEngine starsLibraries.chain (fun _ => 0)
    "run-1" (.ok (.fetched bareDocument.artifact []))).1.envelope.status = .ok := by
  have hscript : clearance markupEngine starsLibraries.chain
      (.ok (.fetched bareDocument.artifact [])) = .reach markupChecks markupData := rfl
  have hentities : decodeEntities "page" = "page" := by simp [decodeEntities,decodeReferences]
  have hpasses : allowance.All (Inspection.meter (.new markupInspector.bundle.detector (fun _ => 0)
      markupInspector.deadline)) markupChecks := by
    unfold markupChecks
    rw [hentities]
    repeat' constructor
  obtain ⟨t,hrun⟩ := (pipeline_clears starsLibraries.chain _).returns _ _ _ hscript hpasses
  have hreport : ∀ audit,
      (markupInspector.report markupEngine (.ok markupData) audit).envelope.status = .ok :=
    fun audit => rfl
  unfold Inspector.inspect
  rw [hrun]
  exact hreport _

/-- The row of stars is passed over, and what the plain conversion has made is released. -/
theorem inspect_origin_markup : ∃ d, (markupInspector.inspect markupEngine starsLibraries.chain
      (fun _ => 0) "run-1" (.ok (.fetched bareDocument.artifact []))).1.envelope.data = some d ∧
    ReleasedBy markupEngine starsLibraries markupInspector.bundle.rules
      (.ok (.fetched bareDocument.artifact [])) d
      (markupInspector.inspect markupEngine starsLibraries.chain (fun _ => 0) "run-1"
        (.ok (.fetched bareDocument.artifact []))).2.events :=
  inspect_origin markupEngine starsLibraries markupInspector (fun _ => 0) "run-1" _ markup_released

end HearthAI.Inspect
