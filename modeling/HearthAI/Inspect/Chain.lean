import HearthAI.Core.Script
import HearthAI.Inspect.Session

/-! # What a chain of converters settles on

A converter is behind once it was run in time and its candidate, if it made one, was scanned
without a match and found poor. The loop comes to the rest of the chain with the first text
that the converters behind it have made.
-/
namespace HearthAI.Inspect
open Text Contracts Effect

/-- What the answer to a scan makes of the response. -/
def Stop.ofAnswer : Except InspectionFailure Verdict → Option Stop
  | .error failure => some (.ofFailure failure)
  | .ok .noMatch => none
  | .ok (.match rules) => some (.rejected rules)

def Candidate.bytes (candidate : Candidate) : Bytes := asBytes candidate.content
def Candidate.hasText (candidate : Candidate) : Bool := !(trim candidate.content).isEmpty

/-- Scans of candidates, each by the detector that the ones before it have left. -/
def candidateScans : Gauge Candidate Detector where
  Passes detector candidate := (Detector.scan candidate.bytes detector).1 = .ok .noMatch
  spend detector candidate := (Detector.scan candidate.bytes detector).2

/-- The bytes of some candidates, all scans together. -/
def scanCost (candidates : List Candidate) : ℕ :=
  (candidates.map fun candidate => candidate.bytes.length).sum

/-- Induction on the candidates: after clean scans the scanner is asked its next question, with the
rest of the budget. -/
theorem candidateScans_after {candidates : List Candidate} {d : Detector}
    (h : candidateScans.All d candidates) :
    (candidateScans.after d candidates).scanner = d.scanner ∧
      (candidateScans.after d candidates).scans = d.scans + candidates.length ∧
      (candidateScans.after d candidates).remainingBytes + scanCost candidates =
        d.remainingBytes := by
  induction candidates generalizing d with
  | nil => exact ⟨rfl,rfl,rfl⟩
  | cons candidate candidates ih =>
    obtain ⟨hpasses,hrest⟩ := h
    obtain ⟨hscanner,hscans,hremaining⟩ := ih hrest
    obtain ⟨hroom,_,hspent⟩ := Detector.scan_eq_noMatch.mp (Prod.ext hpasses rfl)
    have hspent : candidateScans.spend d candidate = d.spent candidate.bytes := hspent
    rw [hspent] at hscanner hscans hremaining
    unfold Gauge.after at hscanner hscans hremaining ⊢
    rw [List.foldl_cons,hspent]
    refine ⟨hscanner,?_,?_⟩
    · rw [hscans,List.length_cons]
      simp only [Detector.spent]
      omega
    · simp only [Detector.spent,scanCost,List.map_cons,List.sum_cons] at hremaining ⊢
      omega

/-- One conversion: the chain is run on this. -/
structure Conversion where
  engine : Engine
  text : String
  format : Format
  signals : SourceSignals

namespace Conversion
variable (c : Conversion)

def candidate (converter : Converter) : Option Candidate := converter.convert c.text c.format
def candidates (converters : List Converter) : List Candidate := converters.filterMap c.candidate

abbrev Usable (candidate : Candidate) : Prop :=
  quality c.engine.isAlphanumeric candidate c.format c.signals = .usable

/-- What a converter adds to the record, with a clean scan of what it made. -/
def trail (converter : Converter) : List Event :=
  .convert converter.method (c.candidate converter) ::
    ((c.candidate converter).map fun made => Event.scan made.bytes (.ok .noMatch)).toList

/-- The session once some converters are behind it. -/
def past (converters : List Converter) (s : Inspection) : Inspection :=
  { s with
    detector := candidateScans.after s.detector (c.candidates converters)
    readings := s.readings + converters.length
    events := s.events ++ converters.flatMap c.trail }

structure Behind (converters : List Converter) (s : Inspection) : Prop where
  inTime : ∀ i < converters.length, s.clock (s.readings + i) < s.deadline
  clean : candidateScans.All s.detector (c.candidates converters)
  poor : ∀ candidate ∈ c.candidates converters, ¬c.Usable candidate

abbrev run (chain : List Converter) (fallback : Option Candidate) : Session Candidate :=
  convertChain c.engine c.text c.format c.signals chain fallback

end Conversion

section
variable {c : Conversion} {converter : Converter} {chain before : List Converter}
  {fallback : Option Candidate} {s : Inspection} {made : Candidate}

/-- The session after the clock was read and the converter run. -/
def Inspection.offered (c : Conversion) (converter : Converter) (s : Inspection) : Inspection :=
  { s with
    readings := s.readings + 1
    events := s.events ++ [.convert converter.method (c.candidate converter)] }

def Inspection.afterScan (data : Bytes) (s : Inspection) : Inspection :=
  { s with
    detector := (Detector.scan data s.detector).2
    events := s.events ++ [.scan data (Detector.scan data s.detector).1] }

theorem scan_eq_ok {data : Bytes} (h : (Detector.scan data s.detector).1 = .ok .noMatch) :
    scan data s = (.ok (),s.afterScan data) := by
  unfold scan Inspection.afterScan
  rcases hscan : Detector.scan data s.detector with ⟨answer,detector⟩
  rw [hscan] at h
  obtain rfl : answer = .ok .noMatch := h
  rfl

theorem scan_eq_error {data : Bytes} {stop : Stop}
    (h : Stop.ofAnswer (Detector.scan data s.detector).1 = some stop) :
    scan data s = (.error stop,s.afterScan data) := by
  unfold scan Inspection.afterScan
  rcases hscan : Detector.scan data s.detector with ⟨answer,detector⟩
  rw [hscan] at h
  dsimp only at h ⊢
  match answer with
  | .error failure =>
    obtain rfl := Option.some.inj h
    rfl
  | .ok .noMatch => cases h
  | .ok (.match rules) =>
    obtain rfl := Option.some.inj h
    rfl

/-- One turn of the loop, up to the scan. -/
theorem run_cons (htime : s.clock s.readings < s.deadline) :
    c.run (converter :: chain) fallback s =
      (match c.candidate converter with
        | none => c.run chain fallback
        | some made => do
          scan made.bytes
          if quality c.engine.isAlphanumeric made c.format c.signals = .usable then return made
          else if fallback.isNone && made.hasText then c.run chain (some made)
          else c.run chain fallback : Session Candidate) (s.offered c converter) := by
  have hcheck : checkDeadline .failed s = (.ok (),{ s with readings := s.readings + 1 }) := by
    unfold checkDeadline Inspection.elapsed
    exact if_neg (Nat.not_le.mpr htime)
  have hconvert : runConverter converter c.text c.format { s with readings := s.readings + 1 } =
      (.ok (c.candidate converter),s.offered c converter) := rfl
  unfold Conversion.run
  rw [convertChain,bind_ok hcheck,bind_ok hconvert]
  rfl

theorem run_cons_none (htime : s.clock s.readings < s.deadline)
    (hmade : c.candidate converter = none) :
    c.run (converter :: chain) fallback s = c.run chain fallback (s.offered c converter) := by
  rw [run_cons htime,hmade]

/-- A match or a failed scan ends the loop before the candidate is judged. -/
theorem run_cons_stopped {stop : Stop} (htime : s.clock s.readings < s.deadline)
    (hmade : c.candidate converter = some made)
    (hstop : Stop.ofAnswer (Detector.scan made.bytes s.detector).1 = some stop) :
    c.run (converter :: chain) fallback s =
      (.error stop,(s.offered c converter).afterScan made.bytes) := by
  rw [run_cons htime,hmade]
  exact bind_error (scan_eq_error hstop)

theorem run_cons_usable (htime : s.clock s.readings < s.deadline)
    (hmade : c.candidate converter = some made)
    (hclean : (Detector.scan made.bytes s.detector).1 = .ok .noMatch) (husable : c.Usable made) :
    c.run (converter :: chain) fallback s =
      (.ok made,(s.offered c converter).afterScan made.bytes) := by
  have hscan : scan made.bytes (s.offered c converter) =
      (.ok (),(s.offered c converter).afterScan made.bytes) := scan_eq_ok hclean
  rw [run_cons htime,hmade]
  refine (bind_ok hscan).trans ?_
  rw [if_pos husable]
  rfl

theorem run_cons_poor (htime : s.clock s.readings < s.deadline)
    (hmade : c.candidate converter = some made)
    (hclean : (Detector.scan made.bytes s.detector).1 = .ok .noMatch) (hpoor : ¬c.Usable made) :
    c.run (converter :: chain) fallback s =
      c.run chain (fallback.or ([made].find? Candidate.hasText))
        ((s.offered c converter).afterScan made.bytes) := by
  have hscan : scan made.bytes (s.offered c converter) =
      (.ok (),(s.offered c converter).afterScan made.bytes) := scan_eq_ok hclean
  rw [run_cons htime,hmade]
  refine (bind_ok hscan).trans ?_
  rw [if_neg hpoor]
  cases fallback with
  | some kept => rfl
  | none => cases htext : made.hasText <;> simp [htext]

theorem Conversion.past_append (more : List Converter) :
    c.past more (c.past before s) = c.past (before ++ more) s := by
  unfold past candidates
  rw [List.filterMap_append,Gauge.after_append,List.flatMap_append,List.length_append]
  simp only [List.append_assoc,Nat.add_assoc]

theorem Conversion.candidates_append (more : List Converter) :
    c.candidates (before ++ more) = c.candidates before ++ c.candidates more :=
  List.filterMap_append

theorem Conversion.behind_append {more : List Converter} :
    c.Behind (before ++ more) s ↔ c.Behind before s ∧ c.Behind more (c.past before s) := by
  constructor
  · rintro ⟨htime,hclean,hpoor⟩
    rw [candidates_append] at hclean hpoor
    rw [List.length_append] at htime
    obtain ⟨hbefore,hmore⟩ := Gauge.all_append.mp hclean
    refine ⟨⟨fun i hi => htime i (by omega),hbefore,?_⟩,⟨fun i hi => ?_,hmore,?_⟩⟩
    · exact fun made hmade => hpoor made (List.mem_append_left _ hmade)
    · have hi' := htime (before.length + i) (by omega)
      rw [← Nat.add_assoc] at hi'
      exact hi'
    · exact fun made hmade => hpoor made (List.mem_append_right _ hmade)
  · rintro ⟨hbefore,hmore⟩
    refine ⟨fun i hi => ?_,?_,?_⟩
    · rw [List.length_append] at hi
      rcases Nat.lt_or_ge i before.length with hlt | hge
      · exact hbefore.inTime i hlt
      · obtain ⟨j,rfl⟩ := Nat.exists_eq_add_of_le hge
        have hj := hmore.inTime j (by omega)
        rw [← Nat.add_assoc]
        exact hj
    · rw [candidates_append]
      exact Gauge.all_append.mpr ⟨hbefore.clean,hmore.clean⟩
    · intro made hmade
      rw [candidates_append] at hmade
      exact (List.mem_append.mp hmade).elim (hbefore.poor made) (hmore.poor made)

theorem run_cons_behind (h : c.Behind [converter] s) :
    c.run (converter :: chain) fallback s =
      c.run chain (fallback.or ((c.candidates [converter]).find? Candidate.hasText))
        (c.past [converter] s) := by
  have htime : s.clock s.readings < s.deadline := h.inTime 0 Nat.one_pos
  cases hmade : c.candidate converter with
  | none =>
    have hnone : c.candidates [converter] = [] := List.filterMap_cons_none hmade
    have hpast : c.past [converter] s = s.offered c converter := by
      simp [Conversion.past,Inspection.offered,Conversion.trail,hnone,hmade,Gauge.after]
    rw [run_cons_none htime hmade,hnone,hpast,List.find?_nil,Option.or_none]
  | some made =>
    have hsome : c.candidates [converter] = [made] := List.filterMap_cons_some hmade
    have hclean : (Detector.scan made.bytes s.detector).1 = .ok .noMatch := by
      have hclean := h.clean
      rw [hsome] at hclean
      exact hclean.1
    have hpoor : ¬c.Usable made := h.poor made (by rw [hsome]; exact List.mem_singleton.mpr rfl)
    have hpast : c.past [converter] s = (s.offered c converter).afterScan made.bytes := by
      simp [Conversion.past,Inspection.offered,Inspection.afterScan,Conversion.trail,hsome,hmade,
        Gauge.after,candidateScans,hclean]
    rw [run_cons_poor htime hmade hclean hpoor,hsome,hpast]

/-- The loop gets past the converters behind it with the first text that they have made. -/
theorem run_append (h : c.Behind before s) :
    c.run (before ++ chain) fallback s =
      c.run chain (fallback.or ((c.candidates before).find? Candidate.hasText))
        (c.past before s) := by
  induction before generalizing fallback s with
  | nil => simp [Conversion.past,Conversion.candidates,Gauge.after]
  | cons converter before ih =>
    obtain ⟨hfirst,hrest⟩ := Conversion.behind_append.mp (List.singleton_append ▸ h)
    have hcandidates : c.candidates (converter :: before) =
        c.candidates [converter] ++ c.candidates before :=
      List.filterMap_append (l := [converter])
    rw [List.cons_append,run_cons_behind hfirst,ih hrest,Conversion.past_append,
      List.singleton_append,hcandidates,List.find?_append,Option.or_assoc]

/-- A converter whose candidate ends the loop, with those before it behind. -/
structure Conversion.EndsAt (c : Conversion) (before : List Converter) (converter : Converter)
    (made : Candidate) (s : Inspection) : Prop where
  behind : c.Behind before s
  inTime : s.clock (s.readings + before.length) < s.deadline
  made : c.candidate converter = some made

/-- The scan of the candidate, by the detector that the converters before it have left. -/
def Conversion.answer (c : Conversion) (before : List Converter) (made : Candidate)
    (s : Inspection) : Except InspectionFailure Verdict :=
  (Detector.scan made.bytes (c.past before s).detector).1

/-- The scanner is asked about one candidate after the other, as far as the budget goes. -/
theorem Conversion.answer_noMatch (h : c.Behind before s) :
    c.answer before made s = .ok .noMatch ↔
      scanCost (c.candidates before ++ [made]) ≤ s.detector.remainingBytes ∧
        s.detector.scanner (s.detector.scans + (c.candidates before).length) made.bytes = .ok [] := by
  obtain ⟨hscanner,hscans,hremaining⟩ := candidateScans_after h.clean
  unfold answer
  rw [Detector.scan_clean]
  have hcost : scanCost (c.candidates before ++ [made]) =
      scanCost (c.candidates before) + made.bytes.length := by simp [scanCost]
  have hroom : made.bytes.length ≤ (c.past before s).detector.remainingBytes ↔
      scanCost (c.candidates before ++ [made]) ≤ s.detector.remainingBytes := by
    rw [hcost,← hremaining]
    simp only [past]
    omega
  have hasked : (c.past before s).detector.scanner (c.past before s).detector.scans made.bytes =
      s.detector.scanner (s.detector.scans + (c.candidates before).length) made.bytes := by
    simp only [past]
    rw [hscanner,hscans]
  rw [hroom,hasked]

theorem run_stopped (after : List Converter) {stop : Stop} (h : c.EndsAt before converter made s)
    (hstop : Stop.ofAnswer (c.answer before made s) = some stop) :
    ∃ t, c.run (before ++ converter :: after) none s = (.error stop,t) ∧
      t.events = s.events ++ before.flatMap c.trail ++
        [.convert converter.method (some made),.scan made.bytes (c.answer before made s)] := by
  refine ⟨_,(run_append h.behind).trans (run_cons_stopped h.inTime h.made hstop),?_⟩
  simp [Inspection.afterScan,Inspection.offered,Conversion.past,Conversion.answer,h.made]

theorem run_usable (after : List Converter) (h : c.EndsAt before converter made s)
    (hclean : c.answer before made s = .ok .noMatch) (husable : c.Usable made) :
    ∃ t, c.run (before ++ converter :: after) none s = (.ok made,t) ∧
      t.events = s.events ++ (before ++ [converter]).flatMap c.trail := by
  refine ⟨_,(run_append h.behind).trans (run_cons_usable h.inTime h.made hclean husable),?_⟩
  have hscan : (Detector.scan made.bytes
      (candidateScans.after s.detector (c.candidates before))).1 = .ok .noMatch := hclean
  simp [Inspection.afterScan,Inspection.offered,Conversion.past,Conversion.trail,h.made,hscan]

theorem run_behind (h : c.Behind chain s) :
    c.run chain none s = (((c.candidates chain).find? Candidate.hasText).elim
      (.error (.failed .unsupportedContent)) .ok,c.past chain s) := by
  have hrun : c.run (chain ++ []) none s = _ := run_append h
  rw [List.append_nil,Option.none_or] at hrun
  rw [hrun]
  cases (c.candidates chain).find? Candidate.hasText <;> rfl

/-- A chain is used up, or one of its candidates ends it. -/
theorem Conversion.behind_or_endsAt
    (htime : ∀ i < chain.length, s.clock (s.readings + i) < s.deadline) :
    c.Behind chain s ∨ ∃ before converter after made, chain = before ++ converter :: after ∧
      c.EndsAt before converter made s ∧ ((∃ stop, Stop.ofAnswer (c.answer before made s) =
        some stop) ∨ c.answer before made s = .ok .noMatch ∧ c.Usable made) := by
  induction chain using List.reverseRecOn with
  | nil => exact .inl ⟨htime,trivial,fun made hmade => absurd hmade List.not_mem_nil⟩
  | append_singleton before converter ih =>
    rw [List.length_append,List.length_singleton] at htime
    rcases ih (fun i hi => htime i (by omega)) with hbehind | h
    · have hlast := htime before.length (by omega)
      cases hmade : c.candidate converter with
      | none =>
        have hnone : c.candidates [converter] = [] := List.filterMap_cons_none hmade
        refine .inl (behind_append.mpr ⟨hbehind,fun i hi => ?_,?_,?_⟩)
        · obtain rfl : i = 0 := Nat.lt_one_iff.mp hi
          exact hlast
        · rw [hnone]
          trivial
        · rw [hnone]
          exact fun made hmade => absurd hmade List.not_mem_nil
      | some made =>
        have hends : c.EndsAt before converter made s := ⟨hbehind,hlast,hmade⟩
        cases hstop : Stop.ofAnswer (c.answer before made s) with
        | some stop => exact .inr ⟨before,converter,[],made,rfl,hends,.inl ⟨stop,hstop⟩⟩
        | none =>
          have hclean : c.answer before made s = .ok .noMatch := by
            match hanswer : c.answer before made s with
            | .error failure => rw [hanswer] at hstop; cases hstop
            | .ok .noMatch => rfl
            | .ok (.match rules) => rw [hanswer] at hstop; cases hstop
          by_cases husable : c.Usable made
          · exact .inr ⟨before,converter,[],made,rfl,hends,.inr ⟨hclean,husable⟩⟩
          have hsome : c.candidates [converter] = [made] := List.filterMap_cons_some hmade
          refine .inl (behind_append.mpr ⟨hbehind,fun i hi => ?_,?_,?_⟩)
          · obtain rfl : i = 0 := Nat.lt_one_iff.mp hi
            exact hlast
          · rw [hsome]
            exact ⟨hclean,trivial⟩
          · rw [hsome]
            intro other hother
            rw [List.mem_singleton.mp hother]
            exact husable
    · obtain ⟨first,ending,after,made,rfl,hends⟩ := h
      exact .inr ⟨first,ending,after ++ [converter],made,by simp,hends⟩

end

/-- What the chain is run on. -/
def Normalized.conversion (engine : Engine) (normalized : Normalized) : Conversion :=
  ⟨engine,normalized.text,normalized.artifact.format,.of normalized.text⟩

section
variable {engine : Engine} {normalized : Normalized} {chain : List Converter} {s t : Inspection}

def Normalized.inspectedAs (normalized : Normalized) (candidate : Candidate) : Inspected :=
  ⟨normalized.artifact,normalized.media,candidate⟩

theorem Normalized.convert_eq (hformat : normalized.artifact.format ≠ .html)
    (hhtml : normalized.media.isHtml = true) {result : Except Stop Candidate}
    (h : (normalized.conversion engine).run chain none s = (result,t)) :
    normalized.convert engine chain s = (result.map normalized.inspectedAs,t) := by
  have hmedia : ¬(!normalized.media.isHtml) = true := by rw [hhtml]; exact Bool.false_ne_true
  unfold Normalized.convert
  rw [if_neg hformat,if_neg hmedia]
  cases result with
  | ok candidate => exact bind_ok h
  | error stop => exact bind_error h

/-- A conversion in time ends in one of three ways, and the record shows what was run. A scan is
clean exactly when the scanner says so of the next candidate and the budget has room for it. -/
theorem convert_settles (engine : Engine) (chain : List Converter) (normalized : Normalized)
    (s : Inspection) (hformat : normalized.artifact.format ≠ .html)
    (hhtml : normalized.media.isHtml = true) :
    (∀ before converter after made, chain = before ++ converter :: after →
      (normalized.conversion engine).EndsAt before converter made s →
        (∀ stop,
          Stop.ofAnswer ((normalized.conversion engine).answer before made s) = some stop →
          ∃ t, normalized.convert engine chain s = (.error stop,t) ∧
            t.events = s.events ++ before.flatMap (normalized.conversion engine).trail ++
              [.convert converter.method (some made),
                .scan made.bytes ((normalized.conversion engine).answer before made s)]) ∧
        ((normalized.conversion engine).answer before made s = .ok .noMatch →
          (normalized.conversion engine).Usable made →
            ∃ t, normalized.convert engine chain s = (.ok (normalized.inspectedAs made),t) ∧
              t.events = s.events ++
                (before ++ [converter]).flatMap (normalized.conversion engine).trail)) ∧
    ((normalized.conversion engine).Behind chain s →
      ∃ t, normalized.convert engine chain s =
          (((((normalized.conversion engine).candidates chain).find? Candidate.hasText).elim
            (.error (.failed .unsupportedContent)) fun made =>
              .ok (normalized.inspectedAs made)),t) ∧
        t.events = s.events ++ chain.flatMap (normalized.conversion engine).trail) ∧
    ((∀ i < chain.length, s.clock (s.readings + i) < s.deadline) →
      (normalized.conversion engine).Behind chain s ∨
        ∃ before converter after made, chain = before ++ converter :: after ∧
          (normalized.conversion engine).EndsAt before converter made s ∧
            ((∃ stop, Stop.ofAnswer ((normalized.conversion engine).answer before made s) =
                some stop) ∨
              (normalized.conversion engine).answer before made s = .ok .noMatch ∧
                (normalized.conversion engine).Usable made)) ∧
    (∀ before made, (normalized.conversion engine).Behind before s →
      ((normalized.conversion engine).answer before made s = .ok .noMatch ↔
        scanCost ((normalized.conversion engine).candidates before ++ [made]) ≤
            s.detector.remainingBytes ∧
          s.detector.scanner
            (s.detector.scans + ((normalized.conversion engine).candidates before).length)
              made.bytes = .ok [])) := by
  refine ⟨?_,fun hbehind => ?_,Conversion.behind_or_endsAt,
    fun before made hbehind => Conversion.answer_noMatch hbehind⟩
  · rintro before converter after made rfl hends
    constructor
    · intro stop hstop
      obtain ⟨t,hrun,hevents⟩ := run_stopped after hends hstop
      exact ⟨t,Normalized.convert_eq hformat hhtml hrun,hevents⟩
    · intro hclean husable
      obtain ⟨t,hrun,hevents⟩ := run_usable after hends hclean husable
      exact ⟨t,Normalized.convert_eq hformat hhtml hrun,hevents⟩
  · refine ⟨(normalized.conversion engine).past chain s,
      (Normalized.convert_eq hformat hhtml (run_behind hbehind)).trans ?_,rfl⟩
    cases ((normalized.conversion engine).candidates chain).find? Candidate.hasText <;> rfl

end

/-- Libraries that this document needs nothing of. -/
def bareEngine : Engine where
  codecs :=
    { gzip := fun _ => ⟨[],true⟩
      zlib := fun _ => ⟨[],true⟩
      forBom := fun _ => none
      forLabel := fun _ => none
      decodeWithoutBomHandling := fun _ _ => ("",true)
      decodeWithoutReplacement := fun _ _ => none }
  urls := ⟨fun _ => .error "",fun _ _ => .error "",fun _ => ""⟩
  times := ⟨fun _ => none,fun _ => none⟩
  isAlphanumeric := Char.isAlphanum

def starsConverter : Converter := ⟨.native,fun _ _ => some ⟨"***",.native⟩⟩
def wordsConverter : Converter := ⟨.basic,fun _ _ => some ⟨"page",.basic⟩⟩

def bareDocument : Normalized where
  artifact := ⟨1,"run-1","source-1","","http://example.com/",200,some "text/html",none,0,
    "2026-10-01T12:00:00Z",.markdown,0,"","production"⟩
  media := ⟨"text/html",none⟩
  text := "page"

def bareInspection : Inspection := .new ⟨fun _ _ => .ok [],10,0⟩ (fun _ => 0) 1

/-- A row of stars is scanned and passed over, and the words after it are returned. -/
theorem convert_settles_words : ∃ t,
    bareDocument.convert bareEngine [starsConverter,wordsConverter] bareInspection =
      (.ok (bareDocument.inspectedAs ⟨"page",.basic⟩),t) ∧
    t.events = [starsConverter,wordsConverter].flatMap (bareDocument.conversion bareEngine).trail :=
  ((convert_settles bareEngine [starsConverter,wordsConverter] bareDocument bareInspection
      (by decide) (by decide)).1 [starsConverter] wordsConverter [] ⟨"page",.basic⟩ rfl
    ⟨⟨fun _ _ => Nat.one_pos,⟨rfl,trivial⟩,by decide⟩,Nat.one_pos,rfl⟩).2 rfl (by decide)

end HearthAI.Inspect
