import HearthAI.Inspect.Convert

/-! # Which structure a usable candidate has kept -/
namespace HearthAI.Inspect
open Text Contracts

/-- The mark of code in a line. -/
def backtick : Char := Char.ofNat 0x60

/-- A run of exactly `n` backticks. -/
def hasRun (n : ℕ) (text : List Char) : Bool :=
  (text.splitBy (fun c d => (c == backtick) == (d == backtick))).contains (List.replicate n backtick)

/-- A span of code: a run of backticks, and behind it another of that length. So far `n` backticks
have been read in a row; a backslash takes the next character with it. -/
def hasSpan (n : ℕ) (escaped : Bool) : List Char → Bool
  | [] => false
  | c :: text =>
    if escaped then hasSpan 0 false text
    else if c = backtick then hasSpan (n + 1) false text
    else (n != 0 && hasRun n text) || hasSpan 0 (c == '\\') text

/-- Three backticks or more with no other behind them, or three tildes. -/
def isFence (line : String) : Bool :=
  let text := (trim line).toList
  (3 ≤ (text.takeWhile (· == backtick)).length && !(text.dropWhile (· == backtick)).contains backtick) ||
    startsWith "~~~" (trim line)

/-- Some text behind four blanks or a tab. -/
def isIndented (line : String) : Bool :=
  let blanks := line.toList.takeWhile (fun c => c == ' ' || c == '\t')
  (4 ≤ blanks.length || blanks.contains '\t') && !(trim line).isEmpty

def isCodeLine (line : String) : Bool :=
  isFence line || isIndented line || hasSpan 0 false line.toList

namespace Candidate
variable (candidate : Candidate)

/-- The lines of the trimmed text. -/
def textLines : List String := lines (trim candidate.content)

/-- The lines as they are judged: those that are not blank, without the blanks around them. -/
def rows : List String := (candidate.textLines.map trim).filter (fun line => !line.isEmpty)

def Readable (isAlphanumeric : Char → Bool) : Prop :=
  ∃ c ∈ (trim candidate.content).toList, isAlphanumeric c = true

/-- At least five lines, of which four in five are link items, and next to no other text. -/
def NavigationOnly : Prop :=
  5 ≤ candidate.rows.length ∧ candidate.rows.length * 8 ≤ (candidate.rows.filter isLinkItem).length * 10 ∧
    ((candidate.rows.filter (fun line => !isLinkItem line)).map len).sum < 200

/-- A line starts with the mark of a heading or of a table row. -/
def Marked (lead : String) : Prop := ∃ line ∈ candidate.textLines, startsWith lead line = true

def HasCode : Prop := ∃ line ∈ candidate.textLines, isCodeLine line = true

instance (lead : String) : Decidable (candidate.Marked lead) :=
  inferInstanceAs (Decidable (∃ line ∈ _, _))

instance : Decidable candidate.HasCode := inferInstanceAs (Decidable (∃ line ∈ _, _))

/-- Some line starts with the mark when its indentation is taken away, and none as it is. -/
def MarkedIndented (lead : String) : Prop :=
  (∃ line ∈ candidate.textLines, startsWith lead (trim line) = true) ∧ ¬candidate.Marked lead

end Candidate

/-- What the source shows of its structure, the candidate has. -/
structure Keeps (signals : SourceSignals) (candidate : Candidate) : Prop where
  headings : signals.hasHeadings = true → candidate.Marked "#"
  tables : signals.hasTables = true → candidate.Marked "|"
  code : signals.hasCode = true → candidate.HasCode

/-- A Markdown candidate that is judged usable reads as text, is no menu, and has kept the headings,
the tables and the code of the source. -/
def JudgedSoundly (isAlphanumeric : Char → Bool) (source : String) (candidate : Candidate) : Prop :=
  quality isAlphanumeric candidate .markdown (.of source) = .usable →
    candidate.Readable isAlphanumeric ∧ Keeps (.of source) candidate ∧ ¬candidate.NavigationOnly

/-- The checks that `quality` makes of a Markdown candidate. -/
structure Passes (isAlphanumeric : Char → Bool) (signals : SourceSignals) (candidate : Candidate) :
    Prop where
  readable : candidate.Readable isAlphanumeric
  prose : ¬candidate.NavigationOnly
  headings : signals.hasHeadings = true → ∃ row ∈ candidate.rows, startsWith "#" row = true
  tables : signals.hasTables = true → ∃ row ∈ candidate.rows, startsWith "|" row = true

section
variable {isAlphanumeric : Char → Bool} {candidate : Candidate} {signals : SourceSignals} {lead : String}

theorem quality_eq_usable : quality isAlphanumeric candidate .markdown signals = .usable ↔
    Passes isAlphanumeric signals candidate := by
  have hlost : ∀ {signal : Bool} {lead : String}, (Format.markdown = .markdown ∧ signal = true ∧
      (!candidate.rows.any (startsWith lead)) = true) ↔
        ¬(signal = true → ∃ row ∈ candidate.rows, startsWith lead row = true) := by
    intro signal lead
    rw [← List.any_eq_true,Bool.not_eq_true',Bool.eq_false_iff]
    simp
  unfold quality
  dsimp only
  split_ifs with hempty hread hnavigation hheadings htables
  · refine iff_of_false nofun ?_
    rintro ⟨⟨c,hc,_⟩,_⟩
    rw [String.isEmpty_iff.mp hempty] at hc
    cases hc
  · refine iff_of_false nofun ?_
    rintro ⟨hreadable,_⟩
    rw [Candidate.Readable,← List.any_eq_true] at hreadable
    simp [hreadable] at hread
  · exact iff_of_false nofun fun h => h.prose hnavigation
  · exact iff_of_false nofun fun h => hlost.mp hheadings h.headings
  · exact iff_of_false nofun fun h => hlost.mp htables h.tables
  · refine iff_of_true rfl ⟨?_,hnavigation,?_,?_⟩
    · rw [Candidate.Readable,← List.any_eq_true]
      simpa using hread
    · exact not_not.mp fun h => hheadings (hlost.mpr h)
    · exact not_not.mp fun h => htables (hlost.mpr h)

/-- A row that starts with a mark is a line without its indentation. -/
theorem exists_row_iff (hlead : lead ≠ "") : (∃ row ∈ candidate.rows, startsWith lead row = true) ↔
    ∃ line ∈ candidate.textLines, startsWith lead (trim line) = true := by
  constructor
  · rintro ⟨row,hrow,hstarts⟩
    obtain ⟨line,hline,rfl⟩ := List.mem_map.mp (List.mem_filter.mp hrow).1
    exact ⟨line,hline,hstarts⟩
  · rintro ⟨line,hline,hstarts⟩
    refine ⟨trim line,List.mem_filter.mpr ⟨List.mem_map.mpr ⟨line,hline,rfl⟩,?_⟩,hstarts⟩
    rw [Bool.not_eq_true',Bool.eq_false_iff]
    intro hempty
    rw [String.isEmpty_iff.mp hempty,startsWith,List.isPrefixOf_iff_prefix] at hstarts
    exact hlead (String.toList_eq_nil_iff.mp (List.prefix_nil.mp hstarts))

/-- A mark that the check has seen is in front of a line, unless it is always indented. -/
theorem marked_iff (hlead : lead ≠ "")
    (h : ∃ row ∈ candidate.rows, startsWith lead row = true) :
    candidate.Marked lead ↔ ¬candidate.MarkedIndented lead := by
  rw [exists_row_iff hlead] at h
  simp [Candidate.MarkedIndented,h]

/-- The verdict is sound exactly when a candidate that passes the checks has kept the code, which no
check looks for, and has a mark that is not indented. -/
theorem judgedSoundly_iff (isAlphanumeric : Char → Bool) (source : String) (candidate : Candidate) :
    JudgedSoundly isAlphanumeric source candidate ↔
      (Passes isAlphanumeric (.of source) candidate →
        ((SourceSignals.of source).hasCode = true → candidate.HasCode) ∧
        ((SourceSignals.of source).hasHeadings = true → ¬candidate.MarkedIndented "#") ∧
        ((SourceSignals.of source).hasTables = true → ¬candidate.MarkedIndented "|")) := by
  unfold JudgedSoundly
  rw [quality_eq_usable]
  refine forall_congr' fun hpasses => ?_
  constructor
  · rintro ⟨_,hkeeps,_⟩
    refine ⟨hkeeps.code,fun hsignal => ?_,fun hsignal => ?_⟩
    · exact (marked_iff (by decide) (hpasses.headings hsignal)).mp (hkeeps.headings hsignal)
    · exact (marked_iff (by decide) (hpasses.tables hsignal)).mp (hkeeps.tables hsignal)
  · rintro ⟨hcode,hheadings,htables⟩
    refine ⟨hpasses.readable,⟨fun hsignal => ?_,fun hsignal => ?_,hcode⟩,hpasses.prose⟩
    · exact (marked_iff (by decide) (hpasses.headings hsignal)).mpr (hheadings hsignal)
    · exact (marked_iff (by decide) (hpasses.tables hsignal)).mpr (htables hsignal)

end

/-- A page that is nothing but code, and a conversion that is a sentence. A comment in a block of
code is taken for a heading. -/
theorem lost_code_usable :
    ¬JudgedSoundly Char.isAlphanum "<pre>start --now</pre>" ⟨"See below.",.native⟩ ∧
      ¬JudgedSoundly Char.isAlphanum "<h1>Set up</h1>" ⟨"Run this:\n\n    # as root",.native⟩ := by
  refine ⟨fun h => ?_,fun h => ?_⟩
  · have husable : quality Char.isAlphanum ⟨"See below.",.native⟩ .markdown
        (.of "<pre>start --now</pre>") = .usable := by decide
    exact absurd ((h husable).2.1.code (by decide)) (by decide)
  · have husable : quality Char.isAlphanum ⟨"Run this:\n\n    # as root",.native⟩ .markdown
        (.of "<h1>Set up</h1>") = .usable := by decide
    exact absurd ((h husable).2.1.headings (by decide)) (by decide)

end HearthAI.Inspect
