import HearthAI.Memory.RoundTrip

/-! # The format of the store's files

The file is split at every boundary that `splitlines` knows and joined again with line
feeds, so a body whose only boundaries are line feeds is read as it was written.
-/
namespace HearthAI.Memory
open Python

/-- No line boundary but the line feed. -/
def OnlyFeeds (s : Str) : Prop := ∀ c ∈ s, isLineBreak c = true → c = lineFeed

-- Not the instance that tries every code point.
instance (s : Str) : Decidable (OnlyFeeds s) :=
  decidable_of_iff (s.all (fun c => !isLineBreak c || c == lineFeed) = true) (by
    simp only [OnlyFeeds,List.all_eq_true,Bool.or_eq_true,Bool.not_eq_true',beq_iff_eq]
    refine forall₂_congr fun c _ => ?_
    cases isLineBreak c <;> simp)

variable {s : Str}

theorem onlyFeeds_flatMap {lines : List Str} (h : ∀ line ∈ lines, OneLine line) :
    OnlyFeeds (lines.flatMap (· ++ [lineFeed])) := by
  intro c hc hbreak
  obtain ⟨line,hline,hc⟩ := List.mem_flatMap.mp hc
  rcases List.mem_append.mp hc with hc | hc
  · rw [h line hline c hc] at hbreak
    cases hbreak
  · exact List.mem_singleton.mp hc

theorem mem_of_mem_stripOf {c d : CodePoint} (h : c ∈ stripOf d s) : c ∈ s := by
  have hback := (List.dropWhile_sublist _).subset (List.mem_reverse.mp h)
  exact (List.dropWhile_sublist _).subset (List.mem_reverse.mp hback)

/-- The parser returns no boundary but line feeds, whatever was in the file. -/
theorem onlyFeeds_readBack (body : Str) : OnlyFeeds (readBack body) := by
  intro c hc
  have hjoined := mem_of_mem_stripOf hc
  cases hlines : splitlines (universalNewlines (bodyPart body)) with
  | nil =>
    rw [hlines] at hjoined
    cases hjoined
  | cons line lines =>
    rw [hlines] at hjoined
    have hone : ∀ next ∈ line :: lines, OneLine next := by
      rw [← hlines]
      exact fun next hnext => oneLine_of_mem_breakLines hnext
    have hended := List.mem_append_left [lineFeed] hjoined
    rw [join_lineFeed] at hended
    exact onlyFeeds_flatMap hone c hended

theorem OnlyFeeds.no_return (h : OnlyFeeds s) : carriageReturn ∉ s := fun hmem =>
  absurd (h _ hmem (by decide)) (by decide)

/-- Breaking at line feeds and ending every line again. -/
theorem flatMap_breakLines (h : OnlyFeeds s) :
    (breakLines (s ++ [lineFeed])).flatMap (· ++ [lineFeed]) = s ++ [lineFeed] := by
  induction s with
  | nil => decide
  | cons c s ih =>
    have hrest := ih fun d hd => h d (List.mem_cons_of_mem _ hd)
    rw [List.cons_append,breakLines]
    split_ifs with hbreak
    · rw [h c List.mem_cons_self hbreak,List.flatMap_cons,hrest]
      rfl
    · cases hlines : breakLines (s ++ [lineFeed]) with
      | nil =>
        rw [hlines] at hrest
        simp at hrest
      | cons line lines =>
        rw [hlines,List.flatMap_cons] at hrest
        rw [consLine,List.flatMap_cons,List.cons_append,List.cons_append,hrest]

theorem join_breakLines (h : OnlyFeeds s) :
    join [lineFeed] (breakLines (s ++ [lineFeed])) = s := by
  have hended := flatMap_breakLines h
  cases hlines : breakLines (s ++ [lineFeed]) with
  | nil =>
    rw [hlines] at hended
    simp at hended
  | cons line lines =>
    rw [hlines,← join_lineFeed] at hended
    exact List.append_cancel_right hended

theorem universalNewlines_of_notMem (h : carriageReturn ∉ s) : universalNewlines s = s := by
  have happend := translate_append h []
  rwa [List.append_nil,show universalNewlines [] = [] from rfl,List.append_nil] at happend

theorem rstripOf_of_last {c : CodePoint} (h : ∀ d, s.getLast? = some d → d ≠ c) :
    rstripOf c s = s := by
  cases hreverse : s.reverse with
  | nil => rw [rstripOf,hreverse]; exact (List.reverse_eq_nil_iff.mp hreverse).symm
  | cons d rest =>
    have hlast : s.getLast? = some d := by rw [← List.head?_reverse,hreverse]; rfl
    rw [rstripOf,hreverse,List.dropWhile_cons_of_neg (by simpa using h d hlast),← hreverse,
      List.reverse_reverse]

/-- A body whose only boundaries are line feeds, none of them at its ends, comes back. -/
theorem readBack_of_onlyFeeds (hfeeds : OnlyFeeds s)
    (hhead : ∀ c, s.head? = some c → c ≠ lineFeed)
    (hlast : ∀ c, s.getLast? = some c → c ≠ lineFeed) : readBack s = s := by
  by_cases hempty : s = []
  · subst hempty
    decide
  have hreturn : carriageReturn ∉ [lineFeed] ++ s ++ [lineFeed] := by
    rw [List.mem_append,List.mem_append,not_or,not_or]
    exact ⟨⟨by decide,hfeeds.no_return⟩,by decide⟩
  have hjoin : join [lineFeed] (breakLines ([lineFeed] ++ s ++ [lineFeed])) = [lineFeed] ++ s := by
    refine join_breakLines fun c hc hbreak => ?_
    rcases List.mem_append.mp hc with hc | hc
    · exact List.mem_singleton.mp hc
    · exact hfeeds c hc hbreak
  rw [readBack,bodyPart,if_neg hempty,rstripOf_of_last hlast,
    universalNewlines_of_notMem hreturn,splitlines,universalNewlines_of_notMem hreturn,hjoin,
    List.singleton_append,stripOf,Text.trimMatches_cons (by simp)]
  exact Text.trimMatches_of_ends (fun c hc => by simpa using hhead c hc)
    (fun c hc => by simpa using hlast c hc)

theorem ne_feed_of_oneLine (h : OneLine s) {c : CodePoint} (hc : c ∈ s) : c ≠ lineFeed := by
  rintro rfl
  exact absurd (h _ hc) (by decide)

theorem readBack_of_oneLine (h : OneLine s) : readBack s = s := by
  refine readBack_of_onlyFeeds (fun c hc hbreak => ?_) (fun c hc => ?_) fun c hc => ?_
  · rw [h c hc] at hbreak
    cases hbreak
  · exact ne_feed_of_oneLine h (List.mem_of_head? hc)
  · exact ne_feed_of_oneLine h (List.mem_of_getLast? hc)

/-- The body as it stands in the file has the boundaries of the body. -/
theorem onlyFeeds_bodyPart (h : OnlyFeeds s) : OnlyFeeds (bodyPart s) := by
  intro c hc hbreak
  unfold bodyPart at hc
  split_ifs at hc
  · cases hc
  · rcases List.mem_append.mp hc with hc | hc
    · rcases List.mem_append.mp hc with hc | hc
      · exact List.mem_singleton.mp hc
      · have hdropped := (List.dropWhile_sublist _).subset (List.mem_reverse.mp hc)
        exact h c (List.mem_reverse.mp hdropped) hbreak
    · exact List.mem_singleton.mp hc

/-- The lines of the format read back: every header line as what it was written for, and the
body, with whatever delimiters and keys are in its lines. -/
theorem loads_dumps_eq {info : Meta} {body : Str} (h : FormatMeta info) (hfeeds : OnlyFeeds body)
    (hhead : ∀ c, body.head? = some c → c ≠ lineFeed)
    (hlast : ∀ c, body.getLast? = some c → c ≠ lineFeed) :
    loads (dumps info body) = .ok (info,body) := by
  have hdumped : OnlyFeeds (dumps info body) := by
    rw [dumps_eq]
    intro c hc hbreak
    rcases List.mem_append.mp hc with hc | hc
    · exact onlyFeeds_flatMap (oneLine_headerLines h) c hc hbreak
    · exact onlyFeeds_bodyPart hfeeds c hc hbreak
  have hread := loads_dumps h body
  rwa [universalNewlines_of_notMem hdumped.no_return,readBack_of_onlyFeeds hfeeds hhead hlast]
    at hread

/-- Keys that look like items, values that look like markers, and a body that looks like a
header. -/
theorem loads_dumps_markers :
    loads (dumps [(lit "-x",.str (lit " a\\\"b: \\")),(lit "a - b",.strs []),
        (lit "tags",.strs [lit "[]",lit "---",[]])] (lit "---\ntags:\n\n  - one\n---")) =
      .ok ([(lit "-x",.str (lit " a\\\"b: \\")),(lit "a - b",.strs []),
        (lit "tags",.strs [lit "[]",lit "---",[]])],lit "---\ntags:\n\n  - one\n---") := by
  refine loads_dumps_eq ⟨by decide,?_,?_⟩ (by decide) ?_ ?_
  · simp only [List.forall_mem_cons]
    exact ⟨⟨by decide,by decide,by decide,by decide,by decide,by decide⟩,
      ⟨by decide,by decide,by decide,by decide,by decide,by decide⟩,
      ⟨by decide,by decide,by decide,by decide,by decide,by decide⟩,List.forall_mem_nil _⟩
  · simp only [List.forall_mem_cons]
    refine ⟨?_,?_,?_,List.forall_mem_nil _⟩
    · show OneLine _
      decide
    · exact List.forall_mem_nil _
    · simp only [MetaValue.OneLine,List.forall_mem_cons]
      exact ⟨by decide,by decide,by decide,List.forall_mem_nil _⟩
  · rw [show (lit "---\ntags:\n\n  - one\n---").head? = some dash by decide]
    rintro c ⟨⟩
    decide
  · rw [show (lit "---\ntags:\n\n  - one\n---").getLast? = some dash by decide]
    rintro c ⟨⟩
    decide

end HearthAI.Memory
