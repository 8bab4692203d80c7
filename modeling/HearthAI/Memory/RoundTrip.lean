import HearthAI.Memory.Frontmatter

/-! # What the serializer writes, the parser reads -/
namespace HearthAI.Memory
open Python

theorem unescape_escape (value : Str) : unescape (escape value) = value := by
  induction value with
  | nil => rfl
  | cons c value ih =>
    have hmarks : quoteMark ≠ backslash := by decide
    by_cases hback : c = backslash
    · subst hback
      have hcons : escape (backslash :: value) = backslash :: backslash :: escape value := by
        simp [escape,replaceChar,hmarks.symm]
      rw [hcons,unescape,if_pos rfl,ih]
    by_cases hquote : c = quoteMark
    · subst hquote
      have hcons : escape (quoteMark :: value) = backslash :: quoteMark :: escape value := by
        simp [escape,replaceChar,hmarks]
      rw [hcons,unescape,if_pos rfl,ih]
    · have hcons : escape (c :: value) = c :: escape value := by
        simp [escape,replaceChar,hback,hquote]
      rw [hcons]
      cases hrest : escape value with
      | nil =>
        rw [hrest] at ih
        rw [unescape,← ih]
        rfl
      | cons d rest => rw [unescape,if_neg hback,← hrest,ih]

theorem quote_head (value : Str) : (quote value).head? = some quoteMark := rfl

theorem quote_last (value : Str) : (quote value).getLast? = some quoteMark := by
  rw [quote,← List.cons_append,List.getLast?_append]
  rfl

theorem strip_quote (value : Str) : strip (quote value) = quote value := by
  refine strip_of_ends ?_ ?_
  · intro c hc
    rw [quote_head,Option.some.injEq] at hc
    subst hc
    decide
  · intro c hc
    rw [quote_last,Option.some.injEq] at hc
    subst hc
    decide

theorem unquote_quote (value : Str) : unquote (quote value) = value := by
  have hbody : (quote value).tail.dropLast = escape value := by simp [quote]
  have hlength : 2 ≤ (quote value).length := by simp [quote]
  unfold unquote
  rw [strip_quote]
  dsimp only
  rw [if_pos ⟨hlength,by rw [quote_head,quote_last],.inl (quote_head value)⟩,
    if_pos (quote_head value),hbody,unescape_escape]

theorem oneLine_replaceChar {c : CodePoint} {sub s : Str} (hsub : OneLine sub) (h : OneLine s) :
    OneLine (replaceChar c sub s) := by
  intro d hd
  obtain ⟨e,he,hd⟩ := List.mem_flatMap.mp hd
  split_ifs at hd with hec
  · exact hsub d hd
  · rw [List.mem_singleton.mp hd]
    exact h e he

theorem oneLine_quote {value : Str} (h : OneLine value) : OneLine (quote value) :=
  oneLine_cons.mpr ⟨by decide,oneLine_append.mpr
    ⟨oneLine_replaceChar (by decide) (oneLine_replaceChar (by decide) h),by decide⟩⟩

/-- A key that stands at the start of its line and ends at the first colon. -/
structure SafeKey (key : Str) : Prop where
  oneLine : OneLine key
  solid : ∀ c ∈ key, isSpace c = false
  noColon : colon ∉ key
  letter : ∃ c rest, key = c :: rest ∧ c ≠ dash

def MetaValue.OneLine : MetaValue → Prop
  | .str s => Python.OneLine s
  | .strs items => ∀ item ∈ items, Python.OneLine item

/-- What the serializer is given: distinct safe keys, and values of one line. -/
structure SafeMeta (info : Meta) : Prop where
  keys : (info.map Prod.fst).Nodup
  safe : ∀ p ∈ info, SafeKey p.1
  values : ∀ p ∈ info, p.2.OneLine

/-- A key of the format: its line is neither a delimiter nor an item, and ends it at the first
colon. -/
structure FormatKey (key : Str) : Prop where
  nonempty : key ≠ []
  oneLine : OneLine key
  stripped : strip key = key
  noColon : colon ∉ key
  noItem : startsWith (lit "- ") key = false
  noDelimiter : key ≠ delim

/-- Distinct keys of the format, and values of one line. -/
structure FormatMeta (info : Meta) : Prop where
  keys : (info.map Prod.fst).Nodup
  format : ∀ p ∈ info, FormatKey p.1
  values : ∀ p ∈ info, p.2.OneLine

theorem SafeKey.format {key : Str} (h : SafeKey key) : FormatKey key := by
  obtain ⟨c,rest,rfl,hdash⟩ := h.letter
  refine ⟨List.cons_ne_nil _ _,h.oneLine,Text.trimMatches_of_forall h.solid,h.noColon,?_,?_⟩
  · have hitem : lit "- " = [dash,32] := by decide
    simp [startsWith,hitem,List.isPrefixOf,Ne.symm hdash]
  · rw [show delim = [dash,dash,dash] by decide]
    exact fun h => hdash (List.cons.inj h).1

theorem SafeMeta.format {info : Meta} (h : SafeMeta info) : FormatMeta info :=
  ⟨h.keys,fun p hp => (h.safe p hp).format,h.values⟩

theorem FormatKey.partition {key : Str} (h : FormatKey key) (rest : Str) :
    partition colon (key ++ colon :: rest) = (key,true,rest) := by
  have htake : ∀ c ∈ key, (c != colon) = true := fun c hc => by
    rw [bne_iff_ne]
    rintro rfl
    exact h.noColon hc
  rw [Python.partition,List.takeWhile_append_of_pos htake,List.dropWhile_append_of_pos htake]
  simp

theorem FormatKey.not_item {key : Str} (h : FormatKey key) (rest : Str) :
    (startsWith (lit "  - ") (key ++ colon :: rest) ||
      startsWith (lit "- ") (key ++ colon :: rest)) = false := by
  have hitem : lit "  - " = [32,32,45,32] := by decide
  have hshort : lit "- " = [dash,32] := by decide
  have hnot := h.noItem
  cases key with
  | nil => exact absurd rfl h.nonempty
  | cons c tail =>
    have hhead : (strip (c :: tail)).head? = some c := by rw [h.stripped]; rfl
    have hspace : isSpace c = false := Text.head?_trimMatches_eq_false hhead
    have hblank : (32 : CodePoint) ≠ c := by
      rintro rfl
      exact absurd hspace (by decide)
    rw [hitem,hshort]
    cases tail with
    | nil => simp [startsWith,List.isPrefixOf,hblank,show (32 : CodePoint) ≠ colon by decide]
    | cons d tail =>
      rw [hshort] at hnot
      simpa [startsWith,List.isPrefixOf,hblank] using hnot

theorem mem_strip {c : CodePoint} {s : Str} (h : c ∈ s) (hc : isSpace c = false) : c ∈ strip s := by
  have hdrop : ∀ {l : Str}, c ∈ l → c ∈ l.dropWhile isSpace := by
    intro l hl
    rw [← List.takeWhile_append_dropWhile (p := isSpace) (l := l),List.mem_append] at hl
    refine hl.resolve_left fun hmem => ?_
    rw [List.mem_takeWhile_imp hmem] at hc
    cases hc
  exact List.mem_reverse.mpr (hdrop (List.mem_reverse.mpr (hdrop h)))

/-- A line with a colon is no delimiter. -/
theorem strip_ne_delim {line : Str} (h : colon ∈ line) : strip line ≠ delim := by
  intro hdelim
  have hmem := mem_strip h (by decide)
  rw [hdelim] at hmem
  exact absurd hmem (by decide)

theorem strip_blank_quote (value : Str) : strip (32 :: quote value) = quote value := by
  rw [strip,Text.trimMatches_cons (by decide)]
  exact strip_quote value

theorem unquote_blank_quote (value : Str) : unquote (32 :: quote value) = value := by
  have hstrip : strip (32 :: quote value) = strip (quote value) := by
    rw [strip_blank_quote,strip_quote]
  have hunquote := unquote_quote value
  unfold unquote at hunquote ⊢
  rw [hstrip]
  exact hunquote

/-- The line of an item of a list. -/
def itemLine (item : Str) : Str := lit "  - " ++ quote item

/-- A line that starts with a key is read at its colon. -/
theorem readLine_key {key : Str} (h : FormatKey key) (info : Meta) (currentKey : Option Str)
    (rest : Str) : readLine ⟨info,currentKey⟩ (key ++ colon :: rest) =
      if strip rest = lit "[]" then .ok ⟨info.set key (.strs []),some key⟩
      else if strip rest = [] then .ok ⟨info.set key (.strs []),some key⟩
      else .ok ⟨info.set key (.str (unquote (strip rest))),some key⟩ := by
  have hcolon : (key ++ colon :: rest).contains colon = true := by simp
  rw [readLine,h.not_item,if_neg (by simp),hcolon,h.partition]
  simp only [Bool.not_true,Bool.false_eq_true,if_false,h.stripped]

theorem readLine_item {info : Meta} {key : Str} {items : List Str} (item : Str)
    (hget : info.get key = some (.strs items)) :
    readLine ⟨info,some key⟩ (itemLine item) =
      .ok ⟨info.set key (.strs (items ++ [item])),some key⟩ := by
  have hline : itemLine item = 32 :: 32 :: dash :: 32 :: quote item := by
    rw [itemLine,show lit "  - " = [32,32,dash,32] by decide]
    rfl
  have hstart : startsWith (lit "  - ") (itemLine item) = true := by
    simp [startsWith,itemLine]
  have hpartition : (partition dash (itemLine item)).2.2 = 32 :: quote item := by
    rw [hline]
    simp [partition,show (32 : CodePoint) ≠ dash by decide]
  rw [readLine,hstart,Bool.true_or,if_pos rfl]
  simp only [hget,Option.getD_some,hpartition,unquote_blank_quote]

theorem strip_itemLine_ne (item : Str) : strip (itemLine item) ≠ delim := by
  have hstrip : strip (itemLine item) = dash :: 32 :: quote item := by
    rw [itemLine,show lit "  - " = [32,32,dash,32] by decide]
    simp only [List.cons_append,List.nil_append]
    rw [strip,Text.trimMatches_cons (by decide),Text.trimMatches_cons (by decide)]
    refine Text.trimMatches_of_ends ?_ ?_
    · intro c hc
      obtain rfl : dash = c := Option.some.inj hc
      decide
    · intro c hc
      rw [List.getLast?_cons_cons,List.getLast?_cons_of_ne_nil (by simp [quote]),quote_last] at hc
      obtain rfl : quoteMark = c := Option.some.inj hc
      decide
  rw [hstrip,show delim = [dash,dash,dash] by decide]
  intro h
  exact absurd (List.cons.inj (List.cons.inj h).2).1 (by decide)

theorem readLines_step {state next : Parsing} {line : Str} (lines : List Str)
    (hdelim : strip line ≠ delim) (hline : readLine state line = .ok next) :
    readLines state (line :: lines) = readLines next lines := by
  rw [readLines,if_neg hdelim,hline]

theorem readLines_items {info : Meta} {key : Str} (hkey : key ∉ info.map Prod.fst)
    (items more : List Str) (lines : List Str) :
    readLines ⟨info ++ [(key,.strs items)],some key⟩ (more.map itemLine ++ lines) =
      readLines ⟨info ++ [(key,.strs (items ++ more))],some key⟩ lines := by
  induction more generalizing items with
  | nil => simp
  | cons item more ih =>
    have hline := readLine_item item (Dict.get_last hkey (.strs items))
    rw [Dict.set_last hkey] at hline
    rw [List.map_cons,List.cons_append,readLines_step _ (strip_itemLine_ne item) hline,ih,
      List.append_assoc,List.singleton_append]

/-- Reading the lines of one key adds the key with its value. -/
theorem readLines_dumpItem {info : Meta} {key : Str} (currentKey : Option Str) (hkey : FormatKey key)
    (hnew : key ∉ info.map Prod.fst) (value : MetaValue) (lines : List Str) :
    ∃ last, readLines ⟨info,currentKey⟩ (dumpItem (key,value) ++ lines) =
      readLines ⟨info ++ [(key,value)],last⟩ lines := by
  refine ⟨some key,?_⟩
  cases value with
  | str value =>
    have hblank : lit ": " = [colon,32] := by decide
    have hline : readLine ⟨info,currentKey⟩ (key ++ lit ": " ++ quote value) =
        .ok ⟨info ++ [(key,.str value)],some key⟩ := by
      rw [hblank,List.append_assoc]
      simp only [List.cons_append,List.nil_append]
      rw [readLine_key hkey,strip_blank_quote,if_neg,if_neg (by simp [quote]),unquote_quote,
        Dict.set_new hnew]
      intro h
      have hhead := congrArg List.head? h
      rw [quote_head] at hhead
      exact absurd hhead (by decide)
    rw [dumpItem,List.cons_append,List.nil_append,readLines_step _ _ hline]
    exact strip_ne_delim (by simp [hblank])
  | strs items =>
    cases items with
    | nil =>
      have hmark : lit ": []" = colon :: lit " []" := by decide
      have hline : readLine ⟨info,currentKey⟩ (key ++ lit ": []") =
          .ok ⟨info ++ [(key,.strs [])],some key⟩ := by
        rw [hmark,readLine_key hkey,
          if_pos (by decide),Dict.set_new hnew]
      rw [dumpItem,List.cons_append,List.nil_append,
        readLines_step _ (strip_ne_delim (by simp [hmark])) hline]
    | cons item items =>
      have hmark : lit ":" = [colon] := by decide
      have hline : readLine ⟨info,currentKey⟩ (key ++ lit ":") =
          .ok ⟨info ++ [(key,.strs [])],some key⟩ := by
        rw [hmark,readLine_key hkey,if_neg (by decide),
          if_pos (by decide),Dict.set_new hnew]
      have hlines : dumpItem (key,.strs (item :: items)) =
          (key ++ lit ":") :: (item :: items).map itemLine := rfl
      rw [hlines,List.cons_append,readLines_step _ (strip_ne_delim (by simp [hmark])) hline,
        readLines_items hnew,List.nil_append]

theorem readLines_dump {info more : Meta} {currentKey : Option Str}
    (hnodup : ((info ++ more).map Prod.fst).Nodup) (hsafe : ∀ p ∈ more, FormatKey p.1)
    (lines : List Str) :
    readLines ⟨info,currentKey⟩ (more.flatMap dumpItem ++ delim :: lines) =
      .ok (info ++ more,lines) := by
  induction more generalizing info currentKey with
  | nil =>
    rw [List.flatMap_nil,List.nil_append,readLines,if_pos (by decide),List.append_nil]
  | cons p more ih =>
    obtain ⟨hkey,hmore⟩ := List.forall_mem_cons.mp hsafe
    have hnew : p.1 ∉ info.map Prod.fst := by
      rw [List.map_append,List.map_cons] at hnodup
      exact fun hmem => (List.nodup_append.mp hnodup).2.2 _ hmem _ List.mem_cons_self rfl
    obtain ⟨last,hitem⟩ := readLines_dumpItem currentKey hkey hnew p.2
      (more.flatMap dumpItem ++ delim :: lines)
    rw [List.flatMap_cons,List.append_assoc,hitem,ih (by simpa using hnodup) hmore]
    simp

theorem oneLine_dumpItem {p : Str × MetaValue} (hkey : FormatKey p.1) (hvalue : p.2.OneLine) :
    ∀ line ∈ dumpItem p, OneLine line := by
  obtain ⟨key,value⟩ := p
  cases value with
  | str value =>
    intro line hline
    rw [List.mem_singleton.mp hline]
    exact oneLine_append.mpr ⟨oneLine_append.mpr ⟨hkey.oneLine,by decide⟩,oneLine_quote hvalue⟩
  | strs items =>
    cases items with
    | nil =>
      intro line hline
      rw [List.mem_singleton.mp hline]
      exact oneLine_append.mpr ⟨hkey.oneLine,by decide⟩
    | cons item items =>
      intro line hline
      rcases List.mem_cons.mp hline with rfl | hline
      · exact oneLine_append.mpr ⟨hkey.oneLine,by decide⟩
      · obtain ⟨next,hnext,rfl⟩ := List.mem_map.mp hline
        exact oneLine_append.mpr ⟨by decide,oneLine_quote (hvalue next hnext)⟩

/-- The lines in front of the body. -/
def headerLines (info : Meta) : List Str := delim :: (info.flatMap dumpItem ++ [delim])

/-- The text behind the header. -/
def bodyPart (body : Str) : Str :=
  if body = [] then [] else [lineFeed] ++ rstripOf lineFeed body ++ [lineFeed]

/-- The body as the parser returns it. -/
def readBack (body : Str) : Str :=
  stripOf lineFeed (join [lineFeed] (splitlines (universalNewlines (bodyPart body))))

theorem dumps_eq (info : Meta) (body : Str) :
    dumps info body = (headerLines info).flatMap (· ++ [lineFeed]) ++ bodyPart body := by
  unfold dumps bodyPart headerLines
  dsimp only
  rw [join_lineFeed]
  split_ifs
  · rw [List.append_nil]
  · simp only [List.append_assoc]

theorem oneLine_headerLines {info : Meta} (h : FormatMeta info) :
    ∀ line ∈ headerLines info, OneLine line := by
  have hdelim : OneLine delim := by decide
  intro line hline
  simp only [headerLines,List.mem_cons,List.mem_append,List.mem_flatMap,List.not_mem_nil,
    or_false] at hline
  rcases hline with rfl | ⟨p,hp,hline⟩ | rfl
  · exact hdelim
  · exact oneLine_dumpItem (h.format p hp) (h.values p hp) line hline
  · exact hdelim

/-- What was written with one-line values is read back, whatever the body is. -/
theorem loads_dumps {info : Meta} (h : FormatMeta info) (body : Str) :
    loads (universalNewlines (dumps info body)) = .ok (info,readBack body) := by
  have hlines := oneLine_headerLines h
  have hreturn : carriageReturn ∉ (headerLines info).flatMap (· ++ [lineFeed]) := by
    intro hmem
    obtain ⟨line,hline,hmem⟩ := List.mem_flatMap.mp hmem
    rcases List.mem_append.mp hmem with hmem | hmem
    · exact (hlines line hline).no_return hmem
    · exact absurd (List.mem_singleton.mp hmem) (by decide)
  have hsplit : splitlines (universalNewlines (dumps info body)) =
      headerLines info ++ splitlines (universalNewlines (bodyPart body)) := by
    rw [dumps_eq,translate_append hreturn,splitlines,translate_append hreturn,
      breakLines_lines hlines,splitlines]
  have hread : ∀ lines, readLines ⟨[],none⟩ (info.flatMap dumpItem ++ delim :: lines) =
      .ok (info,lines) := fun lines => readLines_dump (by simpa using h.keys) h.format lines
  rw [loads,hsplit,headerLines,List.cons_append,List.append_assoc,List.singleton_append]
  dsimp only
  rw [if_neg (by decide),hread]
  rfl

end HearthAI.Memory
