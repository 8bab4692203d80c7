import HearthAI.Core.Runs
import HearthAI.Memory.AppendOnly

/-! # What a search finds

The tokenizer blanks out what is no ASCII letter or digit and splits at the blanks. The
terms are the runs that are left, and the rows are ranked by how many they share with the
query.
-/
namespace HearthAI.Memory
open Python Runs

/-- The runs of ASCII letters and digits in the lower case of the text. One character is not
a term. -/
def Term (text t : Str) : Prop := MaximalRun isSafe (lower text) t ∧ 1 < t.length

/-- What `" ".join(row.get("tags", []))` goes through. -/
def Row.tagItems (row : Row) : List Str :=
  match (row.info.get (lit "tags")).getD (.strs []) with
  | .str s => s.map (fun c => [c])
  | .strs items => items

def Row.HasTerm (row : Row) (t : Str) : Prop :=
  Term row.content t ∨ ∃ tag ∈ row.tagItems, Term tag t

def sharedTerms (query : Str) (row : Row) : Set Str := {t | Term query t ∧ row.HasTerm t}

section
variable {s t text : Str} {c : CodePoint} {items : List Str}

theorem isSafe_blank : isSafe 32 = false := by decide

theorem ne_blank (h : isSafe c = true) : c ≠ 32 := by
  rintro rfl
  rw [isSafe_blank] at h
  cases h

theorem mem_splitSpaces_of_safe (hs : ∀ c ∈ s, isSafe c = true) :
    t ∈ splitSpaces s ↔ t = s ∧ s ≠ [] := by
  have hsplit : s.splitOn 32 = [s] :=
    List.splitOnP_eq_singleton fun c hc => by simpa using ne_blank (hs c hc)
  rw [splitSpaces,hsplit,List.mem_filter,List.mem_singleton]
  constructor
  · rintro ⟨rfl,hne⟩
    exact ⟨rfl,by simpa using hne⟩
  · rintro ⟨rfl,hne⟩
    exact ⟨rfl,by simpa using hne⟩

theorem mem_splitSpaces_append (hs : ∀ c ∈ s, isSafe c = true) (rest : Str) :
    t ∈ splitSpaces (s ++ 32 :: rest) ↔ (t = s ∧ s ≠ []) ∨ t ∈ splitSpaces rest := by
  have hsplit : (s ++ 32 :: rest).splitOn 32 = s :: rest.splitOn 32 :=
    List.splitOnP_append_cons_of_forall_mem (fun c hc => by simpa using ne_blank (hs c hc)) 32
      (by decide) rest
  simp only [splitSpaces,hsplit,List.mem_filter,List.mem_cons,decide_eq_true_eq]
  rw [or_and_right]
  refine or_congr_left (and_congr_right ?_)
  rintro rfl
  rfl

/-- Blanking out and splitting leaves the maximal runs. The first characters of the run under
way are in `s`. -/
theorem mem_splitSpaces_safeSubFrom (text : Str) :
    (∀ s : Str, (∀ c ∈ s, isSafe c = true) →
      (t ∈ splitSpaces (s ++ safeSubFrom [32] false text) ↔ MaximalRun isSafe (s ++ text) t)) ∧
    (t ∈ splitSpaces (safeSubFrom [32] true text) ↔ MaximalRun isSafe text t) := by
  induction text with
  | nil =>
    refine ⟨fun s hs => ?_,?_⟩
    · rw [safeSubFrom,List.append_nil,mem_splitSpaces_of_safe hs,maximalRun_of_forall hs]
    · exact iff_of_false (by simp [splitSpaces,safeSubFrom]) not_maximalRun_nil
  | cons c text ih =>
    obtain ⟨hopen,hblank⟩ := ih
    cases hc : isSafe c with
    | true =>
      have hrun : ∀ s : Str, (∀ d ∈ s, isSafe d = true) →
          (t ∈ splitSpaces (s ++ c :: safeSubFrom [32] false text) ↔
            MaximalRun isSafe (s ++ c :: text) t) := by
        intro s hs
        have hnext := hopen (s ++ [c]) fun d hd =>
          (List.mem_append.mp hd).elim (hs d) fun hd => by rw [List.mem_singleton.mp hd,hc]
        simpa only [List.append_assoc,List.singleton_append] using hnext
      simp only [safeSubFrom,hc,if_true]
      exact ⟨hrun,hrun [] (by simp)⟩
    | false =>
      have hrest := maximalRun_append_cons (s := []) (l := text) (t := t) hc
      simp only [safeSubFrom,hc,Bool.false_eq_true,if_false,if_true,List.singleton_append]
      refine ⟨fun s hs => ?_,?_⟩
      · rw [mem_splitSpaces_append hs,hblank,maximalRun_append_cons hc,maximalRun_of_forall hs]
      · rw [hblank,← List.nil_append (c :: text),hrest,or_iff_right not_maximalRun_nil]

theorem mem_tokenize : t ∈ tokenize text ↔ Term text t := by
  have hblank : lit " " = [32] := by decide
  have hrun := (mem_splitSpaces_safeSubFrom (t := t) (lower text)).1 [] (by simp)
  rw [List.nil_append,List.nil_append] at hrun
  rw [tokenize,List.mem_dedup,List.mem_filter,safeSub,hblank,hrun,Term,decide_eq_true_eq]

theorem lower_append (s text : Str) : lower (s ++ text) = lower s ++ lower text :=
  List.flatMap_append

theorem not_term_nil : ¬Term [] t := fun h => not_maximalRun_nil h.1

theorem term_append_blank (s text : Str) : Term (s ++ 32 :: text) t ↔ Term s t ∨ Term text t := by
  have hlower : lower (s ++ 32 :: text) = lower s ++ 32 :: lower text := by
    rw [← List.singleton_append,lower_append,lower_append]
    rfl
  rw [Term,hlower,maximalRun_append_cons isSafe_blank,or_and_right]
  rfl

/-- Joining with blanks makes no new terms. -/
theorem term_join : Term (join (lit " ") items) t ↔ ∃ item ∈ items, Term item t := by
  have hblank : lit " " = [32] := by decide
  rw [hblank]
  induction items with
  | nil => exact iff_of_false not_term_nil (by simp)
  | cons item items ih =>
    cases items with
    | nil => simp [join]
    | cons next items =>
      have hjoin : join [32] (item :: next :: items) = item ++ 32 :: join [32] (next :: items) := by
        simp [join]
      rw [hjoin,term_append_blank,List.exists_mem_cons_iff]
      exact or_congr_right ih

variable {row : Row} {query : Str}

theorem tagText_eq (row : Row) : row.tagText = join (lit " ") row.tagItems := by
  unfold Row.tagText Row.tagItems
  cases (row.info.get (lit "tags")).getD (.strs []) <;> rfl

theorem hasTerm_iff : row.HasTerm t ↔ t ∈ tokenize row.content ++ tokenize row.tagText := by
  rw [List.mem_append,mem_tokenize,mem_tokenize,tagText_eq,term_join,Row.HasTerm]

/-- The score of a row is the number of terms it shares with the query. -/
theorem overlap_eq (query : Str) (row : Row) :
    row.overlap (tokenize query) = (sharedTerms query row).ncard := by
  have hset : sharedTerms query row = ((tokenize query).filter (fun t =>
      (tokenize row.content ++ tokenize row.tagText).contains t)).toFinset := by
    ext t
    rw [List.coe_toFinset,Set.mem_ofPred_eq,List.mem_filter,mem_tokenize,List.contains_iff_mem,
      ← hasTerm_iff]
    rfl
  have hnodup : (tokenize query).Nodup := List.nodup_dedup _
  rw [hset,Set.ncard_coe_finset,List.toFinset_card_of_nodup (hnodup.filter _)]
  rfl

theorem overlap_ne_zero : row.overlap (tokenize query) ≠ 0 ↔ (sharedTerms query row).Nonempty := by
  have hfinite : (sharedTerms query row).Finite :=
    (List.finite_toSet (tokenize query)).subset fun t ht => mem_tokenize.mpr ht.1
  rw [overlap_eq,← Nat.pos_iff_ne_zero,Set.ncard_pos hfinite]

end

/-! The order of the rows. -/

def SameKind (rows : List Row) : Prop :=
  ∀ a ∈ rows, ∀ b ∈ rows, a.createdAt.isStr = b.createdAt.isStr

def NewestFirst (rows : List Row) : Prop :=
  rows.Pairwise (fun a b => b.createdAt.le a.createdAt = true)

section
variable {a b c : MetaValue}

theorem MetaValue.le_total (h : a.isStr = b.isStr) : (a.le b || b.le a) = true := by
  cases a with
  | str s =>
    cases b with
    | str t =>
      rw [Bool.or_eq_true,MetaValue.le,MetaValue.le,Python.le,Python.le,decide_eq_true_eq,
        decide_eq_true_eq]
      exact LinearOrder.le_total s t
    | strs items => cases h
  | strs items =>
    cases b with
    | str t => cases h
    | strs others =>
      rw [Bool.or_eq_true,MetaValue.le,MetaValue.le,decide_eq_true_eq,decide_eq_true_eq]
      exact LinearOrder.le_total items others

theorem MetaValue.le_trans (hab : a.le b = true) (hbc : b.le c = true) : a.le c = true := by
  cases a <;> cases b <;> cases c <;>
    simp only [MetaValue.le,Python.le,decide_eq_true_eq,Bool.false_eq_true] at hab hbc ⊢
  · exact Preorder.le_trans _ _ _ hab hbc
  · exact Preorder.le_trans _ _ _ hab hbc

end

section
variable {lib : Library} {tree : Tree} {token : Value} {rows : List Row}

theorem entries_sorted (h : entries lib tree token = .ok rows) : SameKind rows ∧ NewestFirst rows := by
  obtain ⟨_,_,hrows⟩ := bind_eq_ok.mp h
  obtain ⟨loaded,_,hsort⟩ := bind_eq_ok.mp hrows
  unfold sortRows at hsort
  split_ifs at hsort with hkind
  have hkind' : SameKind loaded := by
    intro a ha b hb
    exact eq_of_beq (List.all_eq_true.mp (List.all_eq_true.mp hkind a ha) b hb)
  rw [← Except.ok.inj hsort]
  refine ⟨fun a ha b hb => hkind' a (List.mem_mergeSort.mp ha) b (List.mem_mergeSort.mp hb),
    pairwise_mergeSort_of_mem (fun a _ b _ c _ hab hbc => MetaValue.le_trans hbc hab) ?_⟩
  exact fun a ha b hb => MetaValue.le_total (hkind' b hb a ha)

theorem slice_eq_take {α : Type} (limit : Int) (l : List α) :
    ∃ n, slice limit l = l.take n ∧ (0 ≤ limit → n = limit.toNat) := by
  unfold slice
  split_ifs with hlimit
  · exact ⟨_,rfl,fun _ => rfl⟩
  · exact ⟨_,rfl,fun h => absurd h hlimit⟩

end

/-- The rows that share a term with the query, the closest first. -/
def ranked (query : Str) (rows : List Row) : List Row :=
  (((rows.map (fun row => (row.overlap (tokenize query),row))).filter (fun p => p.1 ≠ 0)).mergeSort
    (fun a b => b.1 < a.1 || (a.1 == b.1 && a.2.createdAt.le b.2.createdAt))).map Prod.snd

/-- What a search answers on the rows of a store. -/
structure Answers (rows : List Row) (query : Str) (limit : Int) (found : List Row) : Prop where
  shared : (∃ t, Term query t) → ∀ row ∈ found, (sharedTerms query row).Nonempty
  ranked : (∃ t, Term query t) →
    found.Pairwise (fun a b => (sharedTerms query b).ncard ≤ (sharedTerms query a).ncard)
  complete : (∃ t, Term query t) → ∃ left others, rows.Perm (found ++ left ++ others) ∧
    (∀ row ∈ others, sharedTerms query row = ∅) ∧ ∀ row ∈ left,
      (0 ≤ limit → found.length = limit.toNat) ∧
        ∀ a ∈ found, (sharedTerms query row).ncard ≤ (sharedTerms query a).ncard
  bounded : 0 ≤ limit → found.length ≤ limit.toNat
  newest : (¬∃ t, Term query t) → found <+: rows ∧ (0 ≤ limit → found = rows.take limit.toNat)

section
variable {lib : Library} {tree : Tree} {token : Value} {rows : List Row}

theorem exists_term (query : Str) : (∃ t, Term query t) ↔ tokenize query ≠ [] := by
  simp only [← mem_tokenize]
  exact ⟨fun h => h.elim fun _ => List.ne_nil_of_mem,List.exists_mem_of_ne_nil _⟩

/-- Rows of one kind can be ranked. -/
theorem search_eq (hrows : entries lib tree token = .ok rows) (query : Str) (limit : Int) :
    search lib tree token query limit =
      .ok (slice limit (if tokenize query = [] then rows else ranked query rows)) := by
  unfold search
  rw [hrows]
  by_cases hwanted : tokenize query = []
  · rw [if_pos hwanted]
    exact if_pos hwanted
  · rw [if_neg hwanted]
    refine (if_neg hwanted).trans (if_pos ?_)
    have hkind := (entries_sorted hrows).1
    simp only [List.all_eq_true,List.mem_filter,List.mem_map]
    rintro a ⟨⟨row,hrow,rfl⟩,_⟩ b ⟨⟨row',hrow',rfl⟩,_⟩
    rw [hkind row hrow row' hrow',Bool.or_eq_true,beq_self_eq_true]
    exact .inr rfl

theorem ranked_perm (query : Str) (rows : List Row) :
    (ranked query rows).Perm (rows.filter (fun row => row.overlap (tokenize query) ≠ 0)) := by
  refine ((List.mergeSort_perm _ _).map _).trans (.of_eq ?_)
  rw [List.filter_map,List.map_map]
  exact List.map_id _

theorem mem_ranked {query : Str} {row : Row} (h : row ∈ ranked query rows) :
    (sharedTerms query row).Nonempty := by
  have hfilter := (ranked_perm query rows).subset h
  exact overlap_ne_zero.mp (by simpa using (List.mem_filter.mp hfilter).2)

theorem ranked_pairwise (hkind : SameKind rows) (query : Str) : (ranked query rows).Pairwise
    (fun a b => (sharedTerms query b).ncard ≤ (sharedTerms query a).ncard) := by
  have hmem : ∀ p ∈ (rows.map (fun row => (row.overlap (tokenize query),row))).filter
      (fun p => p.1 ≠ 0), p.2 ∈ rows ∧ p.1 = (sharedTerms query p.2).ncard := by
    intro p hp
    obtain ⟨row,hrow,rfl⟩ := List.mem_map.mp (List.mem_filter.mp hp).1
    exact ⟨hrow,overlap_eq query row⟩
  refine List.pairwise_map.mpr (List.Pairwise.imp_of_mem ?_ (pairwise_mergeSort_of_mem ?_ ?_))
  · intro a b ha hb hle
    rw [← (hmem a (List.mem_mergeSort.mp ha)).2,← (hmem b (List.mem_mergeSort.mp hb)).2]
    simp only [Bool.or_eq_true,decide_eq_true_eq,Bool.and_eq_true,beq_iff_eq] at hle
    omega
  · intro a _ b _ c _ hab hbc
    simp only [Bool.or_eq_true,decide_eq_true_eq,Bool.and_eq_true,beq_iff_eq] at hab hbc ⊢
    rcases hab with hab | ⟨hab,hle⟩
    · exact .inl (by omega)
    · rcases hbc with hbc | ⟨hbc,hle'⟩
      · exact .inl (by omega)
      · exact .inr ⟨hab.trans hbc,MetaValue.le_trans hle hle'⟩
  · intro a ha b hb
    have hkind' := hkind a.2 (hmem a ha).1 b.2 (hmem b hb).1
    have htotal := MetaValue.le_total hkind'
    simp only [Bool.or_eq_true,decide_eq_true_eq,Bool.and_eq_true,beq_iff_eq] at htotal ⊢
    rcases Nat.lt_trichotomy a.1 b.1 with hlt | heq | hgt
    · exact .inr (.inl hlt)
    · exact htotal.imp (fun hle => .inr ⟨heq,hle⟩) (fun hle => .inr ⟨heq.symm,hle⟩)
    · exact .inl (.inl hgt)

/-- The rows a search picks from. Without a term in the query these are all rows. -/
def candidates (query : Str) (rows : List Row) : List Row :=
  rows.filter (fun row => tokenize query = [] ∨ row.overlap (tokenize query) ≠ 0)

theorem mem_candidates {query : Str} {row : Row} : row ∈ candidates query rows ↔
    row ∈ rows ∧ ((∃ t, Term query t) → (sharedTerms query row).Nonempty) := by
  rw [candidates,List.mem_filter,decide_eq_true_eq,overlap_ne_zero,exists_term,
    Decidable.imp_iff_not_or,not_not]

theorem candidates_eq {query : Str} (h : tokenize query = []) : candidates query rows = rows :=
  List.filter_eq_self.mpr fun _ _ => decide_eq_true (.inl h)

theorem length_slice {α : Type} (limit : Int) (l : List α) : (slice limit l).length =
    if 0 ≤ limit then min limit.toNat l.length else l.length - (-limit).toNat := by
  unfold slice
  split_ifs with hlimit
  · exact List.length_take
  · rw [List.length_take]
    exact Nat.min_eq_left (Nat.sub_le _ _)

/-- A negative limit leaves out that many of the candidates. -/
theorem search_length {query : Str} {limit : Int} {found : List Row}
    (hrows : entries lib tree token = .ok rows) (h : search lib tree token query limit = .ok found) :
    found.length = if 0 ≤ limit then min limit.toNat (candidates query rows).length
      else (candidates query rows).length - (-limit).toNat := by
  have hpicked : (if tokenize query = [] then rows else ranked query rows).length =
      (candidates query rows).length := by
    by_cases hwanted : tokenize query = []
    · rw [if_pos hwanted,candidates_eq hwanted]
    · have hmatching : candidates query rows =
          rows.filter (fun row => row.overlap (tokenize query) ≠ 0) :=
        List.filter_congr fun row _ => decide_eq_decide.mpr (or_iff_right hwanted)
      rw [if_neg hwanted,hmatching]
      exact (ranked_perm query rows).length_eq
  rw [search_eq hrows] at h
  rw [← Except.ok.inj h,length_slice,hpicked]

/-- Every search of a store that can be listed is answered. -/
theorem search_answers (hrows : entries lib tree token = .ok rows) (query : Str) (limit : Int) :
    NewestFirst rows ∧ ∃ found, search lib tree token query limit = .ok found ∧
      Answers rows query limit found := by
  obtain ⟨hkind,hnewest⟩ := entries_sorted hrows
  refine ⟨hnewest,_,search_eq hrows query limit,?_⟩
  obtain ⟨n,hslice,hn⟩ := slice_eq_take limit (if tokenize query = [] then rows else ranked query rows)
  have hbounded : 0 ≤ limit → (slice limit
      (if tokenize query = [] then rows else ranked query rows)).length ≤ limit.toNat := by
    intro hlimit
    rw [hslice,hn hlimit]
    exact List.length_take_le _ _
  by_cases hwanted : tokenize query = []
  · rw [if_pos hwanted] at hslice hbounded ⊢
    have hnone : ¬∃ t, Term query t := by
      rw [exists_term]
      exact not_not_intro hwanted
    refine ⟨fun h => absurd h hnone,fun h => absurd h hnone,fun h => absurd h hnone,hbounded,
      fun _ => ?_⟩
    rw [hslice]
    exact ⟨List.take_prefix _ _,fun hlimit => by rw [hn hlimit]⟩
  · rw [if_neg hwanted] at hslice hbounded ⊢
    have hpairwise := ranked_pairwise hkind query
    refine ⟨fun _ row hrow => mem_ranked (mem_slice hrow),fun _ => ?_,fun _ => ?_,hbounded,
      fun h => absurd ((exists_term query).mpr hwanted) h⟩
    · rw [hslice]
      exact hpairwise.sublist (List.take_sublist _ _)
    · refine ⟨(ranked query rows).drop n,
        rows.filter (fun row => !decide (row.overlap (tokenize query) ≠ 0)),?_,?_,?_⟩
      · rw [hslice,List.take_append_drop]
        exact (List.filter_append_perm _ rows).symm.trans ((ranked_perm query rows).symm.append_right _)
      · intro row hrow
        have hzero := (List.mem_filter.mp hrow).2
        rw [← Set.not_nonempty_iff_eq_empty,← overlap_ne_zero]
        simpa using hzero
      · intro row hrow
        rw [hslice]
        refine ⟨fun hlimit => ?_,fun a ha => ?_⟩
        · have hlength := List.length_pos_of_mem hrow
          rw [List.length_drop] at hlength
          rw [List.length_take,← hn hlimit]
          omega
        · rw [← List.take_append_drop n (ranked query rows)] at hpairwise
          exact (List.pairwise_append.mp hpairwise).2.2 a ha row hrow

end

/-! The closed examples search a store of two entries without tags. -/

def exampleChore : EntryArgs := { exampleEntry with content := .str (lit "wash up") }

/-- Two rows with these contents. -/
def Chores (rows : List Row) : Prop :=
  rows.length = 2 ∧ ∀ row ∈ rows, row.tagItems = [] ∧
    (row.content = lit "bin day" ∨ row.content = lit "wash up")

theorem tagItems_entryMeta (digest author content : Str) (now : Timestamp) (tags : List Str) :
    (Row.mk (entryMeta digest author now tags) content).tagItems = tags := by
  have hkeys : lit "tags" ≠ lit "id" ∧ lit "tags" ≠ lit "author" ∧ lit "tags" ≠ lit "created_at" := by
    decide
  rw [Row.tagItems,entryMeta,Dict.get_cons,if_neg hkeys.1,Dict.get_cons,if_neg hkeys.2.1,
    Dict.get_cons,if_neg hkeys.2.2,Dict.get_cons,if_pos rfl]
  rfl

theorem example_chores : ∃ trail created trail₁ s info trail₂ t info' rows,
    createStore exampleLibrary .working exampleCreate ⟨.empty,[]⟩ =
      (.ok created,⟨exampleStore,trail⟩) ∧
    addEntry exampleLibrary .working exampleEntry ⟨exampleStore,[]⟩ = (.ok ⟨info,false⟩,⟨s,trail₁⟩) ∧
    addEntry exampleLibrary .working exampleChore ⟨s,[]⟩ = (.ok ⟨info',false⟩,⟨t,trail₂⟩) ∧
    entries exampleLibrary t.tree (.str created.token) = .ok rows ∧ Chores rows := by
  obtain ⟨trail,hcreate⟩ := createStore_example
  obtain ⟨store,shelf,htoken,hstart⟩ := Tracks.created hcreate example_clean
  obtain ⟨bytes,hbytes⟩ := Option.isSome_iff_exists.mp (show Utf8Encodable (lit "bin day") by decide)
  obtain ⟨chore,hchore⟩ := Option.isSome_iff_exists.mp (show Utf8Encodable (lit "wash up") by decide)
  have hnone : shelf.items.map Prod.fst = [] := by
    rw [List.map_eq_nil_iff]
    exact List.map_eq_nil_iff.mp hstart.items
  obtain ⟨s,shelf₁,hstep,hfirst,hnames⟩ := hstart.add exampleEntry htoken exampleEntry_check
    ⟨by decide,by simp⟩ (by decide) hbytes
    (supplied_apart (show Collisionless exampleLibrary [lit "bin day"] by decide) (List.nil_subset _) hbytes)
    (by rw [hnone]; exact List.not_mem_nil) (by decide) (by decide) (by decide)
  have hcheck : exampleChore.check exampleLibrary = .ok ⟨lit "wash up",lit "ada",[]⟩ := by decide
  -- The second entry gets a file of its own.
  have hname : entryName (exampleLibrary.hexdigest chore) (lit "wash up") exampleNow ∉
      shelf₁.items.map Prod.fst := by
    have hday : entryName (exampleLibrary.hexdigest bytes) (lit "bin day") exampleNow =
      lit "2026-01-05-bin-day.md" := rfl
    have hwash : entryName (exampleLibrary.hexdigest chore) (lit "wash up") exampleNow =
      lit "2026-01-05-wash-up.md" := rfl
    rw [hnames,hnone,hwash]
    show lit "2026-01-05-wash-up.md" ∉
      [entryName (exampleLibrary.hexdigest bytes) (lit "bin day") exampleNow]
    rw [hday]
    decide
  obtain ⟨t,shelf₂,hstep',hsecond,_⟩ := hfirst.add exampleChore htoken hcheck
    ⟨by decide,by simp⟩ (by decide) hchore
    (supplied_apart (show Collisionless exampleLibrary [lit "wash up",lit "bin day"] by decide)
      (List.Subset.refl _) hchore) hname (by decide) (by decide) (by decide)
  obtain ⟨⟨trail₁,hrun⟩,_⟩ := hstep
  obtain ⟨⟨trail₂,hrun'⟩,_⟩ := hstep'
  obtain ⟨_,hadd,hadded⟩ := Effect.bind_pure_eq_ok.mp hrun
  obtain ⟨_,hadd',hadded'⟩ := Effect.bind_pure_eq_ok.mp hrun'
  cases hadded
  cases hadded'
  obtain ⟨rows,hrows,hperm⟩ := hsecond.entries htoken
  refine ⟨trail,_,trail₁,s,_,trail₂,t,_,rows,hcreate,hadd,hadd',hrows,?_⟩
  rw [appended_snoc,appended_snoc,Event.record,Event.record,record_ok hcheck hchore,
    record_ok exampleEntry_check hbytes] at hperm
  have hdict : ∀ row row' : Row, ((Dict.setDefault [] (lit "bin day") row).setDefault
      (lit "wash up") row').map Prod.snd = [row,row'] := by
    intro row row'
    rw [Dict.setDefault_new (Dict.get_nil _),List.nil_append,Dict.setDefault_new,List.map_append]
    · rfl
    · rw [Dict.get_cons,if_neg (show lit "wash up" ≠ lit "bin day" by decide),Dict.get_nil]
  have hrows' := hperm.trans (.of_eq (hdict _ _))
  refine ⟨hrows'.length_eq,fun row hrow => ?_⟩
  rcases List.mem_cons.mp (hrows'.subset hrow) with rfl | hrow
  · exact ⟨tagItems_entryMeta _ _ _ _ _,.inl rfl⟩
  · rw [List.mem_singleton.mp hrow]
    exact ⟨tagItems_entryMeta _ _ _ _ _,.inr rfl⟩

/-- The chores ranked for a query that matches both of them. -/
theorem search_answers_chores : ∃ tree rows found,
    entries exampleLibrary tree (.str exampleToken) = .ok rows ∧ Chores rows ∧
      search exampleLibrary tree (.str exampleToken) (lit "Wash the bin!") 1 = .ok found ∧
      Answers rows (lit "Wash the bin!") 1 found := by
  obtain ⟨_,created,_,_,_,_,t,_,rows,hcreate,_,_,hrows,hchores⟩ := example_chores
  obtain ⟨trail,hcreate'⟩ := createStore_example
  have htoken : exampleToken = created.token := by
    rw [hcreate'] at hcreate
    exact congrArg Created.token (Except.ok.inj (Prod.mk.inj hcreate).1)
  rw [← htoken] at hrows
  obtain ⟨_,found,hfound,hanswers⟩ := search_answers hrows (lit "Wash the bin!") 1
  exact ⟨t.tree,rows,found,hrows,hchores,hfound,hanswers⟩

/-- A run that is in the query and in the row, whatever counts as a letter or a digit. -/
def SharesRun (query : Str) (row : Row) : Prop :=
  ∃ letter run, MaximalRun letter (lower query) run ∧ (MaximalRun letter (lower row.content) run ∨
    ∃ tag ∈ row.tagItems, MaximalRun letter (lower tag) run)

theorem not_sharesRun {rows : List Row} {query : Str} {c : CodePoint} (h : Chores rows)
    (hquery : lower query = [c]) (hbin : c ∉ lower (lit "bin day"))
    (hwash : c ∉ lower (lit "wash up")) : ∀ row ∈ rows, ¬SharesRun query row := by
  rintro row hrow ⟨letter,run,hrun,hshared⟩
  obtain ⟨htags,hcontent⟩ := h.2 row hrow
  have hc : c ∈ run := by
    obtain ⟨d,hd⟩ := List.exists_mem_of_ne_nil run hrun.1
    have hsame := hrun.subset hd
    rw [hquery,List.mem_singleton] at hsame
    rwa [hsame] at hd
  rcases hshared with hshared | ⟨tag,htag,_⟩
  · rcases hcontent with hcontent | hcontent
    · rw [hcontent] at hshared
      exact hbin (hshared.subset hc)
    · rw [hcontent] at hshared
      exact hwash (hshared.subset hc)
  · rw [htags] at htag
    cases htag

/-- A letter outside ASCII, or a single one, finds everything, and a negative limit finds more
than nothing. -/
theorem search_unmatched : ∃ trail created trail₁ s info trail₂ t info' rows few,
    createStore exampleLibrary .working exampleCreate ⟨.empty,[]⟩ =
      (.ok created,⟨exampleStore,trail⟩) ∧
    addEntry exampleLibrary .working exampleEntry ⟨exampleStore,[]⟩ = (.ok ⟨info,false⟩,⟨s,trail₁⟩) ∧
    addEntry exampleLibrary .working exampleChore ⟨s,[]⟩ = (.ok ⟨info',false⟩,⟨t,trail₂⟩) ∧
    search exampleLibrary t.tree (.str created.token) (lit "\u00e9") 10 = .ok rows ∧
    search exampleLibrary t.tree (.str created.token) (lit "x") 10 = .ok rows ∧ rows.length = 2 ∧
    (∀ row ∈ rows, ¬SharesRun (lit "\u00e9") row ∧ ¬SharesRun (lit "x") row) ∧
    search exampleLibrary t.tree (.str created.token) (lit "x") (-1) = .ok few ∧
      max (-1) 0 < (few.length : ℤ) := by
  obtain ⟨trail,created,trail₁,s,info,trail₂,t,info',rows,hcreate,hadd,hadd',hrows,hchores⟩ :=
    example_chores
  have haccent : tokenize (lit "\u00e9") = [] := by decide
  have hsingle : tokenize (lit "x") = [] := by decide
  have htake : slice 10 rows = rows := by
    rw [slice,if_pos (by decide)]
    exact List.take_of_length_le (by rw [hchores.1]; decide)
  have hfew : search exampleLibrary t.tree (.str created.token) (lit "x") (-1) =
      .ok (slice (-1) rows) := by
    rw [search_eq hrows,if_pos hsingle]
  refine ⟨trail,created,trail₁,s,info,trail₂,t,info',rows,slice (-1) rows,hcreate,hadd,hadd',
    ?_,?_,hchores.1,fun row hrow => ⟨?_,?_⟩,hfew,?_⟩
  · rw [search_eq hrows,if_pos haccent,htake]
  · rw [search_eq hrows,if_pos hsingle,htake]
  · exact not_sharesRun hchores (show _ = [0xe9] by decide) (by decide) (by decide) row hrow
  · exact not_sharesRun hchores (show _ = [120] by decide) (by decide) (by decide) row hrow
  · rw [search_length hrows hfew,if_neg (by decide),candidates_eq hsingle,hchores.1]
    decide

end HearthAI.Memory
