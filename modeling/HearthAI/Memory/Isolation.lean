import HearthAI.Core.Transition
import HearthAI.Memory.Encoding
import HearthAI.Memory.Paths

/-! # One store does not reach another

The directory of a store is named by the digest of its token. A call changes no other
directory, and the paths that it writes to stay in the directory of its own.
-/
namespace HearthAI.Memory
open Python Effect Transition

/-- Every state on the way has the same directory under a name. -/
def Keeps (other : Str) (before after : Disk) : Prop :=
  ∃ more, after.trail = before.trail ++ more ∧
    ∀ s ∈ after.now :: more, s.tree.get other = before.now.tree.get other

/-- The token has a digest that the other token does not have. -/
def Apart (lib : Library) (token other : Value) : Prop :=
  ∀ digest, tokenDigest lib token = .ok digest → tokenDigest lib other ≠ .ok digest

/-- Nothing that can be read with the token has changed. -/
structure SameAnswers (lib : Library) (before after : Tree) (token : Value) : Prop where
  describe : describe lib after token = describe lib before token
  entries : entries lib after token = entries lib before token
  search : ∀ query limit, search lib after token query limit = search lib before token query limit

/-- What a call writes in the directory of its store. -/
def Operation.Writes : Operation → List Str → Prop
  | createStore _ _, rest => rest = [] ∨ rest = [lit "entries"] ∨ rest = [lit "store.md"]
  | addEntry _ _, rest => ∃ name, rest = [lit "entries",name] ∧ endsWith (lit ".md") name = true
  | _, _ => False

/-- The path leads into the directory of the token's store, to something the call writes. -/
def Operation.Owns (store : MemoryStore) (operation : Operation) (path : Path) : Prop :=
  ∃ digest rest, tokenDigest store.lib operation.token = .ok digest ∧
    store.root.below path = some (lit "stores" :: digest :: rest) ∧ operation.Writes rest

section
variable {other name : Str} {lib : Library}

theorem Keeps.refl (disk : Disk) : Keeps other disk disk :=
  ⟨[],(List.append_nil _).symm,by simp⟩

theorem Keeps.trans (a b c : Disk) (hab : Keeps other a b) (hbc : Keeps other b c) :
    Keeps other a c := by
  obtain ⟨first,hfirst,hsame⟩ := hab
  obtain ⟨more,hmore,hsame'⟩ := hbc
  obtain ⟨hb,hsame⟩ := List.forall_mem_cons.mp hsame
  refine ⟨first ++ more,by rw [hmore,hfirst,List.append_assoc],fun s hs => ?_⟩
  rcases List.mem_cons.mp hs with rfl | hs
  · exact (hsame' _ List.mem_cons_self).trans hb
  · rcases List.mem_append.mp hs with hs | hs
    · exact hsame s hs
    · exact (hsame' s (List.mem_cons_of_mem _ hs)).trans hb

theorem goTo_keeps {f : Snapshot → Snapshot}
    (h : ∀ now, (f now).tree.get other = now.tree.get other) : Within (Keeps other) (goTo f) :=
  fun disk => ⟨[f disk.now],rfl,by simp [h]⟩

theorem set_keeps (h : name ≠ other) (dir : StoreDir) :
    Within (Keeps other) (change (·.set name dir)) :=
  goTo_keeps fun now => Dict.get_set_of_ne now.tree h.symm dir

theorem mkdirStore_keeps (h : name ≠ other) : Within (Keeps other) (mkdirStore name) :=
  Within.read fun _ => Within.bind Keeps.trans (Within.raiseIf Keeps.refl _ _) fun _ _ _ _ =>
    set_keeps h _

theorem mkdirEntries_keeps (h : name ≠ other) : Within (Keeps other) (mkdirEntries name) := by
  refine Within.read fun disk => ?_
  cases disk.now.tree.get name with
  | none => exact Within.raise Keeps.refl _
  | some dir =>
    exact Within.bind Keeps.trans (Within.raiseIf Keeps.refl _ _) fun _ _ _ _ => set_keeps h _

theorem writeText_keeps (h : name ≠ other) (target : Target) (text : Str) :
    Within (Keeps other) (writeText name target text) := by
  refine Within.read fun disk => ?_
  cases disk.now.tree.get name with
  | none => exact Within.raise Keeps.refl _
  | some dir =>
    dsimp only
    cases target.put [] dir with
    | none => exact Within.raise Keeps.refl _
    | some truncated =>
      cases target.put text dir with
      | none => exact Within.raise Keeps.refl _
      | some written =>
        exact Within.bind Keeps.trans (set_keeps h _) fun _ _ _ _ =>
          Within.bind Keeps.trans (Within.lift Keeps.refl _) fun _ _ _ _ => set_keeps h _

theorem gitCommand_keeps (succeeds : Bool) {f : Snapshot → Snapshot} (h : ∀ now, (f now).tree = now.tree) :
    Within (Keeps other) (gitCommand succeeds f) :=
  Within.bind Keeps.trans (Within.raiseIf Keeps.refl _ _) fun _ _ _ _ =>
    goTo_keeps fun now => by rw [h]

theorem commit_keeps (git : Git) (message : Str) : Within (Keeps other) (commit git message) := by
  refine Within.bind Keeps.trans (gitCommand_keeps _ fun _ => rfl) fun _ _ _ _ =>
    Within.bind Keeps.trans (gitCommand_keeps _ fun _ => rfl) fun _ _ _ _ => Within.read fun disk => ?_
  by_cases hdirty : files disk.now.tree ≠ disk.now.head
  · rw [if_pos hdirty]
    cases argumentError message with
    | some error => exact Within.raise Keeps.refl _
    | none => exact gitCommand_keeps _ fun _ => rfl
  · rw [if_neg hdirty]
    exact Within.pure Keeps.refl _

theorem createStore_keeps (git : Git) {args : CreateArgs}
    (h : tokenDigest lib (.str args.token) ≠ .ok other) :
    Within (Keeps other) (createStore lib git args) := by
  refine Within.bind Keeps.trans (Within.lift Keeps.refl _) fun _ purpose _ _ =>
    Within.bind Keeps.trans (Within.raiseIf Keeps.refl _ _) fun _ _ _ _ =>
      Within.bind Keeps.trans (Within.lift Keeps.refl _) fun _ name _ hname => ?_
  have hne : name ≠ other := by
    rintro rfl
    exact h (Prod.mk.inj hname).1
  refine Within.bind Keeps.trans (mkdirStore_keeps hne) fun _ _ _ _ =>
    Within.bind Keeps.trans (mkdirEntries_keeps hne) fun _ _ _ _ => ?_
  exact Within.bind Keeps.trans (Within.lift Keeps.refl _) fun _ author _ _ =>
    Within.bind Keeps.trans (writeText_keeps hne _ _) fun _ _ _ _ =>
      Within.bind Keeps.trans (commit_keeps git _) fun _ _ _ _ => Within.pure Keeps.refl _

theorem addEntry_keeps (git : Git) {args : EntryArgs} (h : tokenDigest lib args.token ≠ .ok other) :
    Within (Keeps other) (addEntry lib git args) := by
  intro disk
  cases hprepare : prepare lib disk.now.tree args with
  | error e =>
    rw [addEntry_refused git disk hprepare]
    exact Keeps.refl disk
  | ok prepared =>
    cases prepared with
    | duplicate info =>
      rw [addEntry_duplicate git disk hprepare]
      exact Keeps.refl disk
    | write pending =>
      obtain ⟨entry,dir,digest,hready⟩ := prepare_write.mp hprepare
      have hne : pending.dirName ≠ other := by
        intro heq
        exact h (heq ▸ (dirFor_ok.mp hready.found).1)
      rw [addEntry_write git disk hprepare]
      exact Within.bind Keeps.trans (writeText_keeps hne _ _) (fun _ _ _ _ =>
        Within.bind Keeps.trans (commit_keeps git _) fun _ _ _ _ => Within.pure Keeps.refl _) disk

end

section
variable {store : MemoryStore} {name file text : Str} {p : Path → Prop}

/-- The parts of the paths that a call builds. -/
theorem plain_parts (h : Path.Plain name) (hfile : Path.Plain file) :
    ∀ part ∈ [lit "stores",name,lit "entries",lit "store.md",file], Path.Plain part := by
  simp only [List.forall_mem_cons]
  exact ⟨by decide,h,by decide,by decide,hfile,by simp⟩

theorem mkdir_store_logs (h : Path.Plain name) (hp : p (store.root.under [lit "stores",name])) :
    Logs p (store.mkdir (store.root.under [lit "stores",name])) (mkdirStore name) := by
  refine Logs.emit hp ?_
  rw [place_under fun part hpart => plain_parts h h part (by simp at hpart ⊢; tauto)]
  exact Logs.quiet _

theorem mkdir_entries_logs (h : Path.Plain name)
    (hp : p (store.root.under [lit "stores",name,lit "entries"])) :
    Logs p (store.mkdir (store.root.under [lit "stores",name,lit "entries"])) (mkdirEntries name) := by
  refine Logs.emit hp ?_
  rw [place_under fun part hpart => plain_parts h h part (by simp at hpart ⊢; tauto)]
  exact Logs.quiet _

theorem write_storeMd_logs (h : Path.Plain name)
    (hp : p (store.root.under [lit "stores",name,lit "store.md"])) :
    Logs p (store.write (store.root.under [lit "stores",name,lit "store.md"]) text)
      (writeText name .storeMd text) := by
  refine Logs.emit hp ?_
  rw [place_under fun part hpart => plain_parts h h part (by simp at hpart ⊢; tauto)]
  exact Logs.quiet _

theorem write_entry_logs (h : Path.Plain name) (hfile : Path.Plain file)
    (hp : p (store.root.under [lit "stores",name,lit "entries",file])) :
    Logs p (store.write (store.root.under [lit "stores",name,lit "entries",file]) text)
      (writeText name (.entry file) text) := by
  refine Logs.emit hp ?_
  rw [place_under fun part hpart => plain_parts h hfile part (by simp at hpart ⊢; tauto)]
  exact Logs.quiet _

theorem token_plain {token : Value} {digest : Str}
    (hsha : ∀ bytes, (store.lib.sha256 bytes).length = 32)
    (h : tokenDigest store.lib token = .ok digest) : Path.Plain digest := by
  obtain ⟨stripped,_,h⟩ := bind_eq_ok.mp h
  obtain ⟨bytes,_,h⟩ := bind_eq_ok.mp h
  rw [← Except.ok.inj h]
  exact plain_hexdigest (hsha bytes)

/-- The path leads below the directory of the token's store. -/
theorem owns_under {operation : Operation} {digest : Str} {rest : List Str}
    (htoken : tokenDigest store.lib operation.token = .ok digest) (hwrites : operation.Writes rest)
    (hplain : ∀ part ∈ lit "stores" :: digest :: rest, Path.Plain part) :
    operation.Owns store (store.root.under (lit "stores" :: digest :: rest)) :=
  ⟨digest,rest,htoken,Path.below_under hplain _,hwrites⟩

/-- On paths the call does what it does on the tree, and it writes nothing else. -/
theorem createStore_logs (hsha : ∀ bytes, (store.lib.sha256 bytes).length = 32) (git : Git)
    (args : CreateArgs) : Logs ((Operation.createStore git args).Owns store)
      (store.createStore git args) (createStore store.lib git args) := by
  refine Logs.bind (Logs.lift _) fun _ purpose _ _ => Logs.bind (Logs.raiseIf _ _) fun _ _ _ _ =>
    Logs.bind (Logs.lift _) fun _ digest _ hdigest => ?_
  have htoken : tokenDigest store.lib (.str args.token) = .ok digest := (Prod.mk.inj hdigest).1
  have hplain := token_plain hsha htoken
  have howns : ∀ rest, (Operation.createStore git args).Writes rest →
      (∀ part ∈ rest, Path.Plain part) → (Operation.createStore git args).Owns store
        (store.root.under (lit "stores" :: digest :: rest)) := by
    intro rest hwrites hrest
    refine owns_under htoken hwrites ?_
    rw [List.forall_mem_cons,List.forall_mem_cons]
    exact ⟨by decide,hplain,hrest⟩
  dsimp only
  rw [stores_join hplain,Path.join_under (by decide),Path.join_under (by decide)]
  refine Logs.bind (mkdir_store_logs hplain (howns [] (.inl rfl) (by simp))) fun _ _ _ _ =>
    Logs.bind (mkdir_entries_logs hplain (howns [_] (.inr (.inl rfl)) ?_)) fun _ _ _ _ => ?_
  · simp only [List.forall_mem_singleton]
    decide
  refine Logs.bind (Logs.lift _) fun _ author _ _ =>
    Logs.bind (write_storeMd_logs hplain (howns [_] (.inr (.inr rfl)) ?_)) fun _ _ _ _ =>
      Logs.bind (Logs.quiet _) fun _ _ _ _ => Logs.pure _
  simp only [List.forall_mem_singleton]
  decide

theorem addEntry_logs (hsha : ∀ bytes, (store.lib.sha256 bytes).length = 32) (git : Git)
    (args : EntryArgs) : Logs ((Operation.addEntry git args).Owns store)
      (store.addEntry git args) (addEntry store.lib git args) := by
  refine Logs.bind (Logs.quiet _) fun _ disk _ _ =>
    Logs.bind (Logs.lift _) fun _ prepared _ hprepared => ?_
  have hprepare : prepare store.lib disk.now.tree args = .ok prepared := (Prod.mk.inj hprepared).1
  cases prepared with
  | duplicate info => exact Logs.pure _
  | write pending =>
    obtain ⟨entry,dir,digest,hready⟩ := prepare_write.mp hprepare
    have htoken : tokenDigest store.lib args.token = .ok pending.dirName :=
      (dirFor_ok.mp hready.found).1
    have hplain := token_plain hsha htoken
    obtain ⟨bytes,_,rfl⟩ := hready.digested
    have hname : pending.name = entryName (store.lib.hexdigest bytes) entry.content args.now := by
      rw [hready.pending_eq]
      rfl
    have hfile : Path.Plain pending.name := hname ▸ plain_entryName _ _ _ _
    dsimp only
    rw [stores_join hplain,Path.join_under (by decide),Path.join_under hfile]
    refine Logs.bind (write_entry_logs hplain hfile (owns_under htoken ⟨_,rfl,?_⟩ ?_))
      fun _ _ _ _ => Logs.bind (Logs.quiet _) fun _ _ _ _ => Logs.pure _
    · rw [hname]
      exact endsWith_entryName _ _ _
    · intro part hpart
      exact plain_parts hplain hfile part (by simp at hpart ⊢; tauto)

/-- A call on paths is a call on the tree, which leaves the directories of other tokens. -/
theorem exec_spec (hsha : ∀ bytes, (store.lib.sha256 bytes).length = 32) (operation : Operation) :
    ∃ onTree : Op Answer, Logs (operation.Owns store) (operation.exec store) onTree ∧
      ∀ other, tokenDigest store.lib operation.token ≠ .ok other → Within (Keeps other) onTree := by
  have hreading : ∀ {α : Type} (wrap : α → Answer) (read : Tree → Except Failure α),
      ∃ onTree : Op Answer, Logs (operation.Owns store) (reading wrap read) onTree ∧
        ∀ other, Within (Keeps other) onTree := by
    intro α wrap read
    refine ⟨_,Logs.bind (Logs.quiet Effect.read) fun _ disk _ _ =>
      Logs.bind (Logs.lift (read disk.now.tree)) fun _ result _ _ => Logs.pure (wrap result),
      fun other => Within.read fun _ => Within.bind Keeps.trans (Within.lift Keeps.refl _)
        fun _ _ _ _ => Within.pure Keeps.refl _⟩
  cases operation with
  | createStore git args =>
    exact ⟨_,Logs.bind (createStore_logs hsha git args) fun _ result _ _ => Logs.pure (Answer.created result),
      fun other hother => Within.bind Keeps.trans (createStore_keeps git hother)
        fun _ _ _ _ => Within.pure Keeps.refl _⟩
  | addEntry git args =>
    exact ⟨_,Logs.bind (addEntry_logs hsha git args) fun _ result _ _ => Logs.pure (Answer.added result),
      fun other hother => Within.bind Keeps.trans (addEntry_keeps git hother)
        fun _ _ _ _ => Within.pure Keeps.refl _⟩
  | describe token =>
    obtain ⟨onTree,hlogs,hkeeps⟩ := hreading .described (fun tree => describe store.lib tree token)
    exact ⟨onTree,hlogs,fun other _ => hkeeps other⟩
  | entries token =>
    obtain ⟨onTree,hlogs,hkeeps⟩ := hreading .listed (fun tree => entries store.lib tree token)
    exact ⟨onTree,hlogs,fun other _ => hkeeps other⟩
  | search token query limit =>
    obtain ⟨onTree,hlogs,hkeeps⟩ :=
      hreading .listed (fun tree => search store.lib tree token query limit)
    exact ⟨onTree,hlogs,fun other _ => hkeeps other⟩

end

section
variable {lib : Library} {before after : Tree} {token : Value}

theorem dirFor_congr (h : ∀ digest, tokenDigest lib token = .ok digest →
    after.get digest = before.get digest) : dirFor lib after token = dirFor lib before token := by
  unfold dirFor
  cases htoken : tokenDigest lib token with
  | error e => rfl
  | ok digest => simp only [Bind.bind,Except.bind,h digest htoken]

/-- A token is answered from the directory of its digest. -/
theorem sameAnswers_of_get (h : ∀ digest, tokenDigest lib token = .ok digest →
    after.get digest = before.get digest) : SameAnswers lib before after token := by
  have hdir := dirFor_congr h
  have hentries : entries lib after token = entries lib before token := by
    rw [entries,entries,hdir]
  refine ⟨by rw [describe,describe,hdir],hentries,fun query limit => ?_⟩
  rw [search,search,hentries]

end

section
variable {store : MemoryStore} {u : Value}

theorem exec_sameAnswers (hsha : ∀ bytes, (store.lib.sha256 bytes).length = 32)
    (operation : Operation) (disk : Disk) (log : List Path) (h : Apart store.lib u operation.token) :
    SameAnswers store.lib disk.now.tree (operation.exec store (disk,log)).2.1.now.tree u := by
  obtain ⟨onTree,hlogs,hkeeps⟩ := exec_spec hsha operation
  obtain ⟨paths,_,hrun⟩ := hlogs disk log
  rw [hrun]
  refine sameAnswers_of_get fun digest hdigest => ?_
  obtain ⟨more,_,hsame⟩ := hkeeps digest (h digest hdigest) disk
  exact hsame _ List.mem_cons_self

theorem SameAnswers.refl (lib : Library) (tree : Tree) (token : Value) :
    SameAnswers lib tree tree token := ⟨rfl,rfl,fun _ _ => rfl⟩

theorem SameAnswers.trans {lib : Library} {a b c : Tree} (hab : SameAnswers lib a b u)
    (hbc : SameAnswers lib b c u) : SameAnswers lib a c u where
  describe := hbc.describe.trans hab.describe
  entries := hbc.entries.trans hab.entries
  search query limit := (hbc.search query limit).trans (hab.search query limit)

/-- A call on the working tree that a run has reached. -/
def Operated (store : MemoryStore) (s : Snapshot) (operation : Operation) (t : Snapshot) : Prop :=
  (operation.exec store (⟨s,[]⟩,[])).2.1.now = t

/-- Calls with tokens of other stores never change what a token is answered. -/
theorem run_sameAnswers (hsha : ∀ bytes, (store.lib.sha256 bytes).length = 32) {s t : Snapshot}
    {log : List Operation} (hrun : Run (Operated store) s log t) :
    (∀ operation ∈ log, Apart store.lib u operation.token) →
      SameAnswers store.lib s.tree t.tree u := by
  refine hrun.invariant (I := fun log t => (∀ operation ∈ log, Apart store.lib u operation.token) →
    SameAnswers store.lib s.tree t.tree u) (fun _ => .refl _ _ _) ?_
  rintro log mid operation _ _ ih rfl hapart
  obtain ⟨hearlier,hlast⟩ := List.forall_mem_append.mp hapart
  exact (ih hearlier).trans
    (exec_sameAnswers hsha operation ⟨mid,[]⟩ [] (hlast operation (List.mem_singleton_self _)))

/-- A call changes no answer of another store, and writes only into the directory of its own. -/
theorem stores_isolated (store : MemoryStore)
    (hsha : ∀ bytes, (store.lib.sha256 bytes).length = 32) (operation : Operation) (disk : Disk)
    (log : List Path) :
    (∀ u, Apart store.lib u operation.token →
      SameAnswers store.lib disk.now.tree (operation.exec store (disk,log)).2.1.now.tree u) ∧
    ∃ paths, (operation.exec store (disk,log)).2.2 = log ++ paths ∧
      ∀ path ∈ paths, operation.Owns store path := by
  refine ⟨fun u hapart => exec_sameAnswers hsha operation disk log hapart,?_⟩
  obtain ⟨onTree,hlogs,_⟩ := exec_spec hsha operation
  obtain ⟨paths,howns,hrun⟩ := hlogs disk log
  exact ⟨paths,by rw [hrun],howns⟩

end

/-- A content that spells a way out of the directory. -/
def climbingEntry : EntryArgs := { exampleEntry with content := .str (lit "../../etc/passwd") }

def climbingDigests : List (Str × Text.Bytes) :=
  (lit "../../etc/passwd",[55,84,214,203,58,56,225,24,94,91,56,45,95,62,243,241,24,175,117,191,75,240,37,77,31,219,132,55,245,20,35,224]) :: exampleDigests

/-- The digests of what is hashed here, and one digest for everything else. -/
def climbingStore : MemoryStore where
  lib := { exampleLibrary with
    sha256 := fun bytes => ((climbingDigests.find? (fun p => encodeUtf8 p.1 == some bytes)).map
      Prod.snd).getD (List.replicate 32 0) }
  root := Path.ofStr (lit "/srv/memory")

theorem climbingStore_sha256 (bytes : Text.Bytes) :
    (climbingStore.lib.sha256 bytes).length = 32 := by
  have hall : climbingDigests.all (fun p => p.2.length = 32) = true := by decide
  show (((climbingDigests.find? (fun p => encodeUtf8 p.1 == some bytes)).map Prod.snd).getD
    (List.replicate 32 0)).length = 32
  cases hfind : climbingDigests.find? (fun p => encodeUtf8 p.1 == some bytes) with
  | none => exact List.length_replicate
  | some p =>
    exact of_decide_eq_true (List.all_eq_true.mp hall p (List.mem_of_find?_eq_some hfind))

example : entryName (lit "0123456789abcdef") (lit "../../etc/passwd") exampleNow =
    lit "2026-01-05-etc-passwd.md" := by decide

theorem stores_isolated_climbing :
    (∀ u, Apart climbingStore.lib u (.str exampleToken) → SameAnswers climbingStore.lib
      exampleStore.tree ((Operation.addEntry .working climbingEntry).exec climbingStore
        (⟨exampleStore,[]⟩,[])).2.1.now.tree u) ∧
    ∃ paths, ((Operation.addEntry .working climbingEntry).exec climbingStore
      (⟨exampleStore,[]⟩,[])).2.2 = [] ++ paths ∧
        ∀ path ∈ paths, (Operation.addEntry .working climbingEntry).Owns climbingStore path :=
  stores_isolated climbingStore climbingStore_sha256 (.addEntry .working climbingEntry)
    ⟨exampleStore,[]⟩ []

end HearthAI.Memory
