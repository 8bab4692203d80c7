import HearthAI.Memory.Encoding

/-! # What a reader finds while an entry is written

Readers take no lock. The file of an entry is empty before it is full, and an
empty file is none that the parser accepts, so every write has an instant in
which the whole store cannot be listed.
-/
namespace HearthAI.Memory
open Python Effect
variable {lib : Library}

/-- A state in which a reader gets everything that was listed before, unchanged. -/
def Listed (lib : Library) (token : Value) (before s : Snapshot) : Prop :=
  ∃ rows, entries lib s.tree token = .ok rows ∧
    ∀ old, entries lib before.tree token = .ok old → ∀ row ∈ old, row ∈ rows

/-- The call passes its checks, its store can be read and does not have its content. -/
def ReachesWrite (lib : Library) (tree : Tree) (args : EntryArgs) : Prop :=
  ∃ entry name dir bytes, args.check lib = .ok entry ∧
    dirFor lib tree args.token = .ok (name,dir) ∧ dir.entries.isSome = true ∧
    encodeUtf8 entry.content = some bytes ∧
    ∀ file ∈ sortedEntries dir, ∃ info body, loadFile file.2 = .ok (info,body) ∧
      info.get (lit "content_sha256") ≠ some (.str (lib.hexdigest bytes))

theorem mapM_ok {ε α β : Type} {f : α → Except ε β} {l : List α} {r : List β}
    (h : l.mapM f = .ok r) : ∀ a ∈ l, ∃ b, f a = .ok b := by
  induction l generalizing r with
  | nil => simp
  | cons a l ih =>
    rw [List.mapM_cons] at h
    obtain ⟨b,hb,h⟩ := bind_eq_ok.mp h
    obtain ⟨rest,hrest,_⟩ := bind_eq_ok.mp h
    exact List.forall_mem_cons.mpr ⟨⟨b,hb⟩,ih hrest⟩

/-- A store is listed only when each of its files is read. -/
theorem loads_of_entries {tree : Tree} {token : Value} {name : Str} {dir : StoreDir}
    (hdir : dirFor lib tree token = .ok (name,dir)) {rows : List Row}
    (h : entries lib tree token = .ok rows) :
    ∀ file ∈ sortedEntries dir, ∃ loaded, loadFile file.2 = .ok loaded := by
  unfold entries at h
  obtain ⟨found,hfound,h⟩ := bind_eq_ok.mp h
  rw [hdir,Except.ok.injEq] at hfound
  subst hfound
  obtain ⟨loaded,hloaded,_⟩ := bind_eq_ok.mp h
  intro file hfile
  obtain ⟨row,hrow⟩ := mapM_ok (mapError_eq_ok.mp hloaded) file hfile
  obtain ⟨result,hresult,_⟩ := bind_eq_ok.mp hrow
  exact ⟨result,hresult⟩

theorem loadFile_empty : loadFile [] = .error .noDelimiter := rfl

/-- Between its truncation and its write, the new file keeps the store from being listed. -/
theorem not_listed_truncated {s : Snapshot} {args : EntryArgs} {entry : NewEntry} {dir : StoreDir}
    {digest : Str} {pending : Pending} (hready : Ready lib s.tree args entry dir digest pending)
    (files : Dict Str Str) (rows : List Row) :
    entries lib (pending.at [] s dir files).tree args.token ≠ .ok rows := by
  intro h
  obtain ⟨hname,_⟩ := dirFor_ok.mp hready.found
  have hdir : dirFor lib (pending.at [] s dir files).tree args.token =
      .ok (pending.dirName,pending.shelve [] dir files) :=
    dirFor_ok.mpr ⟨hname,Dict.get_set_self _ _ _⟩
  have hmem : (pending.name,[]) ∈ sortedEntries (pending.shelve [] dir files) := by
    refine mem_sortedEntries.mpr ⟨Dict.mem_of_get (Dict.get_set_self files pending.name []),?_⟩
    rw [hready.pending_eq]
    exact endsWith_entryName _ _ _
  obtain ⟨loaded,hloaded⟩ := loads_of_entries hdir h _ hmem
  rw [loadFile_empty] at hloaded
  cases hloaded

theorem reachesWrite_iff {tree : Tree} {args : EntryArgs} : ReachesWrite lib tree args ↔
    ∃ pending entry dir digest files, Ready lib tree args entry dir digest pending ∧
      dir.entries = some files := by
  constructor
  · rintro ⟨entry,name,dir,bytes,hentry,hdir,hfiles,hbytes,hunlisted⟩
    obtain ⟨files,hfiles⟩ := Option.isSome_iff_exists.mp hfiles
    exact ⟨entry.pending name (lib.hexdigest bytes) args.now,entry,dir,lib.hexdigest bytes,files,
      ⟨hentry,hdir,⟨bytes,hbytes,rfl⟩,hunlisted,rfl⟩,hfiles⟩
  · rintro ⟨pending,entry,dir,digest,files,hready,hfiles⟩
    obtain ⟨bytes,hbytes,rfl⟩ := hready.digested
    exact ⟨entry,pending.dirName,dir,bytes,hready.checked,hready.found,by rw [hfiles]; rfl,hbytes,
      hready.unlisted⟩

/-- The first step of a write is the truncation. -/
theorem truncated_mem_trail {git : Git} {disk : Disk} {pending : Pending} {dir : StoreDir}
    {files : Dict Str Str} (hdir : disk.now.tree.get pending.dirName = some dir)
    (hfiles : dir.entries = some files) :
    pending.at [] disk.now dir files ∈ (pending.store git disk).2.trail := by
  by_cases hencodable : Utf8Encodable pending.text
  · have hspec := store_spec git disk hdir hfiles hencodable
    rcases hstore : pending.store git disk with ⟨e | added,after⟩
    · rw [hstore] at hspec
      obtain ⟨_,_,more,htrail,_⟩ := hspec
      simp [htrail]
    · rw [hstore] at hspec
      obtain ⟨_,_,more,htrail,_⟩ := hspec
      simp [htrail]
  · rw [store_unencodable git hdir hfiles hencodable]
    simp

/-- A call that writes passes through a state that cannot be listed. -/
theorem exists_unlisted {git : Git} {before : Snapshot} {args : EntryArgs}
    (h : ReachesWrite lib before.tree args) :
    ∃ s ∈ (addEntry lib git args ⟨before,[]⟩).2.trail, ∀ rows,
      entries lib s.tree args.token ≠ .ok rows := by
  obtain ⟨pending,entry,dir,digest,files,hready,hfiles⟩ := reachesWrite_iff.mp h
  have hwrite : prepare lib before.tree args = .ok (.write pending) :=
    prepare_write.mpr ⟨entry,dir,digest,hready⟩
  rw [addEntry_write git ⟨before,[]⟩ hwrite]
  exact ⟨_,truncated_mem_trail (dirFor_ok.mp hready.found).2 hfiles,
    not_listed_truncated hready files⟩

/-- A call that does not write takes no step. -/
theorem trail_of_not_reachesWrite {git : Git} {before : Snapshot} {args : EntryArgs}
    (h : ¬ReachesWrite lib before.tree args) :
    (addEntry lib git args ⟨before,[]⟩).2.trail = [] := by
  cases hprepare : prepare lib before.tree args with
  | error e => rw [addEntry_refused git ⟨before,[]⟩ hprepare]
  | ok prepared =>
    cases prepared with
    | duplicate info => rw [addEntry_duplicate git ⟨before,[]⟩ hprepare]
    | write pending =>
      obtain ⟨entry,dir,digest,hready⟩ := prepare_write.mp hprepare
      rw [addEntry_write git ⟨before,[]⟩ hprepare]
      cases hfiles : dir.entries with
      | none => rw [store_missing git (dirFor_ok.mp hready.found).2 hfiles]
      | some files =>
        exact absurd (reachesWrite_iff.mpr ⟨pending,entry,dir,digest,files,hready,hfiles⟩) h

/-- Every state a call goes through can be listed exactly when the call does not write. -/
theorem addEntry_listed_iff (lib : Library) (git : Git) (before : Snapshot) (args : EntryArgs) :
    (∀ s ∈ (addEntry lib git args ⟨before,[]⟩).2.trail, Listed lib args.token before s) ↔
      ¬ReachesWrite lib before.tree args := by
  constructor
  · intro h hreaches
    obtain ⟨s,hs,hunlisted⟩ := exists_unlisted hreaches
    obtain ⟨rows,hrows,_⟩ := h s hs
    exact hunlisted rows hrows
  · intro h s hs
    rw [trail_of_not_reachesWrite h] at hs
    cases hs

/-- The first entry of a store: while it is written, the store cannot be listed. -/
theorem addEntry_example_unlisted :
    (∃ created trail, createStore exampleLibrary .working exampleCreate ⟨.empty,[]⟩ =
      (.ok created,⟨exampleStore,trail⟩)) ∧
    ∃ s ∈ (addEntry exampleLibrary .working exampleEntry ⟨exampleStore,[]⟩).2.trail,
      ∀ rows, entries exampleLibrary s.tree (.str exampleToken) ≠ .ok rows := by
  obtain ⟨trail,hcreate⟩ := createStore_example
  refine ⟨⟨_,trail,hcreate⟩,exists_unlisted ?_⟩
  obtain ⟨pending,dir,digest,hready,hfiles⟩ := exampleEntry_ready
  exact reachesWrite_iff.mpr ⟨pending,_,dir,digest,[],hready,hfiles⟩

end HearthAI.Memory
