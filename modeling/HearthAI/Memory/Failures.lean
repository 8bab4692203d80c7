import HearthAI.Core.Transition
import HearthAI.Memory.Create
import HearthAI.Memory.Encoding
import HearthAI.Memory.Intermediate

/-! # Failed writes

A call makes directories and files before its last chance to raise. The cases in
which it then leaves something behind are the ones that spoil the disk.
-/
namespace HearthAI.Memory
open Python Effect Transition
variable {lib : Library}

/-- If the call raises for another reason than git, the disk is as it was. -/
def Unchanged (lib : Library) (before : Snapshot) (call : Call) : Prop :=
  ∀ e after, call.exec lib ⟨before,[]⟩ = (.error e,after) → e ≠ .calledProcess →
    after.now = before

/-- A creation that raises after it made its directories. -/
def CreateArgs.Spoils (lib : Library) (git : Git) (before : Snapshot) (args : CreateArgs) : Prop :=
  ∃ purpose name, Opens lib before.tree args purpose name ∧
    ∀ author, (args.author.orElse (.str (lit "unknown"))).strip = .ok author →
      ¬Utf8Encodable purpose ∨ ¬Utf8Encodable author ∨
        git.Refuses (lit "create store: " ++ purpose)
          (Disk.filled ⟨before,[]⟩ name (storeText purpose author args.now))

/-- A new entry that raises after its file was made or truncated. -/
def EntryArgs.Spoils (lib : Library) (git : Git) (before : Snapshot) (args : EntryArgs) : Prop :=
  ∃ entry dir digest pending files, Ready lib before.tree args entry dir digest pending ∧
    dir.entries = some files ∧
    (¬Utf8Encodable entry.author ∨ (∃ tag ∈ entry.tags, ¬Utf8Encodable tag) ∨
      files.get pending.name ≠ some pending.text ∧
        git.Refuses pending.message (pending.at pending.text before dir files))

def Call.Spoils (lib : Library) (before : Snapshot) : Call → Prop
  | .create git args => args.Spoils lib git before
  | .add git args => args.Spoils lib git before

theorem exec_create {git : Git} {args : CreateArgs} {disk after : Disk} {e : Failure} :
    (Call.create git args).exec lib disk = (.error e,after) ↔
      createStore lib git args disk = (.error e,after) := bind_pure_eq_error

theorem exec_add {git : Git} {args : EntryArgs} {disk after : Disk} {e : Failure} :
    (Call.add git args).exec lib disk = (.error e,after) ↔
      addEntry lib git args disk = (.error e,after) := bind_pure_eq_error

section
variable {git : Git} {s : Snapshot} {message : Str}

/-- A store whose directory is another one is another store. -/
theorem withTree_set_ne {name : Str} {dir : StoreDir} (h : s.tree.get name ≠ some dir) :
    s.withTree (s.tree.set name dir) ≠ s := by
  intro hsame
  have hget := congrArg (fun t : Snapshot => t.tree.get name) hsame
  rw [Snapshot.withTree_tree,Dict.get_set_self] at hget
  exact h hget.symm

end

section
variable {git : Git} {before : Snapshot}

theorem create_spoiled {args : CreateArgs} (h : args.Spoils lib git before) :
    ∃ b after, createStore lib git args ⟨before,[]⟩ = (.error (.builtin b),after) ∧
      after.now ≠ before := by
  obtain ⟨purpose,name,hopens,hspoils⟩ := h
  have hmade : ∀ dir, before.withTree (before.tree.set name dir) ≠ before := fun dir =>
    withTree_set_ne (by rw [hopens.unused]; simp)
  rw [createStore_opens git hopens]
  cases hauthor : (args.author.orElse (.str (lit "unknown"))).strip with
  | error e => exact ⟨e,_,fillStore_author git hauthor,hmade _⟩
  | ok author =>
    by_cases hencodable : Utf8Encodable (storeText purpose author args.now)
    · obtain ⟨hpurpose,hauthor'⟩ := encodable_storeText.mp hencodable
      have hrefuses := ((hspoils author hauthor).resolve_left (not_not.mpr hpurpose)).resolve_left
        (not_not.mpr hauthor')
      rw [fillStore_spec git hauthor hencodable]
      obtain ⟨error,hcommit⟩ := commit_refuses hrefuses _
      exact ⟨error,_,bind_error hcommit,hmade _⟩
    · exact ⟨_,_,fillStore_unencodable git hauthor hencodable,hmade _⟩

theorem create_unspoiled {args : CreateArgs} (h : ¬args.Spoils lib git before) {e : Failure}
    {after : Disk} (hrun : createStore lib git args ⟨before,[]⟩ = (.error e,after))
    (hgit : e ≠ .calledProcess) : after.now = before := by
  by_cases hopens : ∃ purpose name, Opens lib before.tree args purpose name
  · obtain ⟨purpose,name,hopens⟩ := hopens
    simp only [CreateArgs.Spoils,not_exists,not_and,not_forall,not_or,not_not] at h
    obtain ⟨author,hauthor,hpurpose,hencodable,hrefuses⟩ := h purpose name hopens
    rw [createStore_opens git hopens,fillStore_spec git hauthor
      (encodable_storeText.mpr ⟨hpurpose,hencodable⟩),bind_pure_eq_error] at hrun
    rcases (commit_error hrun).1 with rfl | ⟨_,hrefused⟩
    · exact absurd rfl hgit
    · exact absurd hrefused hrefuses
  · obtain ⟨e',_,hrefused⟩ := createStore_refused git ⟨before,[]⟩
      (fun purpose name hopens' => hopens ⟨purpose,name,hopens'⟩)
    rw [hrun] at hrefused
    rw [(Prod.mk.inj hrefused).2]

/-- The new file cannot be there empty already, because an empty file is not read. -/
theorem Ready.not_empty {tree : Tree} {args : EntryArgs} {entry : NewEntry} {dir : StoreDir}
    {digest : Str} {pending : Pending} {files : Dict Str Str}
    (h : Ready lib tree args entry dir digest pending) (hfiles : dir.entries = some files) :
    files.get pending.name ≠ some [] := by
  intro hget
  have hmem : (pending.name,[]) ∈ sortedEntries dir := by
    refine mem_sortedEntries.mpr ⟨by rw [hfiles]; exact Dict.mem_of_get hget,?_⟩
    rw [h.pending_eq]
    exact endsWith_entryName _ _ _
  obtain ⟨info,body,hload,_⟩ := h.unlisted _ hmem
  rw [loadFile_empty] at hload
  cases hload

theorem at_ne {pending : Pending} {text : Str} {dir : StoreDir} {files : Dict Str Str}
    (hdir : before.tree.get pending.dirName = some dir) (hfiles : dir.entries = some files)
    (htext : files.get pending.name ≠ some text) : pending.at text before dir files ≠ before := by
  refine withTree_set_ne ?_
  rw [hdir]
  intro hsame
  have hset := congrArg StoreDir.entries (Option.some.inj hsame)
  rw [hfiles,Pending.shelve,Option.some.injEq] at hset
  rw [hset,Dict.get_set_self] at htext
  exact htext rfl

theorem add_spoiled {args : EntryArgs} (h : args.Spoils lib git before) :
    ∃ b after, addEntry lib git args ⟨before,[]⟩ = (.error (.builtin b),after) ∧
      after.now ≠ before := by
  obtain ⟨entry,dir,digest,pending,files,hready,hfiles,hspoils⟩ := h
  have hdir := (dirFor_ok.mp hready.found).2
  rw [addEntry_write git ⟨before,[]⟩ (prepare_write.mpr ⟨entry,dir,digest,hready⟩)]
  by_cases hencodable : Utf8Encodable pending.text
  · obtain ⟨hauthor,htags⟩ := hready.encodable.mp hencodable
    have hrest := hspoils.resolve_left (not_not.mpr hauthor)
    obtain ⟨htext,hrefuses⟩ := hrest.resolve_left fun ⟨tag,htag,h⟩ => h (htags tag htag)
    rw [store_encodable git hdir hfiles hencodable]
    obtain ⟨error,hcommit⟩ := commit_refuses hrefuses _
    exact ⟨error,_,bind_error hcommit,at_ne hdir hfiles htext⟩
  · exact ⟨_,_,store_unencodable git hdir hfiles hencodable,
      at_ne hdir hfiles (hready.not_empty hfiles)⟩

theorem add_unspoiled {args : EntryArgs} (h : ¬args.Spoils lib git before) {e : Failure}
    {after : Disk} (hrun : addEntry lib git args ⟨before,[]⟩ = (.error e,after))
    (hgit : e ≠ .calledProcess) : after.now = before := by
  cases hprepare : prepare lib before.tree args with
  | error e' =>
    rw [addEntry_refused git ⟨before,[]⟩ hprepare] at hrun
    rw [← (Prod.mk.inj hrun).2]
  | ok prepared =>
    cases prepared with
    | duplicate info =>
      rw [addEntry_duplicate git ⟨before,[]⟩ hprepare] at hrun
      cases (Prod.mk.inj hrun).1
    | write pending =>
      obtain ⟨entry,dir,digest,hready⟩ := prepare_write.mp hprepare
      have hdir := (dirFor_ok.mp hready.found).2
      rw [addEntry_write git ⟨before,[]⟩ hprepare] at hrun
      cases hfiles : dir.entries with
      | none =>
        rw [store_missing git hdir hfiles] at hrun
        rw [← (Prod.mk.inj hrun).2]
      | some files =>
        simp only [EntryArgs.Spoils,not_exists,not_and,not_or,not_not] at h
        obtain ⟨hauthor,htags,hrefuses⟩ := h entry dir digest pending files hready hfiles
        have hencodable := hready.encodable.mpr ⟨hauthor,fun tag htag => htags tag htag⟩
        have hstore := store_spec git ⟨before,[]⟩ hdir hfiles hencodable
        rw [hrun] at hstore
        obtain ⟨hfailure,hnow,_⟩ := hstore
        rcases hfailure with rfl | ⟨_,hrefused⟩
        · exact absurd rfl hgit
        rw [hnow]
        by_contra hne
        refine hrefuses (fun hget => hne ?_) hrefused
        have hshelve : pending.shelve pending.text dir files = dir := by
          rw [Pending.shelve,Dict.set_of_get hget,← hfiles]
        rw [Pending.at,hshelve,Dict.set_of_get hdir]
        rfl

end

/-- Whether the call returned, or raised because git did. -/
def Event.counts (event : Event) : Bool :=
  match event.result with
  | .ok _ => true
  | .error e => e == .calledProcess

/-- A call that raises leaves everything as it was exactly when it is not one that spoils. -/
theorem unchanged_iff (lib : Library) (before : Snapshot) (call : Call) :
    Unchanged lib before call ↔ ¬call.Spoils lib before := by
  cases call with
  | create git args =>
    constructor
    · intro h hspoils
      obtain ⟨b,after,hrun,hne⟩ := create_spoiled hspoils
      exact hne (h _ _ (exec_create.mpr hrun) (by simp))
    · exact fun h e after hrun hgit => create_unspoiled h (exec_create.mp hrun) hgit
  | add git args =>
    constructor
    · intro h hspoils
      obtain ⟨b,after,hrun,hne⟩ := add_spoiled hspoils
      exact hne (h _ _ (exec_add.mpr hrun) (by simp))
    · exact fun h e after hrun hgit => add_unspoiled h (exec_add.mp hrun) hgit

theorem called_unchanged {s t : Snapshot} {event : Event} (h : Called lib s event t)
    (hspoils : ¬event.call.Spoils lib s) (hcounts : event.counts = false) : t = s := by
  obtain ⟨trail,hrun⟩ := h
  obtain ⟨call,result⟩ := event
  cases result with
  | ok outcome => cases hcounts
  | error e =>
    refine (unchanged_iff lib s call).mpr hspoils e _ hrun ?_
    rintro rfl
    cases hcounts

/-- Failed calls change nothing exactly when they do not spoil, and then whatever comes after
them goes as if they had not been made. -/
theorem failed_calls_leave_no_trace (lib : Library) :
    (∀ before call, Unchanged lib before call ↔ ¬call.Spoils lib before) ∧
      ∀ s log t,
        Run (fun s event t => Called lib s event t ∧ ¬event.call.Spoils lib s) s log t →
          Run (Called lib) s (log.filter Event.counts) t := by
  refine ⟨unchanged_iff lib,fun s log t h => ?_⟩
  have hfilter := h.filter (p := Event.counts)
    (fun t event u hstep hcounts => called_unchanged hstep.1 hstep.2 hcounts)
  exact hfilter.mono (fun _ _ _ hstep => hstep.1)

/-- An author that is a number is looked at when the directories are there already. -/
theorem createStore_numeric_author :
    ∃ after, createStore exampleLibrary .working { exampleCreate with author := .int 5 }
        ⟨.empty,[]⟩ = (.error (.builtin .attributeError),after) ∧
      after.now.tree = [(exampleName,⟨none,some []⟩)] ∧ after.now ≠ Snapshot.empty := by
  have hopens : Opens exampleLibrary [] { exampleCreate with author := .int 5 }
      (lit "household") exampleName := ⟨rfl,by decide,exampleName_eq,rfl⟩
  refine ⟨Disk.opened ⟨.empty,[]⟩ exampleName,?_,rfl,withTree_set_ne (by decide)⟩
  rw [createStore_opens .working hopens,fillStore_author .working rfl]

end HearthAI.Memory
