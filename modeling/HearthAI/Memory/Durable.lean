import HearthAI.Core.Transition
import HearthAI.Memory.Archive

/-! # What is in the last commit when an entry is acknowledged

A new entry is answered after its commit. Content that is there already is answered
from the working tree, which may hold the file of a call whose commit failed.
-/
namespace HearthAI.Memory
open Python Effect Transition
variable {lib : Library}

/-- The text is that of the entry the answer reports. -/
def Reported (lib : Library) (args : EntryArgs) (added : Added) (text : Str) : Prop :=
  if added.duplicate = true then ∃ body, loadFile text = .ok (added.info,body)
  else ∃ entry, args.check lib = .ok entry ∧ text = dumps added.info entry.content

/-- The reported entry is a file of the store in the last commit. -/
def Acknowledged (lib : Library) (args : EntryArgs) (added : Added) (s : Snapshot) : Prop :=
  ∃ store name text, tokenDigest lib args.token = .ok store ∧
    ((store,some name),text) ∈ s.head ∧ Reported lib args added text

/-- The content is found in the working tree, and no committed file of the store
reads as what was found. -/
def Uncommitted (lib : Library) (s : Snapshot) (args : EntryArgs) : Prop :=
  ∃ info, prepare lib s.tree args = .ok (.duplicate info) ∧
    ∀ store name text body, tokenDigest lib args.token = .ok store →
      ((store,some name),text) ∈ s.head → loadFile text ≠ .ok (info,body)

def Event.Acknowledged (lib : Library) (event : Event) (after : Snapshot) : Prop :=
  ∀ git args added, event = ⟨.add git args,.ok (.added added)⟩ →
    Memory.Acknowledged lib args added after

def Call.Uncommitted (lib : Library) (before : Snapshot) : Call → Prop
  | .create _ _ => False
  | .add _ args => Memory.Uncommitted lib before args

theorem mem_files {tree : Tree} {store name text : Str} {dir : StoreDir} {entries : Dict Str Str}
    (hdir : tree.get store = some dir) (hentries : dir.entries = some entries)
    (htext : entries.get name = some text) : ((store,some name),text) ∈ files tree := by
  refine List.mem_flatMap.mpr ⟨_,Dict.mem_of_get hdir,List.mem_append_right _ ?_⟩
  rw [hentries]
  exact List.mem_map.mpr ⟨_,Dict.mem_of_get htext,rfl⟩

theorem acknowledged_iff {git : Git} {args : EntryArgs} {s t : Snapshot} {trail : List Snapshot}
    {added : Added} (h : addEntry lib git args ⟨s,[]⟩ = (.ok added,⟨t,trail⟩)) :
    Acknowledged lib args added t ↔ ¬Uncommitted lib s args := by
  rcases addEntry_ok h with ⟨info,hprepare,rfl,rfl⟩ |
    ⟨entry,dir,digest,pending,files,hready,hfiles,rfl,htree,hhead⟩
  · constructor
    · rintro ⟨store,name,text,hstore,hmem,body,hload⟩ ⟨info',hprepare',hnone⟩
      obtain rfl : info = info' := by
        rw [hprepare,Except.ok.injEq,Prepared.duplicate.injEq] at hprepare'
        exact hprepare'
      exact hnone store name text body hstore hmem hload
    · intro hfresh
      by_contra hlost
      refine hfresh ⟨info,hprepare,fun store name text body hstore hmem hload => hlost ?_⟩
      exact ⟨store,name,text,hstore,hmem,body,hload⟩
  · constructor
    · rintro _ ⟨info,hprepare,_⟩
      have hwrite := prepare_write.mpr ⟨entry,dir,digest,hready⟩
      rw [hprepare] at hwrite
      cases hwrite
    · intro _
      refine ⟨pending.dirName,pending.name,pending.text,(dirFor_ok.mp hready.found).1,?_,entry,
        hready.checked,?_⟩
      · rw [hhead,htree]
        exact mem_files (Dict.get_set_self _ _ _) rfl (Dict.get_set_self _ _ _)
      · rw [hready.pending_eq]
        rfl

theorem called_acknowledged_iff {s t : Snapshot} {event : Event} (h : Called lib s event t) :
    event.Acknowledged lib t ↔ ¬event.call.Uncommitted lib s := by
  obtain ⟨trail,hrun⟩ := h
  obtain ⟨call,result⟩ := event
  cases call with
  | create git args =>
    refine iff_of_true ?_ not_false
    intro git' args' added hevent
    cases hevent
  | add git args =>
    cases result with
    | ok outcome =>
      obtain ⟨added,hadded,rfl⟩ := bind_pure_eq_ok.mp hrun
      refine Iff.trans ⟨fun h => h git args added rfl,?_⟩ (acknowledged_iff hadded)
      intro h git' args' added' hevent
      cases hevent
      exact h
    | error e =>
      refine iff_of_true (fun git' args' added' hevent => by cases hevent) ?_
      rintro ⟨info,hprepare,_⟩
      have hraised := bind_pure_eq_error.mp hrun
      rw [addEntry_duplicate git ⟨s,[]⟩ hprepare] at hraised
      cases (Prod.mk.inj hraised).1

/-- In a run every answer is in the last commit exactly when no call is answered from a file
that git has yet to commit. -/
theorem run_acknowledged_iff (lib : Library) (start : Snapshot) (log : List Event) (s : Snapshot) :
    Run (fun s event t => Called lib s event t ∧ event.Acknowledged lib t) start log s ↔
      Run (fun s event t => Called lib s event t ∧ ¬event.call.Uncommitted lib s) start log s :=
  Run.congr fun _ _ _ => and_congr_right called_acknowledged_iff

/-- The call returned after a commit of its own. -/
def Event.Commits (event : Event) : Prop :=
  ∃ outcome, event.result = .ok outcome ∧ ∀ info, outcome ≠ .added ⟨info,true⟩

/-- A call commits all files, or changes nothing, or raises and leaves the last commit as it was. -/
theorem called_cases {s t : Snapshot} {event : Event} (h : Called lib s event t) :
    (event.Commits ∧ t.head = files t.tree) ∨
      ¬event.Commits ∧ (t = s ∨ (∃ e, event.result = .error e) ∧ t.head = s.head) := by
  obtain ⟨trail,hrun⟩ := h
  obtain ⟨call,result⟩ := event
  cases result with
  | error e =>
    refine .inr ⟨fun ⟨_,hresult,_⟩ => (by cases hresult),.inr ⟨⟨e,rfl⟩,?_⟩⟩
    cases call with
    | create git args => exact createStore_head (bind_pure_eq_error.mp hrun)
    | add git args => exact addEntry_head (bind_pure_eq_error.mp hrun)
  | ok outcome =>
    cases call with
    | create git args =>
      obtain ⟨created,hcreated,rfl⟩ := bind_pure_eq_ok.mp hrun
      obtain ⟨_,_,_,_,_,_,_,hhead⟩ := createStore_ok hcreated
      exact .inl ⟨⟨_,rfl,nofun⟩,hhead⟩
    | add git args =>
      obtain ⟨added,hadded,rfl⟩ := bind_pure_eq_ok.mp hrun
      rcases addEntry_ok hadded with ⟨info,_,rfl,rfl⟩ | ⟨_,_,_,_,_,_,_,rfl,_,hhead⟩
      · refine .inr ⟨?_,.inl rfl⟩
        rintro ⟨_,hresult,hother⟩
        exact hother info (Except.ok.inj hresult).symm
      · exact .inl ⟨⟨_,rfl,nofun⟩,hhead⟩

/-- A call has written the file and then raised, and no call has committed since. -/
def LeftBehind (lib : Library) (start : Snapshot) (log : List Event)
    (file : (Str × Option Str) × Str) : Prop :=
  ∃ earlier event later mid after, log = earlier ++ event :: later ∧
    Run (Called lib) start earlier mid ∧ Called lib mid event after ∧
    (∃ e, event.result = .error e) ∧ file ∉ files mid.tree ∧ file ∈ files after.tree ∧
    file ∉ mid.head ∧ ∀ other ∈ later, ¬other.Commits

theorem LeftBehind.snoc {start : Snapshot} {log : List Event} {file : (Str × Option Str) × Str}
    {event : Event} (h : LeftBehind lib start log file) (hevent : ¬event.Commits) :
    LeftBehind lib start (log ++ [event]) file := by
  obtain ⟨earlier,left,later,mid,after,rfl,hearlier,hleft,hraised,hnew,hmem,hhead,hlater⟩ := h
  refine ⟨earlier,left,later ++ [event],mid,after,by rw [List.append_assoc,List.cons_append],
    hearlier,hleft,hraised,hnew,hmem,hhead,fun other hother => ?_⟩
  rcases List.mem_append.mp hother with hother | hother
  · exact hlater other hother
  · obtain rfl := List.mem_singleton.mp hother
    exact hevent

/-- What git has yet to commit was left behind by some call of the run. -/
theorem leftBehind_of_run {log : List Event} {s : Snapshot} (h : Run (Called lib) .empty log s) :
    ∀ file ∈ files s.tree, file ∉ s.head → LeftBehind lib .empty log file := by
  refine h.invariant (I := fun log s => ∀ file ∈ files s.tree, file ∉ s.head →
    LeftBehind lib .empty log file) (fun _ hmem => absurd hmem List.not_mem_nil) ?_
  intro log s event t hrun ih hcalled file hmem hhead
  rcases called_cases hcalled with ⟨_,hcommitted⟩ | ⟨hevent,rfl | ⟨hraised,hkept⟩⟩
  · rw [hcommitted] at hhead
    exact absurd hmem hhead
  · exact (ih file hmem hhead).snoc hevent
  · rw [hkept] at hhead
    by_cases hold : file ∈ files s.tree
    · exact (ih file hold hhead).snoc hevent
    · exact ⟨log,event,[],s,t,rfl,hrun,hcalled,hraised,hold,hmem,hhead,nofun⟩

/-- The file that a call is answered from, when no committed one reads so. -/
theorem Uncommitted.file {s : Snapshot} {args : EntryArgs} (h : Uncommitted lib s args) :
    ∃ info store name text body, prepare lib s.tree args = .ok (.duplicate info) ∧
      tokenDigest lib args.token = .ok store ∧ loadFile text = .ok (info,body) ∧
      ((store,some name),text) ∈ files s.tree ∧ ((store,some name),text) ∉ s.head := by
  obtain ⟨info,hprepare,hnone⟩ := h
  obtain ⟨entry,store,dir,bytes,_,hdir,_,hfound⟩ := prepare_duplicate hprepare
  obtain ⟨hstore,hget⟩ := dirFor_ok.mp hdir
  obtain ⟨file,hfile,body,hload,_⟩ := findDuplicate_some hfound
  obtain ⟨hmem,_⟩ := mem_sortedEntries.mp hfile
  refine ⟨info,store,file.1,file.2,body,hprepare,hstore,hload,?_,
    fun hhead => hnone store file.1 file.2 body hstore hhead hload⟩
  exact List.mem_flatMap.mpr ⟨_,Dict.mem_of_get hget,
    List.mem_append_right _ (List.mem_map.mpr ⟨file,hmem,rfl⟩)⟩

/-- A call is answered from an uncommitted file only after one that wrote the file and raised. -/
theorem uncommitted_leftBehind {log : List Event} {s : Snapshot} {args : EntryArgs}
    (h : Run (Called lib) .empty log s) (huncommitted : Uncommitted lib s args) :
    ∃ info store name text body, prepare lib s.tree args = .ok (.duplicate info) ∧
      tokenDigest lib args.token = .ok store ∧ loadFile text = .ok (info,body) ∧
      LeftBehind lib .empty log ((store,some name),text) := by
  obtain ⟨info,store,name,text,body,hprepare,hstore,hload,hmem,hhead⟩ := huncommitted.file
  exact ⟨info,store,name,text,body,hprepare,hstore,hload,leftBehind_of_run h _ hmem hhead⟩

/-- As long as every call returns or leaves the disk alone, all files are committed. -/
theorem run_committed {log : List Event} {s : Snapshot}
    (h : Run (fun s event t => Called lib s event t ∧ ((∃ o, event.result = .ok o) ∨ t = s))
      .empty log s) : s.head = files s.tree := by
  refine h.invariant (I := fun _ s => s.head = files s.tree) rfl ?_
  rintro log s event t _ ih ⟨hcalled,hstep⟩
  rcases called_cases hcalled with ⟨_,hcommitted⟩ | ⟨_,rfl | ⟨⟨e,hraised⟩,_⟩⟩
  · exact hcommitted
  · exact ih
  · rcases hstep with ⟨outcome,hreturned⟩ | rfl
    · rw [hraised] at hreturned
      cases hreturned
    · exact ih

/-- And every answer is in the last commit. -/
theorem run_settled {log : List Event} {s : Snapshot}
    (h : Run (fun s event t => Called lib s event t ∧ ((∃ o, event.result = .ok o) ∨ t = s))
      .empty log s) :
    Run (fun s event t => Called lib s event t ∧ event.Acknowledged lib t) .empty log s := by
  refine h.invariant (I := fun log s =>
    Run (fun s event t => Called lib s event t ∧ event.Acknowledged lib t) .empty log s) .nil ?_
  rintro log s ⟨call,result⟩ t hrun ih ⟨hcalled,_⟩
  refine ih.snoc ⟨hcalled,(called_acknowledged_iff hcalled).mpr ?_⟩
  cases call with
  | create git args => exact id
  | add git args =>
    intro huncommitted
    obtain ⟨_,_,_,_,_,_,_,_,hmem,hhead⟩ := Uncommitted.file huncommitted
    exact hhead (run_committed hrun ▸ hmem)

/-- The commit fails, and the content is there for the next call. -/
theorem example_left : ∃ s trail info,
    addEntry exampleLibrary ⟨true,true,false⟩ exampleEntry ⟨exampleStore,[]⟩ =
      (.error .calledProcess,⟨s,trail⟩) ∧
    prepare exampleLibrary s.tree exampleEntry = .ok (.duplicate info) ∧
    ∀ store name text, ((store,some name),text) ∉ s.head := by
  obtain ⟨pending,dir,digest,hready,hfiles⟩ := exampleEntry_ready
  have hget := (dirFor_ok.mp hready.found).2
  have hencodable : Utf8Encodable pending.text := hready.encodable.mpr (by decide)
  obtain ⟨hname,rfl⟩ : exampleName = pending.dirName ∧ _ = dir :=
    Prod.mk.inj (Except.ok.inj (exampleStore_dir.symm.trans hready.found))
  obtain ⟨bytes,hbytes,rfl⟩ := hready.digested
  have hnamed : endsWith (lit ".md") pending.name = true := by
    rw [hready.pending_eq]
    exact endsWith_entryName _ _ _
  have hhead : ∀ store name text, ((store,some name),text) ∉ exampleStore.head := by
    intro store name text
    simp [exampleStore,files]
  -- The shelf that the failed call leaves in the working tree.
  let item : Item := ⟨⟨lit "bin day",lit "ada",[]⟩,exampleLibrary.hexdigest bytes,exampleNow,
    ⟨by decide,by simp⟩,hexdigest_oneLine _ _⟩
  let shelf : Shelf :=
    (⟨⟨lit "household",lit "ada",exampleNow,by decide,by decide⟩,[],by simp⟩ : Shelf).put
      pending.name item hnamed
  have htext : pending.text = item.text := by
    rw [hready.pending_eq]
    rfl
  have hshelf : (pending.at pending.text exampleStore exampleDir []).tree.get pending.dirName =
      some shelf.dir := by
    rw [Pending.at,Snapshot.withTree_tree,Dict.get_set_self,Pending.shelve,htext]
    rfl
  have hdirty : files (pending.at pending.text exampleStore exampleDir []).tree ≠
      (pending.at pending.text exampleStore exampleDir []).head := by
    intro hsame
    have hmem := mem_files hshelf rfl (Dict.get_set_self [] pending.name _)
    rw [hsame] at hmem
    exact hhead _ _ _ hmem
  obtain ⟨q,_,_,hfound⟩ := prepare_of_item exampleEntry_check
    (dirFor_ok.mpr ⟨(dirFor_ok.mp hready.found).1,hshelf⟩) hbytes List.mem_cons_self rfl
  have hfailed : ∃ trail', addEntry exampleLibrary ⟨true,true,false⟩ exampleEntry ⟨exampleStore,[]⟩ =
      (.error .calledProcess,⟨pending.at pending.text exampleStore exampleDir [],trail'⟩) := by
    have hmessage : argumentError pending.message = none :=
      hready.message_short (by decide) (by decide) (by decide)
    rw [addEntry_write _ _ (prepare_write.mpr ⟨_,_,_,hready⟩),
      store_encodable _ hget hfiles hencodable,bind_apply,commit_apply,if_neg (by simp),
      if_neg (by simp),if_neg hdirty,hmessage]
    dsimp only
    rw [if_pos rfl]
    exact ⟨_,rfl⟩
  obtain ⟨trail',hfailed⟩ := hfailed
  exact ⟨_,trail',q.2.info,hfailed,hfound,hhead⟩

/-- The commit fails, and the retry is answered from the file that was not committed. -/
theorem addEntry_retry_uncommitted : ∃ trail created s trail' info,
    createStore exampleLibrary .working exampleCreate ⟨.empty,[]⟩ =
      (.ok created,⟨exampleStore,trail⟩) ∧
    addEntry exampleLibrary ⟨true,true,false⟩ exampleEntry ⟨exampleStore,[]⟩ =
      (.error .calledProcess,⟨s,trail'⟩) ∧
    addEntry exampleLibrary .working exampleEntry ⟨s,[]⟩ = (.ok ⟨info,true⟩,⟨s,[]⟩) ∧
    ¬Acknowledged exampleLibrary exampleEntry ⟨info,true⟩ s := by
  obtain ⟨trail,hcreate⟩ := createStore_example
  obtain ⟨s,trail',info,hfailed,hfound,hhead⟩ := example_left
  refine ⟨trail,_,s,trail',info,hcreate,hfailed,addEntry_duplicate _ _ hfound,?_⟩
  rintro ⟨store,name,text,_,hmem,_⟩
  exact hhead store name text hmem

/-- The failed call is the one that left the file behind. -/
theorem uncommitted_leftBehind_retry : ∃ created s info store name text body,
    Run (Called exampleLibrary) .empty [⟨.create .working exampleCreate,.ok (.created created)⟩,
      ⟨.add ⟨true,true,false⟩ exampleEntry,.error .calledProcess⟩] s ∧
    prepare exampleLibrary s.tree exampleEntry = .ok (.duplicate info) ∧
    tokenDigest exampleLibrary exampleEntry.token = .ok store ∧ loadFile text = .ok (info,body) ∧
    LeftBehind exampleLibrary .empty [⟨.create .working exampleCreate,.ok (.created created)⟩,
      ⟨.add ⟨true,true,false⟩ exampleEntry,.error .calledProcess⟩] ((store,some name),text) := by
  obtain ⟨trail,hcreate⟩ := createStore_example
  obtain ⟨s,trail',info,hfailed,hfound,hhead⟩ := example_left
  have hcreated : Called exampleLibrary .empty ⟨.create .working exampleCreate,.ok (.created _)⟩
      exampleStore := ⟨trail,bind_ok hcreate⟩
  have hraised : Called exampleLibrary exampleStore
      ⟨.add ⟨true,true,false⟩ exampleEntry,.error .calledProcess⟩ s := ⟨trail',bind_error hfailed⟩
  have hrun := (Run.single hcreated).snoc hraised
  obtain ⟨info',store,name,text,body,hfound',hstore,hload,hleft⟩ := uncommitted_leftBehind hrun
    ⟨info,hfound,fun store name text _ _ hmem => absurd hmem (hhead store name text)⟩
  exact ⟨_,s,info',store,name,text,body,hrun,hfound',hstore,hload,hleft⟩

end HearthAI.Memory
