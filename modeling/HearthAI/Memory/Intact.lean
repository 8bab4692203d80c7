import HearthAI.Core.Transition
import HearthAI.Memory.Archive

/-! # Runs of accepted writes

The log of a run says what every store holds: the heading of the call that made it,
and for every file name the row of the last call that wrote it.
-/
namespace HearthAI.Memory
open Python Effect Transition
variable {lib : Library}

/-- The metadata that a creation is about to write. -/
def CreateArgs.info (args : CreateArgs) : Except Builtin Meta := do
  let purpose ← (args.purpose.orElse (.str [])).strip
  let author ← (args.author.orElse (.str (lit "unknown"))).strip
  return storeMeta purpose author args.now

/-- The file name and the row of a new entry. -/
def EntryArgs.file (lib : Library) (args : EntryArgs) : Except Failure (Str × Row) := do
  let entry ← args.check lib
  let bytes ← encode entry.content
  let digest := lib.hexdigest bytes
  return (entryName digest entry.content args.now,
    ⟨entryMeta digest entry.author args.now entry.tags,readBack entry.content⟩)

/-- The event made the store of this name, with this heading. -/
def Event.Opens (lib : Library) (name : Str) (info : Meta) (event : Event) : Prop :=
  ∃ git args created, event = ⟨.create git args,.ok (.created created)⟩ ∧
    tokenDigest lib (.str created.token) = .ok name ∧ created.info = info

/-- What the event wrote into the store of this name. -/
def Event.filed (lib : Library) (name : Str) : Event → Option (Str × Row)
  | ⟨.add _ args,.ok (.added ⟨_,false⟩)⟩ =>
    if tokenDigest lib args.token = .ok name then (args.file lib).toOption else none
  | _ => none

/-- What a store holds after a run. -/
def shelved (lib : Library) (name : Str) (log : List Event) : Dict Str Row :=
  Dict.ofPairs (log.filterMap (·.filed lib name))

/-- The metadata that the event returned is the metadata that its call gives, or, for content
that was there already, the metadata of an entry that was there. -/
def Event.Exact (lib : Library) (earlier : List Event) : Event → Prop
  | ⟨.create _ args,.ok (.created created)⟩ =>
    created.token = args.token ∧ args.info = .ok created.info ∧ created.entryCount = 0
  | ⟨.add _ args,.ok (.added ⟨info,false⟩)⟩ => ∃ name body, args.file lib = .ok (name,⟨info,body⟩)
  | ⟨.add _ args,.ok (.added ⟨info,true⟩)⟩ => ∃ store name body,
    tokenDigest lib args.token = .ok store ∧ (name,⟨info,body⟩) ∈ shelved lib store earlier
  | _ => False

/-- A writing call whose purpose, author and tags, once stripped, are of one line. -/
def Call.Clean (lib : Library) (tree : Tree) : Call → Prop
  | .create _ args => ∀ purpose author name, Opens lib tree args purpose name →
    (args.author.orElse (.str (lit "unknown"))).strip = .ok author →
      OneLine purpose ∧ OneLine author
  | .add _ args => ∀ entry dir digest pending, Ready lib tree args entry dir digest pending →
    entry.Clean

/-- A step of a run of calls that return. -/
structure Accepted (lib : Library) (s : Snapshot) (event : Event) (t : Snapshot) : Prop where
  called : Called lib s event t
  returned : ∃ outcome, event.result = .ok outcome
  clean : event.call.Clean lib s.tree

/-- Every store can be read, and says what the log says. -/
structure Intact (lib : Library) (log : List Event) (s : Snapshot) : Prop where
  described : ∀ event ∈ log, ∀ name info, event.Opens lib name info →
    ∀ token, tokenDigest lib token = .ok name →
      describe lib s.tree token = .ok ⟨info,(shelved lib name log).length⟩
  listed : ∀ event ∈ log, ∀ name info, event.Opens lib name info →
    ∀ token, tokenDigest lib token = .ok name → ∃ rows, entries lib s.tree token = .ok rows ∧
      rows.Perm ((shelved lib name log).map Prod.snd)
  searched : ∀ event ∈ log, ∀ name info, event.Opens lib name info →
    ∀ token, tokenDigest lib token = .ok name → ∀ query limit, ∃ rows,
      search lib s.tree token query limit = .ok rows ∧
        ∀ row ∈ rows, row ∈ (shelved lib name log).map Prod.snd
  extended : ∀ event ∈ log, ∀ name info, event.Opens lib name info →
    ∀ git args, tokenDigest lib args.token = .ok name → ∀ error after,
      addEntry lib git args ⟨s,[]⟩ ≠ (.error (.frontmatter error),after)
  answered : EachEvent (fun earlier event => event.Exact lib earlier) log

/-- The invariant of a run: every directory is that of a shelf, which the log describes. -/
structure Holds (lib : Library) (log : List Event) (s : Snapshot) : Prop where
  unused : ∀ name, s.tree.get name = none → shelved lib name log = [] ∧
    ∀ event ∈ log, ∀ info, ¬event.Opens lib name info
  used : ∀ name dir, s.tree.get name = some dir → ∃ shelf : Shelf, dir = shelf.dir ∧
    shelf.items.map (fun p => (p.1,p.2.row)) = shelved lib name log ∧
    ∀ event ∈ log, ∀ info, event.Opens lib name info → info = shelf.heading.info
  answered : EachEvent (fun earlier event => event.Exact lib earlier) log

section
variable {name store : Str} {log : List Event} {event : Event} {git : Git}

theorem shelved_none (h : event.filed lib name = none) :
    shelved lib name (log ++ [event]) = shelved lib name log := by
  simp [shelved,h]

theorem shelved_some {p : Str × Row} (h : event.filed lib name = some p) :
    shelved lib name (log ++ [event]) = (shelved lib name log).set p.1 p.2 := by
  simp [shelved,h]

theorem filed_add {args : EntryArgs} {info : Meta} {p : Str × Row}
    (hstore : tokenDigest lib args.token = .ok store) (hfile : args.file lib = .ok p) :
    Event.filed lib name ⟨.add git args,.ok (.added ⟨info,false⟩)⟩ =
      if store = name then some p else none := by
  rw [Event.filed,hstore,hfile]
  simp only [Except.ok.injEq]
  rfl

theorem not_opens_add {args : EntryArgs} {result : Except Failure Outcome} {info : Meta} :
    ¬Event.Opens lib name info ⟨.add git args,result⟩ := by
  rintro ⟨_,_,_,h,_⟩
  cases h

/-- Nothing is said of other stores. -/
theorem opens_create {args : CreateArgs} {created : Created} {info : Meta}
    (hstore : tokenDigest lib (.str created.token) = .ok store) :
    Event.Opens lib name info ⟨.create git args,.ok (.created created)⟩ ↔
      store = name ∧ created.info = info := by
  constructor
  · rintro ⟨_,_,created',h,hname,hinfo⟩
    obtain rfl : created = created' := by simpa using congrArg Event.result h
    exact ⟨Except.ok.inj (hstore.symm.trans hname),hinfo⟩
  · rintro ⟨rfl,rfl⟩
    exact ⟨git,args,created,rfl,hstore,rfl⟩

theorem Ready.file {tree : Tree} {args : EntryArgs} {entry : NewEntry} {dir : StoreDir}
    {digest : Str} {pending : Pending} (h : Ready lib tree args entry dir digest pending) :
    args.file lib = .ok (pending.name,⟨pending.info,readBack entry.content⟩) := by
  obtain ⟨bytes,hbytes,rfl⟩ := h.digested
  refine bind_eq_ok.mpr ⟨entry,h.checked,bind_eq_ok.mpr ⟨bytes,encode_ok.mpr hbytes,?_⟩⟩
  rw [h.pending_eq]
  rfl

theorem Holds.start : Holds lib [] .empty where
  unused _ _ := ⟨rfl,by simp⟩
  used _ _ h := by cases h
  answered := .nil

variable {s t : Snapshot}

theorem Holds.create (git : Git) {args : CreateArgs} {purpose author : Str} (h : Holds lib log s)
    (hopens : Opens lib s.tree args purpose store)
    (hauthor : (args.author.orElse (.str (lit "unknown"))).strip = .ok author)
    (hpurposeLine : OneLine purpose) (hauthorLine : OneLine author)
    (htree : t.tree = s.tree.set store ⟨some (storeText purpose author args.now),some []⟩) :
    Holds lib (log ++ [⟨.create git args,
      .ok (.created ⟨args.token,storeMeta purpose author args.now,0⟩)⟩]) t := by
  obtain ⟨hempty,hfresh⟩ := h.unused store hopens.unused
  have hsame : ∀ name, shelved lib name (log ++ [⟨.create git args,
      .ok (.created ⟨args.token,storeMeta purpose author args.now,0⟩)⟩]) = shelved lib name log :=
    fun name => shelved_none rfl
  have hself : ∀ name info, Event.Opens lib name info ⟨.create git args,
      .ok (.created ⟨args.token,storeMeta purpose author args.now,0⟩)⟩ ↔
        store = name ∧ storeMeta purpose author args.now = info :=
    fun name info => opens_create hopens.digested
  refine ⟨fun name hname => ?_,fun name dir hdir => ?_,h.answered.snoc ?_⟩
  · rw [htree,Dict.get_set] at hname
    split_ifs at hname with hstore
    obtain ⟨hshelved,hother⟩ := h.unused name hname
    refine ⟨by rw [hsame,hshelved],fun event hevent info => ?_⟩
    rcases List.mem_append.mp hevent with hevent | hevent
    · exact hother event hevent info
    · rw [List.mem_singleton.mp hevent,hself]
      exact fun hopened => hstore hopened.1.symm
  · rw [htree,Dict.get_set] at hdir
    rw [hsame]
    split_ifs at hdir with hstore
    · subst hstore
      refine ⟨⟨⟨purpose,author,args.now,hpurposeLine,hauthorLine⟩,[],by simp⟩,
        (Option.some.inj hdir).symm,hempty.symm,fun event hevent info hopened => ?_⟩
      rcases List.mem_append.mp hevent with hevent | hevent
      · exact absurd hopened (hfresh event hevent info)
      · rw [List.mem_singleton.mp hevent,hself] at hopened
        exact hopened.2.symm
    · obtain ⟨shelf,hshelf,hitems,hheading⟩ := h.used name dir hdir
      refine ⟨shelf,hshelf,hitems,fun event hevent info hopened => ?_⟩
      rcases List.mem_append.mp hevent with hevent | hevent
      · exact hheading event hevent info hopened
      · rw [List.mem_singleton.mp hevent,hself] at hopened
        exact absurd hopened.1.symm hstore
  · refine ⟨rfl,?_,rfl⟩
    rw [CreateArgs.info,hopens.stripped,hauthor]
    rfl

/-- An event of an entry leaves the headings alone. -/
theorem opens_snoc_add {args : EntryArgs} {result : Except Failure Outcome} {info : Meta}
    (hevent : event ∈ log ++ [⟨.add git args,result⟩]) (hopened : event.Opens lib name info) :
    event ∈ log := by
  rcases List.mem_append.mp hevent with hevent | hevent
  · exact hevent
  · rw [List.mem_singleton.mp hevent] at hopened
    exact absurd hopened not_opens_add

theorem Holds.duplicate {args : EntryArgs} {info : Meta} (h : Holds lib log s)
    (hprepare : prepare lib s.tree args = .ok (.duplicate info)) :
    Holds lib (log ++ [⟨.add git args,.ok (.added ⟨info,true⟩)⟩]) s := by
  have hsame : ∀ name, shelved lib name (log ++ [⟨.add git args,.ok (.added ⟨info,true⟩)⟩]) =
    shelved lib name log := fun name => shelved_none rfl
  refine ⟨fun name hname => ?_,fun name dir hdir => ?_,h.answered.snoc ?_⟩
  · obtain ⟨hshelved,hother⟩ := h.unused name hname
    exact ⟨by rw [hsame,hshelved],fun event hevent info hopened =>
      hother event (opens_snoc_add hevent hopened) info hopened⟩
  · obtain ⟨shelf,hshelf,hitems,hheading⟩ := h.used name dir hdir
    exact ⟨shelf,hshelf,by rw [hsame,hitems],fun event hevent info hopened =>
      hheading event (opens_snoc_add hevent hopened) info hopened⟩
  · obtain ⟨entry,name,dir,bytes,_,hdir,_,hfound⟩ := prepare_duplicate hprepare
    obtain ⟨hname,hget⟩ := dirFor_ok.mp hdir
    obtain ⟨shelf,rfl,hitems,_⟩ := h.used name dir hget
    obtain ⟨file,hfile,body,hload,_⟩ := findDuplicate_some hfound
    rw [sortedEntries_dir] at hfile
    obtain ⟨p,hp,rfl⟩ := List.mem_map.mp hfile
    rw [loadFile_item,Except.ok.injEq,Prod.mk.injEq] at hload
    obtain ⟨rfl,rfl⟩ := hload
    refine ⟨name,p.1,readBack p.2.entry.content,hname,?_⟩
    rw [← hitems]
    exact List.mem_map.mpr ⟨p,shelf.sorted_perm.subset hp,rfl⟩

theorem Holds.write (git : Git) {args : EntryArgs} {entry : NewEntry} {dir : StoreDir} {digest : Str}
    {pending : Pending} {files : Dict Str Str} (h : Holds lib log s)
    (hready : Ready lib s.tree args entry dir digest pending) (hclean : entry.Clean)
    (hfiles : dir.entries = some files)
    (htree : t.tree = s.tree.set pending.dirName (pending.shelve pending.text dir files)) :
    Holds lib (log ++ [⟨.add git args,.ok (.added ⟨pending.info,false⟩)⟩]) t := by
  obtain ⟨hstore,hget⟩ := dirFor_ok.mp hready.found
  have hfiled : ∀ name, Event.filed lib name ⟨.add git args,.ok (.added ⟨pending.info,false⟩)⟩ =
      if pending.dirName = name then some (pending.name,⟨pending.info,readBack entry.content⟩)
      else none := fun name => filed_add hstore hready.file
  refine ⟨fun name hname => ?_,fun name dir' hdir => ?_,h.answered.snoc ⟨_,_,hready.file⟩⟩
  · rw [htree,Dict.get_set] at hname
    split_ifs at hname with hne
    obtain ⟨hshelved,hother⟩ := h.unused name hname
    refine ⟨?_,fun event hevent info hopened =>
      hother event (opens_snoc_add hevent hopened) info hopened⟩
    rw [shelved_none (by rw [hfiled,if_neg (Ne.symm hne)]),hshelved]
  · rw [htree,Dict.get_set] at hdir
    split_ifs at hdir with hname
    · subst hname
      obtain ⟨shelf,rfl,hitems,hheading⟩ := h.used _ dir hget
      obtain ⟨bytes,_,rfl⟩ := hready.digested
      have hnamed : endsWith (lit ".md") pending.name = true := by
        rw [hready.pending_eq]
        exact endsWith_entryName _ _ _
      refine ⟨shelf.put pending.name ⟨entry,lib.hexdigest bytes,args.now,hclean,
        hexdigest_oneLine lib bytes⟩ hnamed,?_,?_,fun event hevent info hopened =>
          hheading event (opens_snoc_add hevent hopened) info hopened⟩
      · rw [Shelf.dir_put _ _ _ hfiles,← Option.some.inj hdir,Pending.shelve,hready.pending_eq]
        rfl
      · rw [shelved_some (by rw [hfiled,if_pos rfl]),← hitems]
        refine (Dict.map_set Item.row _ _ _).trans ?_
        rw [hready.pending_eq]
        rfl
    · obtain ⟨shelf,hshelf,hitems,hheading⟩ := h.used name dir' hdir
      refine ⟨shelf,hshelf,?_,fun event hevent info hopened =>
        hheading event (opens_snoc_add hevent hopened) info hopened⟩
      rw [shelved_none (by rw [hfiled,if_neg (Ne.symm hname)]),hitems]

theorem Holds.step (h : Holds lib log s) (hstep : Accepted lib s event t) :
    Holds lib (log ++ [event]) t := by
  obtain ⟨⟨trail,hrun⟩,⟨outcome,hresult⟩,hclean⟩ := hstep
  obtain ⟨call,result⟩ := event
  obtain rfl : result = .ok outcome := hresult
  cases call with
  | create git args =>
    obtain ⟨created,hcreated,rfl⟩ := bind_pure_eq_ok.mp hrun
    obtain ⟨purpose,author,store,hopens,hauthor,rfl,htree,_⟩ := createStore_ok hcreated
    obtain ⟨hpurposeLine,hauthorLine⟩ := hclean purpose author store hopens hauthor
    exact h.create git hopens hauthor hpurposeLine hauthorLine htree
  | add git args =>
    obtain ⟨added,hadded,rfl⟩ := bind_pure_eq_ok.mp hrun
    rcases addEntry_ok hadded with ⟨info,hprepare,rfl,rfl⟩ |
      ⟨entry,dir,digest,pending,files,hready,hfiles,rfl,htree,_⟩
    · exact h.duplicate hprepare
    · exact h.write git hready (hclean entry dir digest pending hready) hfiles htree

theorem Holds.run (h : Run (Accepted lib) .empty log s) : Holds lib log s :=
  h.invariant .start fun _ _ _ _ _ hlog hstep => hlog.step hstep

/-- The store that an event made is the directory of a shelf. -/
theorem Holds.opened (h : Holds lib log s) (hevent : event ∈ log) {info : Meta}
    (hopened : event.Opens lib name info) {token : Value}
    (htoken : tokenDigest lib token = .ok name) : ∃ shelf : Shelf,
      dirFor lib s.tree token = .ok (name,shelf.dir) ∧ info = shelf.heading.info ∧
        shelf.items.map (fun p => (p.1,p.2.row)) = shelved lib name log := by
  cases hget : s.tree.get name with
  | none => exact absurd hopened ((h.unused name hget).2 event hevent info)
  | some dir =>
    obtain ⟨shelf,rfl,hitems,hheading⟩ := h.used name dir hget
    exact ⟨shelf,dirFor_ok.mpr ⟨htoken,hget⟩,hheading event hevent info hopened,hitems⟩

theorem rows_eq {shelf : Shelf}
    (h : shelf.items.map (fun p => (p.1,p.2.row)) = shelved lib name log) :
    shelf.rows = (shelved lib name log).map Prod.snd := by
  rw [← h,List.map_map]
  rfl

theorem check_not_frontmatter {args : EntryArgs} {error : FrontmatterError} :
    args.check lib ≠ .error (.frontmatter error) := by
  have hbuiltin : ∀ {α : Type} {r : Except Builtin α}, liftBuiltin r ≠ .error (.frontmatter error) := by
    intro α r h
    obtain ⟨b,_,hb⟩ := mapError_eq_error.mp h
    cases hb
  intro h
  rcases bind_eq_error.mp h with h | ⟨content,_,h⟩
  · exact hbuiltin h
  split_ifs at h
  · cases h
  rcases bind_eq_error.mp h with h | ⟨author,_,h⟩
  · exact hbuiltin h
  rcases bind_eq_error.mp h with h | ⟨tags,_,h⟩
  · exact hbuiltin h
  · cases h

/-- An entry for a shelf is never refused for what is there. -/
theorem prepare_dir {tree : Tree} {args : EntryArgs} {shelf : Shelf} {error : FrontmatterError}
    (hdir : dirFor lib tree args.token = .ok (name,shelf.dir)) :
    prepare lib tree args ≠ .error (.frontmatter error) := by
  intro h
  rcases bind_eq_error.mp h with h | ⟨entry,_,h⟩
  · exact check_not_frontmatter h
  rcases bind_eq_error.mp h with h | ⟨_,hfound,h⟩
  · cases hdir.symm.trans h
  obtain rfl := Except.ok.inj (hdir.symm.trans hfound)
  rcases bind_eq_error.mp h with h | ⟨bytes,_,h⟩
  · cases encode_error h
  obtain ⟨found,hfound⟩ := findDuplicate_dir shelf (lib.hexdigest bytes)
  rcases bind_eq_error.mp h with h | ⟨found,_,h⟩
  · rw [hfound] at h
    cases h
  · cases found <;> cases h

theorem addEntry_dir {args : EntryArgs} {shelf : Shelf} {error : FrontmatterError} {after : Disk}
    (hdir : dirFor lib s.tree args.token = .ok (name,shelf.dir)) :
    addEntry lib git args ⟨s,[]⟩ ≠ (.error (.frontmatter error),after) := by
  intro h
  cases hprepare : prepare lib s.tree args with
  | error e =>
    rw [addEntry_refused git ⟨s,[]⟩ hprepare] at h
    obtain rfl := Except.error.inj (Prod.mk.inj h).1
    exact prepare_dir hdir hprepare
  | ok prepared =>
    cases prepared with
    | duplicate info =>
      rw [addEntry_duplicate git ⟨s,[]⟩ hprepare] at h
      cases (Prod.mk.inj h).1
    | write pending =>
      obtain ⟨entry,dir,digest,hready⟩ := prepare_write.mp hprepare
      obtain ⟨_,rfl⟩ := Prod.mk.inj (Except.ok.inj (hready.found.symm.trans hdir))
      have hget := (dirFor_ok.mp hready.found).2
      rw [addEntry_write git ⟨s,[]⟩ hprepare] at h
      by_cases hencodable : Utf8Encodable pending.text
      · rw [store_encodable git hget rfl hencodable,bind_pure_eq_error] at h
        rcases (commit_error h).1 with h | ⟨⟨_,_,h⟩,_⟩ <;> cases h
      · rw [store_unencodable git hget rfl hencodable] at h
        cases (Prod.mk.inj h).1

theorem Holds.intact (h : Holds lib log s) : Intact lib log s where
  described event hevent name info hopened token htoken := by
    obtain ⟨shelf,hdir,rfl,hitems⟩ := h.opened hevent hopened htoken
    rw [describe_dir hdir,← hitems,List.length_map]
  listed event hevent name info hopened token htoken := by
    obtain ⟨shelf,hdir,rfl,hitems⟩ := h.opened hevent hopened htoken
    rw [← rows_eq hitems]
    exact entries_dir hdir
  searched event hevent name info hopened token htoken query limit := by
    obtain ⟨shelf,hdir,rfl,hitems⟩ := h.opened hevent hopened htoken
    rw [← rows_eq hitems]
    exact search_dir hdir query limit
  extended event hevent name info hopened git args htoken error after hraised := by
    obtain ⟨shelf,hdir,_⟩ := h.opened hevent hopened htoken
    exact addEntry_dir hdir hraised
  answered := h.answered

end

/-- Whatever was accepted with a one-line purpose, author and tags is read back as it was. -/
theorem accepted_writes_intact {lib : Library} {log : List Event} {s : Snapshot}
    (h : Run (Accepted lib) .empty log s) : Intact lib log s :=
  (Holds.run h).intact

def quotedPurpose : Str := lit "---\\ the \"big\" house: keys"
def quotedAuthor : Str := lit "ada: \\\"x\\\" ---"
def quotedTag : Str := lit "[\"a\", b: \\]"

def quotedCreate : CreateArgs := ⟨.str quotedPurpose,.str quotedAuthor,exampleToken,exampleNow⟩

def quotedStore : Snapshot :=
  let tree : Tree := [(exampleName,⟨some (storeText quotedPurpose quotedAuthor exampleNow),some []⟩)]
  ⟨tree,files tree⟩

def quotedEntry : EntryArgs :=
  ⟨.str exampleToken,.str (lit "---\nid: \"bin day\"\n---"),.str quotedAuthor,
    .list [.str (lit "---"),.str quotedTag],exampleNow⟩

def quotedLog (info : Meta) : List Event :=
  [⟨.create .working quotedCreate,.ok (.created
    ⟨exampleToken,storeMeta quotedPurpose quotedAuthor exampleNow,0⟩)⟩,
  ⟨.add .working quotedEntry,.ok (.added ⟨info,false⟩)⟩]

theorem quotedLog_run : ∃ info s, Run (Accepted exampleLibrary) .empty (quotedLog info) s := by
  have hopens : Opens exampleLibrary [] quotedCreate quotedPurpose exampleName :=
    ⟨by decide,by decide,exampleName_eq,rfl⟩
  have hauthor : ((Value.str quotedAuthor).orElse (.str (lit "unknown"))).strip = .ok quotedAuthor := by
    decide
  obtain ⟨trail,hcreate⟩ : ∃ trail, createStore exampleLibrary .working quotedCreate ⟨.empty,[]⟩ =
      (.ok ⟨exampleToken,storeMeta quotedPurpose quotedAuthor exampleNow,0⟩,⟨quotedStore,trail⟩) :=
    createStore_working ⟨.empty,[]⟩ hopens hauthor (by decide) (by decide) (by decide)
      (by simp [files,Disk.filled,Snapshot.empty,Dict.set])
  have hcheck : quotedEntry.check exampleLibrary =
      .ok ⟨lit "---\nid: \"bin day\"\n---",quotedAuthor,[lit "---",quotedTag]⟩ := by decide
  obtain ⟨bytes,hbytes⟩ := Option.isSome_iff_exists.mp
    (show Utf8Encodable (lit "---\nid: \"bin day\"\n---") by decide)
  have hdir : dirFor exampleLibrary quotedStore.tree quotedEntry.token = .ok (exampleName,_) :=
    dirFor_ok.mpr ⟨exampleName_eq,Dict.get_set_self [] _ _⟩
  have hunlisted : ∀ file ∈ sortedEntries ⟨some (storeText quotedPurpose quotedAuthor exampleNow),
      some []⟩, ∃ info body, loadFile file.2 = .ok (info,body) ∧
        info.get (lit "content_sha256") ≠ some (.str (exampleLibrary.hexdigest bytes)) :=
    fun file hfile => absurd (mem_sortedEntries.mp hfile).1 List.not_mem_nil
  obtain ⟨pending,hready⟩ : ∃ pending, Ready exampleLibrary quotedStore.tree quotedEntry
      ⟨lit "---\nid: \"bin day\"\n---",quotedAuthor,[lit "---",quotedTag]⟩
      ⟨some (storeText quotedPurpose quotedAuthor exampleNow),some []⟩
      (exampleLibrary.hexdigest bytes) pending :=
    ⟨NewEntry.pending _ exampleName _ exampleNow,hcheck,hdir,⟨bytes,hbytes,rfl⟩,hunlisted,rfl⟩
  obtain ⟨t,trail',hadd,_⟩ := addEntry_working hready rfl (hready.encodable.mpr (by decide))
    (hready.message_short (by decide) (by decide) (by decide))
  refine ⟨pending.info,t,(Run.single (t := quotedStore) ?_).snoc ?_⟩
  · refine ⟨⟨trail,bind_pure_eq_ok.mpr ⟨_,hcreate,rfl⟩⟩,⟨_,rfl⟩,?_⟩
    intro purpose author name hopens' hauthor'
    obtain rfl := Except.ok.inj (hopens.stripped.symm.trans hopens'.stripped)
    obtain rfl := Except.ok.inj (hauthor.symm.trans hauthor')
    decide
  · refine ⟨⟨trail',bind_pure_eq_ok.mpr ⟨_,hadd,rfl⟩⟩,⟨_,rfl⟩,?_⟩
    intro entry dir digest pending hready'
    obtain rfl := Except.ok.inj (hcheck.symm.trans hready'.checked)
    exact ⟨by decide,by decide⟩

/-- Quotes, backslashes, colons and dashes in every text that goes into a header. -/
theorem accepted_writes_intact_quoted : ∃ info s,
    Run (Accepted exampleLibrary) .empty (quotedLog info) s ∧
      Intact exampleLibrary (quotedLog info) s := by
  obtain ⟨info,s,hrun⟩ := quotedLog_run
  exact ⟨info,s,hrun,accepted_writes_intact hrun⟩

/-- The creation returns, and its store cannot be described. -/
theorem createStore_broken_author : ∃ created s trail,
    createStore exampleLibrary .working { exampleCreate with author := .str (lit "ada\nbo") }
        ⟨.empty,[]⟩ = (.ok created,⟨s,trail⟩) ∧
      describe exampleLibrary s.tree (.str created.token) =
        .error (.frontmatter (.malformedLine (lit "bo\""))) := by
  have hopens : Opens exampleLibrary [] { exampleCreate with author := .str (lit "ada\nbo") }
      (lit "household") exampleName := ⟨rfl,by decide,exampleName_eq,rfl⟩
  have hauthor : ((Value.str (lit "ada\nbo")).orElse (.str (lit "unknown"))).strip =
    .ok (lit "ada\nbo") := rfl
  obtain ⟨trail,hcreate⟩ := createStore_working ⟨.empty,[]⟩ hopens hauthor (by decide) (by decide)
    (by decide) (by
      simp [files,Disk.filled,Snapshot.empty,Dict.set])
  have hdir : dirFor exampleLibrary
      (Disk.filled ⟨.empty,[]⟩ exampleName (storeText (lit "household") (lit "ada\nbo") exampleNow)).tree
        (.str exampleToken) = .ok (exampleName,_) :=
    dirFor_ok.mpr ⟨exampleName_eq,Dict.get_set_self [] _ _⟩
  have hload : loadFile (storeText (lit "household") (lit "ada\nbo") exampleNow) =
      .error (.malformedLine (lit "bo\"")) := by decide
  refine ⟨_,_,trail,hcreate,?_⟩
  unfold describe
  refine bind_eq_error.mpr (.inr ⟨_,hdir,?_⟩)
  exact bind_eq_error.mpr (.inl (mapError_eq_error.mpr ⟨_,hload,rfl⟩))

end HearthAI.Memory
