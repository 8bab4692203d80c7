import HearthAI.Memory.Format
import HearthAI.Memory.Intact

/-! # A store as an append-only log without duplicates

The log is keyed by content. The code keys its files by the day and a slug of the
first characters, and finds duplicates by digest, so the two agree as long as no new
entry is given the file name of an old one.
-/
namespace HearthAI.Memory
open Python Effect Transition
variable {lib : Library}

/-- The content of an entry, and the row that is listed for it when it is new. -/
def EntryArgs.record (lib : Library) (args : EntryArgs) : Except Failure (Str × Row) := do
  let entry ← args.check lib
  let bytes ← encode entry.content
  return (entry.content,
    ⟨entryMeta (lib.hexdigest bytes) entry.author args.now entry.tags,entry.content⟩)

/-- What a call that returned has supplied. -/
def Event.record (lib : Library) : Event → Option (Str × Row)
  | ⟨.add _ args,.ok _⟩ => (args.record lib).toOption
  | _ => none

/-- The first row supplied for each content. -/
def appended (lib : Library) (log : List Event) : Dict Str Row :=
  Dict.firsts (log.filterMap (·.record lib))

/-- Content that is there is answered with the metadata that is there. -/
def Event.Answers (lib : Library) (held : Dict Str Row) (event : Event) : Prop :=
  ∀ git args outcome, event = ⟨.add git args,.ok outcome⟩ → ∃ content row,
    args.record lib = .ok (content,row) ∧ outcome = .added (match held.get content with
      | some old => ⟨old.info,true⟩
      | none => ⟨row.info,false⟩)

/-- The call gives these bytes to the digest. -/
def Event.Supplies (lib : Library) (bytes : Text.Bytes) (event : Event) : Prop :=
  ∃ git args entry, event.call = .add git args ∧ args.check lib = .ok entry ∧
    encodeUtf8 entry.content = some bytes

/-- What is hashed for the contents of a run. -/
def supplied (lib : Library) (log : List Event) : Set Text.Bytes :=
  {bytes | ∃ event ∈ log, event.Supplies lib bytes}

/-- A new entry that gets a file of its own, which can be written and committed. -/
def Separate (lib : Library) (tree : Tree) (git : Git) (args : EntryArgs) : Prop :=
  ∀ entry dir digest pending, Ready lib tree args entry dir digest pending →
    git = .working ∧ Utf8Encodable entry.author ∧ (∀ tag ∈ entry.tags, Utf8Encodable tag) ∧
      argumentError pending.message = none ∧
        ∀ files, dir.entries = some files → files.get pending.name = none

/-- A step of a run of `add_entry` on one token. -/
structure Appends (lib : Library) (token : Value) (s : Snapshot) (event : Event) (t : Snapshot) :
    Prop where
  called : Called lib s event t
  call : ∃ git args, event.call = .add git args ∧ args.token = token ∧ Separate lib s.tree git args ∧
    ∀ entry, args.check lib = .ok entry → entry.Clean ∧ OneLine entry.content

structure AppendOnly (lib : Library) (token : Value) (info : Meta) (log : List Event)
    (s : Snapshot) : Prop where
  listed : ∃ rows, entries lib s.tree token = .ok rows ∧
    rows.Perm ((appended lib log).map Prod.snd)
  described : describe lib s.tree token = .ok ⟨info,(appended lib log).length⟩
  answered : EachEvent (fun earlier event => event.Answers lib (appended lib earlier)) log

/-- The invariant: the items of the shelf are the rows of the log. -/
structure Tracks (lib : Library) (name : Str) (info : Meta) (log : List Event) (s : Snapshot)
    (shelf : Shelf) : Prop where
  found : s.tree.get name = some shelf.dir
  heading : shelf.heading.info = info
  items : shelf.items.map (fun p => (p.2.entry.content,p.2.row)) = appended lib log
  digests : ∀ p ∈ shelf.items, ∃ event ∈ log, ∃ bytes, event.Supplies lib bytes ∧
    encodeUtf8 p.2.entry.content = some bytes ∧ p.2.digest = lib.hexdigest bytes
  answered : EachEvent (fun earlier event => event.Answers lib (appended lib earlier)) log

section
variable {name : Str} {info : Meta} {log : List Event} {s t : Snapshot} {shelf : Shelf}
  {args : EntryArgs} {git : Git}

theorem appended_snoc (log : List Event) (event : Event) :
    appended lib (log ++ [event]) = match event.record lib with
      | some p => (appended lib log).setDefault p.1 p.2
      | none => appended lib log := by
  cases h : event.record lib with
  | some p => simp [appended,h]
  | none => simp [appended,h]

theorem supplied_append (log more : List Event) : supplied lib log ⊆ supplied lib (log ++ more) := by
  rintro bytes ⟨event,hevent,hsupplies⟩
  exact ⟨event,List.mem_append_left _ hevent,hsupplies⟩

theorem record_ok {entry : NewEntry} {bytes : Text.Bytes} (hentry : args.check lib = .ok entry)
    (hbytes : encodeUtf8 entry.content = some bytes) : args.record lib = .ok (entry.content,
      ⟨entryMeta (lib.hexdigest bytes) entry.author args.now entry.tags,entry.content⟩) :=
  bind_eq_ok.mpr ⟨entry,hentry,bind_eq_ok.mpr ⟨bytes,encode_ok.mpr hbytes,rfl⟩⟩

/-- The contents of two events with one digest are the same. -/
theorem content_eq {c c' : Str} {bytes bytes' : Text.Bytes} {event event' : Event}
    (hsha : Set.InjOn lib.sha256 (supplied lib log))
    (hevent : event ∈ log) (hsupplies : event.Supplies lib bytes) (hc : encodeUtf8 c = some bytes)
    (hevent' : event' ∈ log) (hsupplies' : event'.Supplies lib bytes')
    (hc' : encodeUtf8 c' = some bytes') (hdigest : lib.hexdigest bytes = lib.hexdigest bytes') :
    c = c' := by
  have hbytes : bytes = bytes' := hsha ⟨event,hevent,hsupplies⟩ ⟨event',hevent',hsupplies'⟩
    (sha256_eq_of_hexdigest hdigest)
  subst hbytes
  exact encodeUtf8_injective hc hc'

theorem Tracks.get_content (h : Tracks lib name info log s shelf) {p : Str × Item}
    (hp : p ∈ shelf.items) : (appended lib log).get p.2.entry.content = some p.2.row := by
  refine Dict.get_of_mem (Dict.nodup_firsts _) ?_
  show _ ∈ appended lib log
  rw [← h.items]
  exact List.mem_map.mpr ⟨p,hp,rfl⟩

/-- A call that raised is not in the log of contents. -/
theorem Tracks.raised {call : Call} {e : Failure} (h : Tracks lib name info log s shelf) :
    Tracks lib name info (log ++ [⟨call,.error e⟩]) s shelf where
  found := h.found
  heading := h.heading
  items := by
    have hnone : Event.record lib ⟨call,.error e⟩ = none := by cases call <;> rfl
    rw [appended_snoc,hnone]
    exact h.items
  digests p hp := by
    obtain ⟨event,hevent,hdigest⟩ := h.digests p hp
    exact ⟨event,List.mem_append_left _ hevent,hdigest⟩
  answered := h.answered.snoc fun git args outcome hevent => by cases hevent

theorem Tracks.duplicate {found : Meta} (h : Tracks lib name info log s shelf)
    (htoken : tokenDigest lib args.token = .ok name)
    (hsha : Set.InjOn lib.sha256
      (supplied lib (log ++ [⟨.add git args,.ok (.added ⟨found,true⟩)⟩])))
    (hprepare : prepare lib s.tree args = .ok (.duplicate found)) :
    Tracks lib name info (log ++ [⟨.add git args,.ok (.added ⟨found,true⟩)⟩]) s shelf := by
  obtain ⟨entry,name',dir,bytes,hentry,hdir,hbytes,hfind⟩ := prepare_duplicate hprepare
  obtain ⟨hname,hget⟩ := dirFor_ok.mp hdir
  obtain rfl : name = name' := Except.ok.inj (htoken.symm.trans hname)
  obtain rfl : shelf.dir = dir := Option.some.inj (h.found.symm.trans hget)
  obtain ⟨file,hfile,body,hload,hsame⟩ := findDuplicate_some hfind
  rw [sortedEntries_dir] at hfile
  obtain ⟨p,hp,rfl⟩ := List.mem_map.mp hfile
  rw [loadFile_item,Except.ok.injEq,Prod.mk.injEq] at hload
  obtain ⟨rfl,rfl⟩ := hload
  have hmem : p ∈ shelf.items := shelf.sorted_perm.subset hp
  obtain ⟨event,hevent,bytes',hsupplies,hcontent,hdigest⟩ := h.digests p hmem
  rw [get_content_sha256,Option.some.injEq,MetaValue.str.injEq,hdigest] at hsame
  have heq : p.2.entry.content = entry.content := content_eq hsha
    (List.mem_append_left _ hevent) hsupplies hcontent
    (List.mem_append_right _ (List.mem_singleton_self _))
    ⟨git,args,entry,rfl,hentry,hbytes⟩ hbytes hsame
  have hheld := h.get_content hmem
  rw [heq] at hheld
  have hrecord := record_ok hentry hbytes
  refine ⟨h.found,h.heading,?_,fun q hq => ?_,h.answered.snoc fun git' args' outcome hevent => ?_⟩
  · rw [appended_snoc,Event.record,hrecord]
    exact h.items.trans (Dict.setDefault_of_get hheld _).symm
  · obtain ⟨event,hevent,hdigest⟩ := h.digests q hq
    exact ⟨event,List.mem_append_left _ hevent,hdigest⟩
  · cases hevent
    exact ⟨_,_,hrecord,by rw [hheld]; rfl⟩

theorem Tracks.write (git : Git) {entry : NewEntry} {dir : StoreDir} {digest : Str} {pending : Pending}
    {files : Dict Str Str} (h : Tracks lib name info log s shelf)
    (htoken : tokenDigest lib args.token = .ok name)
    (hready : Ready lib s.tree args entry dir digest pending) (hclean : entry.Clean)
    (hline : OneLine entry.content) (hfiles : dir.entries = some files)
    (hnew : files.get pending.name = none)
    (htree : t.tree = s.tree.set pending.dirName (pending.shelve pending.text dir files)) :
    ∃ shelf' : Shelf, Tracks lib name info
        (log ++ [⟨.add git args,.ok (.added ⟨pending.info,false⟩)⟩]) t shelf' ∧
      shelf'.items.map Prod.fst = shelf.items.map Prod.fst ++ [pending.name] := by
  obtain ⟨hstore,hget⟩ := dirFor_ok.mp hready.found
  obtain rfl : name = pending.dirName := Except.ok.inj (htoken.symm.trans hstore)
  obtain rfl : shelf.dir = dir := Option.some.inj (h.found.symm.trans hget)
  have hunlisted := hready.unlisted
  obtain ⟨bytes,hbytes,rfl⟩ := hready.digested
  have hrecord := record_ok hready.checked hbytes
  have hnamed : endsWith (lit ".md") pending.name = true := by
    rw [hready.pending_eq]
    exact endsWith_entryName _ _ _
  have hheld : (appended lib log).get entry.content = none := by
    rw [Dict.get_eq_none,← h.items,List.map_map]
    intro hmem
    obtain ⟨p,hp,hcontent⟩ := List.mem_map.mp hmem
    obtain ⟨event,_,bytes',_,hbytes',hdigest⟩ := h.digests p hp
    rw [show p.2.entry.content = entry.content from hcontent,hbytes,Option.some.injEq] at hbytes'
    have hfile : (p.1,p.2.text) ∈ sortedEntries shelf.dir := by
      rw [sortedEntries_dir]
      exact List.mem_map.mpr ⟨p,shelf.sorted_perm.mem_iff.mpr hp,rfl⟩
    obtain ⟨found,body,hload,hother⟩ := hunlisted _ hfile
    rw [loadFile_item,Except.ok.injEq,Prod.mk.injEq] at hload
    rw [← hload.1,get_content_sha256,hdigest,hbytes'] at hother
    exact hother rfl
  have hitems : pending.name ∉ shelf.items.map Prod.fst := by
    have hkeys := Dict.get_eq_none.mp hnew
    rw [← Option.some.inj hfiles,List.map_map] at hkeys
    exact hkeys
  refine ⟨shelf.put pending.name ⟨entry,lib.hexdigest bytes,args.now,hclean,
    hexdigest_oneLine lib bytes⟩ hnamed,⟨?_,h.heading,?_,fun p hp => ?_,
      h.answered.snoc fun git' args' outcome hevent => ?_⟩,?_⟩
  · rw [htree,Dict.get_set_self,Shelf.dir_put _ _ _ hfiles,Pending.shelve,hready.pending_eq]
    rfl
  · rw [appended_snoc,Event.record,hrecord]
    refine Eq.trans ?_ (Dict.setDefault_new hheld _).symm
    rw [Shelf.put_items,Dict.set_new hitems,List.map_append,h.items,List.map_singleton,Item.row,
      readBack_of_oneLine hline]
    rfl
  · rcases Dict.mem_set hp with rfl | hp
    · exact ⟨_,List.mem_append_right _ (List.mem_singleton_self _),bytes,
        ⟨git,args,entry,rfl,hready.checked,hbytes⟩,hbytes,rfl⟩
    · obtain ⟨event,hevent,hdigest⟩ := h.digests p hp
      exact ⟨event,List.mem_append_left _ hevent,hdigest⟩
  · cases hevent
    refine ⟨_,_,hrecord,?_⟩
    rw [hheld,hready.pending_eq]
    rfl
  · rw [Shelf.put_items,Dict.set_new hitems,List.map_append]
    rfl

theorem Tracks.step {event : Event} {token : Value} (h : Tracks lib name info log s shelf)
    (htoken : tokenDigest lib token = .ok name)
    (hsha : Set.InjOn lib.sha256 (supplied lib (log ++ [event])))
    (hstep : Appends lib token s event t) :
    ∃ shelf' : Shelf, Tracks lib name info (log ++ [event]) t shelf' := by
  obtain ⟨⟨trail,hrun⟩,git,args,hcall,rfl,hseparate,hlines⟩ := hstep
  obtain ⟨call,result⟩ := event
  obtain rfl : call = .add git args := hcall
  have hfound : ∀ {entry dir digest pending}, Ready lib s.tree args entry dir digest pending →
      dir = shelf.dir := by
    intro entry dir digest pending hready
    obtain ⟨hstore,hget⟩ := dirFor_ok.mp hready.found
    obtain rfl : name = pending.dirName := Except.ok.inj (htoken.symm.trans hstore)
    exact Option.some.inj (hget.symm.trans h.found)
  cases result with
  | ok outcome =>
    obtain ⟨added,hadded,rfl⟩ := bind_pure_eq_ok.mp hrun
    rcases addEntry_ok hadded with ⟨found,hprepare,rfl,rfl⟩ |
      ⟨entry,dir,digest,pending,files,hready,hfiles,rfl,htree,_⟩
    · exact ⟨shelf,h.duplicate htoken hsha hprepare⟩
    · obtain ⟨hclean,hline⟩ := hlines entry hready.checked
      obtain ⟨_,_,_,_,hnew⟩ := hseparate entry dir digest pending hready
      obtain ⟨shelf',h',_⟩ := h.write git htoken hready hclean hline hfiles (hnew files hfiles) htree
      exact ⟨shelf',h'⟩
  | error e =>
    have hraised := bind_pure_eq_error.mp hrun
    cases hprepare : prepare lib s.tree args with
    | error e' =>
      rw [addEntry_refused git ⟨s,[]⟩ hprepare] at hraised
      obtain rfl : s = t := (Disk.mk.inj (Prod.mk.inj hraised).2).1
      exact ⟨shelf,h.raised⟩
    | ok prepared =>
      cases prepared with
      | duplicate found =>
        rw [addEntry_duplicate git ⟨s,[]⟩ hprepare] at hraised
        cases (Prod.mk.inj hraised).1
      | write pending =>
        obtain ⟨entry,dir,digest,hready⟩ := prepare_write.mp hprepare
        obtain ⟨rfl,hauthor,htags,hmessage,_⟩ := hseparate entry dir digest pending hready
        obtain rfl := hfound hready
        obtain ⟨_,_,hadded,_⟩ :=
          addEntry_working hready rfl (hready.encodable.mpr ⟨hauthor,htags⟩) hmessage
        rw [hadded] at hraised
        cases (Prod.mk.inj hraised).1

theorem Tracks.run {token : Value} {start : Snapshot} (h : Tracks lib name info [] start shelf)
    (htoken : tokenDigest lib token = .ok name) (hrun : Run (Appends lib token) start log s) :
    Set.InjOn lib.sha256 (supplied lib log) →
      ∃ shelf' : Shelf, Tracks lib name info log s shelf' := by
  refine hrun.invariant (I := fun log s =>
    Set.InjOn lib.sha256 (supplied lib log) →
      ∃ shelf' : Shelf, Tracks lib name info log s shelf') (fun _ => ⟨shelf,h⟩) ?_
  intro log t event u _ ih hstep hsha
  obtain ⟨shelf',h'⟩ := ih (hsha.mono (supplied_append _ _))
  exact h'.step htoken hsha hstep

/-- The rows of the shelf are those of the log. -/
theorem Tracks.rows_eq (h : Tracks lib name info log s shelf) :
    shelf.rows = (appended lib log).map Prod.snd := by
  rw [← h.items,List.map_map]
  rfl

theorem Tracks.entries {token : Value} (h : Tracks lib name info log s shelf)
    (htoken : tokenDigest lib token = .ok name) : ∃ rows,
      Memory.entries lib s.tree token = .ok rows ∧ rows.Perm ((appended lib log).map Prod.snd) := by
  rw [← h.rows_eq]
  exact entries_dir (dirFor_ok.mpr ⟨htoken,h.found⟩)

theorem Tracks.appendOnly {token : Value} (h : Tracks lib name info log s shelf)
    (htoken : tokenDigest lib token = .ok name) : AppendOnly lib token info log s where
  listed := h.entries htoken
  described := by
    rw [describe_dir (dirFor_ok.mpr ⟨htoken,h.found⟩),h.heading,← h.items,List.length_map]
  answered := h.answered

/-- A store that was just made is empty. -/
theorem Tracks.created {cargs : CreateArgs} {created : Created} {before start : Snapshot}
    {trail : List Snapshot}
    (hcreate : createStore lib git cargs ⟨before,[]⟩ = (.ok created,⟨start,trail⟩))
    (hclean : (Call.create git cargs).Clean lib before.tree) : ∃ store shelf,
      tokenDigest lib (.str created.token) = .ok store ∧
        Tracks lib store created.info [] start shelf := by
  obtain ⟨purpose,author,store,hopens,hauthor,rfl,htree,_⟩ := createStore_ok hcreate
  obtain ⟨hpurposeLine,hauthorLine⟩ := hclean purpose author store hopens hauthor
  refine ⟨store,⟨⟨purpose,author,cargs.now,hpurposeLine,hauthorLine⟩,[],by simp⟩,hopens.digested,
    ?_,rfl,rfl,by simp,.nil⟩
  rw [htree,Dict.get_set_self]
  rfl

/-- Content whose digest no earlier content has is new to the store. -/
theorem Tracks.ready (args : EntryArgs) {entry : NewEntry} {bytes : Text.Bytes} (h : Tracks lib name info log s shelf)
    (htoken : tokenDigest lib args.token = .ok name) (hentry : args.check lib = .ok entry)
    (hbytes : encodeUtf8 entry.content = some bytes)
    (hdigest : ∀ bytes' ∈ supplied lib log, lib.hexdigest bytes' ≠ lib.hexdigest bytes) :
    Ready lib s.tree args entry shelf.dir (lib.hexdigest bytes)
      (entry.pending name (lib.hexdigest bytes) args.now) := by
  refine ⟨hentry,dirFor_ok.mpr ⟨htoken,h.found⟩,⟨bytes,hbytes,rfl⟩,fun file hfile => ?_,rfl⟩
  rw [sortedEntries_dir] at hfile
  obtain ⟨p,hp,rfl⟩ := List.mem_map.mp hfile
  obtain ⟨event,hevent,bytes',hsupplies,_,hitem⟩ :=
    h.digests p (shelf.sorted_perm.mem_iff.mp hp)
  refine ⟨_,_,loadFile_item p.2,?_⟩
  rw [get_content_sha256,hitem]
  exact fun hsame => hdigest bytes' ⟨event,hevent,hsupplies⟩
    (MetaValue.str.inj (Option.some.inj hsame))

/-- New content under a new file name is appended, when its headers are of one line and git works. -/
theorem Tracks.add (args : EntryArgs) {entry : NewEntry} {bytes : Text.Bytes}
    (h : Tracks lib name info log s shelf) (htoken : tokenDigest lib args.token = .ok name)
    (hentry : args.check lib = .ok entry) (hclean : entry.Clean) (hline : OneLine entry.content)
    (hbytes : encodeUtf8 entry.content = some bytes)
    (hdigest : ∀ bytes' ∈ supplied lib log, lib.hexdigest bytes' ≠ lib.hexdigest bytes)
    (hname : entryName (lib.hexdigest bytes) entry.content args.now ∉ shelf.items.map Prod.fst)
    (hencodable : Utf8Encodable entry.author ∧ ∀ tag ∈ entry.tags, Utf8Encodable tag)
    (hnull : 0 ∉ entry.author) (hsize : utf8Size entry.author < 131048) :
    ∃ t shelf', Appends lib args.token s ⟨.add .working args,.ok (.added
        ⟨(entry.pending name (lib.hexdigest bytes) args.now).info,false⟩)⟩ t ∧
      Tracks lib name info (log ++ [⟨.add .working args,.ok (.added
        ⟨(entry.pending name (lib.hexdigest bytes) args.now).info,false⟩)⟩]) t shelf' ∧
      shelf'.items.map Prod.fst =
        shelf.items.map Prod.fst ++ [entryName (lib.hexdigest bytes) entry.content args.now] := by
  have hready := h.ready args htoken hentry hbytes hdigest
  have hmessage := hready.message_short hencodable.1 hnull hsize
  have hfree : ∀ files, shelf.dir.entries = some files →
      files.get (entryName (lib.hexdigest bytes) entry.content args.now) = none := by
    intro files hfiles
    rw [Dict.get_eq_none,← Option.some.inj hfiles,List.map_map]
    exact hname
  obtain ⟨t,trail,hadd,htree⟩ :=
    addEntry_working hready rfl (hready.encodable.mpr hencodable) hmessage
  obtain ⟨shelf',h',hitems⟩ := h.write .working htoken hready hclean hline rfl (hfree _ rfl) htree
  refine ⟨t,shelf',⟨⟨trail,bind_pure_eq_ok.mpr ⟨_,hadd,rfl⟩⟩,.working,args,rfl,rfl,?_,?_⟩,h',hitems⟩
  · intro entry' dir digest pending hready'
    obtain rfl := Except.ok.inj (hentry.symm.trans hready'.checked)
    have hprepared := prepare_write.mpr ⟨_,_,_,hready⟩
    obtain rfl := Prepared.write.inj
      (Except.ok.inj (hprepared.symm.trans (prepare_write.mpr ⟨_,_,_,hready'⟩)))
    obtain ⟨_,rfl⟩ := Prod.mk.inj (Except.ok.inj (hready.found.symm.trans hready'.found))
    exact ⟨rfl,hencodable.1,hencodable.2,hmessage,hfree⟩
  · intro entry' hentry'
    obtain rfl := Except.ok.inj (hentry.symm.trans hentry')
    exact ⟨hclean,hline⟩

/-- Content of the log is answered with the metadata it was first given, and no file is touched. -/
theorem Tracks.again (git : Git) (args : EntryArgs) {entry : NewEntry} {bytes : Text.Bytes} {row : Row}
    (h : Tracks lib name info log s shelf) (htoken : tokenDigest lib args.token = .ok name)
    (hentry : args.check lib = .ok entry) (hclean : entry.Clean) (hline : OneLine entry.content)
    (hbytes : encodeUtf8 entry.content = some bytes)
    (hheld : (appended lib log).get entry.content = some row)
    (hsha : Set.InjOn lib.sha256
      (supplied lib (log ++ [⟨.add git args,.ok (.added ⟨row.info,true⟩)⟩]))) :
    Appends lib args.token s ⟨.add git args,.ok (.added ⟨row.info,true⟩)⟩ s ∧
      Tracks lib name info (log ++ [⟨.add git args,.ok (.added ⟨row.info,true⟩)⟩]) s shelf := by
  have hmem := Dict.mem_of_get hheld
  rw [← h.items] at hmem
  obtain ⟨p,hp,hrow⟩ := List.mem_map.mp hmem
  obtain ⟨hcontent,rfl⟩ := Prod.mk.inj hrow
  obtain ⟨event,_,bytes',_,hbytes',hdigest⟩ := h.digests p hp
  rw [hcontent,hbytes,Option.some.injEq] at hbytes'
  subst hbytes'
  obtain ⟨q,hq,hsame,hprepare⟩ :=
    prepare_of_item hentry (dirFor_ok.mpr ⟨htoken,h.found⟩) hbytes hp hdigest
  obtain ⟨event',hevent',bytes',hsupplies,hcontent',hdigest'⟩ := h.digests q hq
  have heq : q.2.entry.content = entry.content := content_eq hsha
    (List.mem_append_left _ hevent') hsupplies hcontent'
    (List.mem_append_right _ (List.mem_singleton_self _))
    ⟨git,args,entry,rfl,hentry,hbytes⟩ hbytes (hdigest'.symm.trans hsame)
  have hfirst := h.get_content hq
  rw [heq,hheld,Option.some.injEq] at hfirst
  have hinfo : q.2.info = p.2.row.info := (congrArg Row.info hfirst).symm
  rw [hinfo] at hprepare
  refine ⟨⟨⟨[],bind_pure_eq_ok.mpr ⟨_,addEntry_duplicate git ⟨s,[]⟩ hprepare,rfl⟩⟩,git,args,rfl,rfl,
    ?_,?_⟩,h.duplicate htoken hsha hprepare⟩
  · intro entry' dir digest pending hready
    cases hprepare.symm.trans (prepare_write.mpr ⟨_,_,_,hready⟩)
  · intro entry' hentry'
    obtain rfl := Except.ok.inj (hentry.symm.trans hentry')
    exact ⟨hclean,hline⟩

end

/-- A run of `add_entry` on a new store appends to a log without duplicates, and what
was listed at any point of the run stays listed. -/
theorem entries_append_only {lib : Library} {git : Git} {cargs : CreateArgs} {created : Created}
    {before start s : Snapshot} {trail : List Snapshot} {log : List Event}
    (hcreate : createStore lib git cargs ⟨before,[]⟩ = (.ok created,⟨start,trail⟩))
    (hclean : (Call.create git cargs).Clean lib before.tree)
    (hrun : Run (Appends lib (.str created.token)) start log s)
    (hsha : Set.InjOn lib.sha256 (supplied lib log)) :
    AppendOnly lib (.str created.token) created.info log s ∧
      ∀ earlier later mid, log = earlier ++ later →
        Run (Appends lib (.str created.token)) start earlier mid →
          ∃ old rows, entries lib mid.tree (.str created.token) = .ok old ∧
            entries lib s.tree (.str created.token) = .ok rows ∧ old ⊆ rows := by
  obtain ⟨name,shelf,htoken,hstart⟩ := Tracks.created hcreate hclean
  obtain ⟨_,hs⟩ := hstart.run htoken hrun hsha
  refine ⟨hs.appendOnly htoken,?_⟩
  rintro earlier later mid rfl hearlier
  obtain ⟨_,hmid⟩ := hstart.run htoken hearlier (hsha.mono (supplied_append _ _))
  obtain ⟨old,hold,hpermOld⟩ := hmid.entries htoken
  obtain ⟨rows,hrows,hperm⟩ := hs.entries htoken
  refine ⟨old,rows,hold,hrows,fun row hrow => hperm.mem_iff.mpr ?_⟩
  have hpre : appended lib earlier <+: appended lib (earlier ++ later) := by
    rw [appended,appended,List.filterMap_append]
    exact Dict.firsts_isPrefix _ _
  exact List.map_subset _ hpre.subset (hpermOld.mem_iff.mp hrow)

theorem example_clean : (Call.create .working exampleCreate).Clean exampleLibrary [] := by
  intro purpose author name hopens hauthor
  obtain rfl := Except.ok.inj (example_opens.stripped.symm.trans hopens.stripped)
  obtain rfl : lit "ada" = author := Except.ok.inj hauthor
  decide

/-- The content that a call passes on. -/
def Event.content (lib : Library) (event : Event) : Option Str :=
  match event.call with
  | .add _ args => (args.check lib).toOption.map NewEntry.content
  | .create _ _ => none

def contents (lib : Library) (log : List Event) : List Str := log.filterMap (·.content lib)

theorem mem_supplied {log : List Event} {bytes : Text.Bytes} :
    bytes ∈ supplied lib log ↔ ∃ c ∈ contents lib log, encodeUtf8 c = some bytes := by
  constructor
  · rintro ⟨event,hevent,git,args,entry,hcall,hentry,hbytes⟩
    refine ⟨entry.content,List.mem_filterMap.mpr ⟨event,hevent,?_⟩,hbytes⟩
    rw [Event.content,hcall]
    dsimp only
    rw [hentry]
    rfl
  · rintro ⟨c,hc,hbytes⟩
    obtain ⟨⟨call,result⟩,hevent,hcontent⟩ := List.mem_filterMap.mp hc
    cases call with
    | create git args => cases hcontent
    | add git args =>
      cases hentry : args.check lib with
      | error e =>
        simp only [Event.content,hentry] at hcontent
        cases hcontent
      | ok entry =>
        simp only [Event.content,hentry] at hcontent
        obtain rfl := Option.some.inj hcontent
        exact ⟨_,hevent,git,args,entry,rfl,hentry,hbytes⟩

/-- The digests of these texts are told apart. -/
abbrev Collisionless (lib : Library) (texts : List Str) : Prop :=
  (texts.map fun c => (encodeUtf8 c).map lib.sha256).Nodup

theorem supplied_injOn {log : List Event} {texts : List Str} (hapart : Collisionless lib texts)
    (hsub : contents lib log ⊆ texts) : Set.InjOn lib.sha256 (supplied lib log) := by
  intro a ha b hb hsame
  obtain ⟨c,hc,hcbytes⟩ := mem_supplied.mp ha
  obtain ⟨d,hd,hdbytes⟩ := mem_supplied.mp hb
  have hcd := List.inj_on_of_nodup_map hapart (hsub hc) (hsub hd) (by simp [hcbytes,hdbytes,hsame])
  rw [hcd,hdbytes] at hcbytes
  exact (Option.some.inj hcbytes).symm

/-- A text that is told apart from those of the log has another digest than they have. -/
theorem supplied_apart {log : List Event} {texts : List Str} {c : Str} {bytes : Text.Bytes}
    (hapart : Collisionless lib (c :: texts)) (hsub : contents lib log ⊆ texts)
    (hbytes : encodeUtf8 c = some bytes) :
    ∀ bytes' ∈ supplied lib log, lib.hexdigest bytes' ≠ lib.hexdigest bytes := by
  intro bytes' hmem hsame
  obtain ⟨d,hd,hdbytes⟩ := mem_supplied.mp hmem
  refine (List.nodup_cons.mp hapart).1 (List.mem_map.mpr ⟨d,hsub hd,?_⟩)
  simp only [hbytes,hdbytes,Option.map_some,sha256_eq_of_hexdigest hsame]

/-- Another entry, of another author and with a tag. -/
def exampleBill : EntryArgs :=
  ⟨.str exampleToken,.str (lit "water bill"),.str (lit "bo"),.list [.str (lit "home")],exampleNow⟩

/-- The content of the first entry on the day after, with blanks around it. -/
def exampleRepeat : EntryArgs :=
  ⟨.str exampleToken,.str (lit " bin day "),.str (lit "bo"),.none,exampleLater⟩

/-- Two contents, and the first of them again. -/
theorem entries_append_only_repeat : ∃ start created trail first second s,
    createStore exampleLibrary .working exampleCreate ⟨.empty,[]⟩ = (.ok created,⟨start,trail⟩) ∧
      AppendOnly exampleLibrary (.str created.token) created.info
        [⟨.add .working exampleEntry,.ok (.added ⟨first,false⟩)⟩,
          ⟨.add .working exampleBill,.ok (.added ⟨second,false⟩)⟩,
          ⟨.add .working exampleRepeat,.ok (.added ⟨first,true⟩)⟩] s := by
  obtain ⟨trail,hcreate⟩ := createStore_example
  obtain ⟨store,shelf,htoken,hstart⟩ := Tracks.created hcreate example_clean
  obtain ⟨bytes,hbytes⟩ := Option.isSome_iff_exists.mp (show Utf8Encodable (lit "bin day") by decide)
  obtain ⟨bill,hbill⟩ := Option.isSome_iff_exists.mp (show Utf8Encodable (lit "water bill") by decide)
  have hnone : shelf.items.map Prod.fst = [] := by
    rw [List.map_eq_nil_iff]
    exact List.map_eq_nil_iff.mp hstart.items
  obtain ⟨s₁,shelf₁,hstep₁,hfirst,hnames⟩ := hstart.add exampleEntry htoken exampleEntry_check
    ⟨by decide,by simp⟩ (by decide) hbytes
    (supplied_apart (show Collisionless exampleLibrary [lit "bin day"] by decide) (List.nil_subset _) hbytes)
    (by rw [hnone]; exact List.not_mem_nil) (by decide) (by decide) (by decide)
  have hcheck : exampleBill.check exampleLibrary = .ok ⟨lit "water bill",lit "bo",[lit "home"]⟩ := by
    decide
  have hname : entryName (exampleLibrary.hexdigest bill) (lit "water bill") exampleNow ∉
      shelf₁.items.map Prod.fst := by
    have hday : entryName (exampleLibrary.hexdigest bytes) (lit "bin day") exampleNow =
      lit "2026-01-05-bin-day.md" := rfl
    have hwater : entryName (exampleLibrary.hexdigest bill) (lit "water bill") exampleNow =
      lit "2026-01-05-water-bill.md" := rfl
    rw [hnames,hnone,hwater]
    show lit "2026-01-05-water-bill.md" ∉
      [entryName (exampleLibrary.hexdigest bytes) (lit "bin day") exampleNow]
    rw [hday]
    decide
  obtain ⟨s₂,shelf₂,hstep₂,hsecond,_⟩ := hfirst.add exampleBill htoken hcheck
    ⟨by decide,by decide⟩ (by decide) hbill
    (supplied_apart (show Collisionless exampleLibrary [lit "water bill",lit "bin day"] by decide)
      (List.Subset.refl _) hbill) hname (by decide) (by decide) (by decide)
  have hrepeat : exampleRepeat.check exampleLibrary = .ok ⟨lit "bin day",lit "bo",[]⟩ := by decide
  have hsha : ∀ first second again : Outcome, Set.InjOn exampleLibrary.sha256
      (supplied exampleLibrary [⟨.add .working exampleEntry,.ok first⟩,
        ⟨.add .working exampleBill,.ok second⟩,⟨.add .working exampleRepeat,.ok again⟩]) := by
    intro first second again
    refine supplied_injOn (show Collisionless exampleLibrary [lit "bin day",lit "water bill"] by decide) ?_
    show [lit "bin day",lit "water bill",lit "bin day"] ⊆ [lit "bin day",lit "water bill"]
    decide
  have hheld := record_ok exampleEntry_check hbytes
  have hheld' := record_ok hcheck hbill
  obtain ⟨hstep₃,_⟩ := hsecond.again .working exampleRepeat htoken hrepeat ⟨by decide,by simp⟩
    (by decide) hbytes (by
      simp only [appended,List.nil_append,List.cons_append,List.filterMap_cons,Event.record,hheld,hheld']
      rfl) (hsha _ _ _)
  exact ⟨exampleStore,_,trail,_,_,s₂,hcreate,(entries_append_only hcreate example_clean
    (((Run.single hstep₁).snoc hstep₂).snoc hstep₃) (hsha _ _ _)).1⟩

/-- Another content of the same day with the same slug. -/
def exampleRival : EntryArgs := { exampleEntry with content := .str (lit "bin day!") }

theorem addEntry_overwrites : ∃ trail created start info trail₁ s info' trail₂ t,
    createStore exampleLibrary .working exampleCreate ⟨.empty,[]⟩ = (.ok created,⟨start,trail⟩) ∧
      addEntry exampleLibrary .working exampleEntry ⟨start,[]⟩ = (.ok ⟨info,false⟩,⟨s,trail₁⟩) ∧
      addEntry exampleLibrary .working exampleRival ⟨s,[]⟩ = (.ok ⟨info',false⟩,⟨t,trail₂⟩) ∧
      describe exampleLibrary t.tree (.str exampleToken) = .ok ⟨created.info,1⟩ := by
  obtain ⟨trail,hcreate⟩ := createStore_example
  obtain ⟨store,shelf,htoken,hstart⟩ := Tracks.created hcreate example_clean
  obtain ⟨bytes,hbytes⟩ := Option.isSome_iff_exists.mp (show Utf8Encodable (lit "bin day") by decide)
  obtain ⟨rival,hrival⟩ := Option.isSome_iff_exists.mp (show Utf8Encodable (lit "bin day!") by decide)
  have hready := hstart.ready exampleEntry htoken exampleEntry_check hbytes (by
    rintro bytes' ⟨event,hevent,_⟩
    cases hevent)
  have hempty : shelf.dir.entries = some [] := by
    have hitems : shelf.items = [] := List.map_eq_nil_iff.mp hstart.items
    rw [Shelf.dir,hitems]
    rfl
  obtain ⟨s,trail₁,hadd,hs⟩ :=
    addEntry_working hready hempty (hready.encodable.mpr (by decide))
      (hready.message_short (by decide) (by decide) (by decide))
  obtain ⟨shelf',hfirst,_⟩ := hstart.write .working htoken hready ⟨by decide,by simp⟩
    (by decide) hempty rfl hs
  have hcheck : exampleRival.check exampleLibrary = .ok ⟨lit "bin day!",lit "ada",[]⟩ := by decide
  have hready' := hfirst.ready exampleRival htoken hcheck hrival
    (supplied_apart (show Collisionless exampleLibrary [lit "bin day!",lit "bin day"] by decide)
      (List.Subset.refl _) hrival)
  obtain ⟨t,trail₂,hadd',ht⟩ :=
    addEntry_working hready' rfl (hready'.encodable.mpr (by decide))
      (hready'.message_short (by decide) (by decide) (by decide))
  refine ⟨trail,_,exampleStore,_,trail₁,s,_,trail₂,t,hcreate,hadd,hadd',?_⟩
  have hheld := ((Holds.start.create .working (t := exampleStore) example_opens rfl
    (by decide) (by decide) rfl).write .working hready ⟨by decide,by simp⟩ hempty hs).write
      .working hready' ⟨by decide,by simp⟩ rfl ht
  have hdescribed := hheld.intact.described _ (List.mem_append_left _ (List.mem_append_left _
    (List.mem_singleton_self _))) store _ ((opens_create htoken).mpr ⟨rfl,rfl⟩) (.str exampleToken)
      htoken
  have hname : ∀ d d', entryName d (lit "bin day") exampleNow =
      entryName d' (lit "bin day!") exampleNow := fun _ _ => rfl
  have hlength : ∀ (name name' : Str) (row row' : Row), name = name' →
      ((Dict.set [] name row).set name' row').length = 1 := by
    rintro name _ row row' rfl
    rw [Dict.set_set]
    rfl
  rw [hdescribed,shelved_some ((filed_add htoken hready'.file).trans (if_pos rfl)),
    shelved_some ((filed_add htoken hready.file).trans (if_pos rfl))]
  exact congrArg (fun n => Except.ok (Described.mk _ n)) (hlength _ _ _ _ (hname _ _))

end HearthAI.Memory
