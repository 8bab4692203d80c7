import HearthAI.Core.Transition
import HearthAI.Memory.AppendOnly

/-! # Which contents are returned as they were stored

The file is split at every boundary that `splitlines` knows and joined again with line
feeds. A content with no boundary but line feeds survives, and no other does.
-/
namespace HearthAI.Memory
open Python Effect Transition
variable {lib : Library}

section
variable {s : Str}

/-- A stripped content. -/
structure Stripped (s : Str) : Prop where
  nonempty : s ≠ []
  head : ∀ c, s.head? = some c → isSpace c = false
  last : ∀ c, s.getLast? = some c → isSpace c = false

theorem Stripped.ne_feed (h : Stripped s) :
    (∀ c, s.head? = some c → c ≠ lineFeed) ∧ ∀ c, s.getLast? = some c → c ≠ lineFeed := by
  have hspace : isSpace lineFeed = true := by decide
  constructor
  · rintro c hc rfl
    exact absurd (h.head _ hc) (by simp [hspace])
  · rintro c hc rfl
    exact absurd (h.last _ hc) (by simp [hspace])

/-- What is returned is what was stored exactly when it has no boundary but line feeds. -/
theorem readBack_eq_iff (h : Stripped s) : readBack s = s ↔ OnlyFeeds s := by
  obtain ⟨hhead,hlast⟩ := h.ne_feed
  constructor
  · intro hsame
    rw [← hsame]
    exact onlyFeeds_readBack s
  · intro hfeeds
    exact readBack_of_onlyFeeds hfeeds hhead hlast

theorem stripped_strip (h : strip s ≠ []) : Stripped (strip s) where
  nonempty := h
  head _ hc := Text.head?_trimMatches_eq_false hc
  last _ hc := Text.getLast?_trimMatches_eq_false hc

end

theorem check_stripped {args : EntryArgs} {entry : NewEntry} (h : args.check lib = .ok entry) :
    Stripped entry.content := by
  obtain ⟨content,hcontent,h⟩ := bind_eq_ok.mp h
  split_ifs at h with hempty
  obtain ⟨author,_,h⟩ := bind_eq_ok.mp h
  obtain ⟨tags,_,h⟩ := bind_eq_ok.mp h
  obtain rfl := Except.ok.inj h
  cases hvalue : args.content.orElse (.str []) with
  | str s =>
    rw [hvalue] at hcontent
    obtain rfl := Except.ok.inj (mapError_eq_ok.mp hcontent)
    exact stripped_strip hempty
  | _ =>
    rw [hvalue] at hcontent
    cases mapError_eq_ok.mp hcontent

/-- The digest recorded in a row is that of these bytes. -/
def Row.Records (lib : Library) (bytes : Text.Bytes) (row : Row) : Prop :=
  row.info.get (lit "content_sha256") = some (.str (lib.hexdigest bytes))

/-- The row has this content, and the digest of what it has. -/
structure Verbatim (lib : Library) (content : Str) (row : Row) : Prop where
  same : row.content = content
  digest : ∃ bytes, encodeUtf8 row.content = some bytes ∧ row.Records lib bytes

/-- An entry is given with an author and tags of one line, without lone surrogates. -/
def Call.Plain (lib : Library) : Call → Prop
  | .create _ _ => True
  | .add _ args => ∀ entry, args.check lib = .ok entry → entry.Clean ∧
    Utf8Encodable entry.author ∧ ∀ tag ∈ entry.tags, Utf8Encodable tag

/-- Calls may fail in any way that is left to plain entries. -/
structure PlainStep (lib : Library) (s : Snapshot) (event : Event) (t : Snapshot) : Prop where
  called : Called lib s event t
  plain : event.call.Plain lib

/-- The item is that of an entry of the log. -/
def Item.Logged (lib : Library) (log : List Event) (item : Item) : Prop :=
  ∃ bytes ∈ supplied lib log, encodeUtf8 item.entry.content = some bytes ∧
    item.digest = lib.hexdigest bytes

/-- The invariant: the entries of every store are those of a shelf with items of the log. -/
def Shelved (lib : Library) (log : List Event) (s : Snapshot) : Prop :=
  ∀ store dir, s.tree.get store = some dir → ∃ shelf : Shelf,
    dir.entries = shelf.dir.entries ∧ ∀ p ∈ shelf.items, p.2.Logged lib log

section
variable {log : List Event} {s t : Snapshot} {git : Git}

theorem Item.Logged.append {item : Item} (h : item.Logged lib log) (more : List Event) :
    item.Logged lib (log ++ more) := by
  obtain ⟨bytes,hbytes,hitem⟩ := h
  exact ⟨bytes,supplied_append _ _ hbytes,hitem⟩

theorem Shelved.same (h : Shelved lib log s) (htree : t.tree = s.tree) (event : Event) :
    Shelved lib (log ++ [event]) t := by
  intro store dir hdir
  rw [htree] at hdir
  obtain ⟨shelf,hshelf,hitems⟩ := h store dir hdir
  exact ⟨shelf,hshelf,fun p hp => (hitems p hp).append _⟩

theorem Shelved.set (h : Shelved lib log s) {store : Str} {dir : StoreDir}
    (htree : t.tree = s.tree.set store dir) (shelf : Shelf) {event : Event}
    (hshelf : dir.entries = shelf.dir.entries)
    (hitems : ∀ p ∈ shelf.items, p.2.Logged lib (log ++ [event])) :
    Shelved lib (log ++ [event]) t := by
  intro name dir' hdir
  rw [htree,Dict.get_set] at hdir
  split_ifs at hdir with hname
  · obtain rfl := Option.some.inj hdir
    exact ⟨shelf,hshelf,hitems⟩
  · obtain ⟨other,hother,hlogged⟩ := h name dir' hdir
    exact ⟨other,hother,fun p hp => (hlogged p hp).append _⟩

/-- What a plain step can do to the stores. -/
theorem PlainStep.tree {event : Event} (h : PlainStep lib s event t) : t.tree = s.tree ∨
    (∃ git args name storeMd, event.call = .create git args ∧
      t.tree = s.tree.set name ⟨storeMd,some []⟩) ∨
    ∃ git args entry dir digest pending files, event.call = .add git args ∧
      Ready lib s.tree args entry dir digest pending ∧ dir.entries = some files ∧
        t.tree = s.tree.set pending.dirName (pending.shelve pending.text dir files) := by
  obtain ⟨⟨trail,hrun⟩,hplain⟩ := h
  obtain ⟨call,result⟩ := event
  cases call with
  | create git args =>
    have hcreated : ∃ result', createStore lib git args ⟨s,[]⟩ = (result',⟨t,trail⟩) := by
      cases result with
      | ok outcome =>
        obtain ⟨_,hcreated,_⟩ := bind_pure_eq_ok.mp hrun
        exact ⟨_,hcreated⟩
      | error e => exact ⟨_,bind_pure_eq_error.mp hrun⟩
    obtain ⟨_,hcreated⟩ := hcreated
    rcases createStore_tree hcreated with htree | ⟨name,storeMd,_,htree⟩
    · exact .inl htree
    · exact .inr (.inl ⟨git,args,name,storeMd,rfl,htree⟩)
  | add git args =>
    have hadded : ∃ result', addEntry lib git args ⟨s,[]⟩ = (result',⟨t,trail⟩) := by
      cases result with
      | ok outcome =>
        obtain ⟨_,hadded,_⟩ := bind_pure_eq_ok.mp hrun
        exact ⟨_,hadded⟩
      | error e => exact ⟨_,bind_pure_eq_error.mp hrun⟩
    obtain ⟨_,hadded⟩ := hadded
    rcases addEntry_tree hadded fun entry dir digest pending hready =>
      hready.encodable.mpr (hplain entry hready.checked).2 with
      htree | ⟨entry,dir,digest,pending,files,hready,hfiles,htree⟩
    · exact .inl htree
    · exact .inr (.inr ⟨git,args,entry,dir,digest,pending,files,rfl,hready,hfiles,htree⟩)

theorem Shelved.create {storeMd : Option Str} {name : Str} (h : Shelved lib log s)
    (htree : t.tree = s.tree.set name ⟨storeMd,some []⟩) (event : Event) :
    Shelved lib (log ++ [event]) t := by
  have hempty : ∃ shelf : Shelf, shelf.items = [] :=
    ⟨⟨⟨[],[],⟨0,0,0,0,0,0⟩,by decide,by decide⟩,[],by simp⟩,rfl⟩
  obtain ⟨shelf,hshelf⟩ := hempty
  refine h.set htree shelf ?_ ?_
  · rw [Shelf.dir,hshelf]
    rfl
  · rw [hshelf]
    simp

theorem Shelved.write {args : EntryArgs} {result : Except Failure Outcome} {entry : NewEntry}
    {dir : StoreDir} {digest : Str} {pending : Pending} {files : Dict Str Str} (h : Shelved lib log s)
    (hplain : (Call.add git args).Plain lib)
    (hready : Ready lib s.tree args entry dir digest pending) (hfiles : dir.entries = some files)
    (htree : t.tree = s.tree.set pending.dirName (pending.shelve pending.text dir files)) :
    Shelved lib (log ++ [⟨.add git args,result⟩]) t := by
  obtain ⟨shelf,hshelf,hitems⟩ := h _ dir (dirFor_ok.mp hready.found).2
  obtain ⟨bytes,hbytes,rfl⟩ := hready.digested
  have hnamed : endsWith (lit ".md") pending.name = true := by
    rw [hready.pending_eq]
    exact endsWith_entryName _ _ _
  have hclean := (hplain entry hready.checked).1
  have hchecked := hready.checked
  refine h.set htree (shelf.put pending.name ⟨entry,lib.hexdigest bytes,args.now,
    hclean,hexdigest_oneLine lib bytes⟩ hnamed) ?_ fun p hp => ?_
  · rw [Shelf.dir_put _ _ _ (hshelf.symm.trans hfiles),Pending.shelve,hready.pending_eq]
    rfl
  · rcases Dict.mem_set hp with rfl | hp
    · exact ⟨bytes,⟨_,List.mem_append_right _ (List.mem_singleton_self _),git,args,entry,rfl,
        hchecked,hbytes⟩,hbytes,rfl⟩
    · exact (hitems p hp).append _

theorem Shelved.run (h : Run (PlainStep lib) .empty log s) : Shelved lib log s := by
  refine h.invariant (I := fun log s => Shelved lib log s) (fun _ _ h => by cases h) ?_
  rintro log s ⟨call,result⟩ t _ ih hstep
  rcases hstep.tree with htree | ⟨git,args,name,storeMd,_,htree⟩ |
    ⟨git,args,entry,dir,digest,pending,files,hcall,hready,hfiles,htree⟩
  · exact ih.same htree _
  · exact ih.create htree _
  · obtain rfl : call = .add git args := hcall
    exact ih.write hstep.plain hready hfiles htree

/-- No store is ever removed. -/
theorem PlainStep.keeps {event : Event} {name : Str} (h : PlainStep lib s event t)
    (hname : s.tree.get name ≠ none) : t.tree.get name ≠ none := by
  have hset : ∀ other dir, (s.tree.set other dir).get name ≠ none := by
    intro other dir
    rw [Dict.get_set]
    split_ifs
    · simp
    · exact hname
  rcases h.tree with htree | ⟨_,_,_,_,_,htree⟩ | ⟨_,_,_,_,_,_,_,_,_,_,htree⟩
  · rwa [htree]
  · rw [htree]
    exact hset _ _
  · rw [htree]
    exact hset _ _

theorem records_row {item : Item} {bytes : Text.Bytes} :
    item.row.Records lib bytes ↔ item.digest = lib.hexdigest bytes := by
  rw [Row.Records,Item.row,get_content_sha256,Option.some.injEq,MetaValue.str.injEq]

/-- Among what was hashed, the digest determines the content. -/
theorem Item.Logged.content_eq {item : Item} {content : Str} {bytes : Text.Bytes}
    (h : item.Logged lib log) (hsha : Set.InjOn lib.sha256 (supplied lib log))
    (hbytes : encodeUtf8 content = some bytes) (hsupplied : bytes ∈ supplied lib log)
    (hrecords : item.row.Records lib bytes) : item.entry.content = content := by
  obtain ⟨bytes',hsupplied',hcontent,hdigest⟩ := h
  have hsame : bytes' = bytes := hsha hsupplied' hsupplied
    (sha256_eq_of_hexdigest (hdigest.symm.trans (records_row.mp hrecords)))
  exact encodeUtf8_injective hcontent (hsame ▸ hbytes)

theorem verbatim_iff {row : Row} {content : Str} {bytes : Text.Bytes} (hcontent : Stripped content)
    (hbytes : encodeUtf8 content = some bytes) (hrow : row.content = readBack content)
    (hrecords : row.Records lib bytes) : Verbatim lib content row ↔ OnlyFeeds content := by
  rw [← readBack_eq_iff hcontent,← hrow]
  exact ⟨fun h => h.same,fun h => ⟨h,bytes,by rw [h,hbytes],hrecords⟩⟩

/-- An acknowledged entry is on the shelf, with its digest. -/
theorem acknowledged_listed {args : EntryArgs} {entry : NewEntry} {added : Added}
    {bytes : Text.Bytes} (hplain : (Call.add git args).Plain lib)
    (hentry : args.check lib = .ok entry) (hbytes : encodeUtf8 entry.content = some bytes)
    (hcalled : Called lib s ⟨.add git args,.ok (.added added)⟩ t) : ∃ name dir, dirFor lib t.tree args.token = .ok (name,dir) ∧
      ∀ shelf : Shelf, dir.entries = shelf.dir.entries → ∃ p ∈ shelf.items,
        p.2.row.info = added.info ∧ p.2.row.Records lib bytes := by
  obtain ⟨trail,hrun⟩ := hcalled
  obtain ⟨added',hadded,hsame⟩ := bind_pure_eq_ok.mp hrun
  obtain rfl : added = added' := (Outcome.added.inj hsame).symm
  rcases addEntry_ok hadded with ⟨info,hprepare,rfl,rfl⟩ |
    ⟨entry',dir,digest,pending,files,hready,hfiles,rfl,htree,_⟩
  · obtain ⟨entry',name,dir,bytes',hentry',hdir,hbytes',hfound⟩ := prepare_duplicate hprepare
    obtain rfl := Except.ok.inj (hentry.symm.trans hentry')
    obtain rfl := Option.some.inj (hbytes.symm.trans hbytes')
    refine ⟨name,dir,hdir,fun shelf hshelf => ?_⟩
    obtain ⟨file,hfile,body,hload,hdigest⟩ := findDuplicate_some hfound
    rw [sortedEntries_of_shelf hshelf] at hfile
    obtain ⟨p,hp,rfl⟩ := List.mem_map.mp hfile
    rw [loadFile_item,Except.ok.injEq,Prod.mk.injEq] at hload
    obtain ⟨rfl,rfl⟩ := hload
    exact ⟨p,shelf.sorted_perm.subset hp,rfl,hdigest⟩
  · obtain rfl := Except.ok.inj (hentry.symm.trans hready.checked)
    obtain ⟨bytes',hbytes',rfl⟩ := hready.digested
    obtain rfl := Option.some.inj (hbytes.symm.trans hbytes')
    have hname := (dirFor_ok.mp hready.found).1
    refine ⟨_,_,dirFor_ok.mpr ⟨hname,by rw [htree,Dict.get_set_self]⟩,fun shelf hshelf => ?_⟩
    have hget : Dict.get (shelf.items.map (fun p => (p.1,p.2.text))) pending.name =
        some pending.text := by
      rw [← Option.some.inj hshelf,Dict.get_set_self]
    obtain ⟨p,hp,htext⟩ := List.mem_map.mp (Dict.mem_of_get hget)
    have hitem : loadFile p.2.text = .ok (pending.info,readBack entry.content) := by
      rw [(Prod.mk.inj htext).2,hready.pending_eq]
      exact loads_dumps (Item.safe ⟨entry,_,args.now,(hplain entry hentry).1,
        hexdigest_oneLine lib bytes⟩).format _
    rw [loadFile_item,Except.ok.injEq,Prod.mk.injEq] at hitem
    refine ⟨p,hp,hitem.1,?_⟩
    rw [Row.Records,show p.2.row.info = p.2.info from rfl,hitem.1,hready.pending_eq]
    exact get_content_sha256 ⟨entry,_,args.now,(hplain entry hentry).1,hexdigest_oneLine lib bytes⟩

/-- An entry that is acknowledged has a digest. -/
theorem called_encodes {args : EntryArgs} {entry : NewEntry} {added : Added}
    (h : Called lib s ⟨.add git args,.ok (.added added)⟩ t) (hentry : args.check lib = .ok entry) :
    ∃ bytes, encodeUtf8 entry.content = some bytes := by
  obtain ⟨trail,hrun⟩ := h
  obtain ⟨_,hadded,_⟩ := bind_pure_eq_ok.mp hrun
  rcases addEntry_ok hadded with ⟨info,hprepare,_⟩ | ⟨entry',_,_,_,_,hready,_⟩
  · obtain ⟨entry',_,_,bytes,hentry',_,hbytes,_⟩ := prepare_duplicate hprepare
    obtain rfl := Except.ok.inj (hentry.symm.trans hentry')
    exact ⟨bytes,hbytes⟩
  · obtain rfl := Except.ok.inj (hentry.symm.trans hready.checked)
    obtain ⟨bytes,hbytes,_⟩ := hready.digested
    exact ⟨bytes,hbytes⟩

end

/-- After an entry was acknowledged it is listed, and whatever row is listed for its digest, then
or later, has the content as it was given exactly when no boundary but line feeds is in it. -/
theorem listed_verbatim_iff {lib : Library} {earlier later : List Event} {s : Snapshot} {git : Git}
    {args : EntryArgs} {entry : NewEntry} {added : Added} (hrun : Run (PlainStep lib) .empty
      (earlier ++ ⟨.add git args,.ok (.added added)⟩ :: later) s)
    (hsha : Set.InjOn lib.sha256
      (supplied lib (earlier ++ ⟨.add git args,.ok (.added added)⟩ :: later)))
    (hentry : args.check lib = .ok entry) : ∃ bytes rows, encodeUtf8 entry.content = some bytes ∧
      entries lib s.tree args.token = .ok rows ∧
      (later = [] → ∃ row ∈ rows, row.info = added.info ∧ row.Records lib bytes) ∧
      ∀ row ∈ rows, row.Records lib bytes →
        (Verbatim lib entry.content row ↔ OnlyFeeds entry.content) := by
  have hlog : earlier ++ ⟨.add git args,.ok (.added added)⟩ :: later =
      earlier ++ [⟨.add git args,.ok (.added added)⟩] ++ later := by simp
  obtain ⟨mid,hmid,hlater⟩ := hrun.split hlog
  obtain ⟨_,_,hlast⟩ := hmid.split rfl
  obtain ⟨hcalled,hplain⟩ := hlast.of_single
  obtain ⟨bytes,hbytes⟩ := called_encodes hcalled hentry
  obtain ⟨name,dir,hdir,hlisted⟩ :=
    acknowledged_listed hplain hentry hbytes hcalled
  obtain ⟨htoken,hname⟩ := dirFor_ok.mp hdir
  have hkept : s.tree.get name ≠ none := by
    refine hlater.invariant (I := fun _ s => s.tree.get name ≠ none) (by rw [hname]; simp) ?_
    exact fun _ _ _ _ _ ih hstep => hstep.keeps ih
  obtain ⟨dir',hname'⟩ := Option.ne_none_iff_exists'.mp hkept
  obtain ⟨shelf,hshelf,hitems⟩ := Shelved.run hrun name dir' hname'
  obtain ⟨rows,hrows,hperm⟩ := entries_of_shelf (dirFor_ok.mpr ⟨htoken,hname'⟩) hshelf
  refine ⟨bytes,rows,hbytes,hrows,?_,fun row hrow hrecords => ?_⟩
  · rintro rfl
    obtain rfl := hlater.eq_of_nil
    obtain rfl := Option.some.inj (hname.symm.trans hname')
    obtain ⟨p,hp,hinfo,hrecords⟩ := hlisted shelf hshelf
    exact ⟨p.2.row,hperm.mem_iff.mpr (List.mem_map.mpr ⟨p,hp,rfl⟩),hinfo,hrecords⟩
  · obtain ⟨p,hp,rfl⟩ := List.mem_map.mp (hperm.mem_iff.mp hrow)
    have hcontent := (hitems p hp).content_eq hsha hbytes
      ⟨_,List.mem_append_right _ List.mem_cons_self,git,args,entry,rfl,hentry,hbytes⟩ hrecords
    exact verbatim_iff (check_stripped hentry) hbytes (by rw [← hcontent]; rfl) hrecords

/-- A store is made and an entry is added. -/
def exampleLog (info : Meta) : List Event :=
  [⟨.create .working exampleCreate,.ok (.created
    ⟨exampleToken,storeMeta (lit "household") (lit "ada") exampleNow,0⟩)⟩,
  ⟨.add .working exampleEntry,.ok (.added ⟨info,false⟩)⟩]

theorem exampleLog_plain : ∃ info t, Run (PlainStep exampleLibrary) .empty (exampleLog info) t := by
  obtain ⟨trail,hcreate⟩ := createStore_example
  obtain ⟨pending,dir,digest,hready,hfiles⟩ := exampleEntry_ready
  obtain ⟨t,trail',hadd,_⟩ :=
    addEntry_working hready hfiles (hready.encodable.mpr (by decide))
      (hready.message_short (by decide) (by decide) (by decide))
  refine ⟨pending.info,t,(Run.single (t := exampleStore) ?_).snoc ⟨?_,?_⟩⟩
  · exact ⟨⟨trail,bind_pure_eq_ok.mpr ⟨_,hcreate,rfl⟩⟩,trivial⟩
  · exact ⟨trail',bind_pure_eq_ok.mpr ⟨_,hadd,rfl⟩⟩
  · intro entry hentry
    obtain rfl := Except.ok.inj (exampleEntry_check.symm.trans hentry)
    exact ⟨⟨by decide,by simp⟩,by decide,by decide⟩

theorem exampleLog_supplied (info : Meta) :
    Set.InjOn exampleLibrary.sha256 (supplied exampleLibrary (exampleLog info)) := by
  refine supplied_injOn (show Collisionless exampleLibrary [lit "bin day"] by decide) ?_
  show [lit "bin day"] ⊆ [lit "bin day"]
  exact List.Subset.refl _

theorem listed_verbatim_example : ∃ info t bytes rows,
    Run (PlainStep exampleLibrary) .empty (exampleLog info) t ∧
      entries exampleLibrary t.tree (.str exampleToken) = .ok rows ∧
      (∃ row ∈ rows, row.info = info ∧ row.Records exampleLibrary bytes) ∧
      ∀ row ∈ rows, row.Records exampleLibrary bytes →
        (Verbatim exampleLibrary (lit "bin day") row ↔ OnlyFeeds (lit "bin day")) := by
  obtain ⟨info,t,hrun⟩ := exampleLog_plain
  obtain ⟨bytes,rows,_,hrows,hlast,hrow⟩ := @listed_verbatim_iff _ [_] [] _ _ _ _ _ hrun
    (exampleLog_supplied info) exampleEntry_check
  exact ⟨info,t,bytes,rows,hrun,hrows,hlast rfl,hrow⟩

/-- An entry with a line separator in it. -/
def exampleSeparated : EntryArgs := { exampleEntry with content := .str (lit "bin\u2028day") }

/-- The line separator comes back as a line feed. -/
theorem addEntry_separator_lost : ∃ trail created info t trail' row,
    createStore exampleLibrary .working exampleCreate ⟨.empty,[]⟩ =
      (.ok created,⟨exampleStore,trail⟩) ∧
    addEntry exampleLibrary .working exampleSeparated ⟨exampleStore,[]⟩ =
      (.ok ⟨info,false⟩,⟨t,trail'⟩) ∧
    entries exampleLibrary t.tree (.str exampleToken) = .ok [row] ∧ row.info = info ∧
    row.content = lit "bin\nday" ∧ ¬Verbatim exampleLibrary (lit "bin\u2028day") row := by
  obtain ⟨trail,hcreate⟩ := createStore_example
  have hcheck : exampleSeparated.check exampleLibrary =
      .ok ⟨lit "bin\u2028day",lit "ada",[]⟩ := by decide
  obtain ⟨digest,hready⟩ := exampleStore_ready rfl hcheck (by decide)
  obtain ⟨bytes,_,rfl⟩ := hready.digested
  obtain ⟨t,trail',hadd,htree⟩ :=
    addEntry_working hready rfl (hready.encodable.mpr (by decide))
      (hready.message_short (by decide) (by decide) (by decide))
  -- The shelf with this one entry.
  let item : Item := ⟨⟨lit "bin\u2028day",lit "ada",[]⟩,exampleLibrary.hexdigest bytes,exampleNow,
    ⟨by decide,by simp⟩,hexdigest_oneLine _ _⟩
  let shelf : Shelf :=
    (⟨⟨lit "household",lit "ada",exampleNow,by decide,by decide⟩,[],by simp⟩ : Shelf).put
      (entryName (exampleLibrary.hexdigest bytes) (lit "bin\u2028day") exampleNow) item
        (endsWith_entryName _ _ _)
  have hdir : dirFor exampleLibrary t.tree (.str exampleToken) = .ok (exampleName,shelf.dir) := by
    refine dirFor_ok.mpr ⟨exampleName_eq,?_⟩
    rw [htree]
    exact Dict.get_set_self _ _ _
  obtain ⟨rows,hrows,hperm⟩ := entries_dir hdir
  obtain rfl : rows = [item.row] := List.perm_singleton.mp hperm
  have hcontent : item.row.content = lit "bin\nday" :=
    show readBack (lit "bin\u2028day") = lit "bin\nday" by decide
  refine ⟨trail,_,_,t,trail',item.row,hcreate,hadd,hrows,rfl,hcontent,fun h => ?_⟩
  have hsame := hcontent.symm.trans h.same
  revert hsame
  decide

end HearthAI.Memory
