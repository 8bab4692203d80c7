import HearthAI.Memory.Encoding

/-! # Stores whose files can be read

A shelf is what a store directory says when everything in its headers is of one
line. Every reading operation is a function of the shelf.
-/
namespace HearthAI.Memory
open Python
variable {lib : Library}

/-- Nothing in the header breaks a line. The content may. -/
def NewEntry.Clean (entry : NewEntry) : Prop := OneLine entry.author ∧ ∀ tag ∈ entry.tags, OneLine tag

structure Heading where
  purpose : Str
  author : Str
  now : Timestamp
  purposeLine : OneLine purpose
  authorLine : OneLine author

structure Item where
  entry : NewEntry
  digest : Str
  now : Timestamp
  clean : entry.Clean
  digestLine : OneLine digest

/-- Entries by file name, in the order of their first writing. -/
structure Shelf where
  heading : Heading
  items : Dict Str Item
  named : ∀ p ∈ items, endsWith (lit ".md") p.1 = true

def Heading.info (heading : Heading) : Meta :=
  storeMeta heading.purpose heading.author heading.now
def Heading.text (heading : Heading) : Str :=
  storeText heading.purpose heading.author heading.now

def Item.info (item : Item) : Meta :=
  entryMeta item.digest item.entry.author item.now item.entry.tags
def Item.text (item : Item) : Str := dumps item.info item.entry.content
def Item.row (item : Item) : Row := ⟨item.info,readBack item.entry.content⟩

/-- The directory of a shelf. -/
def Shelf.dir (shelf : Shelf) : StoreDir :=
  ⟨some shelf.heading.text,some (shelf.items.map (fun p => (p.1,p.2.text)))⟩

def Shelf.put (shelf : Shelf) (name : Str) (item : Item)
    (h : endsWith (lit ".md") name = true) : Shelf where
  heading := shelf.heading
  items := shelf.items.set name item
  named := fun p hp => by
    rcases Dict.mem_set hp with rfl | hp
    · exact h
    · exact shelf.named p hp

@[simp] theorem Shelf.put_items (shelf : Shelf) (name : Str) (item : Item)
    (h : endsWith (lit ".md") name = true) :
    (shelf.put name item h).items = shelf.items.set name item := rfl

theorem Shelf.dir_put (shelf : Shelf) {name : Str} (item : Item)
    (h : endsWith (lit ".md") name = true) {files : Dict Str Str}
    (hfiles : shelf.dir.entries = some files) :
    (shelf.put name item h).dir = { shelf.dir with entries := some (files.set name item.text) } := by
  obtain rfl : shelf.items.map (fun p => (p.1,p.2.text)) = files := Option.some.inj hfiles
  rw [← Dict.map_set]
  rfl

instance (key : Str) : Decidable (SafeKey key) :=
  decidable_of_iff (OneLine key ∧ key.all (fun c => !isSpace c) = true ∧ key.contains colon = false ∧
      key.head?.any (· != dash) = true) (by
    constructor
    · rintro ⟨hline,hsolid,hcolon,hhead⟩
      refine ⟨hline,by simpa using hsolid,by simpa using hcolon,?_⟩
      cases key with
      | nil => cases hhead
      | cons c rest => exact ⟨c,rest,rfl,by simpa using hhead⟩
    · rintro ⟨hline,hsolid,hcolon,c,rest,rfl,hdash⟩
      exact ⟨hline,by simpa using hsolid,by simpa using hcolon,by simpa using hdash⟩)

theorem Heading.safe (heading : Heading) : SafeMeta heading.info where
  keys := by simp only [Heading.info,storeMeta,List.map_cons,List.map_nil]; decide
  safe := by simp only [Heading.info,storeMeta,List.forall_mem_cons]; decide
  values := by
    simp only [Heading.info,storeMeta,List.forall_mem_cons]
    exact ⟨heading.purposeLine,oneLine_isoformat _,heading.authorLine,by simp⟩

theorem Item.safe (item : Item) : SafeMeta item.info where
  keys := by simp only [Item.info,entryMeta,List.map_cons,List.map_nil]; decide
  safe := by simp only [Item.info,entryMeta,List.forall_mem_cons]; decide
  values := by
    have hid : OneLine (item.digest.take 12) := fun c hc =>
      item.digestLine c (List.mem_of_mem_take hc)
    simp only [Item.info,entryMeta,List.forall_mem_cons]
    exact ⟨hid,item.clean.1,oneLine_isoformat _,item.clean.2,item.digestLine,by simp⟩

theorem loadFile_heading (heading : Heading) : ∃ body,
    loadFile heading.text = .ok (heading.info,body) := by
  rw [loadFile,Heading.text,storeText,← Heading.info,loads_dumps heading.safe.format]
  exact ⟨_,rfl⟩

theorem loadFile_item (item : Item) :
    loadFile item.text = .ok (item.info,readBack item.entry.content) := loads_dumps item.safe.format _

/-- The files of a shelf, in the order in which they are read. -/
def Shelf.sorted (shelf : Shelf) : List (Str × Item) :=
  shelf.items.mergeSort (fun a b => le a.1 b.1)

theorem Shelf.sorted_perm (shelf : Shelf) : shelf.sorted.Perm shelf.items :=
  List.mergeSort_perm _ _

theorem sortedEntries_dir (shelf : Shelf) :
    sortedEntries shelf.dir = shelf.sorted.map (fun p => (p.1,p.2.text)) := by
  have hfilter : (shelf.items.map (fun p => (p.1,p.2.text))).filter
      (fun p => endsWith (lit ".md") p.1) = shelf.items.map (fun p => (p.1,p.2.text)) := by
    refine List.filter_eq_self.mpr fun q hq => ?_
    obtain ⟨p,hp,rfl⟩ := List.mem_map.mp hq
    exact shelf.named p hp
  rw [sortedEntries,Shelf.dir,Option.getD_some,hfilter,Shelf.sorted,List.map_mergeSort]
  exact fun _ _ _ _ => rfl

theorem sortedEntries_of_shelf {shelf : Shelf} {dir : StoreDir}
    (h : dir.entries = shelf.dir.entries) :
    sortedEntries dir = shelf.sorted.map (fun p => (p.1,p.2.text)) := by
  rw [← sortedEntries_dir,sortedEntries,h]
  rfl

theorem mapM_loadRow (items : List (Str × Item)) :
    (items.map (fun p => (p.1,p.2.text))).mapM loadRow = .ok (items.map (fun p => p.2.row)) := by
  induction items with
  | nil => rfl
  | cons p items ih =>
    have hrow : loadRow (p.1,p.2.text) = .ok p.2.row := by
      unfold loadRow
      rw [loadFile_item]
      rfl
    rw [List.map_cons,List.mapM_cons,hrow,ih]
    rfl

theorem createdAt_row (item : Item) : item.row.createdAt = .str item.now.isoformat := by
  have hkeys : lit "created_at" ≠ lit "id" ∧ lit "created_at" ≠ lit "author" := by decide
  rw [Row.createdAt,Item.row,Item.info,entryMeta,Dict.get_cons,if_neg hkeys.1,Dict.get_cons,
    if_neg hkeys.2,Dict.get_cons,if_pos rfl]
  rfl

theorem isStr_row {items : List (Str × Item)} {row : Row} (h : row ∈ items.map (fun p => p.2.row)) :
    row.createdAt.isStr = true := by
  obtain ⟨p,_,rfl⟩ := List.mem_map.mp h
  rw [createdAt_row]
  rfl

theorem get_content_sha256 (item : Item) :
    item.info.get (lit "content_sha256") = some (.str item.digest) := by
  have hkeys : lit "content_sha256" ≠ lit "id" ∧ lit "content_sha256" ≠ lit "author" ∧
    lit "content_sha256" ≠ lit "created_at" ∧ lit "content_sha256" ≠ lit "tags" := by decide
  rw [Item.info,entryMeta,Dict.get_cons,if_neg hkeys.1,Dict.get_cons,if_neg hkeys.2.1,
    Dict.get_cons,if_neg hkeys.2.2.1,Dict.get_cons,if_neg hkeys.2.2.2,Dict.get_cons,if_pos rfl]

section
variable {tree : Tree} {token : Value} {name : Str} {shelf : Shelf}

theorem describe_dir (h : dirFor lib tree token = .ok (name,shelf.dir)) :
    describe lib tree token = .ok ⟨shelf.heading.info,shelf.items.length⟩ := by
  obtain ⟨body,hbody⟩ := loadFile_heading shelf.heading
  have hlength : (sortedEntries shelf.dir).length = shelf.items.length := by
    rw [sortedEntries_dir,List.length_map]
    exact shelf.sorted_perm.length_eq
  refine bind_eq_ok.mpr ⟨_,h,?_⟩
  refine bind_eq_ok.mpr ⟨_,mapError_eq_ok.mpr hbody,?_⟩
  rw [hlength]
  rfl

/-- The rows of a shelf: what is listed, up to the order. -/
def Shelf.rows (shelf : Shelf) : List Row := shelf.items.map (fun p => p.2.row)

/-- What is listed depends on the entries only, not on `store.md`. -/
theorem entries_of_shelf {dir : StoreDir} (h : dirFor lib tree token = .ok (name,dir))
    (hentries : dir.entries = shelf.dir.entries) :
    ∃ rows, entries lib tree token = .ok rows ∧ rows.Perm shelf.rows := by
  have hsorted : (shelf.sorted.map (fun p => p.2.row)).Perm shelf.rows :=
    shelf.sorted_perm.map _
  have hstr : (shelf.sorted.map (fun p => p.2.row)).all (fun a =>
      (shelf.sorted.map (fun p => p.2.row)).all
        (fun b => a.createdAt.isStr == b.createdAt.isStr)) = true := by
    rw [List.all_eq_true]
    intro a ha
    rw [List.all_eq_true]
    intro b hb
    rw [isStr_row ha,isStr_row hb]
    rfl
  refine ⟨_,bind_eq_ok.mpr ⟨_,h,bind_eq_ok.mpr ⟨_,?_,if_pos hstr⟩⟩,
    (List.mergeSort_perm _ _).trans hsorted⟩
  rw [liftFrontmatter,mapError_eq_ok,sortedEntries_of_shelf hentries,mapM_loadRow]

theorem entries_dir (h : dirFor lib tree token = .ok (name,shelf.dir)) :
    ∃ rows, entries lib tree token = .ok rows ∧ rows.Perm shelf.rows := entries_of_shelf h rfl

theorem mem_slice {α : Type} {limit : Int} {rows : List α} {a : α} (h : a ∈ slice limit rows) :
    a ∈ rows := by
  unfold slice at h
  split_ifs at h
  · exact List.mem_of_mem_take h
  · exact List.mem_of_mem_take h

/-- A search finds some of what is listed. -/
theorem search_dir (h : dirFor lib tree token = .ok (name,shelf.dir)) (query : Str) (limit : Int) :
    ∃ rows, search lib tree token query limit = .ok rows ∧ ∀ row ∈ rows, row ∈ shelf.rows := by
  obtain ⟨rows,hrows,hperm⟩ := entries_dir h
  unfold search
  rw [hrows]
  by_cases hwanted : tokenize query = []
  · exact ⟨slice limit rows,if_pos hwanted,fun row hrow => hperm.subset (mem_slice hrow)⟩
  · have hscored : ∀ p ∈ (rows.map (fun row => (row.overlap (tokenize query),row))).filter
        (fun p => p.1 ≠ 0), p.2 ∈ shelf.rows := by
      intro p hp
      obtain ⟨row,hrow,rfl⟩ := List.mem_map.mp (List.mem_filter.mp hp).1
      exact hperm.subset hrow
    refine ⟨_,(if_neg hwanted).trans (if_pos ?_),?_⟩
    · rw [List.all_eq_true]
      intro a ha
      rw [List.all_eq_true]
      intro b hb
      rw [isStr_row (hscored a ha),isStr_row (hscored b hb)]
      simp
    · intro row hrow
      obtain ⟨p,hp,rfl⟩ := List.mem_map.mp (mem_slice hrow)
      exact hscored p (List.mem_mergeSort.mp hp)

theorem findDuplicate_dir (shelf : Shelf) (digest : Str) :
    ∃ found, findDuplicate digest (sortedEntries shelf.dir) = .ok found := by
  cases hfind : findDuplicate digest (sortedEntries shelf.dir) with
  | ok found => exact ⟨found,rfl⟩
  | error e =>
    obtain ⟨file,hfile,hload⟩ := findDuplicate_error hfind
    rw [sortedEntries_dir] at hfile
    obtain ⟨p,_,rfl⟩ := List.mem_map.mp hfile
    rw [loadFile_item] at hload
    cases hload

/-- Content whose digest is on the shelf is found there. -/
theorem prepare_of_item {args : EntryArgs} {entry : NewEntry} {bytes : Text.Bytes}
    (hentry : args.check lib = .ok entry) (hdir : dirFor lib tree args.token = .ok (name,shelf.dir))
    (hbytes : encodeUtf8 entry.content = some bytes) {p : Str × Item} (hp : p ∈ shelf.items)
    (hdigest : p.2.digest = lib.hexdigest bytes) : ∃ q ∈ shelf.items,
      q.2.digest = lib.hexdigest bytes ∧
        prepare lib tree args = .ok (.duplicate q.2.info) := by
  obtain ⟨found,hfound⟩ := findDuplicate_dir shelf (lib.hexdigest bytes)
  cases found with
  | none =>
    have hfile : (p.1,p.2.text) ∈ sortedEntries shelf.dir := by
      rw [sortedEntries_dir]
      exact List.mem_map.mpr ⟨p,shelf.sorted_perm.mem_iff.mpr hp,rfl⟩
    obtain ⟨info,body,hload,hother⟩ := findDuplicate_none.mp hfound _ hfile
    rw [loadFile_item,Except.ok.injEq,Prod.mk.injEq] at hload
    rw [← hload.1,get_content_sha256,hdigest] at hother
    exact absurd rfl hother
  | some info =>
    obtain ⟨file,hfile,body,hload,hsame⟩ := findDuplicate_some hfound
    rw [sortedEntries_dir] at hfile
    obtain ⟨q,hq,rfl⟩ := List.mem_map.mp hfile
    rw [loadFile_item,Except.ok.injEq,Prod.mk.injEq] at hload
    obtain ⟨rfl,rfl⟩ := hload
    rw [get_content_sha256,Option.some.injEq,MetaValue.str.injEq] at hsame
    refine ⟨q,shelf.sorted_perm.mem_iff.mp hq,hsame,?_⟩
    exact bind_eq_ok.mpr ⟨entry,hentry,bind_eq_ok.mpr ⟨_,hdir,bind_eq_ok.mpr ⟨bytes,
      encode_ok.mpr hbytes,bind_eq_ok.mpr ⟨some q.2.info,mapError_eq_ok.mpr hfound,rfl⟩⟩⟩⟩

end
end HearthAI.Memory
