import HearthAI.Memory.Create
import HearthAI.Memory.RoundTrip

/-! # The characters of what is written

The serializer adds ASCII characters only, so a file can be encoded exactly when
the values and the body in it can. Names, digests and times are ASCII.
-/
namespace HearthAI.Memory
open Python Hex Effect

theorem forall_replaceChar {p : CodePoint → Prop} {c : CodePoint} {sub : Str} (hc : p c)
    (hsub : ∀ d ∈ sub, p d) {s : Str} :
    (∀ d ∈ replaceChar c sub s, p d) ↔ ∀ d ∈ s, p d := by
  constructor
  · intro h d hd
    by_cases hdc : d = c
    · rwa [hdc]
    · exact h d (List.mem_flatMap.mpr ⟨d,hd,by rw [if_neg hdc]; exact List.mem_singleton_self d⟩)
  · intro h d hd
    obtain ⟨e,he,hd⟩ := List.mem_flatMap.mp hd
    split_ifs at hd with hec
    · exact hsub d hd
    · rw [List.mem_singleton.mp hd]
      exact h e he

section
variable {p : CodePoint → Prop} (hp : ∀ c : CodePoint, c.val < 128 → p c)
include hp

theorem forall_quote {s : Str} : (∀ c ∈ quote s, p c) ↔ ∀ c ∈ s, p c := by
  have hmark : p quoteMark := hp _ (by decide)
  have hback : p backslash := hp _ (by decide)
  have hescape : (∀ c ∈ escape s, p c) ↔ ∀ c ∈ s, p c := by
    rw [escape,forall_replaceChar hmark (by simp [hmark,hback]),
      forall_replaceChar hback (by simp [hback])]
  rw [quote,List.forall_mem_cons,List.forall_mem_append,hescape]
  simp [hmark]

/-- Every character of a value. -/
def MetaValue.All (p : CodePoint → Prop) : MetaValue → Prop
  | .str s => ∀ c ∈ s, p c
  | .strs items => ∀ item ∈ items, ∀ c ∈ item, p c

theorem forall_dumpItem {q : Str × MetaValue} :
    (∀ line ∈ dumpItem q, ∀ c ∈ line, p c) ↔ (∀ c ∈ q.1, p c) ∧ q.2.All p := by
  have hlit : ∀ s : Str, IsAscii s → ∀ c ∈ s, p c := fun s hs c hc => hp c (hs c hc)
  obtain ⟨key,value⟩ := q
  cases value with
  | str value =>
    have hblank := hlit (lit ": ") (by decide)
    rw [dumpItem,List.forall_mem_singleton,List.forall_mem_append,List.forall_mem_append,
      forall_quote hp]
    exact ⟨fun h => ⟨h.1.1,h.2⟩,fun h => ⟨⟨h.1,hblank⟩,h.2⟩⟩
  | strs items =>
    cases items with
    | nil =>
      have hempty := hlit (lit ": []") (by decide)
      rw [dumpItem,List.forall_mem_singleton,List.forall_mem_append]
      exact ⟨fun h => ⟨h.1,by simp [MetaValue.All]⟩,fun h => ⟨h.1,hempty⟩⟩
    | cons item items =>
      have hcolon := hlit (lit ":") (by decide)
      have hitem : ∀ s : Str, (∀ c ∈ itemLine s, p c) ↔ ∀ c ∈ s, p c := by
        intro s
        have hlead := hlit (lit "  - ") (by decide)
        rw [itemLine,List.forall_mem_append,forall_quote hp]
        exact ⟨fun h => h.2,fun h => ⟨hlead,h⟩⟩
      have hlines : dumpItem (key,.strs (item :: items)) =
          (key ++ lit ":") :: (item :: items).map itemLine := rfl
      rw [hlines,List.forall_mem_cons,List.forall_mem_append,List.forall_mem_map]
      simp only [hitem,MetaValue.All]
      exact ⟨fun h => ⟨h.1.1,h.2⟩,fun h => ⟨⟨h.1,hcolon⟩,h.2⟩⟩

theorem forall_bodyPart {body : Str} : (∀ c ∈ bodyPart body, p c) ↔ ∀ c ∈ body, p c := by
  have hfeed : p lineFeed := hp _ (by decide)
  have hstrip : (∀ c ∈ rstripOf lineFeed body, p c) ↔ ∀ c ∈ body, p c := by
    have hsplit := List.takeWhile_append_dropWhile (p := (· == lineFeed)) (l := body.reverse)
    have hback : ∀ c ∈ body.reverse.takeWhile (· == lineFeed), p c := by
      intro c hc
      have hmark := List.mem_takeWhile_imp hc
      rw [beq_iff_eq.mp hmark]
      exact hfeed
    rw [rstripOf]
    simp only [List.mem_reverse]
    constructor
    · intro h c hc
      rw [← List.mem_reverse,← hsplit] at hc
      rcases List.mem_append.mp hc with hc | hc
      · exact hback c hc
      · exact h c hc
    · exact fun h c hc => h c (List.mem_reverse.mp (List.dropWhile_subset _ hc))
  unfold bodyPart
  split_ifs with hempty
  · simp [hempty]
  · rw [List.forall_mem_append,List.forall_mem_append,hstrip]
    simp [hfeed]

/-- A property of all ASCII characters holds of a dump when it holds of what is dumped. -/
theorem forall_dumps {info : Meta} {body : Str} : (∀ c ∈ dumps info body, p c) ↔
    (∀ q ∈ info, (∀ c ∈ q.1, p c) ∧ q.2.All p) ∧ ∀ c ∈ body, p c := by
  have hfeed : p lineFeed := hp _ (by decide)
  have hdelim : ∀ c ∈ delim, p c := fun c hc =>
    hp c ((show IsAscii delim by decide) c hc)
  have hlines : (∀ c ∈ (headerLines info).flatMap (· ++ [lineFeed]), p c) ↔
      ∀ line ∈ headerLines info, ∀ c ∈ line, p c := by
    constructor
    · intro h line hline c hc
      exact h c (List.mem_flatMap.mpr ⟨line,hline,List.mem_append_left _ hc⟩)
    · intro h c hc
      obtain ⟨line,hline,hc⟩ := List.mem_flatMap.mp hc
      rcases List.mem_append.mp hc with hc | hc
      · exact h line hline c hc
      · rw [List.mem_singleton.mp hc]
        exact hfeed
  rw [dumps_eq,List.forall_mem_append,hlines,forall_bodyPart hp,headerLines,List.forall_mem_cons,
    List.forall_mem_append,List.forall_mem_singleton]
  refine and_congr_left' ⟨fun h q hq => ?_,fun h => ⟨hdelim,fun line hline => ?_,hdelim⟩⟩
  · exact (forall_dumpItem hp).mp (fun line hline => h.2.1 line (List.mem_flatMap.mpr ⟨q,hq,hline⟩))
  · obtain ⟨q,hq,hline⟩ := List.mem_flatMap.mp hline
    exact (forall_dumpItem hp).mpr (h q hq) line hline

end

theorem encodable_dumps {info : Meta} {body : Str} : Utf8Encodable (dumps info body) ↔
    (∀ q ∈ info, Utf8Encodable q.1 ∧ q.2.All (·.val.isValidChar)) ∧ Utf8Encodable body := by
  simp only [encodable_iff]
  exact forall_dumps fun _ => isValidChar_of_ascii

variable {lib : Library}

theorem isAscii_hexdigest (lib : Library) (bytes : Text.Bytes) : IsAscii (lib.hexdigest bytes) := by
  intro c hc
  obtain ⟨d,hd,rfl⟩ := List.mem_map.mp hc
  exact forall_mem_hexEncode (p := fun d => (ofChar d).val < 128) (by decide) _ d hd

theorem argumentError_eq_none {text : Str} :
    argumentError text = none ↔ 0 ∉ text ∧ utf8Size text < maxArgument := by
  unfold argumentError
  split_ifs with hnull hlong
  · simp [hnull]
  · exact iff_of_false nofun fun h => absurd h.2 (by omega)
  · exact iff_of_true rfl ⟨hnull,by omega⟩

theorem utf8Size_cons {c : CodePoint} {s : Str} (h : Utf8Encodable (c :: s)) :
    utf8Size (c :: s) = utf8Size [c] + utf8Size s := by
  have hmapped : ∀ t : Str, Utf8Encodable t → ∃ chars, t.mapM toChar = some chars ∧
      utf8Size t = (chars.flatMap String.utf8EncodeChar).length := by
    intro t ht
    obtain ⟨bytes,hbytes⟩ := Option.isSome_iff_exists.mp ht
    obtain ⟨chars,hchars,rfl⟩ := Option.map_eq_some_iff.mp hbytes
    exact ⟨chars,hchars,by rw [utf8Size,hbytes,Option.getD_some]⟩
  have hparts : Utf8Encodable [c] ∧ Utf8Encodable s := encodable_append.mp h
  obtain ⟨first,hfirst,hsize⟩ := hmapped [c] hparts.1
  obtain ⟨rest,hrest,hsize'⟩ := hmapped s hparts.2
  obtain ⟨all,hall,hsize''⟩ := hmapped (c :: s) h
  have happend : (c :: s).mapM toChar = some (first ++ rest) := by
    rw [← List.singleton_append,List.mapM_append,hfirst,hrest]
    rfl
  rw [hsize,hsize',hsize'',Option.some.inj (hall.symm.trans happend),List.flatMap_append,
    List.length_append]

theorem utf8Size_append {s t : Str} (hs : Utf8Encodable s) (ht : Utf8Encodable t) :
    utf8Size (s ++ t) = utf8Size s + utf8Size t := by
  induction s with
  | nil => exact (Nat.zero_add _).symm
  | cons c s ih =>
    have htail := (encodable_cons.mp hs).2
    have hall : Utf8Encodable (c :: (s ++ t)) := encodable_append.mpr ⟨hs,ht⟩
    rw [List.cons_append,utf8Size_cons hall,utf8Size_cons hs,ih htail,Nat.add_assoc]

theorem utf8Size_ascii {s : Str} (h : IsAscii s) : utf8Size s = s.length := by
  have hone : (List.range 128).all (fun n => utf8Size [Fin.ofNat _ n] = 1) = true := by decide
  induction s with
  | nil => rfl
  | cons c s ih =>
    obtain ⟨hc,hs⟩ := List.forall_mem_cons.mp h
    have hsize := of_decide_eq_true (List.all_eq_true.mp hone _ (List.mem_range.mpr hc))
    rw [show Fin.ofNat 0x110000 c.val = c from Fin.ext (Nat.mod_eq_of_lt c.isLt)] at hsize
    rw [utf8Size_cons h.encodable,hsize,ih hs,List.length_cons,Nat.add_comm]

theorem hexdigest_oneLine (lib : Library) (bytes : Text.Bytes) : OneLine (lib.hexdigest bytes) := by
  intro c hc
  obtain ⟨d,hd,rfl⟩ := List.mem_map.mp hc
  exact forall_mem_hexEncode (p := fun d => isLineBreak (ofChar d) = false) (by decide) _ d hd

theorem null_notMem_hexdigest (lib : Library) (bytes : Text.Bytes) : 0 ∉ lib.hexdigest bytes := by
  intro hc
  obtain ⟨d,hd,hzero⟩ := List.mem_map.mp hc
  exact forall_mem_hexEncode (p := fun d => ofChar d ≠ 0) (by decide) _ d hd hzero

theorem sha256_eq_of_hexdigest {a b : Text.Bytes} (h : lib.hexdigest a = lib.hexdigest b) :
    lib.sha256 a = lib.sha256 b := by
  have hofChar : Function.Injective ofChar := by
    intro c d hcd
    have hval : c.toNat = d.toNat := Fin.mk.inj hcd
    exact Char.ext (UInt32.toNat_inj.mp hval)
  exact hexEncode_injective (List.map_injective_iff.mpr hofChar h)

theorem digit_of_mem_digits {width n : ℕ} {c : CodePoint} (h : c ∈ digits width n) :
    48 ≤ c.val ∧ c.val < 58 := by
  induction width generalizing n with
  | zero => cases h
  | succ width ih =>
    rw [digits,List.mem_append,List.mem_singleton] at h
    rcases h with h | rfl
    · exact ih h
    · constructor <;> dsimp only <;> omega

theorem isAscii_digits (width n : ℕ) : IsAscii (digits width n) := fun c hc => by
  have := digit_of_mem_digits hc
  omega

theorem oneLine_digits (width n : ℕ) : OneLine (digits width n) := by
  intro c hc
  have hdigit := digit_of_mem_digits hc
  simp only [isLineBreak,Bool.or_eq_false_iff,Bool.and_eq_false_iff,decide_eq_false_iff_not,
    beq_eq_false_iff_ne]
  omega

theorem isAscii_isoformat (t : Timestamp) : IsAscii t.isoformat := by
  have hdigits := isAscii_digits
  unfold Timestamp.isoformat
  simp only [isAscii_append,hdigits,true_and,and_true]
  decide

theorem oneLine_isoformat (t : Timestamp) : OneLine t.isoformat := by
  unfold Timestamp.isoformat
  simp only [oneLine_append,oneLine_digits,true_and,and_true]
  decide

theorem encodable_storeText {purpose author : Str} {now : Timestamp} :
    Utf8Encodable (storeText purpose author now) ↔ Utf8Encodable purpose ∧ Utf8Encodable author := by
  have hnow := encodable_iff.mp (isAscii_isoformat now).encodable
  have hhead : Utf8Encodable (lit "# " ++ purpose ++ [lineFeed]) ↔ Utf8Encodable purpose := by
    rw [encodable_append,encodable_append]
    exact ⟨fun h => h.1.2,fun h => ⟨⟨by decide,h⟩,by decide⟩⟩
  rw [storeText,encodable_dumps,hhead]
  simp only [storeMeta,List.forall_mem_cons,MetaValue.All,← encodable_iff] at hnow ⊢
  have hpurpose : Utf8Encodable (lit "purpose") := by decide
  have hcreated : Utf8Encodable (lit "created_at") := by decide
  have hauthor : Utf8Encodable (lit "created_by") := by decide
  simp only [hpurpose,hcreated,hauthor,hnow]
  simp [and_comm]

theorem encodable_entryText {entry : NewEntry} {dirName : Str} {bytes : Text.Bytes} {now : Timestamp} :
    Utf8Encodable (entry.pending dirName (lib.hexdigest bytes) now).text ↔
      Utf8Encodable entry.author ∧ (∀ tag ∈ entry.tags, Utf8Encodable tag) ∧ Utf8Encodable entry.content := by
  have hnow := (isAscii_isoformat now).encodable
  have hdigest := (isAscii_hexdigest lib bytes).encodable
  have hid : Utf8Encodable ((lib.hexdigest bytes).take 12) :=
    encodable_iff.mpr fun c hc => encodable_iff.mp hdigest c (List.mem_of_mem_take hc)
  rw [Pending.text,encodable_dumps]
  simp only [NewEntry.pending,entryMeta,List.forall_mem_cons,MetaValue.All,← encodable_iff]
  have hkeys : Utf8Encodable (lit "id") ∧ Utf8Encodable (lit "author") ∧ Utf8Encodable (lit "created_at") ∧
    Utf8Encodable (lit "tags") ∧ Utf8Encodable (lit "content_sha256") := by decide
  obtain ⟨hkey,hauthor,hcreated,htags,hsha⟩ := hkeys
  simp only [hkey,hauthor,hcreated,htags,hsha,hnow,hdigest,hid]
  simp [and_assoc]

/-- A creation by a git that works. -/
theorem createStore_working {args : CreateArgs} (disk : Disk) {purpose author name : Str}
    (h : Opens lib disk.now.tree args purpose name)
    (hauthor : (args.author.orElse (.str (lit "unknown"))).strip = .ok author)
    (hpurpose : Utf8Encodable purpose) (hencodable : Utf8Encodable author)
    (hmessage : argumentError (lit "create store: " ++ purpose) = none)
    (hdirty : files (disk.filled name (storeText purpose author args.now)).tree ≠
      (disk.filled name (storeText purpose author args.now)).head) :
    ∃ trail, createStore lib .working args disk =
      (.ok ⟨args.token,storeMeta purpose author args.now,0⟩,
        ⟨⟨(disk.filled name (storeText purpose author args.now)).tree,
          files (disk.filled name (storeText purpose author args.now)).tree⟩,trail⟩) := by
  rw [createStore_opens .working h,
    fillStore_spec .working hauthor (encodable_storeText.mpr ⟨hpurpose,hencodable⟩),bind_apply,
    commit_working hmessage,if_neg hdirty]
  exact ⟨_,rfl⟩

section
variable {s : Snapshot} {tree : Tree} {args : EntryArgs} {entry : NewEntry} {dir : StoreDir}
  {digest : Str} {pending : Pending}

/-- The message of a new entry can be passed to git unless the author has a null character or too
many bytes. -/
theorem Ready.message_passes (h : Ready lib tree args entry dir digest pending)
    (hauthor : Utf8Encodable entry.author) : argumentError pending.message = none ↔
      0 ∉ entry.author ∧ utf8Size entry.author + 12 + (digest.take 12).length < maxArgument := by
  obtain ⟨bytes,_,rfl⟩ := h.digested
  have hdigest : IsAscii ((lib.hexdigest bytes).take 12) := fun c hc =>
    isAscii_hexdigest lib bytes c (List.mem_of_mem_take hc)
  have hid : 0 ∉ (lib.hexdigest bytes).take 12 := fun hmem =>
    null_notMem_hexdigest lib bytes (List.mem_of_mem_take hmem)
  have hlit : 0 ∉ lit ": add entry " ∧ IsAscii (lit ": add entry ") := by decide
  have hmiddle : Utf8Encodable (entry.author ++ lit ": add entry ") :=
    encodable_append.mpr ⟨hauthor,hlit.2.encodable⟩
  rw [h.pending_eq,argumentError_eq_none]
  simp only [NewEntry.pending]
  rw [utf8Size_append hmiddle hdigest.encodable,utf8Size_append hauthor hlit.2.encodable,
    utf8Size_ascii hlit.2,utf8Size_ascii hdigest]
  simp only [List.mem_append,hid,hlit.1,or_false]
  exact Iff.rfl

theorem Ready.encodable (h : Ready lib tree args entry dir digest pending) :
    Utf8Encodable pending.text ↔ Utf8Encodable entry.author ∧ ∀ tag ∈ entry.tags, Utf8Encodable tag := by
  obtain ⟨bytes,hbytes,rfl⟩ := h.digested
  have hcontent : Utf8Encodable entry.content := by rw [Utf8Encodable,hbytes]; rfl
  rw [h.pending_eq,encodable_entryText]
  exact ⟨fun h => ⟨h.1,h.2.1⟩,fun h => ⟨h.1,h.2,hcontent⟩⟩

/-- A new entry with a git that works. -/
theorem addEntry_working {files : Dict Str Str}
    (h : Ready lib s.tree args entry dir digest pending) (hfiles : dir.entries = some files)
    (hencodable : Utf8Encodable pending.text) (hmessage : argumentError pending.message = none) :
    ∃ t trail,
      addEntry lib .working args ⟨s,[]⟩ = (.ok ⟨pending.info,false⟩,⟨t,trail⟩) ∧
        t.tree = s.tree.set pending.dirName (pending.shelve pending.text dir files) := by
  have hdir := (dirFor_ok.mp h.found).2
  rw [addEntry_write .working ⟨s,[]⟩ (prepare_write.mpr ⟨entry,dir,digest,h⟩),
    store_encodable .working hdir hfiles hencodable,bind_apply,commit_working hmessage]
  split_ifs
  · exact ⟨_,_,rfl,rfl⟩
  · exact ⟨_,_,rfl,rfl⟩

end

/-! The closed examples are about one store. Its library knows the digests of what is
hashed there, and keeps the digests of all other inputs apart by their length. -/

def exampleToken : Str := lit "Xq3vT0aLw8mZk1Nf5JrB2yHc7UeGs9PdI4oVbWxQzKt"

def exampleDigests : List (Str × Text.Bytes) :=
  [(exampleToken,[103,220,247,78,104,27,26,191,43,3,82,9,177,229,181,230,75,62,39,75,16,225,64,194,
    140,238,22,67,243,88,254,49]),
  (lit "bin day",[190,137,64,247,33,231,99,26,69,139,56,66,194,160,89,119,227,170,43,200,217,0,68,
    48,50,137,30,51,119,244,251,22]),
  (lit "bin day!",[25,39,128,50,32,10,24,143,252,255,61,81,102,252,244,158,101,198,248,8,127,249,
    94,245,70,55,177,186,95,83,73,238])]

def exampleLibrary : Library where
  sha256 bytes := ((exampleDigests.find? (fun p => encodeUtf8 p.1 == some bytes)).map Prod.snd).getD
    (List.replicate 33 0 ++ bytes)
  reprOf _ := .ok []

def exampleNow : Timestamp := ⟨2026,1,5,9,0,0⟩

/-- A day later. -/
def exampleLater : Timestamp := ⟨2026,1,6,9,0,0⟩

def exampleCreate : CreateArgs :=
  ⟨.str (lit "household"),.str (lit "ada"),exampleToken,exampleNow⟩

def exampleName : Str := lit "67dcf74e681b1abf2b035209b1e5b5e64b3e274b10e140c28cee1643f358fe31"

def exampleStore : Snapshot :=
  let tree : Tree := [(exampleName,⟨some (storeText (lit "household") (lit "ada") exampleNow),some []⟩)]
  ⟨tree,files tree⟩

theorem exampleName_eq : tokenDigest exampleLibrary (.str exampleToken) = .ok exampleName := by
  decide

theorem example_opens : Opens exampleLibrary [] exampleCreate (lit "household") exampleName :=
  ⟨rfl,by decide,exampleName_eq,rfl⟩

theorem createStore_example : ∃ trail,
    createStore exampleLibrary .working exampleCreate ⟨.empty,[]⟩ =
      (.ok ⟨exampleToken,storeMeta (lit "household") (lit "ada") exampleNow,0⟩,
        ⟨exampleStore,trail⟩) :=
  createStore_working ⟨.empty,[]⟩ example_opens rfl (by decide) (by decide) (by decide) (by
    simp [files,Disk.filled,Snapshot.empty,Dict.set])

def exampleEntry : EntryArgs :=
  ⟨.str exampleToken,.str (lit "bin day"),.str (lit "ada"),.none,exampleNow⟩

theorem exampleEntry_check :
    exampleEntry.check exampleLibrary = .ok ⟨lit "bin day",lit "ada",[]⟩ := by
  decide

abbrev exampleDir : StoreDir :=
  ⟨some (storeText (lit "household") (lit "ada") exampleNow),some []⟩

theorem exampleStore_dir : dirFor exampleLibrary exampleStore.tree (.str exampleToken) =
    .ok (exampleName,exampleDir) :=
  dirFor_ok.mpr ⟨exampleName_eq,Dict.get_set_self [] _ _⟩

/-- The example store is ready for its first entry. -/
theorem exampleStore_ready {args : EntryArgs} {entry : NewEntry}
    (htoken : args.token = .str exampleToken) (hentry : args.check exampleLibrary = .ok entry)
    (hencodable : Utf8Encodable entry.content) : ∃ digest, Ready exampleLibrary exampleStore.tree args
      entry exampleDir digest (entry.pending exampleName digest args.now) := by
  obtain ⟨bytes,hbytes⟩ := Option.isSome_iff_exists.mp hencodable
  refine ⟨exampleLibrary.hexdigest bytes,hentry,?_,⟨bytes,hbytes,rfl⟩,fun file hfile => ?_,rfl⟩
  · rw [htoken]
    exact exampleStore_dir
  · cases (mem_sortedEntries.mp hfile).1

/-- A short author fits into the message of any entry. -/
theorem Ready.message_short {tree : Tree} {args : EntryArgs} {entry : NewEntry} {dir : StoreDir}
    {digest : Str} {pending : Pending} (h : Ready lib tree args entry dir digest pending)
    (hauthor : Utf8Encodable entry.author) (hnull : 0 ∉ entry.author)
    (hsize : utf8Size entry.author < 131048) : argumentError pending.message = none := by
  have hdigest := List.length_take_le 12 digest
  exact (h.message_passes hauthor).mpr ⟨hnull,by unfold maxArgument; omega⟩

theorem exampleEntry_ready : ∃ pending dir digest,
    Ready exampleLibrary exampleStore.tree exampleEntry ⟨lit "bin day",lit "ada",[]⟩ dir digest
      pending ∧ dir.entries = some [] := by
  obtain ⟨digest,hready⟩ := exampleStore_ready rfl exampleEntry_check (by decide)
  exact ⟨_,exampleDir,digest,hready,rfl⟩

end HearthAI.Memory
