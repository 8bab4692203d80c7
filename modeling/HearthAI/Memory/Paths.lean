import HearthAI.Core.Logged
import HearthAI.Memory.Steps
import HearthAI.Python.Path

/-! # The store operations on paths

The tree of a disk knows a store by the name of its directory and an entry by the name
of its file. Here the operations build the paths that they write to, as the code does,
and every path is noted before the write. A path leads to a place of the tree only if it
stays below the root.
-/
namespace HearthAI.Memory
open Python Effect

/-- The places of the tree. -/
inductive Place
  | store (name : Str)
  | storeMd (store : Str)
  | entries (store : Str)
  | entry (store name : Str)

/-- The place that the parts of a path lead to, from the root. -/
def locate : List Str → Option Place
  | [top,store] => if top = lit "stores" then some (.store store) else none
  | [top,store,leaf] =>
    if top ≠ lit "stores" then none
    else if leaf = lit "store.md" then some (.storeMd store)
    else if leaf = lit "entries" then some (.entries store)
    else none
  | [top,store,inner,name] =>
    if top = lit "stores" ∧ inner = lit "entries" then some (.entry store name) else none
  | _ => none

/-- Operations on the disk that note the paths they write to. -/
abbrev PathOp := Effect Failure (Disk × List Path)

structure MemoryStore where
  lib : Library
  root : Path

namespace MemoryStore
variable (store : MemoryStore)

def place (path : Path) : Option Place := (store.root.below path).bind locate

/-- The directory of the stores. -/
def stores : Path := store.root.join (lit "stores")

/-- `path.mkdir()`. The tree does not say what a path to no place of it does. -/
def mkdir (path : Path) : PathOp Unit := do
  emit path
  match store.place path with
  | some (.store name) => quiet (mkdirStore name)
  | some (.entries name) => quiet (mkdirEntries name)
  | _ => return ()

/-- `path.write_text(text, encoding="utf-8")`. -/
def write (path : Path) (text : Str) : PathOp Unit := do
  emit path
  match store.place path with
  | some (.storeMd name) => quiet (writeText name .storeMd text)
  | some (.entry name file) => quiet (writeText name (.entry file) text)
  | _ => return ()

def createStore (git : Git) (args : CreateArgs) : PathOp Created := do
  let purpose ← Effect.lift (liftBuiltin (args.purpose.orElse (.str [])).strip)
  Effect.raiseIf (purpose = []) (.invalidRequest "a store needs a purpose")
  let digest ← Effect.lift (tokenDigest store.lib (.str args.token))
  let path := store.stores.join digest
  store.mkdir path
  store.mkdir (path.join (lit "entries"))
  let author ← Effect.lift (liftBuiltin (args.author.orElse (.str (lit "unknown"))).strip)
  let info := storeMeta purpose author args.now
  store.write (path.join (lit "store.md")) (dumps info (lit "# " ++ purpose ++ [lineFeed]))
  quiet (commit git (lit "create store: " ++ purpose))
  return ⟨args.token,info,0⟩

def addEntry (git : Git) (args : EntryArgs) : PathOp Added := do
  let disk ← quiet Effect.read
  match ← Effect.lift (prepare store.lib disk.now.tree args) with
  | .duplicate info => return ⟨info,true⟩
  | .write pending =>
    let path := store.stores.join pending.dirName
    store.write ((path.join (lit "entries")).join pending.name) pending.text
    quiet (commit git pending.message)
    return ⟨pending.info,false⟩

end MemoryStore

/-- The calls of the store, those that only read included. -/
inductive Operation
  | createStore (git : Git) (args : CreateArgs)
  | addEntry (git : Git) (args : EntryArgs)
  | describe (token : Value)
  | entries (token : Value)
  | search (token : Value) (query : Str) (limit : Int)

inductive Answer
  | created (result : Created)
  | added (result : Added)
  | described (result : Described)
  | listed (rows : List Row)

/-- The token that the call is made with, or makes. -/
def Operation.token : Operation → Value
  | createStore _ args => .str args.token
  | addEntry _ args => args.token
  | describe token => token
  | entries token => token
  | search token _ _ => token

/-- A call that reads the tree and leaves it alone. -/
def reading {α : Type} (wrap : α → Answer) (read : Tree → Except Failure α) : PathOp Answer := do
  let disk ← quiet Effect.read
  let result ← Effect.lift (read disk.now.tree)
  return wrap result

def Operation.exec (store : MemoryStore) : Operation → PathOp Answer
  | createStore git args => do
    let result ← store.createStore git args
    return .created result
  | addEntry git args => do
    let result ← store.addEntry git args
    return .added result
  | describe token => reading .described (fun tree => Memory.describe store.lib tree token)
  | entries token => reading .listed (fun tree => Memory.entries store.lib tree token)
  | search token query limit =>
    reading .listed (fun tree => Memory.search store.lib tree token query limit)

section
variable {s : Str}

theorem plain_of_length (h : 3 ≤ s.length) (hslash : slash ∉ s) : Path.Plain s where
  nonempty := by
    rintro rfl
    exact absurd h (by decide)
  slashless := hslash
  not_dot := by
    rintro rfl
    exact absurd h (by decide)
  not_dots := by
    rintro rfl
    exact absurd h (by decide)

theorem slash_not_mem_hexdigest (lib : Library) (bytes : Text.Bytes) : slash ∉ lib.hexdigest bytes := by
  intro h
  obtain ⟨c,hc,heq⟩ := List.mem_map.mp h
  refine Hex.forall_mem_hexEncode (p := fun c => ofChar c ≠ slash) ?_ _ c hc heq
  decide

/-- A digest names one directory. -/
theorem plain_hexdigest {lib : Library} {bytes : Text.Bytes} (h : (lib.sha256 bytes).length = 32) :
    Path.Plain (lib.hexdigest bytes) := by
  refine plain_of_length ?_ (slash_not_mem_hexdigest lib bytes)
  rw [Library.hexdigest,List.length_map,Hex.hexEncode_length,h]
  decide

theorem slash_not_mem_digits (width n : ℕ) : slash ∉ digits width n := by
  induction width generalizing n with
  | zero => exact List.not_mem_nil
  | succ width ih =>
    rw [digits,List.mem_append,not_or,List.mem_singleton,Fin.ext_iff]
    refine ⟨ih _,?_⟩
    show ¬47 = 48 + n % 10
    omega

theorem slash_not_mem_isoformat (t : Timestamp) : slash ∉ t.isoformat := by
  unfold Timestamp.isoformat
  simp only [List.mem_append,slash_not_mem_digits,false_or,not_or]
  decide

theorem slash_not_mem_safeSub (inRun : Bool) : slash ∉ safeSubFrom (lit "-") inRun s := by
  induction s generalizing inRun with
  | nil => exact List.not_mem_nil
  | cons c s ih =>
    rw [safeSubFrom]
    split_ifs with hsafe
    · rw [List.mem_cons,not_or]
      refine ⟨?_,ih _⟩
      rintro rfl
      exact absurd hsafe (by decide)
    · exact ih _
    · rw [List.mem_append,not_or]
      exact ⟨by decide,ih _⟩

theorem mem_of_mem_trimMatches {α : Type} {p : α → Bool} {l : List α} {a : α}
    (h : a ∈ Text.trimMatches p l) : a ∈ l := by
  rw [Text.trimMatches,List.mem_reverse] at h
  exact (List.dropWhile_sublist p).subset (List.mem_reverse.mp ((List.dropWhile_sublist p).subset h))

/-- No text gives a slug with a slash. -/
theorem slash_not_mem_slug {fallback : Str} (h : slash ∉ fallback) (text : Str) :
    slash ∉ slug text fallback := by
  unfold slug
  dsimp only
  split_ifs
  · exact h
  · intro hmem
    exact slash_not_mem_safeSub false (mem_of_mem_trimMatches (List.mem_of_mem_take hmem))

/-- The name of an entry is one file name, whatever the content is. -/
theorem plain_entryName (lib : Library) (bytes : Text.Bytes) (content : Str) (now : Timestamp) :
    Path.Plain (entryName (lib.hexdigest bytes) content now) := by
  refine plain_of_length ?_ ?_
  · have hlength := ((List.isSuffixOf_iff_suffix).mp (endsWith_entryName (lib.hexdigest bytes) content
      now)).length_le
    exact hlength
  · have hfallback : slash ∉ (lib.hexdigest bytes).take 12 := fun h =>
      slash_not_mem_hexdigest lib bytes (List.mem_of_mem_take h)
    simp only [entryName,List.mem_append,not_or]
    exact ⟨⟨⟨fun h => slash_not_mem_isoformat now (List.mem_of_mem_take h),by decide⟩,
      slash_not_mem_slug hfallback _⟩,by decide⟩

end

section
variable {store : MemoryStore} {name file : Str}

theorem place_under {parts : List Str} (h : ∀ part ∈ parts, Path.Plain part) :
    store.place (store.root.under parts) = locate parts := by
  rw [MemoryStore.place,Path.below_under h,Option.bind_some]

theorem stores_eq : store.stores = store.root.under [lit "stores"] := by
  have h := Path.join_under (by decide : Path.Plain (lit "stores")) store.root []
  rwa [Path.under,List.append_nil] at h

/-- The directory of a store, by its path. -/
theorem stores_join (h : Path.Plain name) :
    store.stores.join name = store.root.under [lit "stores",name] := by
  rw [stores_eq,Path.join_under h]
  rfl

end
end HearthAI.Memory
