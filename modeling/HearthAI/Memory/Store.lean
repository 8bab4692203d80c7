import HearthAI.Core.Effect
import HearthAI.Core.Hex
import HearthAI.Memory.Frontmatter

/-! # The shared memory store on a disk with a git repository

A write is a sequence of steps on the disk, and every state between two steps is
kept in the trail: a concurrent reader or a restarted process may find any of
them. Reading takes no step.
-/
namespace HearthAI.Memory
open Python Hex Text

/-- The parts of the standard library that are left open. -/
structure Library where
  sha256 : Bytes → Bytes
  /-- `repr` of a list or a dict. -/
  reprOf : Value → Except Builtin Str

def Library.hexdigest (lib : Library) (bytes : Bytes) : Str :=
  (hexEncode (lib.sha256 bytes)).map ofChar

/-- Everything a call can raise. -/
inductive Failure
  | invalidRequest (message : String)
  | storeNotFound (message : String)
  | frontmatter (error : FrontmatterError)
  | builtin (error : Builtin)
  /-- A git command that did not succeed. -/
  | calledProcess
  deriving DecidableEq

/-- A store directory: the text of `store.md` and the files of `entries`. -/
structure StoreDir where
  storeMd : Option Str
  entries : Option (Dict Str Str)
  deriving DecidableEq

/-- The store directories by name. -/
abbrev Tree := Dict Str StoreDir

/-- The files under version control, by directory and entry name. -/
def files (tree : Tree) : List ((Str × Option Str) × Str) :=
  tree.flatMap (fun (name,dir) => dir.storeMd.toList.map (fun text => ((name,none),text)) ++
    (dir.entries.getD []).map (fun (entry,text) => ((name,some entry),text)))

/-- The working tree and the files of the last commit. -/
structure Snapshot where
  tree : Tree
  head : List ((Str × Option Str) × Str)
  deriving DecidableEq

def Snapshot.empty : Snapshot := ⟨[],[]⟩

structure Disk where
  now : Snapshot
  /-- The states that the call under way has gone through, in order. -/
  trail : List Snapshot

abbrev Op := Effect Failure Disk

def goTo (f : Snapshot → Snapshot) : Op Unit :=
  Effect.modify (fun disk => ⟨f disk.now,disk.trail ++ [f disk.now]⟩)

def change (f : Tree → Tree) : Op Unit := goTo (fun now => { now with tree := f now.tree })

def liftBuiltin {α : Type} (r : Except Builtin α) : Except Failure α := r.mapError .builtin
def liftFrontmatter {α : Type} (r : Except FrontmatterError α) : Except Failure α :=
  r.mapError .frontmatter

def encode (s : Str) : Except Failure Bytes :=
  match encodeUtf8 s with
  | some bytes => .ok bytes
  | none => .error (.builtin .unicodeEncodeError)

/-- `path.mkdir()` of a store directory. -/
def mkdirStore (name : Str) : Op Unit := do
  let disk ← Effect.read
  Effect.raiseIf (disk.now.tree.get name).isSome (.builtin .fileExistsError)
  change (·.set name ⟨none,none⟩)

def mkdirEntries (name : Str) : Op Unit := do
  let disk ← Effect.read
  match disk.now.tree.get name with
  | none => Effect.raise (.builtin .fileNotFoundError)
  | some dir =>
    Effect.raiseIf dir.entries.isSome (.builtin .fileExistsError)
    change (·.set name { dir with entries := some [] })

inductive Target
  | storeMd
  | entry (name : Str)

/-- The directory with a file put into it, if there is a place for the file. -/
def Target.put (text : Str) (dir : StoreDir) : Target → Option StoreDir
  | .storeMd => some { dir with storeMd := some text }
  | .entry name => dir.entries.map (fun entries => { dir with entries := some (entries.set name text) })

/-- `Path.write_text(text, encoding="utf-8")`: create or truncate, then encode and write. -/
def writeText (name : Str) (target : Target) (text : Str) : Op Unit := do
  let disk ← Effect.read
  match disk.now.tree.get name with
  | none => Effect.raise (.builtin .fileNotFoundError)
  | some dir =>
    match target.put [] dir, target.put text dir with
    | some truncated, some written =>
      change (·.set name truncated)
      let _ ← Effect.lift (encode text)
      change (·.set name written)
    | _, _ => Effect.raise (.builtin .fileNotFoundError)

/-- Which git commands succeed. -/
structure Git where
  add : Bool
  status : Bool
  commit : Bool
  deriving DecidableEq

def Git.working : Git := ⟨true,true,true⟩

def gitCommand (succeeds : Bool) (f : Snapshot → Snapshot) : Op Unit := do
  Effect.raiseIf (succeeds = false) .calledProcess
  goTo f

/-- The bytes that one argument of a process can have, the null byte at its end included. -/
def maxArgument : ℕ := 131072

def utf8Size (text : Str) : ℕ := ((encodeUtf8 text).getD []).length

/-- What `subprocess.run` raises for an argument before the program starts. A surrogate cannot be
passed either, but the text has been encoded before. -/
def argumentError (text : Str) : Option Builtin :=
  if 0 ∈ text then some .valueError
  else if maxArgument < utf8Size text + 1 then some .osError
  else none

/-- `_commit`. -/
def commit (git : Git) (message : Str) : Op Unit := do
  gitCommand git.add id
  gitCommand git.status id
  let disk ← Effect.read
  if files disk.now.tree ≠ disk.now.head then
    match argumentError message with
    | some error => Effect.raise (.builtin error)
    | none => gitCommand git.commit (fun now => { now with head := files now.tree })
  else return ()

/-- The fields of a UTC time without fractions of a second. -/
structure Timestamp where
  year : Fin 10000
  month : Fin 100
  day : Fin 100
  hour : Fin 100
  minute : Fin 100
  second : Fin 100
  deriving DecidableEq

/-- The last `width` decimal digits. -/
def digits : ℕ → ℕ → Str
  | 0, _ => []
  | width + 1, n => digits width (n / 10) ++ [⟨48 + n % 10,digit_lt n⟩]

/-- `datetime.isoformat()`, with the offset of UTC. -/
def Timestamp.isoformat (t : Timestamp) : Str :=
  digits 4 t.year ++ lit "-" ++ digits 2 t.month ++ lit "-" ++ digits 2 t.day ++ lit "T" ++
    digits 2 t.hour ++ lit ":" ++ digits 2 t.minute ++ lit ":" ++ digits 2 t.second ++
    lit "+00:00"

def slug (text fallback : Str) : Str :=
  let slug := (stripOf 45 (safeSub (lit "-") (lower (strip text)))).take 48
  if slug = [] then fallback else slug

def tokenize (text : Str) : List Str :=
  ((splitSpaces (safeSub (lit " ") (lower text))).filter (fun t => t.length > 1)).dedup

def tokenDigest (lib : Library) (token : Value) : Except Failure Str := do
  let stripped ← liftBuiltin token.strip
  let bytes ← encode stripped
  return lib.hexdigest bytes

def dirFor (lib : Library) (tree : Tree) (token : Value) : Except Failure (Str × StoreDir) := do
  let name ← tokenDigest lib token
  match tree.get name with
  | none => .error (.storeNotFound "no store matches that token")
  | some dir => .ok (name,dir)

def storeMeta (purpose author : Str) (now : Timestamp) : Meta :=
  [(lit "purpose",.str purpose),(lit "created_at",.str now.isoformat),
    (lit "created_by",.str author)]

structure CreateArgs where
  purpose : Value
  author : Value
  /-- The token that `secrets.token_urlsafe` makes. -/
  token : Str
  now : Timestamp

structure Created where
  token : Str
  info : Meta
  entryCount : ℕ
  deriving DecidableEq

/-- The part of `create_store` that follows the directories. The author is looked at
only here. -/
def fillStore (git : Git) (args : CreateArgs) (purpose name : Str) : Op Created := do
  let author ← Effect.lift (liftBuiltin (args.author.orElse (.str (lit "unknown"))).strip)
  let info := storeMeta purpose author args.now
  writeText name .storeMd (dumps info (lit "# " ++ purpose ++ [lineFeed]))
  commit git (lit "create store: " ++ purpose)
  return ⟨args.token,info,0⟩

def createStore (lib : Library) (git : Git) (args : CreateArgs) : Op Created := do
  let purpose ← Effect.lift (liftBuiltin (args.purpose.orElse (.str [])).strip)
  Effect.raiseIf (purpose = []) (.invalidRequest "a store needs a purpose")
  let name ← Effect.lift (tokenDigest lib (.str args.token))
  mkdirStore name
  mkdirEntries name
  fillStore git args purpose name

/-- `sorted((path / "entries").glob("*.md"))`. -/
def sortedEntries (dir : StoreDir) : List (Str × Str) :=
  ((dir.entries.getD []).filter (fun p => endsWith (lit ".md") p.1)).mergeSort
    (fun a b => le a.1 b.1)

/-- `frontmatter.loads(file.read_text(encoding="utf-8"))`. -/
def loadFile (text : Str) : Except FrontmatterError (Meta × Str) := loads (universalNewlines text)

structure Described where
  info : Meta
  entryCount : ℕ
  deriving DecidableEq

def describe (lib : Library) (tree : Tree) (token : Value) : Except Failure Described := do
  let (_,dir) ← dirFor lib tree token
  match dir.storeMd with
  | none => .error (.builtin .fileNotFoundError)
  | some text =>
    let (info,_) ← liftFrontmatter (loadFile text)
    return ⟨info,(sortedEntries dir).length⟩

structure EntryArgs where
  token : Value
  content : Value
  author : Value
  tags : Value
  now : Timestamp

/-- The stripped tags that are not empty. -/
def tagTexts (lib : Library) (tags : Value) : Except Builtin (List Str) := do
  let items ← (tags.orElse (.list [])).iterate
  let texts ← items.mapM (·.text lib.reprOf)
  return (texts.map strip).filter (· ≠ [])

def entryMeta (digest author : Str) (now : Timestamp) (tags : List Str) : Meta :=
  [(lit "id",.str (digest.take 12)),(lit "author",.str author),
    (lit "created_at",.str now.isoformat),(lit "tags",.strs tags),
    (lit "content_sha256",.str digest)]

def entryName (digest content : Str) (now : Timestamp) : Str :=
  now.isoformat.take 10 ++ lit "-" ++ slug (content.take 48) (digest.take 12) ++ lit ".md"

/-- The first entry with this digest, in the order of the file names. -/
def findDuplicate (digest : Str) : List (Str × Str) → Except FrontmatterError (Option Meta)
  | [] => .ok none
  | (_,text) :: rest =>
    match loadFile text with
    | .error e => .error e
    | .ok (info,_) =>
      if info.get (lit "content_sha256") = some (.str digest) then .ok (some info)
      else findDuplicate digest rest

/-- A new entry, ready to be written. -/
structure Pending where
  dirName : Str
  name : Str
  info : Meta
  content : Str
  message : Str
  deriving DecidableEq

def Pending.text (pending : Pending) : Str := dumps pending.info pending.content

inductive Prepared
  | duplicate (info : Meta)
  | write (pending : Pending)
  deriving DecidableEq

/-- The arguments of an entry, as they are used. -/
structure NewEntry where
  content : Str
  author : Str
  tags : List Str
  deriving DecidableEq

/-- The checks that `add_entry` makes before it takes the lock. -/
def EntryArgs.check (lib : Library) (args : EntryArgs) : Except Failure NewEntry := do
  let content ← liftBuiltin (args.content.orElse (.str [])).strip
  if content = [] then .error (.invalidRequest "an entry needs content")
  else
    let author ← liftBuiltin (args.author.orElse (.str (lit "unknown"))).strip
    let tags ← liftBuiltin (tagTexts lib args.tags)
    return ⟨content,author,tags⟩

/-- The file that an entry is written to, under the given digest of its content. -/
def NewEntry.pending (entry : NewEntry) (dirName digest : Str) (now : Timestamp) : Pending where
  dirName := dirName
  name := entryName digest entry.content now
  info := entryMeta digest entry.author now entry.tags
  content := entry.content
  message := entry.author ++ lit ": add entry " ++ digest.take 12

/-- `add_entry` up to the point where it starts to write. -/
def prepare (lib : Library) (tree : Tree) (args : EntryArgs) : Except Failure Prepared := do
  let entry ← args.check lib
  let (dirName,dir) ← dirFor lib tree args.token
  let bytes ← encode entry.content
  let digest := lib.hexdigest bytes
  match ← liftFrontmatter (findDuplicate digest (sortedEntries dir)) with
  | some info => return .duplicate info
  | none => return .write (entry.pending dirName digest args.now)

structure Added where
  info : Meta
  duplicate : Bool
  deriving DecidableEq

/-- The part of `add_entry` that writes. -/
def Pending.store (git : Git) (pending : Pending) : Op Added := do
  writeText pending.dirName (.entry pending.name) pending.text
  commit git pending.message
  return ⟨pending.info,false⟩

def addEntry (lib : Library) (git : Git) (args : EntryArgs) : Op Added := do
  let disk ← Effect.read
  match ← Effect.lift (prepare lib disk.now.tree args) with
  | .duplicate info => return ⟨info,true⟩
  | .write pending => pending.store git

/-- An entry as it is listed. -/
structure Row where
  info : Meta
  content : Str
  deriving DecidableEq

def Row.createdAt (row : Row) : MetaValue := (row.info.get (lit "created_at")).getD (.str [])

/-- `a <= b` of two values of one kind. -/
def MetaValue.le : MetaValue → MetaValue → Bool
  | .str a, .str b => Python.le a b
  | .strs a, .strs b => decide (a ≤ b)
  | _, _ => false

def MetaValue.isStr : MetaValue → Bool
  | .str _ => true
  | .strs _ => false

/-- A string and a list cannot be ordered. -/
def sortRows (rows : List Row) : Except Failure (List Row) :=
  if rows.all (fun a => rows.all (fun b => a.createdAt.isStr == b.createdAt.isStr)) then
    .ok (rows.mergeSort (fun a b => b.createdAt.le a.createdAt))
  else .error (.builtin .typeError)

def loadRow (file : Str × Str) : Except FrontmatterError Row := do
  let (info,body) ← loadFile file.2
  return ⟨info,body⟩

def entries (lib : Library) (tree : Tree) (token : Value) : Except Failure (List Row) := do
  let (_,dir) ← dirFor lib tree token
  let rows ← liftFrontmatter ((sortedEntries dir).mapM loadRow)
  sortRows rows

/-- The tags of a row, joined with blanks. -/
def Row.tagText (row : Row) : Str :=
  match (row.info.get (lit "tags")).getD (.strs []) with
  | .str s => join (lit " ") (s.map (fun c => [c]))
  | .strs items => join (lit " ") items

def Row.overlap (wanted : List Str) (row : Row) : ℕ :=
  let haystack := tokenize row.content ++ tokenize row.tagText
  (wanted.filter (fun t => haystack.contains t)).length

/-- `rows[:limit]`. -/
def slice {α : Type} (limit : Int) (rows : List α) : List α :=
  if 0 ≤ limit then rows.take limit.toNat else rows.take (rows.length - (-limit).toNat)

def search (lib : Library) (tree : Tree) (token : Value) (query : Str) (limit : Int) :
    Except Failure (List Row) := do
  let wanted := tokenize query
  let rows ← entries lib tree token
  if wanted = [] then return slice limit rows
  else
    let scored := (rows.map (fun row => (row.overlap wanted,row))).filter (fun p => p.1 ≠ 0)
    if scored.all (fun a => scored.all (fun b =>
        a.1 != b.1 || a.2.createdAt.isStr == b.2.createdAt.isStr)) then
      let sorted := scored.mergeSort (fun a b =>
        b.1 < a.1 || (a.1 == b.1 && a.2.createdAt.le b.2.createdAt))
      return slice limit (sorted.map Prod.snd)
    else .error (.builtin .typeError)

inductive Call
  | create (git : Git) (args : CreateArgs)
  | add (git : Git) (args : EntryArgs)

inductive Outcome
  | created (result : Created)
  | added (result : Added)
  deriving DecidableEq

def Call.exec (lib : Library) : Call → Op Outcome
  | .create git args => do
    let result ← createStore lib git args
    return .created result
  | .add git args => do
    let result ← addEntry lib git args
    return .added result

/-- A call and what came of it. -/
structure Event where
  call : Call
  result : Except Failure Outcome

def Called (lib : Library) (s : Snapshot) (event : Event) (t : Snapshot) : Prop :=
  ∃ trail, event.call.exec lib ⟨s,[]⟩ = (event.result,⟨t,trail⟩)

end HearthAI.Memory
