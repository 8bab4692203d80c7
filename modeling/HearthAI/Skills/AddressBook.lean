import HearthAI.Core.Effect
import HearthAI.Core.Transition
import HearthAI.Python.Loaded

/-! # The address book of the command line

The book is one JSON file from names to tokens. A command reads it as a whole and writes
it as a whole. What the service answers comes with the command.
-/
namespace HearthAI.Skills
open Python Effect Transition

/-- A string that an argument or a reply can be. -/
abbrev Given := {s : Str // Paired s}

/-- How a command ends that does not return: with `die`, or with a traceback. -/
inductive Stop
  | die (message : Str)
  | typeError
  | keyError
  | unicodeDecodeError
  | builtin (error : Builtin)
  /-- What else the call of the service can raise. -/
  | call

/-- The file of the book. -/
inductive BookFile
  | missing
  /-- Bytes that are not UTF-8. -/
  | binary
  | text (s : Str)

structure Shell where
  book : BookFile
  /-- The lines that were printed. -/
  printed : List Str

abbrev Cli := Effect Stop Shell

/-- The path of the book, and the interpreter that runs the script. -/
structure Home where
  path : Str
  python : Interpreter
  reprOf : Value → Except Builtin Str

/-- The part of the reply to `POST /stores` that is used. -/
structure Created where
  token : Given
  purpose : Given

/-- The part of the reply to `GET /stores/_` that is used. -/
structure Info (python : Interpreter) where
  purpose : Option {value : Value // Loaded python python.depth value}
  entryCount : Option Value

def Info.purposeOrEmpty {python : Interpreter} (info : Info python) : Value :=
  (info.purpose.map Subtype.val).getD (.str [])

def print (line : Str) : Cli Unit :=
  Effect.modify (fun shell => { shell with printed := shell.printed ++ [line] })

/-- `value[key]`. -/
def getItem (key : Str) : Value → Except Stop Value
  | .dict items =>
    match Dict.get items key with
    | some value => .ok value
    | none => .error .keyError
  | _ => .error .typeError

/-- `value[key] = item`. -/
def setItem (key : Str) (item : Value) : Value → Except Stop Value
  | .dict items => .ok (.dict (Dict.set items key item))
  | _ => .error .typeError

def isStr (s : Str) : Value → Bool
  | .str t => t = s
  | _ => false

/-- `key in value`. -/
def contains (key : Str) : Value → Except Stop Bool
  | .dict items => .ok (Dict.get items key).isSome
  | .list items => .ok (items.any (isStr key))
  | .str s => .ok (s.tails.any (fun t => startsWith key t))
  | _ => .error .typeError

/-- How `load_book` ends on a text that is not read. Only a `JSONDecodeError` is caught. -/
def Home.unread (home : Home) : LoadsError → Stop
  | .decodeError => .die (home.path ++ lit " is not valid JSON; fix or remove it")
  | .valueError => .builtin .valueError
  | .recursionError => .builtin .recursionError

/-- What the book is read as, if it can be read. -/
def Home.contents (home : Home) : BookFile → Except Stop Value
  | .missing => .ok (.dict [])
  | .binary => .error .unicodeDecodeError
  | .text s => (loads home.python (universalNewlines s)).mapError home.unread

def loadBook (home : Home) : Cli Value := do
  let shell ← Effect.read
  Effect.lift (home.contents shell.book)

/-- The text of a book that is saved. -/
def saved (book : Value) : BookFile := .text (indented 0 book ++ [lineFeed])

/-- The text is made before the file is opened. -/
def saveBook (home : Home) (book : Value) : Cli Unit := do
  Effect.raiseIf (home.python.dumpDepth < book.depth) (.builtin .recursionError)
  Effect.modify (fun shell => { shell with book := saved book })

/-- The entry of a store. -/
def entry (token purpose : Value) : Value := .dict [(lit "token",token),(lit "purpose",purpose)]

def cmdCreate (home : Home) (name : Given) (reply : Except Stop Created) : Cli Unit := do
  let result ← Effect.lift reply
  let book ← loadBook home
  let book ← Effect.lift
    (setItem name.val (entry (.str result.token.val) (.str result.purpose.val)) book)
  saveBook home book
  print (lit "created '" ++ name.val ++ lit "' — " ++ result.purpose.val)
  print (lit "\nshare this token with people who should have access:\n\n  " ++ result.token.val ++
    [lineFeed])
  print (lit "anyone holding it has full access, and it cannot be revoked.")

/-- `name in book and book[name]["token"] != token`. -/
def namesOther (name token : Str) (book : Value) : Except Stop Bool := do
  if ← contains name book then
    let old ← getItem (lit "token") (← getItem name book)
    return !isStr token old
  else return false

def cmdAddShared (home : Home) (name token : Given) (reply : Except Stop (Info home.python)) :
    Cli Unit := do
  let book ← loadBook home
  let other ← Effect.lift (namesOther name.val token.val book)
  Effect.raiseIf (other = true)
    (.die (lit "'" ++ name.val ++ lit "' already names a different store; pick another name"))
  let info ← Effect.lift reply
  let book ← Effect.lift (setItem name.val (entry (.str token.val) info.purposeOrEmpty) book)
  saveBook home book
  let purpose ← Effect.lift ((info.purposeOrEmpty.text home.reprOf).mapError .builtin)
  let count ← Effect.lift (((info.entryCount.getD (.int 0)).text home.reprOf).mapError .builtin)
  print (lit "added '" ++ name.val ++ lit "' — " ++ purpose ++ lit " (" ++ count ++ lit " entries)")

/-- A command that writes the book, and what the service answers to it. The purpose of a new
store is for the service only. -/
inductive Command (home : Home)
  | create (name : Given) (reply : Except Stop Created)
  | add (name token : Given) (reply : Except Stop (Info home.python))

variable {home : Home}

def Command.exec : Command home → Cli Unit
  | create name reply => cmdCreate home name reply
  | add name token reply => cmdAddShared home name token reply

/-- The shell when the command has ended. -/
def Command.after (command : Command home) (file : BookFile) : Shell := (command.exec ⟨file,[]⟩).2

/-- The token that a book has under a name. -/
def tokenOf (name : Str) (book : Value) : Option Str :=
  match getItem name book with
  | .ok held =>
    match getItem (lit "token") held with
    | .ok (.str token) => some token
    | _ => none
  | .error _ => none

/-- The token can be reached under the name. -/
def Bound (home : Home) (file : BookFile) (name token : Str) : Prop :=
  ∃ book, home.contents file = .ok book ∧ tokenOf name book = some token

/-- No token of the book is lost, and a new token is in the book or on the screen. -/
structure Command.Keeps (file : BookFile) (command : Command home) : Prop where
  kept : ∀ name token, Bound home file name token → Bound home (command.after file).book name token
  delivered : ∀ name created, command = .create name (.ok created) →
    (∃ name', Bound home (command.after file).book name' created.token.val) ∨
      ∃ line ∈ (command.after file).printed, created.token.val <:+: line

/-- The book that a command is about to save. -/
def Command.Offers (file : BookFile) (book : Value) : Command home → Prop
  | create name (.ok created) => ∃ items, home.contents file = .ok (.dict items) ∧
      book = .dict (Dict.set items name.val (entry (.str created.token.val) (.str created.purpose.val)))
  | add name token (.ok info) => ∃ items, home.contents file = .ok (.dict items) ∧
      namesOther name.val token.val (.dict items) = .ok false ∧
      book = .dict (Dict.set items name.val (entry (.str token.val) info.purposeOrEmpty))
  | _ => False

/-- A new store finds a book that is an object and can be saved with it, and gets a name that no
other token has. No book with tokens is saved with more brackets than can be read. -/
structure Command.Fits (file : BookFile) (command : Command home) : Prop where
  placed : ∀ name created, command = .create name (.ok created) →
    ∃ book, command.Offers file book ∧
      (book.depth ≤ home.python.dumpDepth →
        ∀ token, Bound home file name.val token → token = created.token.val) ∧
      (home.python.dumpDepth < book.depth → ∃ name', Bound home file name' created.token.val)
  readable : ∀ book, command.Offers file book → book.depth ≤ home.python.dumpDepth →
    home.python.depth < book.depth → ∀ name token, ¬Bound home file name token

section
variable {python : Interpreter} {depth : ℕ} {items : Dict Str Value} {book value : Value} {name name' token : Str}
  {file : BookFile}

end

section
variable {items : Dict Str Value} {book : Value} {name token : Given} {created : Created}
  {file : BookFile} {printed : List Str} {command : Command home}

theorem Info.loaded {python : Interpreter} (info : Info python) :
    ∃ depth, Loaded python depth info.purposeOrEmpty := by
  unfold Info.purposeOrEmpty
  cases info.purpose with
  | none => exact ⟨0,.str rfl⟩
  | some purpose => exact ⟨_,purpose.2⟩

end

end HearthAI.Skills
