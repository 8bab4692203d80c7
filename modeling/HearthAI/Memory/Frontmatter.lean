import HearthAI.Core.Dict
import HearthAI.Python.Value

/-! # Minimal YAML frontmatter: the serializer and the line parser

Values are strings and lists of strings. What the serializer wrote is what the
parser reads, as long as no value has a line boundary in it.
-/
namespace HearthAI.Memory
open Python

def delim : Str := lit "---"
def quoteMark : CodePoint := 34
def backslash : CodePoint := 92
def colon : CodePoint := 58
def dash : CodePoint := 45

inductive FrontmatterError
  | noDelimiter
  | itemBeforeKey
  | valueAndList (key : Str)
  | malformedLine (line : Str)
  | unterminated
  deriving DecidableEq

/-- The text of the exception; `reprOf` is `repr` of a string. -/
def FrontmatterError.message (reprOf : Str → Str) : FrontmatterError → Str
  | noDelimiter => lit "file does not start with a frontmatter delimiter"
  | itemBeforeKey => lit "list item before any key"
  | valueAndList key => lit "key " ++ reprOf key ++ lit " got both a value and a list"
  | malformedLine line => lit "malformed frontmatter line: " ++ reprOf line
  | unterminated => lit "unterminated frontmatter block"

inductive MetaValue
  | str (s : Str)
  | strs (items : List Str)
  deriving DecidableEq

/-- A dict, in insertion order. -/
abbrev Meta := Dict Str MetaValue

/-- `str.replace` of one character. -/
def replaceChar (c : CodePoint) (sub : Str) (s : Str) : Str :=
  s.flatMap (fun d => if d = c then sub else [d])

def escape (value : Str) : Str :=
  replaceChar quoteMark [backslash,quoteMark] (replaceChar backslash [backslash,backslash] value)

def quote (value : Str) : Str := quoteMark :: (escape value ++ [quoteMark])

/-- A backslash stands for the character behind it. -/
def unescape : Str → Str
  | [] => []
  | [c] => [c]
  | c :: d :: rest => if c = backslash then d :: unescape rest else c :: unescape (d :: rest)

def unquote (raw : Str) : Str :=
  let raw := strip raw
  if 2 ≤ raw.length ∧ raw.head? = raw.getLast? ∧ (raw.head? = some quoteMark ∨
      raw.head? = some 39) then
    let body := raw.tail.dropLast
    if raw.head? = some quoteMark then unescape body else body
  else raw

/-- The lines of one key. -/
def dumpItem : Str × MetaValue → List Str
  | (key,.strs []) => [key ++ lit ": []"]
  | (key,.strs items) => (key ++ lit ":") :: items.map (fun item => lit "  - " ++ quote item)
  | (key,.str value) => [key ++ lit ": " ++ quote value]

def dumps (info : Meta) (body : Str) : Str :=
  let lines := delim :: (info.flatMap dumpItem ++ [delim])
  let text := join [lineFeed] lines ++ [lineFeed]
  if body = [] then text else text ++ [lineFeed] ++ rstripOf lineFeed body ++ [lineFeed]

/-- The variables of the parser's loop. -/
structure Parsing where
  info : Meta
  currentKey : Option Str

def readLine (state : Parsing) (line : Str) : Except FrontmatterError Parsing :=
  if startsWith (lit "  - ") line || startsWith (lit "- ") line then
    match state.currentKey with
    | none => .error .itemBeforeKey
    | some key =>
      match (state.info.get key).getD (.strs []) with
      | .str _ => .error (.valueAndList key)
      | .strs items =>
        .ok { state with
          info := state.info.set key (.strs (items ++ [unquote (partition dash line).2.2])) }
  else if !line.contains colon then .error (.malformedLine line)
  else
    let key := strip (partition colon line).1
    let rest := strip (partition colon line).2.2
    if rest = lit "[]" then .ok ⟨state.info.set key (.strs []),some key⟩
    else if rest = [] then .ok ⟨state.info.set key (.strs []),some key⟩
    else .ok ⟨state.info.set key (.str (unquote rest)),some key⟩

/-- Read up to the closing delimiter. The lines behind it are the body's. -/
def readLines (state : Parsing) : List Str → Except FrontmatterError (Meta × List Str)
  | [] => .error .unterminated
  | line :: rest =>
    if strip line = delim then .ok (state.info,rest)
    else
      match readLine state line with
      | .error e => .error e
      | .ok next => readLines next rest

def loads (text : Str) : Except FrontmatterError (Meta × Str) :=
  match splitlines text with
  | [] => .error .noDelimiter
  | first :: rest =>
    if strip first ≠ delim then .error .noDelimiter
    else
      match readLines ⟨[],none⟩ rest with
      | .error e => .error e
      | .ok (info,lines) => .ok (info,stripOf lineFeed (join [lineFeed] lines))

end HearthAI.Memory
