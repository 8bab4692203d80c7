import HearthAI.Contracts.Artifact
import HearthAI.Core.Hex
import HearthAI.Core.LengthPrefix

/-! # The directory the fetch stage leaves behind for the inspection stage

Writing is a list of file operations, so that a writer can be stopped between
any two of them. Reading checks the seal before anything in the directory is
parsed as meaningful.
-/
namespace HearthAI.Contracts
open Text Hex LengthPrefix

/-- The bytes of a `Vec<u8>`, of which there are at most `isize::MAX`. -/
structure Buffer where
  bytes : Bytes
  fits : bytes.length < 2 ^ 63
  deriving DecidableEq

/-- SHA-256, and HMAC-SHA256 of a key and a message. -/
structure Crypto where
  sha256 : Bytes → Bytes
  hmacSha256 : Bytes → Bytes → Bytes

def Crypto.sha256Hex (crypto : Crypto) (bytes : Bytes) : String :=
  String.ofList (hexEncode (crypto.sha256 bytes))

/-- `serde_json::to_vec` and `serde_json::from_slice` at one type. -/
structure Codec (α : Type) where
  encode : α → Except String Buffer
  decode : Bytes → Except String α

/-- Decoding undoes encoding. -/
def Codec.Invertible {α : Type} (codec : Codec α) : Prop :=
  ∀ a encoded, codec.encode a = .ok encoded → codec.decode encoded.bytes = .ok a

structure HandoffCodecs where
  stage : Codec StageOutcome
  artifact : Codec FetchArtifact

def minKeyBytes : ℕ := 32

structure HandoffKey where
  material : Bytes
  long : minKeyBytes ≤ material.length
  deriving DecidableEq

def HandoffKey.fromBytes (material : Bytes) : Except ContractError HandoffKey :=
  if long : minKeyBytes ≤ material.length then .ok ⟨material,long⟩
  else .error ⟨s!"handoff key must be at least {minKeyBytes} bytes"⟩

inductive FileName
  | body
  | artifact
  | stage
  | seal
  deriving DecidableEq, Repr

def FileName.text : FileName → String
  | .body => "body.bin"
  | .artifact => "artifact.json"
  | .stage => "stage.json"
  | .seal => "handoff.mac"

inductive IoErrorKind
  | notFound
  | invalidData
  | other
  deriving DecidableEq, Repr

structure IoError where
  kind : IoErrorKind
  text : String
  deriving DecidableEq, Repr

def IoError.notFound : IoError := ⟨.notFound,"No such file or directory (os error 2)"⟩

/-- The bytes of each file, or why it cannot be read. -/
abbrev Directory := FileName → Except IoError Bytes

inductive Operation
  | createDirAll
  | remove (name : FileName)
  | put (name : FileName) (bytes : Bytes)
  deriving DecidableEq

/-- `fs::read`. A file larger than a `Vec` can be is an error too. -/
def readFile (directory : Directory) (name : FileName) : Except IoError Buffer :=
  match directory name with
  | .error error => .error error
  | .ok bytes =>
    if fits : bytes.length < 2 ^ 63 then .ok ⟨bytes,fits⟩ else .error ⟨.other,"out of memory"⟩

theorem readFile_ok {directory : Directory} {name : FileName} {bytes : Bytes}
    (h : directory name = .ok bytes) (fits : bytes.length < 2 ^ 63) :
    readFile directory name = .ok ⟨bytes,fits⟩ := by
  rw [readFile,h]
  exact dif_pos fits

/-- `fs::read_to_string`. -/
def readToString (directory : Directory) (name : FileName) : Except IoError String :=
  match readFile directory name with
  | .error error => .error error
  | .ok contents =>
    match fromUtf8 contents.bytes with
    | some text => .ok text
    | none => .error ⟨.invalidData,"stream did not contain valid UTF-8"⟩

def get (directory : Directory) (name : FileName) : Except ContractError Buffer :=
  (readFile directory name).mapError (fun error => ⟨s!"{name.text}: {error.text}"⟩)

def getOptional (directory : Directory) (name : FileName) :
    Except ContractError (Option Buffer) :=
  match readFile directory name with
  | .ok contents => .ok (some contents)
  | .error error =>
    if error.kind = .notFound then .ok none else .error ⟨s!"{name.text}: {error.text}"⟩

/-- The body is not looked at without an artifact. -/
def readBody (directory : Directory) (artifactBytes : Bytes) : Except ContractError Bytes :=
  if artifactBytes = [] then .ok [] else (get directory .body).map Buffer.bytes

def encode {α : Type} (codec : Codec α) (value : α) (what : String) :
    Except ContractError Buffer :=
  (codec.encode value).mapError (fun error => ⟨s!"{what} could not be serialized: {error}"⟩)

def constantTimeEq (left right : Bytes) : Bool :=
  if left.length ≠ right.length then false
  else (List.zip left right).foldl (fun difference (a,b) => difference ||| (a ^^^ b)) 0 == 0

theorem foldl_xor_eq_zero {left right : Bytes} (h : left.length = right.length) (acc : UInt8) :
    (List.zip left right).foldl (fun difference (a,b) => difference ||| (a ^^^ b)) acc = 0 ↔
      acc = 0 ∧ left = right := by
  induction left generalizing right acc with
  | nil =>
    obtain rfl : right = [] := List.length_eq_zero_iff.mp h.symm
    simp
  | cons a left ih =>
    cases right with
    | nil => simp at h
    | cons b right =>
      rw [List.zip_cons_cons,List.foldl_cons,ih (by simpa using h)]
      simp [and_assoc]

theorem constantTimeEq_iff {left right : Bytes} :
    constantTimeEq left right = true ↔ left = right := by
  unfold constantTimeEq
  split_ifs with hlength
  · simp only [false_iff]
    intro h
    exact hlength (by rw [h])
  · simp [foldl_xor_eq_zero (not_not.mp hlength)]

def sealDomain : String := "hearthai-webfetch-handoff-v1"

/-- One run's handle on its handoff directory. -/
structure Handoff where
  directory : String
  runId : String
  key : HandoffKey
  fits : len runId < 2 ^ 63

namespace Handoff
variable (crypto : Crypto) (codecs : HandoffCodecs) (handoff : Handoff)

/-- What the seal covers, length-prefixed. -/
def sealInput (stageBytes artifactBytes : Bytes) (bodyDigest : Option String) : Bytes :=
  frame 8 [asBytes sealDomain,asBytes handoff.runId,stageBytes,artifactBytes,
    asBytes (bodyDigest.getD "")]

def «seal» (stageBytes artifactBytes : Bytes) (bodyDigest : Option String) : String :=
  String.ofList (hexEncode (crypto.hmacSha256 handoff.key.material
    (handoff.sealInput stageBytes artifactBytes bodyDigest)))

/-- Record a completed fetch. The seal is written last. -/
def writeFetched (artifact : FetchArtifact) (body : Bytes) :
    Except ContractError (List Operation) := do
  refuseIf (artifact.runId ≠ handoff.runId) "artifact belongs to a different run"
  refuseIf (body.length ≠ artifact.bodyBytes ∨ crypto.sha256Hex body ≠ artifact.bodySha256)
    "artifact does not describe the body it is written with"
  let outcome := StageOutcome.ok .fetch handoff.runId
  let stageBytes ← encode codecs.stage outcome "stage outcome"
  let artifactBytes ← encode codecs.artifact artifact "artifact description"
  return [.createDirAll,.put .body body,.put .artifact artifactBytes.bytes,
    .put .stage stageBytes.bytes,
    .put .seal (asBytes
      (handoff.seal crypto stageBytes.bytes artifactBytes.bytes (some artifact.bodySha256)))]

/-- Record that the fetch stage produced no response, and why. -/
def writeFailure (code : ErrorCode) : Except ContractError (List Operation) := do
  let outcome := StageOutcome.failed .fetch handoff.runId code
  let stageBytes ← encode codecs.stage outcome "stage outcome"
  return [.createDirAll,.remove .artifact,.remove .body,.put .stage stageBytes.bytes,
    .put .seal (asBytes (handoff.seal crypto stageBytes.bytes [] none))]

/-- Read the handoff, or refuse it. -/
def read (directory : Directory) : Except ContractError Handed := do
  let stageBytes ← get directory .stage
  let artifactBytes := ((← getOptional directory .artifact).map Buffer.bytes).getD []
  let recorded ← (readToString directory .seal).mapError
    (fun error => ⟨s!"handoff is not sealed: {error.text}"⟩)
  let body ← readBody directory artifactBytes
  let bodyDigest := if artifactBytes = [] then none else some (crypto.sha256Hex body)
  let expected := handoff.seal crypto stageBytes.bytes artifactBytes bodyDigest
  refuseIf (!constantTimeEq (asBytes (trim recorded)) (asBytes expected))
    "handoff seal does not match its contents"
  let outcome ← (codecs.stage.decode stageBytes.bytes).mapError
    (fun error => ⟨s!"stage outcome is not valid: {error}"⟩)
  outcome.check handoff.runId
  match outcome.code with
  | some code => return .failed code
  | none =>
    refuseIf (artifactBytes = []) "handoff reports success without an artifact"
    let artifact ← (codecs.artifact.decode artifactBytes).mapError
      (fun error => ⟨s!"artifact description is not valid: {error}"⟩)
    refuseIf (artifact.artifactVersion ≠ artifactVersion) "unsupported artifact_version"
    refuseIf (artifact.runId ≠ handoff.runId) "artifact belongs to a different run"
    refuseIf (body.length ≠ artifact.bodyBytes)
      "artifact body length does not match its description"
    refuseIf (bodyDigest ≠ some artifact.bodySha256)
      "artifact body digest does not match its description"
    return .fetched artifact body

end Handoff
end HearthAI.Contracts
