import HearthAI.Contracts.Envelope
import HearthAI.Contracts.Media

/-! # Content decoding under limits

The decompressors and the charset decoders are third-party code. A decompressor
is a byte stream that may break off with an error.
-/
namespace HearthAI.Inspect
open Text Contracts

/-- What a reader delivers: its bytes, and whether it ends in an error. -/
structure Stream where
  bytes : Bytes
  broken : Bool

/-- `reader.take(limit).read_to_end(..)`: an error behind the limit is never reached. -/
def Stream.takeToEnd (stream : Stream) (limit : ℕ) : Option Bytes :=
  if limit ≤ stream.bytes.length then some (stream.bytes.take limit)
  else if stream.broken then none
  else some stream.bytes

/-- The decoders of `flate2` and `encoding_rs`. An encoding is its name. -/
structure Codecs where
  gzip : Bytes → Stream
  zlib : Bytes → Stream
  /-- `Encoding::for_bom`: the encoding and the length of its mark. -/
  forBom : Bytes → Option (String × ℕ)
  /-- `Encoding::for_label`. -/
  forLabel : String → Option String
  /-- `decode_without_bom_handling`: the text, and whether it was malformed. -/
  decodeWithoutBomHandling : String → Bytes → String × Bool
  /-- `decode_without_bom_handling_and_without_replacement`. -/
  decodeWithoutReplacement : String → Bytes → Option String

/-- `usize::saturating_mul`. -/
def saturatingMul (a b : ℕ) : ℕ := min (a * b) (2 ^ 64 - 1)

/-- Read a decoder up to the absolute limit and the body's own expansion allowance. -/
def boundedRead (reader : Stream) (wireBytes : ℕ) : Except ErrorCode Bytes :=
  let ceiling := min maxDecodedBytes (max (saturatingMul wireBytes maxDecodeExpansion) 4096)
  match reader.takeToEnd (ceiling + 1) with
  | none => .error .unsupportedContent
  | some decoded =>
    if decoded.length > ceiling then .error .responseLimitExceeded else .ok decoded

/-- Undo the content coding, bounded by absolute size and by expansion ratio. -/
def decodeContentEncoding (codecs : Codecs) (body : Bytes) (contentEncoding : Option String) :
    Except ErrorCode Bytes :=
  let coding := toAsciiLowercase (trim (contentEncoding.getD "identity"))
  if coding = "" ∨ coding = "identity" then
    if body.length > maxDecodedBytes then .error .responseLimitExceeded else .ok body
  else if coding = "gzip" then boundedRead (codecs.gzip body) body.length
  else if coding = "deflate" then boundedRead (codecs.zlib body) body.length
  else .error .unsupportedContent

/-- Decode bytes to text. An undeclared charset must actually be UTF-8. -/
def decodeCharset (codecs : Codecs) (bytes : Bytes) (media : MediaType) :
    Except ErrorCode String :=
  match codecs.forBom bytes with
  | some (encoding,offset) =>
    let (text,malformed) := codecs.decodeWithoutBomHandling encoding (bytes.drop offset)
    if malformed then .error .unsupportedContent else .ok text
  | none =>
    match codecs.forLabel (media.charset.getD "utf-8") with
    | none => .error .unsupportedContent
    | some encoding =>
      match codecs.decodeWithoutReplacement encoding bytes with
      | none => .error .unsupportedContent
      | some text => .ok text

end HearthAI.Inspect
