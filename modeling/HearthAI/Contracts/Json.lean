import HearthAI.Core.Fallible

/-! # JSON documents and the decoders that `serde` derives

A document is the tree of a JSON text, with the members of an object as often and in
the order they are written. A derived decoder reads a struct from an object or from an
array, and a unit variant from its name or from an object with the name as only key.
-/
namespace HearthAI.Contracts

/-- A finite double. -/
structure Double where
  bits : UInt64
  finite : (bits >>> 52) &&& 0x7ff ≠ 0x7ff
  deriving DecidableEq

inductive Json
  | null
  | bool (b : Bool)
  /-- A number without fraction and exponent. -/
  | int (i : Int)
  | float (d : Double)
  | str (s : String)
  | arr (items : List Json)
  | obj (members : List (String × Json))

/-- `serde_json` between texts and documents, and the message of a text that is refused. -/
structure SerdeJson where
  parse : String → Option Json
  print : Json → String
  errorText : String → String

/-- The document is read back from its text. -/
def SerdeJson.FaithfulOn (serde : SerdeJson) (v : Json) : Prop := serde.parse (serde.print v) = some v

/-- The encoding and the decoder of one type. -/
structure JsonCodec (α : Type) where
  serialize : α → Json
  deserialize : Json → Option α

/-- Decoding undoes encoding, and no value is encoded as `null`. -/
structure JsonCodec.Invertible {α : Type} (codec : JsonCodec α) : Prop where
  inverse : ∀ a, codec.deserialize (codec.serialize a) = some a
  not_null : ∀ a, codec.serialize a ≠ .null

/-- The number of values of a `u16` and of a `u32`. -/
def u16Bound : ℕ := 65536
def u32Bound : ℕ := 4294967296

namespace Json

/-- An unsigned integer below the bound of its type. -/
def asUnsigned (bound : ℕ) : Json → Option ℕ
  | int (.ofNat n) => if n < bound then some n else none
  | _ => none

def asString : Json → Option String
  | str s => some s
  | _ => none

/-- `Option<T>`. -/
def asOption {α : Type} (decode : Json → Option α) : Json → Option (Option α)
  | null => some none
  | v => (decode v).map some

def ofOption {α : Type} (encode : α → Json) : Option α → Json
  | none => null
  | some a => encode a

/-- The name of a unit variant. -/
def variantName : Json → Option String
  | str s => some s
  | obj [(name,null)] => some name
  | _ => none

/-- An `enum` of unit variants, by their names. -/
def asEnum {α : Type} (variants : List (String × α)) (v : Json) : Option α :=
  (variantName v).bind (fun name => variants.lookup name)

end Json

/-- The fields of a struct that are there. An array gives them by position. -/
structure Members where
  get : String → Option Json
  positional : Bool

/-- A struct with `deny_unknown_fields` and fields of these names. -/
def Json.members (names : List String) : Json → Option Members
  | obj fields =>
    if (fields.map Prod.fst).Nodup ∧ ∀ p ∈ fields, p.1 ∈ names then
      some ⟨fun name => fields.lookup name,false⟩
    else none
  | arr items =>
    if items.length ≤ names.length then
      some ⟨fun name => (names.zip items).lookup name,true⟩
    else none
  | _ => none

namespace Members
variable {α : Type} (fields : Members) (name : String) (decode : Json → Option α)

def required : Option α := (fields.get name).bind decode

/-- A field of type `Option<T>`, which may be missing from an object. -/
def optional : Option (Option α) :=
  match fields.get name with
  | some v => v.asOption decode
  | none => if fields.positional then none else some none

/-- A field with `#[serde(default)]`. -/
def defaulted (default : α) : Option α :=
  match fields.get name with
  | some v => decode v
  | none => some default

end Members

namespace Json
variable {α : Type}

theorem asUnsigned_of_lt {bound n : ℕ} (h : n < bound) : asUnsigned bound (int n) = some n :=
  if_pos h

theorem asOption_ofOption {encode : α → Json} {decode : Json → Option α}
    (hinverse : ∀ a, decode (encode a) = some a) (hnull : ∀ a, encode a ≠ null) (a : Option α) :
    asOption decode (ofOption encode a) = some a := by
  cases a with
  | none => rfl
  | some a =>
    have hvalue : ∀ v, v ≠ null → asOption decode v = (decode v).map some := by
      intro v hv
      cases v with
      | null => exact absurd rfl hv
      | _ => rfl
    rw [ofOption,hvalue _ (hnull a),hinverse,Option.map_some]

end Json
end HearthAI.Contracts
