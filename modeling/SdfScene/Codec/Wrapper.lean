import SdfScene.Codec.Record
import SdfScene.Json.Writer
import SdfScene.Shape.Basic
import SdfScene.Text.Blank

/-!
# Wrapped values

Numbers and vectors are persisted under a tag that tells their type, as
`dataType` and `value`. A payload number may also be written as a numeric text. The
payload is decoded first, then the tag is compared, then the numbers are resolved.
-/

namespace SdfScene.Codec

open Json

/-- A name that stands for a value of an enumeration. -/
def decodeName {α : Type} (ofName? : String → Option α) (names : List String)
    (text : Option String) : Except Fault α :=
  match text with
  | none => .error (.plain .malformed)
  | some text =>
    match ofName? text with
    | some value => .ok value
    | none => .error (.unknownVariant text names)

/-- The null that may stand beside a name, after it was read whole: an empty object
is as good. -/
def isUnit : Doc → Bool
  | .null => true
  | .object [] _ => true
  | _ => false

/-- Decode a value of an enumeration: its name, or an object with the name as its only
key and null beside it. -/
def decodeEnum {α : Type} (ofName? : String → Option α) (names : List String) :
    Decoder α
  | _, .string text => decodeName ofName? names text
  | .whole, .object [(key, value)] _ => do
    let choice ← decodeName ofName? names key
    if isUnit value then .ok choice else .error (.plain .unsuitable)
  | .whole, _ => .error (.plain .unsuitable)
  | .direct 0, .object _ _ => .error (.plain .malformed)
  | .direct _, .object [] ending =>
    .error (.plain (match ending with
      | .cut => .truncated
      | .brokenKey toReader _ => toReader
      | _ => .malformed))
  | .direct _, .object ((key, value) :: members) ending => do
    let choice ← decodeName ofName? names key
    match value with
    | .null =>
      match members with
      | [] => do
        check ending.whenComplete?
        pure choice
      | _ => .error (.plain .malformed)
    | value => .error (.plain value.whenUnsuited)
  | .direct _, .flawed flaw => .error (.plain flaw.whenName)
  | .direct _, _ => .error (.plain .malformed)

/-- Decode a tag. -/
def decodeTag : Decoder Tag := decodeEnum Tag.ofName? (Tag.all.map Tag.name)

/-- A tag or a payload. -/
inductive EnvelopePart (α : Type) where
  | tag (tag : Tag)
  | payload (value : α)

/-- The fields of a wrapper. -/
def envelopeFields {α : Type} (payload : Decoder α) : List (RecordField (EnvelopePart α)) :=
  [.required "dataType" fun reading doc => (decodeTag reading doc).map .tag,
    .required "value" fun reading doc => (payload reading doc).map .payload]

/-- Decode a wrapper and check its tag. -/
def decodeEnvelope {α : Type} (expected : Tag) (payload : Decoder α) : Decoder α :=
  fun reading doc => do
    match ← decodeRecord (envelopeFields payload) reading doc with
    | [.tag found, .payload value] =>
      if found = expected then .ok value else .error (.wrongTag expected found)
    | _ => .error (.plain .unsuitable)

/-- A payload number before it is resolved: a number or a numeric text. -/
inductive Amount where
  | number (x : Single)
  | text (text : String)

/-- Decode a payload number. -/
def decodeAmount : Decoder Amount := fun reading doc => do
  readWhole reading doc
  match doc with
  | .number numeral =>
    match numeral.quantity? with
    | some quantity => .ok (.number quantity.toSingle)
    | none => .error (.plain .malformed)
  | .string (some text) => .ok (.text text)
  | _ => .error (.plain .unsuitable)

/-- The finite number that a payload number stands for. -/
def Amount.resolve (amount : Amount) : Except Fault Single := do
  let x ← match amount with
    | number x => .ok x
    | text written =>
      match Single.ofText? (Text.trim written.toList) with
      | some x => .ok x
      | none => .error (.notANumber written)
  if x.isFinite then .ok x else .error .notFinite

/-- Decode a payload of numbers with the given names. -/
def decodeAmounts (names : List String) : Decoder (List Amount) :=
  decodeRecord (names.map fun name => .required name decodeAmount)

/-- The document of a wrapper. -/
def wrap (tag : Tag) (payload : Doc) : Doc :=
  .ofMembers [("dataType", .ofString tag.name), ("value", payload)]

/-- The document of a number. -/
def scalarDoc (x : Single) : Doc := wrap .scalar (.ofMembers [("s", .ofSingle x)])

/-- The document of a vector under a tag. -/
def vectorDoc (tag : Tag) (v : Vec3) : Doc :=
  wrap tag (.ofMembers [("x", .ofSingle v.x), ("y", .ofSingle v.y), ("z", .ofSingle v.z)])

/-- Decode a number. -/
def decodeScalar : Decoder Single := fun reading doc => do
  match ← decodeEnvelope .scalar (decodeAmounts ["s"]) reading doc with
  | [s] => s.resolve
  | _ => .error (.plain .unsuitable)

/-- Decode a vector under a tag. -/
def decodeVector (tag : Tag) : Decoder Vec3 := fun reading doc => do
  match ← decodeEnvelope tag (decodeAmounts ["x", "y", "z"]) reading doc with
  | [x, y, z] => do
    let x ← x.resolve
    let y ← y.resolve
    let z ← z.resolve
    pure ⟨x, y, z⟩
  | _ => .error (.plain .unsuitable)

/-- The document of a transform. -/
def transformDoc (t : Transform) : Doc :=
  .ofMembers [("position", vectorDoc .shapeVector t.position),
    ("rotation", vectorDoc .shapeVector t.rotation), ("scale", scalarDoc t.scale)]

/-- Decode the value of a parameter. -/
def decodeParam : ParamType → Decoder Param
  | .scalar => fun reading doc => (decodeScalar reading doc).map .scalar
  | .vector => fun reading doc => (decodeVector .shapeVector reading doc).map .vector

/-- The document of a parameter's value. -/
def paramDoc : Param → Doc
  | .scalar x => scalarDoc x
  | .vector v => vectorDoc .shapeVector v

/-- Decode a transform. -/
def decodeTransform : Decoder Transform := fun reading doc => do
  let parts ← decodeRecord
    [.required "position" (decodeParam .vector), .required "rotation" (decodeParam .vector),
      .required "scale" (decodeParam .scalar)] reading doc
  match parts with
  | [.vector position, .vector rotation, .scalar scale] => .ok ⟨position, rotation, scale⟩
  | _ => .error (.plain .unsuitable)

end SdfScene.Codec
