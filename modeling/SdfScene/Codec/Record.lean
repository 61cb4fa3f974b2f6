import SdfScene.Json.Reader

/-!
# Records

A record is written as an object, its members in any order, or as an array of its
fields in declared order. Members are decoded in the order in which they stand;
unknown ones are passed over, a known one must not occur twice, and the first absent
field in declared order is reported at the end of the object. The rules hold both for
documents that are decoded while they are read and for values that were read whole.
-/

namespace SdfScene.Codec

open Json

/-- How a document is decoded. -/
inductive Reading where
  /-- After it was read whole and found well-formed. -/
  | whole
  /-- While it is being read, `levels` deep at most. -/
  | direct (levels : Nat)
  deriving DecidableEq

namespace Reading

/-- Step into an array or an object. -/
def enter : Reading → Except Fault Reading
  | whole => .ok whole
  | direct 0 => .error (.plain .malformed)
  | direct (levels + 1) => .ok (direct levels)

/-- The fault of an item after the last one that is wanted. -/
def surplus : Reading → Category
  | whole => .unsuitable
  | direct _ => .malformed

end Reading

/-- A decoder of values. -/
abbrev Decoder (α : Type) := Reading → Doc → Except Fault α

/-- Fail if there is a fault. -/
def check : Option Category → Except Fault Unit
  | none => .ok ()
  | some category => .error (.plain category)

/-- Pass over a value that is not wanted. -/
def pass : Reading → Doc → Except Fault Unit
  | .whole, _ => .ok ()
  | .direct _, doc => check doc.skipFault?

/-- Read a value whole before it is decoded. -/
def readWhole : Reading → Doc → Except Fault Unit
  | .whole, _ => .ok ()
  | .direct levels, doc => check (doc.readFault? levels)

/-- A field of a record. -/
structure RecordField (α : Type) where
  /-- The name of the member. -/
  name : String
  /-- The decoder of its value. -/
  decode : Decoder α
  /-- The value of an absent member; none for a required one. -/
  absent : Option α

namespace RecordField

/-- A required field. -/
def required {α : Type} (name : String) (decode : Decoder α) : RecordField α :=
  ⟨name, decode, none⟩

/-- A field that may be absent. -/
def optional {α : Type} (name : String) (decode : Decoder α) (absent : α) : RecordField α :=
  ⟨name, decode, some absent⟩

end RecordField

/-- Decode the members of an object, keeping the values of the known ones by name. -/
def decodeMembers {α : Type} (fields : List (RecordField α)) (reading : Reading) :
    List (Option String × Doc) → Ending → List (String × α) →
      Except Fault (List (String × α))
  | [], ending, found => do
    check ending.whenRead?
    pure found
  | (none, _) :: _, _, _ => .error (.plain .malformed)
  | (some key, value) :: members, ending, found =>
    match fields.find? fun field => field.name = key with
    | none => do
      pass reading value
      decodeMembers fields reading members ending found
    | some field =>
      if (found.lookup key).isSome then .error (.duplicateField key)
      else do
        let value ← field.decode reading value
        decodeMembers fields reading members ending (found ++ [(key, value)])

/-- The values of the fields in declared order. -/
def collect {α : Type} (found : List (String × α)) :
    List (RecordField α) → Except Fault (List α)
  | [] => .ok []
  | field :: fields =>
    match (found.lookup field.name).or field.absent with
    | none => .error (.missingField field.name)
    | some value => (collect found fields).map (value :: ·)

/-- Decode the items of an array as fields in declared order. -/
def decodeItems {α : Type} (outer inner : Reading) :
    List (RecordField α) → List Doc → Ending → Except Fault (List α)
  | [], [], ending => do
    check ending.whenComplete?
    pure []
  | [], _ :: _, _ => .error (.plain outer.surplus)
  | field :: fields, [], ending => do
    check ending.whenRead?
    match field.absent with
    | none => .error (.plain .unsuitable)
    | some value => (decodeItems outer inner fields [] ending).map (value :: ·)
  | field :: fields, item :: items, ending => do
    let value ← field.decode inner item
    (decodeItems outer inner fields items ending).map (value :: ·)

/-- Decode a record: the values of its fields in declared order. -/
def decodeRecord {α : Type} (fields : List (RecordField α)) : Decoder (List α) :=
  fun reading doc =>
    match doc with
    | .object members ending => do
      let inner ← reading.enter
      let found ← decodeMembers fields inner members ending []
      collect found fields
    | .array items ending => do
      let inner ← reading.enter
      decodeItems reading inner fields items ending
    | doc => .error (.plain doc.whenUnsuited)

/-- Decode a text. -/
def decodeText : Decoder String := fun _ doc =>
  match doc with
  | .string (some text) => .ok text
  | doc => .error (.plain doc.whenUnsuited)

/-- The document that is the whole text, decoded while it is read. -/
def decodeAll {α : Type} (decode : Decoder α) (text : String) : Except Fault α := do
  let (doc, rest) := Doc.ofText text.toList
  let value ← decode (.direct depthLimit) doc
  if hasMore rest then .error (.plain .malformed) else .ok value

end SdfScene.Codec
