import SdfScene.Codec.Fields
import SdfScene.Codec.Wrapper
import SdfScene.Shape.Query

/-!
# Shape documents

A shape is persisted as a record of its fields with its kind among them, the children
of a combinator as pairs of id and shape. The document of a whole tree is read before
its fields are decoded, but the kind of its root is decoded where it stands. Restoring
a tree refuses repeated ids and ids too large to allocate past, and only then raises
the allocator's floor.
-/

namespace SdfScene.Codec

open Json

/-- The value of a field of a shape. -/
inductive FieldValue where
  | param (value : Param)
  | transform (value : Transform)
  | color (value : Vec3)
  | id (value : NodeId)
  | content (value : String)
  | children (value : List Shape)

/-- Decode an id. -/
def decodeId : Decoder NodeId := fun reading doc => (decodeText reading doc).map NodeId.mk

/-- The fields of a shape, given a decoder of children. -/
def fieldsOf (children : Decoder (List Shape)) (kind : Kind) : List (RecordField FieldValue) :=
  let transform : RecordField FieldValue :=
    .required "transform" fun reading doc => (decodeTransform reading doc).map .transform
  let id : RecordField FieldValue :=
    .required "id" fun reading doc => (decodeId reading doc).map .id
  match kind with
  | .primitive kind =>
    (kind.signature.map fun (name, type) =>
        .required name fun reading doc => (decodeParam type reading doc).map .param) ++
      [transform,
        .required "color" fun reading doc =>
          (decodeVector .shapeVector reading doc).map .color,
        id]
  | .combinator _ =>
    [.required "shapes" fun reading doc => (children reading doc).map .children,
      .required "smoothness" fun reading doc =>
        (decodeParam .scalar reading doc).map .param,
      transform, id]
  | .custom =>
    [.required "content" fun reading doc => (decodeText reading doc).map .content,
      transform, id]

/-- The parameters at the start of a list of field values, and the values after them. -/
def takeParams : List FieldValue → List Param × List FieldValue
  | .param value :: rest => (value :: (takeParams rest).1, (takeParams rest).2)
  | rest => ([], rest)

/-- The shape of a kind with the given field values. -/
def shapeOf? : Kind → List FieldValue → Option Shape
  | .primitive kind, values =>
    match takeParams values with
    | (params, [.transform transform, .color color, .id id]) =>
      (Primitive.ofValues? kind params).map fun body => .primitive body transform color id
    | _ => none
  | .combinator kind,
      [.children children, .param (.scalar smoothness), .transform transform, .id id] =>
    some (.combinator kind children smoothness transform id)
  | .custom, [.content content, .transform transform, .id id] =>
    some (.custom content transform id)
  | _, _ => none

/-- Decode a kind: its name, or its place in the order of kinds in a value that was
read whole. -/
def decodeKind : Decoder Kind
  | _, .string text => decodeName Kind.ofName? (Kind.all.map Kind.name) text
  | .whole, .number numeral =>
    match numeral.quantity? with
    | some (.natural n) =>
      match Kind.all[n]? with
      | some kind => .ok kind
      | none => .error (.plain .unsuitable)
    | _ => .error (.plain .unsuitable)
  | _, doc => .error (.plain doc.whenUnsuited)

/-- Take the kind out of the members of a shape; the others are read whole. -/
def takeKind (reading : Reading) :
    List (Option String × Doc) → Ending → Option Kind →
      Except Fault (Kind × List (Option String × Doc))
  | [], ending, kind => do
    check ending.whenRead?
    match kind with
    | none => .error (.missingField "kind")
    | some kind => .ok (kind, [])
  | (none, _) :: _, _, _ => .error (.plain .malformed)
  | (some key, value) :: members, ending, kind =>
    if key = "kind" then
      if kind.isSome then .error (.duplicateField "kind")
      else do
        let kind ← decodeKind reading value
        takeKind reading members ending (some kind)
    else do
      readWhole reading value
      (takeKind reading members ending kind).map fun (kind, others) =>
        (kind, (some key, value) :: others)

/-- Read the items after the first one whole. -/
def readRest (reading : Reading) : List Doc → Ending → Except Fault Unit
  | [], ending => check ending.whenRead?
  | item :: items, ending => do
    readWhole reading item
    readRest reading items ending

/-- Split a shape into its kind and the record of its other fields. -/
def splitKind : Decoder (Kind × Doc) := fun reading doc =>
  match doc with
  | .object members ending => do
    let inner ← reading.enter
    let (kind, others) ← takeKind inner members ending none
    pure (kind, .object others .closed)
  | .array [] ending => do
    check ending.whenRead?
    .error (.missingField "kind")
  | .array (first :: items) ending => do
    let inner ← reading.enter
    let kind ← decodeKind inner first
    readRest inner items ending
    pure (kind, .array items .closed)
  | doc => .error (.plain doc.whenUnsuited)

/-- Put the entries of a child map in order, each under the id of its shape. -/
def childrenOf : List (NodeId × Shape) → List Shape → Except Fault (List Shape)
  | [], children => .ok children
  | (key, shape) :: entries, children =>
    if key ≠ shape.id then .error (.wrongKey key.text shape.id.text)
    else if Shape.hasChild key children then .error (.duplicateChild key.text)
    else childrenOf entries (children ++ [shape])

/-- An id or a shape. -/
inductive EntryPart where
  | key (id : NodeId)
  | shape (shape : Shape)

/-- The two places of an entry of a child map. -/
def entryFields (decodeShape : Decoder Shape) : List (RecordField EntryPart) :=
  [.required "id" fun reading doc => (decodeId reading doc).map .key,
    .required "shape" fun reading doc => (decodeShape reading doc).map .shape]

/-- Decode an entry of a child map: an array of id and shape. -/
def decodeEntry (decodeShape : Decoder Shape) : Decoder (NodeId × Shape) :=
  fun reading doc =>
    match doc with
    | .array items ending => do
      match ← decodeItems reading reading (entryFields decodeShape) items ending with
      | [.key key, .shape shape] => .ok (key, shape)
      | _ => .error (.plain .unsuitable)
    | doc => .error (.plain doc.whenUnsuited)

/-- Decode the items of an array one after the other. -/
def decodeEach {α : Type} (decode : Decoder α) : Decoder (List α) := fun reading doc =>
  match doc with
  | .array items _ => items.mapM (decode reading)
  | doc => .error (.plain doc.whenUnsuited)

/-- Decode the children of a combinator, which were read whole. -/
def decodeChildren (decodeShape : Decoder Shape) : Decoder (List Shape) :=
  fun reading doc => do
    let entries ← decodeEnvelope .map (decodeEach (decodeEntry decodeShape)) reading doc
    childrenOf entries []

/-- Decode a shape nested at most `bound` deep. -/
def decodeShapeAt : Nat → Decoder Shape
  | 0, _, _ => .error (.plain .malformed)
  | bound + 1, reading, doc => do
    let (kind, fields) ← splitKind reading doc
    let children := decodeChildren (decodeShapeAt bound)
    let values ← decodeRecord (fieldsOf children kind) .whole fields
    match shapeOf? kind values with
    | some shape => .ok shape
    | none => .error (.plain .unsuitable)

/-- Decode a shape. Nested shapes nest documents, so the depth limit of documents
bounds them. -/
def decodeShape : Decoder Shape := decodeShapeAt depthLimit

/-- The members that every shape ends with, its colour apart. -/
def shapeMembers (kind : Kind) (own : List (String × Doc)) (transform : Transform)
    (color : List (String × Doc)) (id : NodeId) : Doc :=
  .ofMembers ([("kind", .ofString kind.name)] ++ own ++
    [("transform", transformDoc transform)] ++ color ++ [("id", .ofString id.text)])

mutual

/-- The document of a shape. -/
def shapeDoc : Shape → Doc
  | .primitive body transform color id =>
    shapeMembers (.primitive body.kind)
      (body.persisted.map fun (name, value) => (name, paramDoc value)) transform
      [("color", vectorDoc .shapeVector color)] id
  | .combinator kind children smoothness transform id =>
    shapeMembers (.combinator kind)
      [("shapes", wrap .map (.ofItems (entryDocs children))),
        ("smoothness", scalarDoc smoothness)] transform [] id
  | .custom content transform id =>
    shapeMembers .custom [("content", .ofString content)] transform [] id

/-- The documents of the entries of a child map. -/
def entryDocs : List Shape → List Doc
  | [] => []
  | shape :: shapes =>
    .ofItems [.ofString shape.id.text, shapeDoc shape] :: entryDocs shapes

end

end SdfScene.Codec

namespace SdfScene

open Json Codec

/-- The document text of a shape. -/
def Shape.encoded (shape : Shape) : String := (shapeDoc shape).encoded

/-- The shape that a text is the document of; ids are taken as they are. -/
def Shape.ofDocument (text : String) : Except Fault Shape := decodeAll decodeShape text

/-- The first id that occurs a second time. -/
def NodeId.firstRepeated? : List NodeId → List NodeId → Option NodeId
  | _, [] => none
  | seen, id :: ids => if id ∈ seen then some id else firstRepeated? (id :: seen) ids

/-- Observe ids one after the other; all or none of them count. -/
def Allocator.observeAll (ids : Allocator) : List NodeId → Except SceneError Allocator
  | [] => .ok ids
  | id :: rest =>
    match ids.past? id with
    | none => .error (.idOutOfRange id)
    | some ids => ids.observeAll rest

/-- Restore a shape from its document and raise the allocator past every id in it. -/
def Shape.restore (text : String) (ids : Allocator) :
    Except SceneError (Shape × Allocator) :=
  match Shape.ofDocument text with
  | .error fault => .error (.document fault)
  | .ok shape =>
    match NodeId.firstRepeated? [] shape.ids with
    | some id => .error (.duplicateId id)
    | none =>
      match ids.observeAll shape.ids with
      | .error e => .error e
      | .ok ids => .ok (shape, ids)

end SdfScene
