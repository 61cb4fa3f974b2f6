import Mathlib.Data.List.Basic
import SdfScene.Codec.Shape

/-!
# The members of a shape document

A shape is written as its kind followed by the fields of that kind in declared order. The
values of these fields determine the shape, so the document of a shape is decoded as the
shape exactly if each field is decoded as its value. What is read and written of a body agrees
with its parameters as they are passed to the distance function.
-/

namespace SdfScene

namespace Primitive

/-- The fields of a body are written under the names and types under which they are read. -/
theorem map_type_persisted (body : Primitive) :
    (body.persisted.map fun (name, value) => (name, value.type)) = body.kind.signature := by
  cases body <;> rfl

/-- Values make up a body exactly if they are the ones that are written for it. -/
theorem ofValues?_eq_some {kind : PrimitiveKind} {values : List Param} {body : Primitive} :
    ofValues? kind values = some body ↔
      kind = body.kind ∧ values = body.persisted.map Prod.snd := by
  constructor
  · intro h
    rw [ofValues?.eq_def] at h
    split at h <;> cases h <;> exact ⟨rfl, rfl⟩
  · rintro ⟨rfl, rfl⟩
    cases body <;> rfl

/-- The fields that are written of a body are its parameters, under the same names and in the same
order. -/
theorem persisted_eq_named (body : Primitive) : body.persisted = body.named := by
  cases body <;> rfl

end Primitive

namespace Codec

open Json

/-- The field of a parameter. -/
def paramField (name : String) (type : ParamType) : RecordField FieldValue :=
  .required name fun reading doc => (decodeParam type reading doc).map .param

/-- The field of a node's transform. -/
def transformField : RecordField FieldValue :=
  .required "transform" fun reading doc => (decodeTransform reading doc).map .transform

/-- The field of a body's colour. -/
def colorField : RecordField FieldValue :=
  .required "color" fun reading doc => (decodeVector .shapeVector reading doc).map .color

/-- The field of a node's id. -/
def idField : RecordField FieldValue :=
  .required "id" fun reading doc => (decodeId reading doc).map .id

/-- The field of custom code. -/
def contentField : RecordField FieldValue :=
  .required "content" fun reading doc => (decodeText reading doc).map .content

/-- The field of a combinator's children, given a decoder of them. -/
def childrenField (children : Decoder (List Shape)) : RecordField FieldValue :=
  .required "shapes" fun reading doc => (children reading doc).map .children

/-- The fields of a shape with their documents, its kind apart. -/
def rowsOf (children : Decoder (List Shape)) : Shape → List (RecordField FieldValue × Doc)
  | .primitive body transform color id =>
    (body.persisted.map fun (name, value) => (paramField name value.type, paramDoc value)) ++
      [(transformField, transformDoc transform), (colorField, vectorDoc .shapeVector color),
        (idField, .ofString id.text)]
  | .combinator _ shapes smoothness transform id =>
    [(childrenField children, wrap .map (.ofItems (entryDocs shapes))),
      (paramField "smoothness" .scalar, paramDoc (.scalar smoothness)),
      (transformField, transformDoc transform), (idField, .ofString id.text)]
  | .custom content transform id =>
    [(contentField, .ofString content), (transformField, transformDoc transform),
      (idField, .ofString id.text)]

/-- The values of a shape's fields. -/
def valuesOf : Shape → List FieldValue
  | .primitive body transform color id =>
    (body.persisted.map Prod.snd).map .param ++ [.transform transform, .color color, .id id]
  | .combinator _ shapes smoothness transform id =>
    [.children shapes, .param (.scalar smoothness), .transform transform, .id id]
  | .custom content transform id => [.content content, .transform transform, .id id]

theorem fields_rowsOf (children : Decoder (List Shape)) (shape : Shape) :
    (rowsOf children shape).map Prod.fst = fieldsOf children shape.kind := by
  cases shape with
  | primitive body transform color id =>
    have hfields := congrArg (List.map fun field => paramField field.1 field.2)
      (Primitive.map_type_persisted body)
    rw [List.map_map] at hfields
    rw [rowsOf, List.map_append, List.map_map]
    exact congrArg (· ++ [transformField, colorField, idField]) hfields
  | combinator => rfl
  | custom => rfl

/-- The document of a shape has its kind and the rows of its fields as members. -/
theorem shapeDoc_eq (children : Decoder (List Shape)) (shape : Shape) :
    shapeDoc shape = .ofMembers (("kind", .ofString shape.kind.name) ::
      (rowsOf children shape).map fun row => (row.1.name, row.2)) := by
  cases shape with
  | primitive body transform color id =>
    rw [shapeDoc, shapeMembers, rowsOf, List.map_append, List.map_map, List.append_assoc,
      List.append_assoc, List.append_assoc]
    rfl
  | combinator => rw [shapeDoc]; rfl
  | custom => rw [shapeDoc]; rfl

/-- The names of the members are distinct. -/
theorem nodup_names (children : Decoder (List Shape)) (kind : Kind) :
    ("kind" :: (fieldsOf children kind).map RecordField.name).Nodup := by
  cases kind with
  | primitive kind => cases kind <;> simp [fieldsOf, PrimitiveKind.signature, RecordField.required]
  | combinator => simp [fieldsOf, RecordField.required]
  | custom => simp [fieldsOf, RecordField.required]

private theorem takeParams_eq (values : List FieldValue) :
    values = (takeParams values).1.map .param ++ (takeParams values).2 := by
  induction values with
  | nil => rfl
  | cons value values ih =>
    cases value with
    | param value => rw [takeParams, List.map_cons, List.cons_append, ← ih]
    | _ => rfl

private theorem takeParams_map (params : List Param) (rest : List FieldValue)
    (hrest : takeParams rest = ([], rest)) :
    takeParams (params.map .param ++ rest) = (params, rest) := by
  induction params with
  | nil => exact hrest
  | cons value params ih => rw [List.map_cons, List.cons_append, takeParams, ih]

/-- Field values make up a shape exactly if they are that shape's values. -/
theorem shapeOf?_eq_some {kind : Kind} {values : List FieldValue} {shape : Shape} :
    shapeOf? kind values = some shape ↔ kind = shape.kind ∧ values = valuesOf shape := by
  constructor
  · intro h
    rw [shapeOf?.eq_def] at h
    split at h
    · split at h
      · next params transform color id htake =>
        obtain ⟨body, hbody, rfl⟩ := Option.map_eq_some_iff.mp h
        obtain ⟨rfl, rfl⟩ := Primitive.ofValues?_eq_some.mp hbody
        refine ⟨rfl, ?_⟩
        rw [takeParams_eq values, htake]
        rfl
      · cases h
    · cases h
      exact ⟨rfl, rfl⟩
    · cases h
      exact ⟨rfl, rfl⟩
    · cases h
  · rintro ⟨rfl, rfl⟩
    cases shape with
    | primitive body transform color id =>
      have htake := takeParams_map (body.persisted.map Prod.snd)
        [.transform transform, .color color, .id id] rfl
      have hbody := Primitive.ofValues?_eq_some.mpr ⟨rfl, Eq.refl (body.persisted.map Prod.snd)⟩
      simp only [shapeOf?, Shape.kind, valuesOf, htake, hbody, Option.map_some]
    | combinator => rfl
    | custom => rfl

end Codec

end SdfScene
