import SdfScene.Shape.Basic

/-!
# Fields of a node

An editor names a field by its persisted name, or by `transform.` and the name of a
part of the transform, and gives its value as text. A text that does not fit changes
nothing. What a name stands for is said here once more, kind by kind.
-/

namespace SdfScene

/-- A part of a transform. -/
inductive TransformPart where
  | position
  | rotation
  | scale
  deriving DecidableEq

namespace TransformPart

/-- The name of a part. -/
def name : TransformPart → String
  | position => "position"
  | rotation => "rotation"
  | scale => "scale"

/-- The part with a name. -/
def ofName? (text : String) : Option TransformPart :=
  [position, rotation, scale].find? fun part => part.name = text

end TransformPart

/-- Set a part of a transform from text. -/
def Transform.setPart (t : Transform) (part : TransformPart) (text : List Char) :
    Except InvalidValue Transform :=
  match part with
  | .position => (Vec3.ofEditorText text).map fun v => { t with position := v }
  | .rotation => (Vec3.ofEditorText text).map fun v => { t with rotation := v }
  | .scale => (Single.ofEditorText text).map fun x => { t with scale := x }

/-- Set a number from text. -/
def setScalar {α : Type} (text : String) (put : Single → α) : Except InvalidValue α :=
  (Single.ofEditorText text.toList).map put

/-- Set a vector from text. -/
def setVector {α : Type} (text : String) (put : Vec3 → α) : Except InvalidValue α :=
  (Vec3.ofEditorText text.toList).map put

/-- Set a parameter or the colour of a body from text. -/
def Primitive.setField (field : String) (text : String) (body : Primitive) (color : Vec3) :
    Except InvalidValue (Primitive × Vec3) :=
  match body, field with
  | sphere s, "position" => setVector text fun v => (sphere { s with position := v }, color)
  | sphere s, "radius" => setScalar text fun x => (sphere { s with radius := x }, color)
  | sphere s, "color" => setVector text fun v => (sphere s, v)
  | box b, "radius" => setScalar text fun x => (box { b with radius := x }, color)
  | box b, "sideLengths" => setVector text fun v => (box { b with sideLengths := v }, color)
  | box b, "color" => setVector text fun v => (box b, v)
  | torus t, "radius1" => setScalar text fun x => (torus { t with radius1 := x }, color)
  | torus t, "radius2" => setScalar text fun x => (torus { t with radius2 := x }, color)
  | torus t, "color" => setVector text fun v => (torus t, v)
  | infCylinder c, "point" => setVector text fun v => (infCylinder { c with point := v }, color)
  | infCylinder c, "color" => setVector text fun v => (infCylinder c, v)
  | cone c, "point1" => setVector text fun v => (cone { c with point1 := v }, color)
  | cone c, "point2" => setVector text fun v => (cone { c with point2 := v }, color)
  | cone c, "radius1" => setScalar text fun x => (cone { c with radius1 := x }, color)
  | cone c, "radius2" => setScalar text fun x => (cone { c with radius2 := x }, color)
  | cone c, "color" => setVector text fun v => (cone c, v)
  | plane p, "normal" => setVector text fun v => (plane { p with normal := v }, color)
  | plane p, "height" => setScalar text fun x => (plane { p with height := x }, color)
  | plane p, "color" => setVector text fun v => (plane p, v)
  | triangle t, "point1" => setVector text fun v => (triangle { t with point1 := v }, color)
  | triangle t, "point2" => setVector text fun v => (triangle { t with point2 := v }, color)
  | triangle t, "point3" => setVector text fun v => (triangle { t with point3 := v }, color)
  | triangle t, "color" => setVector text fun v => (triangle t, v)
  | _, _ => .error (.unknownField field)

namespace Shape

/-- The node with another transform. -/
def withTransform (transform : Transform) : Shape → Shape
  | primitive body _ color id => primitive body transform color id
  | combinator kind children smoothness _ id =>
    combinator kind children smoothness transform id
  | custom content _ id => custom content transform id

/-- The name of a transform's part in a field name. -/
def transformField? (field : String) : Option String :=
  let start := "transform.".toList
  if start.isPrefixOf field.toList then
    some (String.ofList (field.toList.drop start.length))
  else none

/-- Set a field that is not part of the transform from text. -/
def setOwnField (field : String) (text : String) : Shape → Except InvalidValue Shape
  | primitive body transform color id =>
    (body.setField field text color).map fun (body, color) => primitive body transform color id
  | combinator kind children _ transform id =>
    if field = "smoothness" then
      setScalar text fun smoothness => combinator kind children smoothness transform id
    else .error (.unknownField field)
  | custom _ transform id =>
    if field = "content" then .ok (custom text transform id)
    else .error (.unknownField field)

/-- Set a field of a node from text. -/
def setField (field : String) (text : String) (shape : Shape) :
    Except InvalidValue Shape :=
  match transformField? field with
  | some name =>
    match TransformPart.ofName? name with
    | some part =>
      (shape.transform.setPart part text.toList).map fun t => shape.withTransform t
    | none => .error (.unknownField field)
  | none => shape.setOwnField field text

end Shape

end SdfScene
