import SdfScene.Shape.Kind

/-!
# The shape tree

A shape is a node with everything below it. The children of a combinator are an ordered
map in which every child stands under its own id. The keys are not kept beside the
children: a list of children stands for the map whose keys are the ids of its members.
-/

namespace SdfScene

/-- Where a node stands: a position, angles in degrees about the three axes and a uniform
scale. -/
structure Transform where
  position : Vec3
  rotation : Vec3
  scale : Single
  deriving DecidableEq

namespace Transform

/-- The transform that leaves everything in place. -/
def identity : Transform := ⟨.zero, .zero, .one⟩

/-- Whether a transform has the values of the identity. -/
def isIdentity (t : Transform) : Bool :=
  t.position.equal identity.position && t.rotation.equal identity.rotation &&
    t.scale.equal identity.scale

end Transform

/-! Solid bodies. -/

/-- A sphere around `position`. -/
structure Sphere where
  position : Vec3
  radius : Single
  deriving DecidableEq

/-- A box with edges of the lengths `sideLengths`, rounded by `radius`. -/
structure BoxShape where
  radius : Single
  sideLengths : Vec3
  deriving DecidableEq

/-- A torus around the origin: `radius1` is that of the middle of the tube, `radius2` that
of the tube. -/
structure Torus where
  radius1 : Single
  radius2 : Single
  deriving DecidableEq

/-- An infinite cylinder, whose parameters are passed on as one vector. -/
structure InfCylinder where
  point : Vec3
  deriving DecidableEq

/-- A capped cone from `point1`, where its radius is `radius1`, to `point2`, where it is
`radius2`. -/
structure Cone where
  point1 : Vec3
  point2 : Vec3
  radius1 : Single
  radius2 : Single
  deriving DecidableEq

/-- An infinite plane, `height` along its normal. -/
structure Plane where
  normal : Vec3
  height : Single
  deriving DecidableEq

/-- A flat triangle through three corners. -/
structure Triangle where
  point1 : Vec3
  point2 : Vec3
  point3 : Vec3
  deriving DecidableEq

/-- A solid body with its parameters. -/
inductive Primitive where
  | sphere (s : Sphere)
  | box (b : BoxShape)
  | torus (t : Torus)
  | infCylinder (c : InfCylinder)
  | cone (c : Cone)
  | plane (p : Plane)
  | triangle (t : Triangle)
  deriving DecidableEq

namespace Primitive

/-- The kind of a body. -/
def kind : Primitive → PrimitiveKind
  | sphere _ => .sphere
  | box _ => .box
  | torus _ => .torus
  | infCylinder _ => .infCylinder
  | cone _ => .cone
  | plane _ => .plane
  | triangle _ => .triangle

/-- The body of a new node. -/
def ofKind : PrimitiveKind → Primitive
  | .sphere => sphere { position := .zero, radius := .one }
  | .box => box { radius := .zero, sideLengths := .splat .one }
  | .torus => torus { radius1 := .one, radius2 := .ofRatio false 3 10 }
  | .infCylinder => infCylinder { point := .splat .one }
  | .cone => cone { point1 := .zero, point2 := .zero, radius1 := .one, radius2 := .one }
  | .plane => plane { normal := ⟨.zero, .one, .zero⟩, height := .zero }
  | .triangle =>
    triangle
      { point1 := ⟨.one, .zero, .zero⟩
        point2 := ⟨.one, .zero, .zero⟩
        point3 := ⟨.one, .zero, .zero⟩ }

theorem kind_ofKind (kind : PrimitiveKind) : (ofKind kind).kind = kind := by
  cases kind <;> rfl

/-- The parameters with their names, in the order in which they are passed to the distance
function. -/
def named : Primitive → List (String × Param)
  | sphere s => [("position", .vector s.position), ("radius", .scalar s.radius)]
  | box b => [("radius", .scalar b.radius), ("sideLengths", .vector b.sideLengths)]
  | torus t => [("radius1", .scalar t.radius1), ("radius2", .scalar t.radius2)]
  | infCylinder c => [("point", .vector c.point)]
  | cone c =>
    [("point1", .vector c.point1), ("point2", .vector c.point2),
      ("radius1", .scalar c.radius1), ("radius2", .scalar c.radius2)]
  | plane p => [("normal", .vector p.normal), ("height", .scalar p.height)]
  | triangle t =>
    [("point1", .vector t.point1), ("point2", .vector t.point2), ("point3", .vector t.point3)]

/-- The parameters in that order. -/
def params (body : Primitive) : List Param := body.named.map Prod.snd

end Primitive

/-! Trees. -/

/-- A node of the shape tree with everything below it. The list of a combinator's children
stands for the map that has each of them under its own id, in the order of the list. -/
inductive Shape where
  /-- A solid body in one colour. -/
  | primitive (body : Primitive) (transform : Transform) (color : Vec3) (id : NodeId)
  /-- A combination of children, blended over a radius of `smoothness`. -/
  | combinator (kind : CombinatorKind) (children : List Shape) (smoothness : Single)
    (transform : Transform) (id : NodeId)
  /-- Code that is emitted as it is; empty code draws nothing. -/
  | custom (content : String) (transform : Transform) (id : NodeId)

namespace Shape

/-- The id of a node. -/
def id : Shape → NodeId
  | primitive _ _ _ id => id
  | combinator _ _ _ _ id => id
  | custom _ _ id => id

/-- The kind of a node. -/
def kind : Shape → Kind
  | primitive body _ _ _ => .primitive body.kind
  | combinator kind _ _ _ _ => .combinator kind
  | custom _ _ _ => .custom

/-- The transform of a node. -/
def transform : Shape → Transform
  | primitive _ transform _ _ => transform
  | combinator _ _ _ transform _ => transform
  | custom _ transform _ => transform

/-- Whether a node can hold children. -/
def isCombinator (shape : Shape) : Bool := shape.kind.combinator?.isSome

/-- The children of a combinator. -/
def children? : Shape → Option (List Shape)
  | combinator _ children _ _ _ => some children
  | _ => none

/-- The node with other children, if it can hold them. -/
def withChildren (children : List Shape) : Shape → Shape
  | combinator kind _ smoothness transform id =>
    combinator kind children smoothness transform id
  | shape => shape

/-- A node of a kind with that kind's defaults. -/
def ofKind (id : NodeId) : Kind → Shape
  | .primitive kind => primitive (.ofKind kind) .identity kind.defaultColor id
  | .combinator kind => combinator kind [] .zero .identity id
  | .custom => custom "" .identity id

/-- A new node of a kind under the next id. -/
def create (kind : Kind) (ids : Allocator) : Shape × Allocator :=
  let (id, ids) := ids.next
  (ofKind id kind, ids)

mutual

/-- Equality of shapes, node by node. -/
def decEq : (shape other : Shape) → Decidable (shape = other)
  | primitive body transform color id, primitive body' transform' color' id' =>
    decidable_of_iff (body = body' ∧ transform = transform' ∧ color = color' ∧ id = id')
      (by rw [primitive.injEq])
  | combinator kind children smoothness transform id,
      combinator kind' children' smoothness' transform' id' =>
    have := decEqList children children'
    decidable_of_iff (kind = kind' ∧ children = children' ∧ smoothness = smoothness' ∧
      transform = transform' ∧ id = id') (by rw [combinator.injEq])
  | custom content transform id, custom content' transform' id' =>
    decidable_of_iff (content = content' ∧ transform = transform' ∧ id = id')
      (by rw [custom.injEq])
  | primitive .., combinator .. => isFalse (by simp)
  | primitive .., custom .. => isFalse (by simp)
  | combinator .., primitive .. => isFalse (by simp)
  | combinator .., custom .. => isFalse (by simp)
  | custom .., primitive .. => isFalse (by simp)
  | custom .., combinator .. => isFalse (by simp)

/-- Equality of lists of shapes. -/
def decEqList : (shapes others : List Shape) → Decidable (shapes = others)
  | [], [] => isTrue rfl
  | shape :: shapes, other :: others =>
    have := decEq shape other
    have := decEqList shapes others
    decidable_of_iff (shape = other ∧ shapes = others) (by rw [List.cons.injEq])
  | [], _ :: _ => isFalse (by simp)
  | _ :: _, [] => isFalse (by simp)

end

instance : DecidableEq Shape := decEq

end Shape

end SdfScene
