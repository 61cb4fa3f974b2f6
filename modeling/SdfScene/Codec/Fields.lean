import SdfScene.Shape.Basic

/-!
# Persisted fields of bodies

A body is persisted by the fields of its kind in declared order: their names and types for
reading a document, the body that read values make up, and the values that are written.
-/

namespace SdfScene

/-- The names and types of the fields of a kind, in declared order. -/
def PrimitiveKind.signature : PrimitiveKind → List (String × ParamType)
  | sphere => [("position", .vector), ("radius", .scalar)]
  | box => [("radius", .scalar), ("sideLengths", .vector)]
  | torus => [("radius1", .scalar), ("radius2", .scalar)]
  | infCylinder => [("point", .vector)]
  | cone =>
    [("point1", .vector), ("point2", .vector), ("radius1", .scalar), ("radius2", .scalar)]
  | plane => [("normal", .vector), ("height", .scalar)]
  | triangle => [("point1", .vector), ("point2", .vector), ("point3", .vector)]

namespace Primitive

/-- The body of a kind whose fields have these values, in declared order. -/
def ofValues? : PrimitiveKind → List Param → Option Primitive
  | .sphere, [.vector position, .scalar radius] => some (.sphere { position, radius })
  | .box, [.scalar radius, .vector sideLengths] => some (.box { radius, sideLengths })
  | .torus, [.scalar radius1, .scalar radius2] => some (.torus { radius1, radius2 })
  | .infCylinder, [.vector point] => some (.infCylinder { point })
  | .cone, [.vector point1, .vector point2, .scalar radius1, .scalar radius2] =>
    some (.cone { point1, point2, radius1, radius2 })
  | .plane, [.vector normal, .scalar height] => some (.plane { normal, height })
  | .triangle, [.vector point1, .vector point2, .vector point3] =>
    some (.triangle { point1, point2, point3 })
  | _, _ => none

/-- The fields of a body as they are written, in declared order. -/
def persisted : Primitive → List (String × Param)
  | sphere s => [("position", .vector s.position), ("radius", .scalar s.radius)]
  | box b => [("radius", .scalar b.radius), ("sideLengths", .vector b.sideLengths)]
  | torus t => [("radius1", .scalar t.radius1), ("radius2", .scalar t.radius2)]
  | infCylinder c => [("point", .vector c.point)]
  | cone c =>
    [("point1", .vector c.point1), ("point2", .vector c.point2),
      ("radius1", .scalar c.radius1), ("radius2", .scalar c.radius2)]
  | plane p => [("normal", .vector p.normal), ("height", .scalar p.height)]
  | triangle t =>
    [("point1", .vector t.point1), ("point2", .vector t.point2), ("point3", .vector t.point3)]

end Primitive

end SdfScene
