import SdfScene.Vector

/-!
# Kinds of nodes

A node is a primitive, a combinator of other nodes or a piece of custom code. A parameter
of a primitive is a number or a vector.
-/

namespace SdfScene

/-- The kinds of solid bodies. -/
inductive PrimitiveKind where
  | sphere
  | box
  | torus
  | infCylinder
  | cone
  | plane
  | triangle
  deriving DecidableEq

/-- The kinds of boolean combination. -/
inductive CombinatorKind where
  | union
  | subtraction
  | xor
  | intersection
  deriving DecidableEq

/-- Every kind a node can have. -/
inductive Kind where
  | primitive (kind : PrimitiveKind)
  | combinator (kind : CombinatorKind)
  | custom
  deriving DecidableEq

/-- The type of a parameter. -/
inductive ParamType where
  | scalar
  | vector
  deriving DecidableEq

/-- The value of a parameter. -/
inductive Param where
  | scalar (x : Single)
  | vector (v : Vec3)
  deriving DecidableEq

namespace Param

/-- The type of a value. -/
def type : Param → ParamType
  | scalar _ => .scalar
  | vector _ => .vector

/-- The editor text of a value. -/
def text : Param → String
  | scalar x => x.text
  | vector v => v.text

end Param

namespace PrimitiveKind

/-- The name of a kind. -/
def name : PrimitiveKind → String
  | sphere => "Sphere"
  | box => "Box"
  | torus => "Torus"
  | infCylinder => "InfCylinder"
  | cone => "Cone"
  | plane => "Plane"
  | triangle => "Triangle"

/-- The colour of a new node: red for a box and light grey for all others. -/
def defaultColor : PrimitiveKind → Vec3
  | box => ⟨.one, .zero, .zero⟩
  | _ => .splat (.ofRatio false 8 10)

end PrimitiveKind

/-- The name of a kind, which is also the function that combines two distances. -/
def CombinatorKind.name : CombinatorKind → String
  | union => "Union"
  | subtraction => "Subtraction"
  | xor => "Xor"
  | intersection => "Intersection"

namespace Kind

/-- The name of a kind. -/
def name : Kind → String
  | primitive kind => kind.name
  | combinator kind => kind.name
  | custom => "Custom"

/-- Every kind, in declared order. -/
def all : List Kind :=
  [primitive .sphere, primitive .box, primitive .torus, primitive .infCylinder,
    primitive .cone, primitive .plane, primitive .triangle, combinator .union,
    combinator .subtraction, combinator .xor, combinator .intersection, custom]

/-- The kind with exactly this name. -/
def ofName? (text : String) : Option Kind := all.find? fun kind => kind.name = text

/-- The kind with this name, in any case. -/
def ofText (text : String) : Except InvalidValue Kind :=
  let lower (s : String) := s.toList.map Char.toLower
  match all.find? fun kind => lower kind.name = lower text with
  | some kind => .ok kind
  | none => .error (.unknownKind text)

/-- The combination a kind stands for, if it is a combinator. -/
def combinator? : Kind → Option CombinatorKind
  | combinator kind => some kind
  | _ => none

end Kind

end SdfScene
