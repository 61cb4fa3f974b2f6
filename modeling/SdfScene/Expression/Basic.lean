import SdfScene.Shape.Basic

/-!
# Distance expressions

An expression computes the distance and the colour that a scene has at a point `p`. It
is a tree of pairwise combinations over leaves, and its text is the code of a shader.
-/

namespace SdfScene

/-- A distance expression. -/
inductive Expression where
  /-- A solid body in its own frame, which lies in the frame of its parent. -/
  | leaf (body : Primitive) (own parent : Transform) (color : Vec3)
  /-- Code that is emitted as it is. -/
  | verbatim (code : String)
  /-- Two expressions combined over a radius of `smoothness`. -/
  | join (kind : CombinatorKind) (left right : Expression) (smoothness : Single)

/-- The code of a point in the frame of a transform. -/
def Transform.inverseText (t : Transform) (point : String) : String :=
  "vec3(inverse(MatrRotateTranslate(D2R(" ++ t.rotation.x.text ++ "),D2R(" ++
    t.rotation.y.text ++ "),D2R(" ++ t.rotation.z.text ++ ")," ++ t.position.x.text ++ "," ++
    t.position.y.text ++ "," ++ t.position.z.text ++ "))*vec4(" ++ point ++ ",1.0))/" ++
    t.scale.text

namespace Expression

/-- What a scene without anything to draw compiles to. -/
def neutralText : String := "Col(0.0, vec3(0.0))"

/-- The code of the sample point in the frame of a transform below another one: the
outer transform is undone first. -/
def pointText (own parent : Transform) : String :=
  own.inverseText (if parent.isIdentity then "p" else parent.inverseText "p")

/-- The code of a solid body, its distance scaled back by what the point was divided
by. -/
def leafText (body : Primitive) (own parent : Transform) (color : Vec3) : String :=
  "Col(" ++ body.kind.name ++ "(" ++ pointText own parent ++
    String.join (body.params.map fun param => "," ++ param.text) ++ ")*" ++ own.scale.text ++
    (if parent.isIdentity then "" else "*" ++ parent.scale.text) ++ "," ++ color.text ++ ")"

/-- The code of an expression. -/
def text : Expression → String
  | leaf body own parent color => leafText body own parent color
  | verbatim code => code
  | join kind left right smoothness =>
    kind.name ++ "(" ++ left.text ++ "," ++ right.text ++ "," ++ smoothness.text ++ ")"

/-- The combination of two expressions of which either may be absent. -/
def join? (kind : CombinatorKind) (smoothness : Single) :
    Option Expression → Option Expression → Option Expression
  | none, right => right
  | left, none => left
  | some left, some right => some (join kind left right smoothness)

end Expression

end SdfScene
