import SdfScene.Shape.Basic
import SdfScene.Text.Quoted

/-!
# Outlines

An outline shows a tree with one node to a line, children indented below their parent.
A line holds the id, the kind and the fields that the node has of its own; the transform
is shown only where it moves something.
-/

namespace SdfScene

namespace Shape

/-- The own fields of a node. -/
def ownFieldsText : Shape → String
  | primitive body _ color _ =>
    String.join (body.named.map fun (name, value) => " " ++ name ++ "=" ++ value.text) ++
      " color=" ++ color.text
  | combinator _ _ smoothness _ _ => " smoothness=" ++ smoothness.text
  | custom content _ _ => " content=" ++ Text.quoted content

/-- The transform of a node, if it is not the identity. -/
def transformText (t : Transform) : String :=
  if t.isIdentity then ""
  else " position=" ++ t.position.text ++ " rotation=" ++ t.rotation.text ++ " scale=" ++
    t.scale.text

/-- The line of a node. -/
def outlineLine (depth : Nat) (shape : Shape) : String :=
  String.ofList (List.replicate (2 * depth) ' ') ++ shape.id.text ++ " " ++
    shape.kind.name ++ shape.ownFieldsText ++ transformText shape.transform ++ "\n"

mutual

/-- The outline of a tree. -/
def outline (depth : Nat) : Shape → String
  | combinator kind children smoothness transform id =>
    outlineLine depth (combinator kind children smoothness transform id) ++
      outlineIn (depth + 1) children
  | shape => outlineLine depth shape

/-- The outlines of trees, one after the other. -/
def outlineIn (depth : Nat) : List Shape → String
  | [] => ""
  | shape :: shapes => outline depth shape ++ outlineIn depth shapes

end

end Shape

end SdfScene
