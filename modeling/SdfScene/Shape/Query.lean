import SdfScene.Shape.Basic

/-!
# Queries and updates on the shape tree

A tree is searched parents first and children in order. The list of all nodes in that
order is the view that the other queries are described by.
-/

namespace SdfScene.Shape

mutual

/-- Every node of a tree, parents first and children in order. -/
def nodes : Shape → List Shape
  | .combinator kind children smoothness transform id =>
    .combinator kind children smoothness transform id :: nodesIn children
  | shape => [shape]

/-- Every node of a list of trees. -/
def nodesIn : List Shape → List Shape
  | [] => []
  | shape :: shapes => nodes shape ++ nodesIn shapes

end

/-- The ids of all nodes, parents first. -/
def ids (shape : Shape) : List NodeId := shape.nodes.map Shape.id

mutual

/-- The first node with an id, the root of the tree included. -/
def find? (wanted : NodeId) : Shape → Option Shape
  | .combinator kind children smoothness transform id =>
    if id = wanted then some (.combinator kind children smoothness transform id)
    else findIn? wanted children
  | shape => if shape.id = wanted then some shape else none

/-- The first node with an id in a list of trees. -/
def findIn? (wanted : NodeId) : List Shape → Option Shape
  | [] => none
  | shape :: shapes => (find? wanted shape).or (findIn? wanted shapes)

end

/-- Whether a node of the tree has an id. -/
def contains (shape : Shape) (id : NodeId) : Bool := (shape.find? id).isSome

/-- Whether one of the children has an id. -/
def hasChild (id : NodeId) (children : List Shape) : Bool :=
  children.any fun child => child.id = id

mutual

/-- The id of the combinator that holds a node directly: the children of a node are
looked at before those of its children. -/
def parent? (wanted : NodeId) : Shape → Option NodeId
  | .combinator _ children _ _ id =>
    if hasChild wanted children then some id else parentIn? wanted children
  | _ => none

/-- The id of the combinator in a list of trees that holds a node directly. -/
def parentIn? (wanted : NodeId) : List Shape → Option NodeId
  | [] => none
  | shape :: shapes => (parent? wanted shape).or (parentIn? wanted shapes)

end

mutual

/-- Change the first node with an id; `none` if there is no such node. -/
def update? (wanted : NodeId) (change : Shape → Shape) : Shape → Option Shape
  | .combinator kind children smoothness transform id =>
    if id = wanted then some (change (.combinator kind children smoothness transform id))
    else (updateIn? wanted change children).map fun children =>
      .combinator kind children smoothness transform id
  | shape => if shape.id = wanted then some (change shape) else none

/-- Change the first node with an id in a list of trees. -/
def updateIn? (wanted : NodeId) (change : Shape → Shape) :
    List Shape → Option (List Shape)
  | [] => none
  | shape :: shapes =>
    match update? wanted change shape with
    | some shape => some (shape :: shapes)
    | none => (updateIn? wanted change shapes).map (shape :: ·)

end

/-- Put a child under its id: in the place of the child that has it, or at the end. -/
def putChild (child : Shape) : List Shape → List Shape
  | [] => [child]
  | other :: others =>
    if other.id = child.id then child :: others else other :: putChild child others

/-- The children without the one that has an id, in their order. -/
def eraseChild (id : NodeId) (children : List Shape) : List Shape :=
  children.eraseP fun child => child.id = id

end SdfScene.Shape
