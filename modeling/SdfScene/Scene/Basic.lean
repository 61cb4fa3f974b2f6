import SdfScene.Scene.Group

/-!
# Scenes

A scene is an ordered list of shapes below a root that is itself never shown or saved.
The first of them is the displayed shape. The root has an id of its own, by which it is
addressed like any other combinator.
-/

namespace SdfScene

/-- The shapes below the root. -/
structure Scene where
  shapes : List Shape

namespace Scene

/-- The id of the root. -/
def rootId : NodeId := ⟨"shapes"⟩

/-- A scene without shapes. -/
def empty : Scene := ⟨[]⟩

/-- The scene that displays a shape. -/
def ofContent (content : Shape) : Scene := ⟨[content]⟩

/-- The displayed shape. -/
def content? (scene : Scene) : Option Shape := scene.shapes.head?

/-- The first node with an id. -/
def find? (scene : Scene) (id : NodeId) : Option Shape := Shape.findIn? id scene.shapes

/-- Whether an id is the root's or that of a node. -/
def contains (scene : Scene) (id : NodeId) : Bool := id = rootId || (scene.find? id).isSome

/-- The id of the root or combinator that holds a node directly. -/
def parent? (scene : Scene) (id : NodeId) : Option NodeId :=
  if Shape.hasChild id scene.shapes then some rootId else Shape.parentIn? id scene.shapes

/-- Change the first node with an id, if there is one. -/
def update (scene : Scene) (id : NodeId) (change : Shape → Shape) : Scene :=
  ⟨(Shape.updateIn? id change scene.shapes).getD scene.shapes⟩

/-- Put another shape in the place of the displayed one. -/
def withContent (scene : Scene) (content : Shape) : Scene := ⟨content :: scene.shapes.tail⟩

/-- The group that an id addresses. -/
def group (scene : Scene) (id : NodeId) : Except SceneError Group :=
  if id = rootId then .ok ⟨id, scene.shapes⟩
  else match scene.find? id with
    | none => .error (.parentNotFound id)
    | some shape =>
      match shape.children? with
      | none => .error (.notACombinator id)
      | some children => .ok ⟨id, children⟩

/-- Put a group back in the place that its id addresses. -/
def withGroup (scene : Scene) (group : Group) : Scene :=
  if group.id = rootId then ⟨group.children⟩
  else scene.update group.id (Shape.withChildren group.children)

/-- The first id of a subtree that the scene already has, the nodes of the subtree that
is to be replaced not counted. -/
def clash? (scene : Scene) (shape : Shape) (replacing : Option NodeId) : Option NodeId :=
  let replaced := replacing.bind scene.find?
  shape.ids.find? fun id =>
    scene.contains id && !replaced.any fun old => old.contains id

end Scene

end SdfScene
