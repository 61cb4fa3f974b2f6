import SdfScene.Scene.Basic
import SdfScene.Shape.Field

/-!
# Structural edits of a scene

A desk is a scene under edit, with the allocator of its ids and its history. An edit
that fails leaves the scene and the history alone; only an id that was already issued
stays issued.
-/

namespace SdfScene

/-- A scene under edit. -/
structure Desk where
  /-- The scene. -/
  scene : Scene
  /-- The allocator of its ids. -/
  ids : Allocator
  /-- What happened to it, oldest first. -/
  history : List Event

namespace Desk

/-- The desk after an edit of one of its groups. -/
def commit {α : Type} (desk : Desk) (edit : GroupEdit α) : α × Desk :=
  (edit.result,
    { desk with scene := desk.scene.withGroup edit.group,
                history := desk.history ++ edit.events })

/-- Edit the group that an id addresses. -/
def editGroup {α : Type} (desk : Desk) (parent : NodeId)
    (edit : Group → Except SceneError (GroupEdit α)) : Except SceneError (α × Desk) := do
  let group ← desk.scene.group parent
  let edit ← edit group
  pure (desk.commit edit)

/-- Append a new node of a kind. -/
def add (desk : Desk) (kind : Kind) (parent : NodeId) :
    Except SceneError (NodeId × Desk) := do
  let group ← desk.scene.group parent
  let (shape, ids) := Shape.create kind desk.ids
  pure ({ desk with ids }.commit (group.add shape))

/-- Fail if the scene already has an id of a subtree. -/
def checkFresh (desk : Desk) (shape : Shape) (replacing : Option NodeId) :
    Except SceneError Unit :=
  match desk.scene.clash? shape replacing with
  | some id => .error (.duplicateId id)
  | none => .ok ()

/-- Append a subtree none of whose ids is in the scene. -/
def insert (desk : Desk) (shape : Shape) (parent : NodeId) :
    Except SceneError (NodeId × Desk) := do
  desk.checkFresh shape none
  desk.editGroup parent fun group => group.insert shape

/-- Take out a child with everything below it. -/
def delete (desk : Desk) (child parent : NodeId) : Except SceneError (Shape × Desk) :=
  desk.editGroup parent fun group => group.delete child

/-- Take out a child and append another subtree in its stead. -/
def replace (desk : Desk) (old : NodeId) (new : Shape) (parent : NodeId) :
    Except SceneError (Shape × Desk) := do
  desk.checkFresh new (some old)
  desk.editGroup parent fun group => group.replace old new

/-- Take out a node wherever it is. -/
def remove (desk : Desk) (id : NodeId) : Except SceneError (Shape × Desk) :=
  match desk.scene.parent? id with
  | none => .error (.shapeNotFound id)
  | some parent => desk.delete id parent

/-- Put a new node of another kind in the stead of a child. The id of the new node stays
issued even if it turns out to be taken. -/
def changeKind (desk : Desk) (child : NodeId) (kind : Kind) (parent : NodeId) :
    Except SceneError NodeId × Desk :=
  match desk.scene.group parent with
  | .error e => (.error e, desk)
  | .ok group =>
    if !Shape.hasChild child group.children then (.error (.childNotFound parent child), desk)
    else
      let (shape, ids) := Shape.create kind desk.ids
      let raised := { desk with ids }
      match group.replace child shape with
      | .error e => (.error e, raised)
      | .ok edit => (.ok shape.id, (raised.commit edit).2)

/-- Set a field of a node from text. -/
def setField (desk : Desk) (id : NodeId) (field text : String) :
    Except SceneError (Shape × Desk) :=
  match desk.scene.find? id with
  | none => .error (.shapeNotFound id)
  | some shape =>
    match shape.setField field text with
    | .error e => .error (.invalidValue e)
    | .ok changed =>
      .ok (changed, { desk with scene := desk.scene.update id fun _ => changed })

end Desk

end SdfScene
