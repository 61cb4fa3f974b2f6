import SdfScene.Error
import SdfScene.Scene.Event
import SdfScene.Shape.Query

/-!
# Edits of one combinator

A group is what a combinator looks like to its parent's editor: an id and the children
in their order. An edit of a group takes out or appends a child and tells which events
happened; an edit that fails has no events and no new group.
-/

namespace SdfScene

/-- The children of a combinator under its id. -/
structure Group where
  id : NodeId
  children : List Shape

/-- A successful edit: its result, the group after it and the events in their order. -/
structure GroupEdit (α : Type) where
  result : α
  group : Group
  events : List Event

namespace Group

/-- Append a node that has a fresh id. -/
def add (group : Group) (shape : Shape) : GroupEdit NodeId :=
  ⟨shape.id, { group with children := Shape.putChild shape group.children },
    [⟨.added, group.id, shape⟩]⟩

/-- Append a subtree, unless its id is taken by a child or by the group. -/
def insert (group : Group) (shape : Shape) : Except SceneError (GroupEdit NodeId) :=
  if Shape.hasChild shape.id group.children ∨ group.id = shape.id then
    .error (.duplicateId shape.id)
  else .ok (group.add shape)

/-- The child with an id. -/
def child? (group : Group) (id : NodeId) : Option Shape :=
  group.children.find? fun child => child.id = id

/-- Take out a child with everything below it. -/
def delete (group : Group) (id : NodeId) : Except SceneError (GroupEdit Shape) :=
  match group.child? id with
  | none => .error (.childNotFound group.id id)
  | some child =>
    .ok ⟨child, { group with children := Shape.eraseChild id group.children },
      [⟨.deleted, group.id, child⟩]⟩

/-- Take out a child and append another subtree, as one edit. -/
def replace (group : Group) (old : NodeId) (new : Shape) :
    Except SceneError (GroupEdit Shape) :=
  if !Shape.hasChild old group.children then .error (.childNotFound group.id old)
  else if new.id = group.id ∨ (new.id ≠ old ∧ Shape.hasChild new.id group.children) then
    .error (.duplicateId new.id)
  else do
    let removal ← group.delete old
    let insertion ← removal.group.insert new
    pure ⟨removal.result, insertion.group, removal.events ++ insertion.events⟩

end Group

end SdfScene
