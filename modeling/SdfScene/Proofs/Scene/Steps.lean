import SdfScene.Proofs.Scene.Edits
import SdfScene.Proofs.Scene.Groups

/-!
# Edits step by step

An edit of a desk can be carried out in place, one step after the other: an event is recorded,
a group is put into the scene, an id is issued. No step is taken back if a later one fails.
Carried out like this, every edit does what it does as a whole, provided that the children of
each combinator have distinct ids: its checks come before its first step, and they leave
nothing for a later step to fail on.
-/

namespace SdfScene

open Shape

namespace Desk

/-- Steps that change a desk in place. What was changed before a failure stays changed. -/
abbrev Steps (α : Type) := ExceptT SceneError (StateM Desk) α

/-- The outcome of some steps, and the desk that they leave. -/
def carryOut {α : Type} (desk : Desk) (steps : Steps α) : Except SceneError α × Desk :=
  steps.run.run desk

/-- The outcome of an edit as a whole, and the desk that it leaves: the same one if it fails. -/
def settle {α : Type} (desk : Desk) : Except SceneError (α × Desk) → Except SceneError α × Desk
  | .error e => (.error e, desk)
  | .ok (result, after) => (.ok result, after)

namespace Steps

/-- Look up a group. -/
def group (parent : NodeId) : Steps Group := do
  match (← get).scene.group parent with
  | .error e => throw e
  | .ok group => pure group

/-- Put a group into its place. -/
def put (group : Group) : Steps Unit :=
  modify fun desk => { desk with scene := desk.scene.withGroup group }

/-- Record an event. -/
def record (event : Event) : Steps Unit :=
  modify fun desk => { desk with history := desk.history ++ [event] }

/-- Make a new node of a kind under the next id. -/
def create (kind : Kind) : Steps Shape := do
  let (shape, ids) := Shape.create kind (← get).ids
  modify fun desk => { desk with ids }
  pure shape

/-- Fail if the scene already has an id of a subtree. -/
def checkFresh (shape : Shape) (replacing : Option NodeId) : Steps Unit := do
  match (← get).scene.clash? shape replacing with
  | some taken => throw (.duplicateId taken)
  | none => pure ()

/-- Record a subtree and append it to a group. -/
def append (group : Group) (shape : Shape) : Steps NodeId := do
  record ⟨.added, group.id, shape⟩
  put { group with children := putChild shape group.children }
  pure shape.id

/-- Append a subtree to a group unless its id is taken there. -/
def attach (shape : Shape) (parent : NodeId) : Steps NodeId := do
  let group ← group parent
  if hasChild shape.id group.children ∨ group.id = shape.id then throw (.duplicateId shape.id)
  else append group shape

/-- Take out a child. -/
def takeOut (child parent : NodeId) : Steps Shape := do
  let group ← group parent
  match group.child? child with
  | none => throw (.childNotFound group.id child)
  | some shape =>
    put { group with children := eraseChild child group.children }
    pure shape

/-- Record a child as it is, and then take it out. -/
def delete (child parent : NodeId) : Steps Shape := do
  let group ← group parent
  match group.child? child with
  | none => throw (.childNotFound group.id child)
  | some shape =>
    record ⟨.deleted, group.id, shape⟩
    takeOut child parent

/-- Take out a child and append another subtree, after both were checked. -/
def exchange (old : NodeId) (new : Shape) (parent : NodeId) : Steps Shape := do
  let group ← group parent
  if !hasChild old group.children then throw (.childNotFound group.id old)
  else if new.id = group.id ∨ (new.id ≠ old ∧ hasChild new.id group.children) then
    throw (.duplicateId new.id)
  else
    let removed ← delete old parent
    let _ ← attach new parent
    pure removed

/-- Append a new node of a kind. -/
def add (kind : Kind) (parent : NodeId) : Steps NodeId := do
  let group ← group parent
  let shape ← create kind
  append group shape

/-- Append a subtree none of whose ids is in the scene. -/
def insert (shape : Shape) (parent : NodeId) : Steps NodeId := do
  checkFresh shape none
  attach shape parent

/-- Take out a child and append another subtree in its stead. -/
def replace (old : NodeId) (new : Shape) (parent : NodeId) : Steps Shape := do
  checkFresh new (some old)
  exchange old new parent

/-- Take out a node wherever it is. -/
def remove (id : NodeId) : Steps Shape := do
  match (← get).scene.parent? id with
  | none => throw (.shapeNotFound id)
  | some parent => delete id parent

/-- Put a new node of another kind in the stead of a child. -/
def changeKind (child : NodeId) (kind : Kind) (parent : NodeId) : Steps NodeId := do
  let group ← group parent
  if !hasChild child group.children then throw (.childNotFound parent child)
  else
    let shape ← create kind
    let _ ← exchange child shape parent
    pure shape.id

/-- Set a field of a node from text. -/
def setField (id : NodeId) (field text : String) : Steps Shape := do
  match (← get).scene.find? id with
  | none => throw (.shapeNotFound id)
  | some shape =>
    match shape.setField field text with
    | .error e => throw (.invalidValue e)
    | .ok changed =>
      modify fun desk => { desk with scene := desk.scene.update id fun _ => changed }
      pure changed

end Steps

/-! The outcome of each step. -/

section Outcomes

variable {α β : Type} (desk : Desk)

@[simp] theorem carryOut_pure (a : α) : desk.carryOut (pure a) = (.ok a, desk) := rfl

/-- A step is followed by the others on the desk that it leaves, unless it fails. -/
theorem carryOut_bind (step : Steps α) (next : α → Steps β) :
    desk.carryOut (step >>= next) =
      match desk.carryOut step with
      | (.ok a, later) => later.carryOut (next a)
      | (.error e, later) => (.error e, later) := by
  simp only [carryOut, bind, ExceptT.bind, ExceptT.run, ExceptT.mk, StateT.bind, StateT.run]
  rcases step desk with ⟨outcome, later⟩
  cases outcome <;> rfl

@[simp] theorem carryOut_get : desk.carryOut (get : Steps Desk) = (.ok desk, desk) := rfl

/-- A group is looked up without a change. -/
theorem carryOut_group (parent : NodeId) :
    desk.carryOut (Steps.group parent) = (desk.scene.group parent, desk) := by
  simp only [Steps.group, carryOut_bind, carryOut_get]
  cases desk.scene.group parent <;> rfl

theorem carryOut_record (event : Event) :
    desk.carryOut (Steps.record event) =
      (.ok (), { desk with history := desk.history ++ [event] }) := rfl

theorem carryOut_create (kind : Kind) :
    desk.carryOut (Steps.create kind) =
      (.ok (ofKind desk.ids.next.1 kind), { desk with ids := desk.ids.next.2 }) := rfl

theorem carryOut_checkFresh (shape : Shape) (replacing : Option NodeId) :
    desk.carryOut (Steps.checkFresh shape replacing) = (desk.checkFresh shape replacing, desk) := by
  simp only [Steps.checkFresh, carryOut_bind, carryOut_get, checkFresh]
  cases desk.scene.clash? shape replacing <;> rfl

end Outcomes

/-! Each edit in steps is the edit as a whole. -/

section Whole

variable (desk : Desk)

/-- In a group that is there, the edit of a desk is that of the group. -/
theorem editGroup_of_ok {α : Type} {desk : Desk} {parent : NodeId} {group : Group}
    (hgroup : desk.scene.group parent = .ok group)
    (edit : Group → Except SceneError (GroupEdit α)) :
    desk.editGroup parent edit = (edit group).map desk.commit := by
  simp only [editGroup, hgroup, bind, Except.bind]
  cases edit group <;> rfl

theorem carryOut_attach (shape : Shape) (parent : NodeId) :
    desk.carryOut (Steps.attach shape parent) =
      desk.settle (desk.editGroup parent fun group => group.insert shape) := by
  simp only [Steps.attach, carryOut_bind, carryOut_group, editGroup]
  cases desk.scene.group parent with
  | error e => rfl
  | ok group =>
    simp only [bind, Except.bind, Group.insert]
    split
    · rfl
    · rfl

theorem carryOut_insert (shape : Shape) (parent : NodeId) :
    desk.carryOut (Steps.insert shape parent) = desk.settle (desk.insert shape parent) := by
  simp only [Steps.insert, carryOut_bind, carryOut_checkFresh, insert]
  cases desk.checkFresh shape none with
  | error e => rfl
  | ok _ => exact desk.carryOut_attach shape parent

theorem carryOut_add (kind : Kind) (parent : NodeId) :
    desk.carryOut (Steps.add kind parent) = desk.settle (desk.add kind parent) := by
  simp only [Steps.add, carryOut_bind, carryOut_group, carryOut_create, add]
  cases desk.scene.group parent <;> rfl

/-- A child that was found to be recorded is found again to be taken out. -/
theorem carryOut_delete (child parent : NodeId) :
    desk.carryOut (Steps.delete child parent) = desk.settle (desk.delete child parent) := by
  simp only [Steps.delete, Steps.takeOut, carryOut_bind, carryOut_group]
  cases hgroup : desk.scene.group parent with
  | error e =>
    simp only [delete, editGroup, hgroup]
    rfl
  | ok group =>
    rw [delete, editGroup_of_ok hgroup, Group.delete]
    dsimp only
    cases hchild : group.child? child with
    | none => rfl
    | some shape =>
      simp only [carryOut_bind, carryOut_record, carryOut_group, hgroup, hchild]
      rfl

theorem carryOut_remove (node : NodeId) :
    desk.carryOut (Steps.remove node) = desk.settle (desk.remove node) := by
  simp only [Steps.remove, carryOut_bind, carryOut_get, remove]
  cases desk.scene.parent? node with
  | none => rfl
  | some parent => exact desk.carryOut_delete node parent

theorem carryOut_setField (node : NodeId) (field text : String) :
    desk.carryOut (Steps.setField node field text) = desk.settle (desk.setField node field text) := by
  simp only [Steps.setField, carryOut_bind, carryOut_get, setField]
  cases desk.scene.find? node with
  | none => rfl
  | some shape =>
    dsimp only
    cases shape.setField field text <;> rfl

/-- Two edits of one group, one after the other, are one edit. -/
theorem commit_commit {α β : Type} {desk : Desk} {parent : NodeId} {group : Group}
    (hgroup : desk.scene.group parent = .ok group) {first : GroupEdit α} {second : GroupEdit β}
    (hfirst : first.group.id = parent) (hsecond : second.group.id = parent) :
    ((desk.commit first).2.commit second).2 =
      (desk.commit ⟨first.result, second.group, first.events ++ second.events⟩).2 := by
  rw [← hfirst] at hgroup
  simp only [commit, List.append_assoc]
  rw [Scene.withGroup_withGroup hgroup (hsecond.trans hfirst.symm)]

/-- After an edit, the id of its group stands for the group that it has left. -/
theorem group_commit {α : Type} {desk : Desk} {parent : NodeId} {group : Group}
    (hgroup : desk.scene.group parent = .ok group) {edit : GroupEdit α}
    (hedit : edit.group.id = parent) :
    (desk.commit edit).2.scene.group parent = .ok edit.group := by
  subst hedit
  exact Scene.group_withGroup hgroup

/-- An exchange in steps does not get stuck between its two changes. -/
theorem carryOut_exchange (old : NodeId) (new : Shape) (parent : NodeId)
    (hkeyed : desk.scene.Keyed) :
    desk.carryOut (Steps.exchange old new parent) =
      desk.settle (desk.editGroup parent fun group => group.replace old new) := by
  simp only [Steps.exchange, carryOut_bind, carryOut_group]
  cases hgroup : desk.scene.group parent with
  | error e =>
    simp only [editGroup, hgroup]
    rfl
  | ok group =>
    rw [editGroup_of_ok hgroup]
    dsimp only
    split
    · next hold =>
      simp only [Group.replace, hold, ite_true]
      rfl
    split
    · next hold hfree =>
      simp only [Group.replace, hold, hfree, ite_true]
      rfl
    next hold hfree =>
      rw [Bool.not_eq_true', Bool.not_eq_false] at hold
      obtain ⟨hid, -⟩ := Scene.exists_combinator_of_group hgroup
      obtain ⟨removal, insertion, hdelete, hremoval, hinsert, hinsertion, hreplace⟩ :=
        Group.exists_replaced (hkeyed parent group hgroup) hold hfree
      rw [hid] at hremoval hinsertion
      have hthere := group_commit hgroup hremoval
      have htake : desk.carryOut (Steps.delete old parent) =
          (.ok removal.result, (desk.commit removal).2) := by
        rw [carryOut_delete, delete, editGroup_of_ok hgroup, hdelete]
        rfl
      have hattach : (desk.commit removal).2.carryOut (Steps.attach new parent) =
          (.ok insertion.result, ((desk.commit removal).2.commit insertion).2) := by
        rw [carryOut_attach, editGroup_of_ok hthere, hinsert]
        rfl
      simp only [carryOut_bind, htake, hattach, carryOut_pure,
        commit_commit hgroup hremoval hinsertion, hreplace]
      rfl

theorem carryOut_replace (old : NodeId) (new : Shape) (parent : NodeId)
    (hkeyed : desk.scene.Keyed) :
    desk.carryOut (Steps.replace old new parent) = desk.settle (desk.replace old new parent) := by
  simp only [Steps.replace, carryOut_bind, carryOut_checkFresh, replace]
  cases desk.checkFresh new (some old) with
  | error e => rfl
  | ok _ => exact desk.carryOut_exchange old new parent hkeyed

/-- A change of kind in steps keeps the id that it issued if its exchange fails. -/
theorem carryOut_changeKind (child : NodeId) (kind : Kind) (parent : NodeId)
    (hkeyed : desk.scene.Keyed) :
    desk.carryOut (Steps.changeKind child kind parent) = desk.changeKind child kind parent := by
  simp only [Steps.changeKind, carryOut_bind, carryOut_group, changeKind]
  cases hgroup : desk.scene.group parent with
  | error e => rfl
  | ok group =>
    dsimp only
    split
    · rfl
    · have hexchange := carryOut_exchange { desk with ids := desk.ids.next.2 } child
        (ofKind desk.ids.next.1 kind) parent hkeyed
      have hthere : { desk with ids := desk.ids.next.2 }.scene.group parent = .ok group := hgroup
      rw [editGroup_of_ok hthere] at hexchange
      simp only [carryOut_bind, carryOut_create, hexchange, Shape.create]
      cases group.replace child (ofKind desk.ids.next.1 kind) <;> rfl

end Whole

end Desk

end SdfScene
