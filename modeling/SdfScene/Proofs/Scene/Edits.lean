import SdfScene.Proofs.Outcome
import SdfScene.Proofs.Scene.Tree
import SdfScene.Scene.Desk

/-!
# What an edit does

A successful edit exchanges some subtrees for others, and its events tell which: the
subtrees that were deleted for those that were added. The rest of the tree and the
history before it stay. For each edit the events are given, so that whatever holds of
exchanges holds of all edits.
-/

namespace SdfScene

open Shape

namespace Event

/-- The subtrees that left by some events. -/
def departed (events : List Event) : List Shape :=
  events.filterMap fun event => if event.change = .deleted then some event.child else none

/-- The subtrees that came by some events. -/
def arrived (events : List Event) : List Shape :=
  events.filterMap fun event => if event.change = .added then some event.child else none

@[simp] theorem departed_deleted (parent : NodeId) (child : Shape) (events : List Event) :
    departed (⟨.deleted, parent, child⟩ :: events) = child :: departed events := rfl

@[simp] theorem departed_added (parent : NodeId) (child : Shape) (events : List Event) :
    departed (⟨.added, parent, child⟩ :: events) = departed events := rfl

@[simp] theorem arrived_deleted (parent : NodeId) (child : Shape) (events : List Event) :
    arrived (⟨.deleted, parent, child⟩ :: events) = arrived events := rfl

@[simp] theorem arrived_added (parent : NodeId) (child : Shape) (events : List Event) :
    arrived (⟨.added, parent, child⟩ :: events) = child :: arrived events := rfl

@[simp] theorem departed_nil : departed [] = [] := rfl

@[simp] theorem arrived_nil : arrived [] = [] := rfl

@[simp] theorem departed_append (events others : List Event) :
    departed (events ++ others) = departed events ++ departed others :=
  List.filterMap_append

end Event

open Event

/-! Groups. -/

namespace Group

/-- An insertion that succeeds appends the subtree, whose id no child has. -/
theorem insert_ok {group : Group} {shape : Shape} {edit : GroupEdit NodeId}
    (h : group.insert shape = .ok edit) :
    hasChild shape.id group.children = false ∧ edit = group.add shape := by
  rw [insert] at h
  split at h
  · cases h
  · next hfree =>
    rw [not_or, Bool.not_eq_true] at hfree
    exact ⟨hfree.1, (Except.ok.inj h).symm⟩

/-- What is appended under an id that no child has comes to the others. -/
theorem add_eq {group : Group} {shape : Shape} (h : hasChild shape.id group.children = false) :
    group.add shape =
      ⟨shape.id, ⟨group.id, group.children ++ [shape]⟩, [⟨.added, group.id, shape⟩]⟩ := by
  rw [add, putChild_eq_append h]

/-- A deletion that succeeds takes out a child with the id. -/
theorem delete_ok {group : Group} {id : NodeId} {edit : GroupEdit Shape}
    (h : group.delete id = .ok edit) :
    ∃ front child back, group.children = front ++ child :: back ∧ child.id = id ∧
      edit = ⟨child, ⟨group.id, front ++ back⟩, [⟨.deleted, group.id, child⟩]⟩ := by
  rw [delete] at h
  split at h
  · cases h
  · next child hchild =>
    rw [child?, List.find?_eq_some_iff_append] at hchild
    obtain ⟨hid, front, back, hchildren, hfront⟩ := hchild
    refine ⟨front, child, back, hchildren, of_decide_eq_true hid, ?_⟩
    have herase : eraseChild id group.children = front ++ back := by
      rw [eraseChild, hchildren, List.eraseP_append_right _ (by simpa using hfront),
        List.eraseP_cons, hid, cond_true]
    rw [← Except.ok.inj h, herase]

/-- A replacement that succeeds takes out a child with the id and appends the subtree. -/
theorem replace_ok {group : Group} {old : NodeId} {new : Shape} {edit : GroupEdit Shape}
    (h : group.replace old new = .ok edit) :
    ∃ front child back, group.children = front ++ child :: back ∧ child.id = old ∧
      edit = ⟨child, ⟨group.id, front ++ back ++ [new]⟩,
        [⟨.deleted, group.id, child⟩, ⟨.added, group.id, new⟩]⟩ := by
  rw [replace] at h
  split at h
  · cases h
  split at h
  · cases h
  obtain ⟨removal, hdelete, h⟩ := Outcome.bind_eq_ok.mp h
  obtain ⟨front, child, back, hchildren, hid, rfl⟩ := delete_ok hdelete
  obtain ⟨insertion, hinsert, h⟩ := Outcome.bind_eq_ok.mp h
  obtain ⟨hfree, rfl⟩ := insert_ok hinsert
  rw [add_eq hfree] at h
  exact ⟨front, child, back, hchildren, hid, (Except.ok.inj h).symm⟩

end Group

/-! Desks. -/

namespace Desk

/-- One desk becomes another by events: they are recorded, and what they deleted is
exchanged for what they added. -/
structure Edits (before after : Desk) (events : List Event) : Prop where
  history : after.history = before.history ++ events
  exchanged : Exchanged (traceIn (departed events)) (traceIn (arrived events))
    before.scene.tree.trace after.scene.tree.trace
  departing : ∀ shape ∈ departed events, shape ∈ before.scene.tree.nodes

/-- The edit of a group is one of the desk. -/
theorem edits_commit {α : Type} {desk : Desk} {parent : NodeId} {group : Group}
    (hgroup : desk.scene.group parent = .ok group) (edit : GroupEdit α) (ids : Allocator)
    (hid : edit.group.id = group.id)
    (hexchanged : Exchanged (traceIn (departed edit.events)) (traceIn (arrived edit.events))
      (traceIn group.children) (traceIn edit.group.children))
    (hdeparting : ∀ shape ∈ departed edit.events, shape ∈ group.children) :
    Edits desk ({ desk with ids }.commit edit).2 edit.events := by
  obtain ⟨front, node, back, -, htrace, hafter⟩ := Scene.exists_splice_group hgroup
  have hput := hafter edit.group.children
  rw [← hid] at hput
  refine ⟨rfl, ?_, fun shape hshape =>
    Scene.mem_nodes_of_group hgroup shape (hdeparting shape hshape)⟩
  rw [htrace]
  exact hput ▸ hexchanged.within (front ++ [node]) back

private theorem exchanged_append (children : List Shape) (shape : Shape) :
    Exchanged (traceIn []) (traceIn [shape]) (traceIn children)
      (traceIn (children ++ [shape])) := by
  refine ⟨traceIn children, by simp [traceIn], ?_⟩
  rw [traceIn_append]

private theorem exchanged_replace (front back new : List Shape) (child : Shape) :
    Exchanged (traceIn [child]) (traceIn new) (traceIn (front ++ child :: back))
      (traceIn (front ++ back ++ new)) := by
  refine ⟨traceIn (front ++ back), ?_, by rw [traceIn_append]⟩
  rw [← traceIn_append, ← List.singleton_append, ← List.append_assoc]
  have hperm : (front ++ [child] ++ back).Perm (front ++ back ++ [child]) := by
    rw [List.append_assoc, List.append_assoc]
    exact List.Perm.append_left front List.perm_append_comm
  exact hperm.flatMap_right trace

/-- An edit of a group succeeds as far as the group is there and its own edit does. -/
theorem editGroup_ok {α : Type} {desk after : Desk} {parent : NodeId} {result : α}
    {edit : Group → Except SceneError (GroupEdit α)}
    (h : desk.editGroup parent edit = .ok (result, after)) :
    ∃ group change, desk.scene.group parent = .ok group ∧ edit group = .ok change ∧
      desk.commit change = (result, after) := by
  obtain ⟨group, hgroup, h⟩ := Outcome.bind_eq_ok.mp h
  obtain ⟨change, hedit, h⟩ := Outcome.bind_eq_ok.mp h
  exact ⟨group, change, hgroup, hedit, Except.ok.inj h⟩

/-- Appending a subtree to a group, whatever ids were issued before. -/
private theorem edits_add {desk : Desk} {parent : NodeId} {group : Group} {shape : Shape}
    (hgroup : desk.scene.group parent = .ok group)
    (hfree : hasChild shape.id group.children = false) (ids : Allocator) :
    Edits desk ({ desk with ids }.commit (group.add shape)).2 [⟨.added, parent, shape⟩] := by
  obtain ⟨rfl, -⟩ := Scene.exists_combinator_of_group hgroup
  rw [Group.add_eq hfree]
  exact edits_commit hgroup _ ids rfl (exchanged_append group.children shape)
    fun shape hshape => absurd hshape List.not_mem_nil

/-- Replacing a child of a group, whatever ids were issued before. -/
private theorem edits_replace {desk : Desk} {parent old : NodeId} {group : Group} {new : Shape}
    {change : GroupEdit Shape} (hgroup : desk.scene.group parent = .ok group)
    (hreplace : group.replace old new = .ok change) (ids : Allocator) :
    change.result.id = old ∧ Edits desk ({ desk with ids }.commit change).2
      [⟨.deleted, parent, change.result⟩, ⟨.added, parent, new⟩] := by
  obtain ⟨rfl, -⟩ := Scene.exists_combinator_of_group hgroup
  obtain ⟨front, child, back, hchildren, hid, rfl⟩ := Group.replace_ok hreplace
  refine ⟨hid, edits_commit hgroup _ ids rfl ?_ fun shape hshape => ?_⟩
  · rw [hchildren]
    exact exchanged_replace front back [new] child
  · rw [hchildren, List.mem_singleton.mp hshape]
    exact List.mem_append_right _ List.mem_cons_self

/-- Adding issues the next id and, unless it is taken, appends a new node under it. -/
theorem add_ok {desk after : Desk} {kind : Kind} {parent id : NodeId}
    (h : desk.add kind parent = .ok (id, after)) :
    after.ids = desk.ids.next.2 ∧ (desk.ids.next.1 ∉ desk.scene.tree.ids →
      Edits desk after [⟨.added, parent, Shape.ofKind desk.ids.next.1 kind⟩]) := by
  obtain ⟨group, hgroup, h⟩ := Outcome.bind_eq_ok.mp h
  obtain ⟨-, rfl⟩ := Prod.mk.inj (Except.ok.inj h)
  refine ⟨rfl, fun hfresh => edits_add hgroup ?_ desk.ids.next.2⟩
  rw [id_ofKind]
  exact Scene.hasChild_eq_false hgroup hfresh

/-- A check for fresh ids succeeds if no id clashes. -/
theorem checkFresh_ok {desk : Desk} {shape : Shape} {replacing : Option NodeId}
    (h : desk.checkFresh shape replacing = .ok ()) : desk.scene.clash? shape replacing = none := by
  rw [checkFresh] at h
  split at h
  · cases h
  · next hclash => exact hclash

/-- Inserting appends a subtree none of whose ids is in the scene. -/
theorem insert_ok {desk after : Desk} {shape : Shape} {parent id : NodeId}
    (h : desk.insert shape parent = .ok (id, after)) :
    desk.scene.clash? shape none = none ∧ after.ids = desk.ids ∧
      Edits desk after [⟨.added, parent, shape⟩] := by
  obtain ⟨_, hfresh, h⟩ := Outcome.bind_eq_ok.mp h
  obtain ⟨group, change, hgroup, hinsert, hcommit⟩ := editGroup_ok h
  obtain ⟨hfree, rfl⟩ := Group.insert_ok hinsert
  obtain ⟨-, rfl⟩ := Prod.mk.inj hcommit
  exact ⟨checkFresh_ok hfresh, rfl, edits_add hgroup hfree desk.ids⟩

/-- Deleting takes out a child with everything below it. -/
theorem delete_ok {desk after : Desk} {child : Shape} {id parent : NodeId}
    (h : desk.delete id parent = .ok (child, after)) :
    child.id = id ∧ after.ids = desk.ids ∧ Edits desk after [⟨.deleted, parent, child⟩] := by
  obtain ⟨group, change, hgroup, hdelete, hcommit⟩ := editGroup_ok h
  obtain ⟨front, out, back, hchildren, hid, rfl⟩ := Group.delete_ok hdelete
  obtain ⟨rfl, -⟩ := Scene.exists_combinator_of_group hgroup
  obtain ⟨rfl, rfl⟩ := Prod.mk.inj hcommit
  refine ⟨hid, rfl, edits_commit hgroup _ desk.ids rfl ?_ fun shape hshape => ?_⟩
  · have hexchanged := exchanged_replace front back [] out
    rw [List.append_nil, ← hchildren] at hexchanged
    exact hexchanged
  · rw [hchildren, List.mem_singleton.mp hshape]
    exact List.mem_append_right _ List.mem_cons_self

/-- Removing is deleting, whatever the node is a child of. -/
theorem remove_ok {desk after : Desk} {child : Shape} {id : NodeId}
    (h : desk.remove id = .ok (child, after)) :
    ∃ parent, desk.delete id parent = .ok (child, after) := by
  rw [remove] at h
  split at h
  · cases h
  · next parent _ => exact ⟨parent, h⟩

/-- Replacing takes out a child and appends a subtree, none of whose ids is in the scene
outside what is taken out. -/
theorem replace_ok {desk after : Desk} {child new : Shape} {old parent : NodeId}
    (h : desk.replace old new parent = .ok (child, after)) :
    desk.scene.clash? new (some old) = none ∧ child.id = old ∧ after.ids = desk.ids ∧
      Edits desk after [⟨.deleted, parent, child⟩, ⟨.added, parent, new⟩] := by
  obtain ⟨_, hfresh, h⟩ := Outcome.bind_eq_ok.mp h
  obtain ⟨group, change, hgroup, hreplace, hcommit⟩ := editGroup_ok h
  obtain ⟨hid, hedits⟩ := edits_replace hgroup hreplace desk.ids
  obtain ⟨rfl, rfl⟩ := Prod.mk.inj hcommit
  exact ⟨checkFresh_ok hfresh, hid, rfl, hedits⟩

/-- A change of kind that fails leaves the scene and the history, whether or not an id was
issued. -/
theorem changeKind_error {desk after : Desk} {child parent : NodeId} {kind : Kind}
    {e : SceneError} (h : desk.changeKind child kind parent = (.error e, after)) :
    after = desk ∨ after = { desk with ids := desk.ids.next.2 } := by
  rw [changeKind] at h
  split at h
  · exact Or.inl (Prod.mk.inj h).2.symm
  · split at h
    · exact Or.inl (Prod.mk.inj h).2.symm
    · dsimp only [Shape.create] at h
      split at h
      · exact Or.inr (Prod.mk.inj h).2.symm
      · cases (Prod.mk.inj h).1

/-- A change of kind issues the next id and replaces the child of a group by a new node under
it. -/
theorem exists_replace_of_changeKind {desk after : Desk} {child parent id : NodeId} {kind : Kind}
    (h : desk.changeKind child kind parent = (.ok id, after)) :
    id = desk.ids.next.1 ∧ ∃ group change, desk.scene.group parent = .ok group ∧
      group.replace child (Shape.ofKind desk.ids.next.1 kind) = .ok change ∧
      after = ({ desk with ids := desk.ids.next.2 }.commit change).2 := by
  rw [changeKind] at h
  split at h
  · cases (Prod.mk.inj h).1
  · next group hgroup =>
    split at h
    · cases (Prod.mk.inj h).1
    · dsimp only [Shape.create] at h
      split at h
      · cases (Prod.mk.inj h).1
      · next change hreplace =>
        have hid := Except.ok.inj (Prod.mk.inj h).1
        exact ⟨hid.symm.trans (id_ofKind _ kind), group, change, hgroup, hreplace,
          (Prod.mk.inj h).2.symm⟩

/-- A change of kind takes out a child and appends a new node under the next id. -/
theorem changeKind_ok {desk after : Desk} {child parent id : NodeId} {kind : Kind}
    (h : desk.changeKind child kind parent = (.ok id, after)) :
    ∃ old : Shape, old.id = child ∧ after.ids = desk.ids.next.2 ∧
      Edits desk after [⟨.deleted, parent, old⟩,
        ⟨.added, parent, Shape.ofKind desk.ids.next.1 kind⟩] := by
  obtain ⟨-, group, change, hgroup, hreplace, rfl⟩ := exists_replace_of_changeKind h
  obtain ⟨hid, hedits⟩ := edits_replace hgroup hreplace desk.ids.next.2
  exact ⟨change.result, hid, rfl, hedits⟩

/-- Setting a field changes the node in the scene and nothing else. -/
theorem setField_ok {desk after : Desk} {id : NodeId} {field text : String} {changed : Shape}
    (h : desk.setField id field text = .ok (changed, after)) :
    (∃ node, desk.scene.find? id = some node ∧ node.setField field text = .ok changed) ∧
      after.ids = desk.ids ∧ after.history = desk.history ∧
        after.scene = desk.scene.update id fun _ => changed := by
  rw [setField] at h
  split at h
  · cases h
  · next node hnode =>
    split at h
    · cases h
    · next hset =>
      obtain ⟨rfl, rfl⟩ := Prod.mk.inj (Except.ok.inj h)
      exact ⟨⟨node, hnode, hset⟩, rfl, rfl, rfl⟩

end Desk

end SdfScene
