import SdfScene.Proofs.Scene.Edits
import SdfScene.Proofs.Scene.Groups
import SdfScene.Proofs.Shape.Skeleton

/-!
# Replaying a history

The events of a history say how to get from one scene to another: what was added goes to the
end of the group that is named, and what was deleted is taken out of it. A replay is stuck
where this cannot be done. Every edit records what makes its own scene of the one before,
and a replay goes the same way on all scenes that have one skeleton.
-/

namespace SdfScene

open Shape Event

namespace Group

/-- The children of a group with defaults in the fields. -/
def skeleton (group : Group) : Group := ⟨group.id, group.children.map Shape.skeleton⟩

/-- The group after an event, unless what was added is there already or what was deleted is
not there. -/
def replay? (group : Group) (event : Event) : Option Group :=
  match event.change with
  | .added =>
    if hasChild event.child.id group.children then none
    else some ⟨group.id, group.children ++ [event.child]⟩
  | .deleted =>
    if hasChild event.child.id group.children then
      some ⟨group.id, eraseChild event.child.id group.children⟩
    else none

end Group

/-- An event with defaults in the fields of its subtree. -/
def Event.skeleton (event : Event) : Event := { event with child := event.child.skeleton }

namespace Scene

/-- The nesting of a scene without the fields of its nodes. -/
def skeleton (scene : Scene) : Scene := ⟨scene.shapes.map Shape.skeleton⟩

/-- The scene after an event, unless its group is not there or cannot be changed like that. -/
def replay? (scene : Scene) (event : Event) : Option Scene :=
  match scene.group event.parent with
  | .error _ => none
  | .ok group => (group.replay? event).map scene.withGroup

/-- The scene after some events. -/
def replayAll? (scene : Scene) (events : List Event) : Option Scene := events.foldlM replay? scene

theorem replayAll?_append (scene : Scene) (events others : List Event) :
    scene.replayAll? (events ++ others) =
      (scene.replayAll? events).bind fun later => later.replayAll? others :=
  List.foldlM_append

/-! Replays without fields. -/

@[simp] theorem tree_skeleton (scene : Scene) : scene.skeleton.tree = scene.tree.skeleton := by
  rw [tree, tree, Shape.skeleton, skeletonIn_eq_map]
  rfl

theorem group_skeleton (scene : Scene) (parent : NodeId) :
    scene.skeleton.group parent = (scene.group parent).map Group.skeleton := by
  by_cases hroot : parent = rootId
  · simp only [group, hroot, ite_true]
    rfl
  · have hfind : scene.skeleton.find? parent = (scene.find? parent).map Shape.skeleton := by
      rw [← find?_tree hroot, ← find?_tree hroot, tree_skeleton, find?_skeleton]
    simp only [group, hroot, ite_false, hfind]
    cases scene.find? parent with
    | none => rfl
    | some node =>
      simp only [Option.map_some, children?_skeleton]
      cases node.children? <;> rfl

theorem withGroup_skeleton (scene : Scene) (group : Group) :
    (scene.withGroup group).skeleton = scene.skeleton.withGroup group.skeleton := by
  refine tree_injective ?_
  rw [tree_skeleton, tree_withGroup, tree_withGroup, tree_skeleton, Group.skeleton,
    update?_skeleton (skeleton_withChildren group.children)]
  cases scene.tree.update? group.id (withChildren group.children) <;> rfl

end Scene

theorem Group.replay?_skeleton (group : Group) (event : Event) :
    group.skeleton.replay? event.skeleton = (group.replay? event).map Group.skeleton := by
  simp only [replay?, Event.skeleton, Group.skeleton, id_skeleton, hasChild_skeleton]
  cases event.change with
  | added =>
    cases hasChild event.child.id group.children
    · simp [Group.skeleton]
    · rfl
  | deleted =>
    cases hasChild event.child.id group.children
    · rfl
    · simp [Group.skeleton, eraseChild_skeleton]

namespace Scene

theorem replay?_skeleton (scene : Scene) (event : Event) :
    scene.skeleton.replay? event.skeleton = (scene.replay? event).map skeleton := by
  have hparent : event.skeleton.parent = event.parent := rfl
  rw [replay?, replay?, hparent, group_skeleton]
  cases scene.group event.parent with
  | error e => rfl
  | ok group =>
    simp only [Except.map, Group.replay?_skeleton, Option.map_map]
    exact congrArg (fun put => (group.replay? event).map put)
      (funext fun later => (withGroup_skeleton scene later).symm)

theorem replayAll?_skeleton (scene : Scene) (events : List Event) :
    scene.skeleton.replayAll? (events.map Event.skeleton) =
      (scene.replayAll? events).map skeleton := by
  induction events generalizing scene with
  | nil => rfl
  | cons event events ih =>
    simp only [replayAll?, List.map_cons, List.foldlM_cons, replay?_skeleton]
    cases scene.replay? event with
    | none => rfl
    | some later => exact ih later

/-- A replay goes the same way on scenes that have one skeleton. -/
theorem exists_replayAll? {scene other after : Scene} {events : List Event}
    (hsame : other.skeleton = scene.skeleton) (h : scene.replayAll? events = some after) :
    ∃ later, other.replayAll? events = some later ∧ later.skeleton = after.skeleton := by
  have hreplay := replayAll?_skeleton other events
  rw [hsame, replayAll?_skeleton, h, Option.map_some] at hreplay
  exact Option.map_eq_some_iff.mp hreplay.symm

/-- A node that is changed into one with its skeleton changes no skeleton. -/
theorem skeleton_update {scene : Scene} {id : NodeId} {node changed : Shape} (hne : id ≠ rootId)
    (hnode : scene.tree.find? id = some node) (hsame : changed.skeleton = node.skeleton) :
    (scene.update id fun _ => changed).skeleton = scene.skeleton := by
  obtain ⟨later, hupdate, hswapped⟩ := exists_swapped hnode fun _ => changed
  refine tree_injective ?_
  rw [tree_skeleton, tree_skeleton, tree_update hne, hupdate, Option.getD_some]
  exact hswapped.skeleton_eq hsame

end Scene

/-- Events do not change the id of a group. -/
theorem Group.id_replay? {group later : Group} {event : Event}
    (h : group.replay? event = some later) : later.id = group.id := by
  rw [replay?] at h
  split at h <;> split at h <;> cases h <;> rfl

theorem Group.id_replayAll? {group later : Group} {events : List Event}
    (h : events.foldlM replay? group = some later) : later.id = group.id := by
  induction events generalizing group with
  | nil => cases h; rfl
  | cons event events ih =>
    rw [List.foldlM_cons] at h
    obtain ⟨next, hnext, h⟩ := Option.bind_eq_some_iff.mp h
    exact (ih h).trans (id_replay? hnext)

/-- Events of one group are replayed on the group. -/
theorem Scene.replayAll?_of_group {scene : Scene} {group later : Group} {events : List Event}
    (hgroup : scene.group group.id = .ok group) (hnamed : ∀ event ∈ events, event.parent = group.id)
    (h : events.foldlM Group.replay? group = some later) :
    scene.replayAll? events = some (scene.withGroup later) := by
  induction events generalizing scene group with
  | nil =>
    cases h
    rw [withGroup_self hgroup]
    rfl
  | cons event events ih =>
    obtain ⟨hparent, hrest⟩ := List.forall_mem_cons.mp hnamed
    rw [List.foldlM_cons] at h
    obtain ⟨next, hnext, h⟩ := Option.bind_eq_some_iff.mp h
    have hid := Group.id_replay? hnext
    have hthere : scene.group next.id = .ok group := hid ▸ hgroup
    have hstep : scene.replay? event = some (scene.withGroup next) := by
      simp only [replay?, hparent, hgroup, hnext, Option.map_some]
    have hput : (scene.withGroup next).withGroup later = scene.withGroup later :=
      withGroup_withGroup hthere (Group.id_replayAll? h)
    have hreplay := ih (group_withGroup hthere) (fun event hevent => hid ▸ hrest event hevent) h
    rw [replayAll?, List.foldlM_cons, hstep, ← hput]
    exact hreplay

/-! What edits record. -/

/-- An edit of a group records events of this group that lead to the group after it, and what
was deleted as it was. -/
structure GroupEdit.Recorded {α : Type} (group : Group) (edit : GroupEdit α) : Prop where
  named : ∀ event ∈ edit.events, event.parent = group.id
  replayed : edit.events.foldlM Group.replay? group = some edit.group
  snapshot : ∀ event ∈ edit.events, event.change = .deleted →
    group.child? event.child.id = some event.child

namespace Group

theorem recorded_add {group : Group} {shape : Shape}
    (hfree : hasChild shape.id group.children = false) : (group.add shape).Recorded group := by
  rw [add_eq hfree]
  refine ⟨by simp, ?_, by simp⟩
  simp [replay?, hfree]

theorem recorded_delete {group : Group} {id : NodeId} {edit : GroupEdit Shape}
    (h : group.delete id = .ok edit) : edit.Recorded group := by
  rw [delete] at h
  split at h
  · cases h
  · next child hchild =>
    have hid : child.id = id := by simpa using List.find?_some hchild
    have hthere : hasChild id group.children :=
      hasChild_iff.mpr ⟨child, List.mem_of_find?_eq_some hchild, hid⟩
    cases h
    refine ⟨by simp, ?_, by simpa [hid] using hchild⟩
    simp [replay?, hid, hthere]

theorem recorded_insert {group : Group} {shape : Shape} {edit : GroupEdit NodeId}
    (h : group.insert shape = .ok edit) : edit.Recorded group := by
  obtain ⟨hfree, rfl⟩ := insert_ok h
  exact recorded_add hfree

theorem recorded_replace {group : Group} {old : NodeId} {new : Shape} {edit : GroupEdit Shape}
    (h : group.replace old new = .ok edit) : edit.Recorded group := by
  rw [replace] at h
  split at h
  · cases h
  split at h
  · cases h
  obtain ⟨removal, hdelete, h⟩ := Outcome.bind_eq_ok.mp h
  obtain ⟨insertion, hinsert, h⟩ := Outcome.bind_eq_ok.mp h
  have hremoval := recorded_delete hdelete
  obtain ⟨hfree, rfl⟩ := insert_ok hinsert
  have hinsertion := recorded_add hfree
  have hid : removal.group.id = group.id := by
    obtain ⟨front, child, back, -, -, rfl⟩ := delete_ok hdelete
    rfl
  cases h
  refine ⟨?_, ?_, ?_⟩
  · exact List.forall_mem_append.mpr ⟨hremoval.named, hid ▸ hinsertion.named⟩
  · simp only [List.foldlM_append, hremoval.replayed]
    exact hinsertion.replayed
  · exact List.forall_mem_append.mpr ⟨hremoval.snapshot, by simp [add]⟩

end Group

namespace Desk

/-- One desk becomes another by events: they are recorded, a replay makes the one scene of the
other, and what was deleted was in its group as it was recorded. -/
structure Records (before after : Desk) (events : List Event) : Prop where
  history : after.history = before.history ++ events
  replayed : before.scene.replayAll? events = some after.scene
  snapshot : ∀ event ∈ events, event.change = .deleted →
    ∃ group, before.scene.group event.parent = .ok group ∧
      group.child? event.child.id = some event.child

/-- The edit of a group records what it does to the desk, whatever ids were issued before. -/
theorem records_commit {α : Type} {desk : Desk} {parent : NodeId} {group : Group}
    (hgroup : desk.scene.group parent = .ok group) {edit : GroupEdit α}
    (h : edit.Recorded group) (ids : Allocator) :
    Records desk ({ desk with ids }.commit edit).2 edit.events := by
  obtain ⟨rfl, -⟩ := Scene.exists_combinator_of_group hgroup
  refine ⟨rfl, Scene.replayAll?_of_group hgroup h.named h.replayed, fun event hevent hdeleted => ?_⟩
  exact ⟨group, h.named event hevent ▸ hgroup, h.snapshot event hevent hdeleted⟩

/-- An edit of a group that records what it does is one of the desk that does. -/
theorem records_editGroup {α : Type} {desk after : Desk} {parent : NodeId} {result : α}
    {edit : Group → Except SceneError (GroupEdit α)}
    (hedit : ∀ group change, edit group = .ok change → change.Recorded group)
    (h : desk.editGroup parent edit = .ok (result, after)) :
    ∃ events, Records desk after events := by
  obtain ⟨group, change, hgroup, hchange, hcommit⟩ := editGroup_ok h
  have hrecords := records_commit hgroup (hedit group change hchange) desk.ids
  exact ⟨change.events, (Prod.mk.inj hcommit).2 ▸ hrecords⟩

theorem records_insert {desk after : Desk} {shape : Shape} {parent id : NodeId}
    (h : desk.insert shape parent = .ok (id, after)) : ∃ events, Records desk after events := by
  obtain ⟨_, -, h⟩ := Outcome.bind_eq_ok.mp h
  exact records_editGroup (fun _ _ => Group.recorded_insert) h

theorem records_delete {desk after : Desk} {child : Shape} {id parent : NodeId}
    (h : desk.delete id parent = .ok (child, after)) : ∃ events, Records desk after events :=
  records_editGroup (fun _ _ => Group.recorded_delete) h

theorem records_replace {desk after : Desk} {child new : Shape} {old parent : NodeId}
    (h : desk.replace old new parent = .ok (child, after)) :
    ∃ events, Records desk after events := by
  obtain ⟨_, -, h⟩ := Outcome.bind_eq_ok.mp h
  exact records_editGroup (fun _ _ => Group.recorded_replace) h

/-- Adding records what it does unless the next id is taken. -/
theorem records_add {desk after : Desk} {kind : Kind} {parent id : NodeId}
    (hfresh : desk.ids.next.1 ∉ desk.scene.tree.ids)
    (h : desk.add kind parent = .ok (id, after)) : ∃ events, Records desk after events := by
  obtain ⟨group, hgroup, h⟩ := Outcome.bind_eq_ok.mp h
  obtain ⟨-, rfl⟩ := Prod.mk.inj (Except.ok.inj h)
  refine ⟨_, records_commit hgroup (Group.recorded_add ?_) desk.ids.next.2⟩
  rw [id_ofKind]
  exact Scene.hasChild_eq_false hgroup hfresh

theorem records_changeKind {desk after : Desk} {child parent id : NodeId} {kind : Kind}
    (h : desk.changeKind child kind parent = (.ok id, after)) :
    ∃ events, Records desk after events := by
  obtain ⟨-, group, change, hgroup, hreplace, rfl⟩ := exists_replace_of_changeKind h
  exact ⟨change.events, records_commit hgroup (Group.recorded_replace hreplace) desk.ids.next.2⟩

end Desk

end SdfScene
