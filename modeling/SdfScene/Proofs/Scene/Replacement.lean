import SdfScene.Proofs.Scene.Preservation
import SdfScene.Proofs.Scene.Steps

/-!
# Replacing is deleting and then inserting

A replacement looks for clashing ids before anything is taken out and leaves the ids below the
old child out of the search, whereas an insertion after a deletion searches the scene that is
left. Where the ids of a scene are distinct the two searches find the same: what a deletion
takes out of the ids is what is below the child. So a replacement succeeds exactly if the
deletion does and the insertion after it, and it leaves what they leave, history included.
-/

namespace SdfScene

open Shape Event

namespace Group

/-- A deletion stays in its group. -/
theorem id_of_delete {group : Group} {id : NodeId} {edit : GroupEdit Shape}
    (h : group.delete id = .ok edit) : edit.group.id = group.id := by
  obtain ⟨front, child, back, -, -, rfl⟩ := delete_ok h
  rfl

/-- An insertion stays in its group. -/
theorem id_of_insert {group : Group} {shape : Shape} {edit : GroupEdit NodeId}
    (h : group.insert shape = .ok edit) : edit.group.id = group.id := by
  obtain ⟨-, rfl⟩ := insert_ok h
  rfl

/-- In a group of distinct ids a replacement is a deletion with an insertion after it. -/
theorem replace_eq_ok {group : Group} {old : NodeId} {new : Shape} {edit : GroupEdit Shape}
    (hdistinct : (group.children.map Shape.id).Nodup) :
    group.replace old new = .ok edit ↔ ∃ removal insertion, group.delete old = .ok removal ∧
      removal.group.insert new = .ok insertion ∧
      edit = ⟨removal.result, insertion.group, removal.events ++ insertion.events⟩ := by
  constructor
  · intro h
    by_cases hold : hasChild old group.children
    · by_cases htaken : new.id = group.id ∨ (new.id ≠ old ∧ hasChild new.id group.children)
      · simp [replace, hold, htaken] at h
      · obtain ⟨removal, insertion, hdelete, -, hinsert, -, hreplace⟩ :=
          exists_replaced hdistinct hold htaken
        exact ⟨removal, insertion, hdelete, hinsert, Except.ok.inj (h.symm.trans hreplace)⟩
    · simp [replace, hold] at h
  · rintro ⟨removal, insertion, hdelete, hinsert, rfl⟩
    obtain ⟨front, child, back, hchildren, hid, hremoval⟩ := delete_ok hdelete
    have hold : hasChild old group.children := by
      rw [hchildren]
      exact hasChild_iff.mpr ⟨child, List.mem_append_right _ List.mem_cons_self, hid⟩
    have hfree : ¬(new.id = group.id ∨ (new.id ≠ old ∧ hasChild new.id group.children)) := by
      have hkept : hasChild new.id removal.group.children = false := (insert_ok hinsert).1
      rintro (hown | ⟨hne, hsibling⟩)
      · simp [insert, hremoval, hown] at hinsert
      · obtain ⟨sibling, hmem, hsame⟩ := hasChild_iff.mp hsibling
        rw [hchildren, List.mem_append, List.mem_cons] at hmem
        have hstays : sibling ∈ front ++ back := by
          rcases hmem with hmem | rfl | hmem
          · exact List.mem_append_left _ hmem
          · exact absurd (hsame.symm.trans hid) hne
          · exact List.mem_append_right _ hmem
        rw [hremoval, hasChild_iff.mpr ⟨sibling, hstays, hsame⟩] at hkept
        cases hkept
    obtain ⟨taken, put, htaken, -, hput, -, hreplace⟩ := exists_replaced hdistinct hold hfree
    cases hdelete.symm.trans htaken
    cases hinsert.symm.trans hput
    exact hreplace

end Group

namespace Desk

variable {desk between : Desk} {old parent : NodeId} {child : Shape}

/-- A deletion takes the ids below the child out of the scene, and no others. -/
theorem mem_ids_of_delete (hdistinct : desk.scene.tree.ids.Nodup)
    (h : desk.delete old parent = .ok (child, between)) (id : NodeId) :
    id ∈ between.scene.tree.ids ↔ id ∈ desk.scene.tree.ids ∧ id ∉ child.ids := by
  obtain ⟨-, -, hedits⟩ := delete_ok h
  obtain ⟨rest, hbefore, hafter⟩ := hedits.exchanged
  simp only [departed_deleted, departed_nil, arrived_deleted, arrived_nil, traceIn_cons,
    traceIn_nil, List.append_nil] at hbefore hafter
  have hids := hbefore.map Shape.id
  rw [List.map_append] at hids
  have hapart := List.disjoint_of_nodup_append
    (hids.nodup_iff.mp (ids_eq_map_trace desk.scene.tree ▸ hdistinct))
  rw [ids_eq_map_trace, ids_eq_map_trace, ids_eq_map_trace, (hafter.map Shape.id).mem_iff,
    hids.mem_iff, List.mem_append]
  constructor
  · exact fun hrest => ⟨Or.inl hrest, hapart hrest⟩
  · rintro ⟨hrest | hgone, hnot⟩
    · exact hrest
    · exact absurd hgone hnot

/-- The child that is deleted is the node that is found under its id. -/
theorem find?_of_delete (hdistinct : desk.scene.tree.ids.Nodup)
    (h : desk.delete old parent = .ok (child, between)) : desk.scene.find? old = some child := by
  obtain ⟨hid, -, hedits⟩ := delete_ok h
  have hchild : child ∈ desk.scene.tree.nodes := hedits.departing child (by simp)
  have hroot : Scene.rootId ∉ child.ids :=
    ((mem_ids_of_delete hdistinct h _).mp (id_mem_ids between.scene.tree)).2
  have hne : old ≠ Scene.rootId := fun hsame => hroot (hsame ▸ hid ▸ id_mem_ids child)
  rw [← Scene.find?_tree hne, ← hid]
  exact find?_of_mem_nodes hdistinct hchild

/-- A subtree clashes with what a deletion leaves where it clashes with the scene before, the
deleted child left out. -/
theorem clash?_of_delete (hdistinct : desk.scene.tree.ids.Nodup)
    (h : desk.delete old parent = .ok (child, between)) (shape : Shape) :
    between.scene.clash? shape none = desk.scene.clash? shape (some old) := by
  have hsame : ∀ id, between.scene.contains id =
      (desk.scene.contains id && !child.contains id) := by
    intro id
    rw [Bool.eq_iff_iff, Scene.contains_iff, mem_ids_of_delete hdistinct h id, Bool.and_eq_true,
      Scene.contains_iff, Bool.not_eq_true', ← Bool.not_eq_true, Shape.contains_iff]
  simp only [Scene.clash?, Option.bind_some, Option.bind_none, find?_of_delete hdistinct h,
    Option.any_some, Option.any_none, Bool.not_false, Bool.and_true, hsame]

/-! What an edit does, given the group that it works on. -/

section Groups

variable {group : Group} (hgroup : desk.scene.group parent = .ok group)

include hgroup

theorem delete_eq_ok :
    desk.delete old parent = .ok (child, between) ↔
      ∃ removal, group.delete old = .ok removal ∧ desk.commit removal = (child, between) := by
  rw [delete, editGroup_of_ok hgroup, Outcome.map_eq_ok]

theorem insert_eq_ok {shape : Shape} {id : NodeId} :
    desk.insert shape parent = .ok (id, between) ↔ desk.scene.clash? shape none = none ∧
      ∃ insertion, group.insert shape = .ok insertion ∧
        desk.commit insertion = (id, between) := by
  rw [insert, editGroup_of_ok hgroup, checkFresh]
  cases desk.scene.clash? shape none with
  | some taken => simp [bind, Except.bind]
  | none => simp [bind, Except.bind, Outcome.map_eq_ok]

theorem replace_eq_ok_of_group {new : Shape} :
    desk.replace old new parent = .ok (child, between) ↔
      desk.scene.clash? new (some old) = none ∧
        ∃ change, group.replace old new = .ok change ∧ desk.commit change = (child, between) := by
  rw [replace, editGroup_of_ok hgroup, checkFresh]
  cases desk.scene.clash? new (some old) with
  | some taken => simp [bind, Except.bind]
  | none => simp [bind, Except.bind, Outcome.map_eq_ok]

end Groups

/-- After a deletion from a group, an insertion into the same group makes one edit of both, as far
as the subtree does not clash with the scene before, the deleted child left out. -/
theorem insert_after_delete {group : Group} {removal : GroupEdit Shape} {new : Shape} {id : NodeId}
    {after : Desk} (hdistinct : desk.scene.tree.ids.Nodup)
    (hgroup : desk.scene.group parent = .ok group) (htaken : group.delete old = .ok removal) :
    (desk.commit removal).2.insert new parent = .ok (id, after) ↔
      desk.scene.clash? new (some old) = none ∧
        ∃ insertion, removal.group.insert new = .ok insertion ∧ insertion.result = id ∧
          (desk.commit ⟨removal.result, insertion.group, removal.events ++ insertion.events⟩).2 =
            after := by
  obtain ⟨hid, -⟩ := Scene.exists_combinator_of_group hgroup
  have hremoval := (Group.id_of_delete htaken).trans hid
  have hdelete : desk.delete old parent = .ok (removal.result, (desk.commit removal).2) :=
    (delete_eq_ok hgroup).mpr ⟨removal, htaken, rfl⟩
  rw [insert_eq_ok (group_commit hgroup hremoval), clash?_of_delete hdistinct hdelete]
  refine and_congr_right fun _ => exists_congr fun insertion => and_congr_right fun hput => ?_
  have hinsertion := (Group.id_of_insert hput).trans hremoval
  rw [← commit_commit hgroup hremoval hinsertion, Prod.ext_iff]
  rfl

/-- In a scene of distinct ids, that of the root among them, a replacement succeeds exactly if the
deletion of the old child does and the insertion of the new subtree into what is left. Both ways
give the same child and leave the same desk: the scene, and the history with the deletion and
then the addition. -/
theorem replace_iff_delete_insert {desk : Desk} (hdistinct : desk.scene.tree.ids.Nodup)
    (old : NodeId) (new : Shape) (parent : NodeId) (child : Shape) (after : Desk) :
    (desk.replace old new parent = .ok (child, after) ↔
      ∃ between id, desk.delete old parent = .ok (child, between) ∧
        between.insert new parent = .ok (id, after)) ∧
    (desk.replace old new parent = .ok (child, after) →
      after.history = desk.history ++ [⟨.deleted, parent, child⟩, ⟨.added, parent, new⟩]) := by
  refine ⟨⟨fun h => ?_, ?_⟩, fun h => ?_⟩
  · obtain ⟨_, -, hedit⟩ := Outcome.bind_eq_ok.mp h
    obtain ⟨group, change, hgroup, -, -⟩ := editGroup_ok hedit
    have hkeys := Scene.keyed_of_nodup hdistinct parent group hgroup
    obtain ⟨hclash, change, hreplace, hcommit⟩ := (replace_eq_ok_of_group hgroup).mp h
    obtain ⟨removal, insertion, htaken, hput, rfl⟩ := (Group.replace_eq_ok hkeys).mp hreplace
    obtain ⟨rfl, rfl⟩ := Prod.mk.inj hcommit
    exact ⟨_, insertion.result, (delete_eq_ok hgroup).mpr ⟨removal, htaken, rfl⟩,
      (insert_after_delete hdistinct hgroup htaken).mpr ⟨hclash, insertion, hput, rfl, rfl⟩⟩
  · rintro ⟨between, id, hdelete, hinsert⟩
    obtain ⟨group, -, hgroup, -, -⟩ := editGroup_ok hdelete
    have hkeys := Scene.keyed_of_nodup hdistinct parent group hgroup
    obtain ⟨removal, htaken, hcommit⟩ := (delete_eq_ok hgroup).mp hdelete
    obtain ⟨rfl, rfl⟩ := Prod.mk.inj hcommit
    obtain ⟨hclash, insertion, hput, -, rfl⟩ :=
      (insert_after_delete hdistinct hgroup htaken).mp hinsert
    exact (replace_eq_ok_of_group hgroup).mpr ⟨hclash, _,
      (Group.replace_eq_ok hkeys).mpr ⟨removal, insertion, htaken, hput, rfl⟩, rfl⟩
  · obtain ⟨-, -, -, hedits⟩ := replace_ok h
    exact hedits.history

/-- A group gives way to one that has the id of its child, and holds a child with its own. -/
theorem replace_iff_delete_insert_of_reused :
    let group (id : NodeId) (children : List Shape) : Shape :=
      .combinator .union children .zero .identity id
    let leaf (id : NodeId) : Shape := .custom "c" .identity id
    let old := group ⟨"2"⟩ [leaf ⟨"3"⟩]
    let new := group ⟨"3"⟩ [leaf ⟨"2"⟩]
    let desk : Desk := ⟨.ofContent (group ⟨"1"⟩ [old, leaf ⟨"4"⟩]), .fresh, []⟩
    desk.scene.tree.ids.Nodup ∧
      ∃ after between id, desk.replace ⟨"2"⟩ new ⟨"1"⟩ = .ok (old, after) ∧
        desk.delete ⟨"2"⟩ ⟨"1"⟩ = .ok (old, between) ∧
        between.insert new ⟨"1"⟩ = .ok (id, after) ∧
        after.history = [⟨.deleted, ⟨"1"⟩, old⟩, ⟨.added, ⟨"1"⟩, new⟩] := by
  intro group leaf old new desk
  have hdistinct : desk.scene.tree.ids.Nodup := by decide +kernel
  obtain ⟨after, hreplace⟩ : ∃ after, desk.replace ⟨"2"⟩ new ⟨"1"⟩ = .ok (old, after) := ⟨_, rfl⟩
  obtain ⟨hiff, hhistory⟩ := replace_iff_delete_insert hdistinct ⟨"2"⟩ new ⟨"1"⟩ old after
  obtain ⟨between, id, hdelete, hinsert⟩ := hiff.mp hreplace
  exact ⟨hdistinct, after, between, id, hreplace, hdelete, hinsert, hhistory hreplace⟩

end Desk

end SdfScene
