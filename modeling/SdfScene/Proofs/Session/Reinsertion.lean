import SdfScene.Builtin
import SdfScene.Proofs.Scene.Replacement
import SdfScene.Proofs.Session.Run

/-!
# Putting a deleted subtree back

A deletion leaves no id of the subtree that it hands out, as long as the ids of the scene are
distinct. So the subtree can be put under any combinator that is left, and under its own one it
comes behind the others: what was the last child is then where it was.
-/

namespace SdfScene

open Shape Event

namespace Group

/-- Between children of distinct ids, one is taken out by its id and the others stay in their
order. -/
theorem delete_eq {parent : NodeId} {front back : List Shape} {child : Shape}
    (hdistinct : ((front ++ child :: back).map Shape.id).Nodup) :
    delete ⟨parent, front ++ child :: back⟩ child.id =
      .ok ⟨child, ⟨parent, front ++ back⟩, [⟨.deleted, parent, child⟩]⟩ := by
  have hfront : ∀ other ∈ front, ¬ other.id = child.id := by
    rw [List.map_append, List.map_cons, List.nodup_append'] at hdistinct
    intro other hother hid
    exact hdistinct.2.2 (List.mem_map_of_mem hother) (hid ▸ List.mem_cons_self)
  have hfound : child? ⟨parent, front ++ child :: back⟩ child.id = some child := by
    rw [child?, List.find?_eq_some_iff_append]
    exact ⟨decide_eq_true rfl, front, back, rfl, by simpa using hfront⟩
  have herase : eraseChild child.id (front ++ child :: back) = front ++ back := by
    rw [eraseChild, List.eraseP_append_right _ (by simpa using hfront), List.eraseP_cons,
      decide_eq_true rfl, cond_true]
  simp only [delete, hfound, herase]

end Group

namespace Scene

/-- A subtree of ids that the scene does not have clashes with nothing. -/
theorem clash?_eq_none {scene : Scene} {shape : Shape}
    (hfresh : ∀ id ∈ shape.ids, id ∉ scene.tree.ids) (replacing : Option NodeId) :
    scene.clash? shape replacing = none := by
  rw [clash?, List.find?_eq_none]
  intro id hid
  have hfree : ¬ scene.contains id := mt contains_iff.mp (hfresh id hid)
  simp [hfree]

end Scene

namespace Desk

variable {desk : Desk}

/-- A deletion leaves distinct ids distinct. -/
theorem nodup_of_delete {between : Desk} {child : Shape} {old parent : NodeId}
    (hdistinct : desk.scene.tree.ids.Nodup)
    (h : desk.delete old parent = .ok (child, between)) : between.scene.tree.ids.Nodup := by
  obtain ⟨-, -, hedits⟩ := delete_ok h
  obtain ⟨rest, hbefore, hafter⟩ := hedits.exchanged
  rw [arrived_deleted, arrived_nil, traceIn_nil, List.append_nil] at hafter
  have hids := (hbefore.map Shape.id).nodup_iff.mp (ids_eq_map_trace desk.scene.tree ▸ hdistinct)
  rw [List.map_append, List.nodup_append'] at hids
  rw [ids_eq_map_trace, (hafter.map Shape.id).nodup_iff]
  exact hids.1

/-- A subtree of ids that the scene does not have goes behind the children of any combinator. -/
theorem insert_of_fresh {shape : Shape} {parent : NodeId} {children : List Shape}
    (hfresh : ∀ id ∈ shape.ids, id ∉ desk.scene.tree.ids)
    (hgroup : desk.scene.group parent = .ok ⟨parent, children⟩) :
    desk.insert shape parent = .ok (desk.commit
      ⟨shape.id, ⟨parent, children ++ [shape]⟩, [⟨.added, parent, shape⟩]⟩) := by
  have hunused := Scene.hasChild_eq_false hgroup (hfresh _ (id_mem_ids shape))
  obtain ⟨-, node, hnode, -⟩ := Scene.exists_combinator_of_group hgroup
  have hother : parent ≠ shape.id := by
    rintro rfl
    exact hfresh _ (id_mem_ids shape) (isSome_find?.mp (Option.isSome_of_eq_some hnode))
  have hinsert : Group.insert ⟨parent, children⟩ shape =
      .ok ⟨shape.id, ⟨parent, children ++ [shape]⟩, [⟨.added, parent, shape⟩]⟩ := by
    rw [Group.insert, if_neg (by simp [hunused, hother]), Group.add_eq hunused]
  exact (insert_eq_ok hgroup).mpr ⟨Scene.clash?_eq_none hfresh none, _, hinsert, rfl⟩

section Children

variable {holder child : Shape} {front back : List Shape}
  (hdistinct : desk.scene.tree.ids.Nodup) (hholder : holder ∈ desk.scene.tree.nodes)
  (hchildren : holder.children? = some (front ++ child :: back))

include hdistinct hholder hchildren

/-- The children of a combinator are found under its id. -/
theorem group_of_mem : desk.scene.group holder.id = .ok ⟨holder.id, front ++ child :: back⟩ :=
  Scene.group_of_find? (find?_of_mem_nodes hdistinct hholder) hchildren

/-- A child of a combinator can be deleted. -/
theorem delete_of_mem : desk.delete child.id holder.id = .ok (desk.commit
    ⟨child, ⟨holder.id, front ++ back⟩, [⟨.deleted, holder.id, child⟩]⟩) := by
  have hgroup := group_of_mem hdistinct hholder hchildren
  have hkeys := Scene.keyed_of_nodup hdistinct holder.id _ hgroup
  exact (delete_eq_ok hgroup).mpr ⟨_, Group.delete_eq hkeys, rfl⟩

/-- Deleted and put back, the child is behind the others, and the history has both. -/
theorem insert_back {between : Desk}
    (hdelete : desk.delete child.id holder.id = .ok (child, between)) :
    between.insert child holder.id = .ok (child.id,
      ⟨desk.scene.withGroup ⟨holder.id, front ++ back ++ [child]⟩, desk.ids,
        desk.history ++ [⟨.deleted, holder.id, child⟩, ⟨.added, holder.id, child⟩]⟩) := by
  have hgroup := group_of_mem hdistinct hholder hchildren
  have hgone := mem_ids_of_delete hdistinct hdelete
  obtain ⟨-, rfl⟩ := Prod.mk.inj
    (Except.ok.inj ((delete_of_mem hdistinct hholder hchildren).symm.trans hdelete))
  have hthere : (desk.commit ⟨child, ⟨holder.id, front ++ back⟩,
      [⟨.deleted, holder.id, child⟩]⟩).2.scene.group holder.id =
        .ok ⟨holder.id, front ++ back⟩ := group_commit hgroup rfl
  rw [insert_of_fresh (fun id hid hmem => ((hgone id).mp hmem).2 hid) hthere]
  exact congrArg (fun after => Except.ok (child.id, after)) (commit_commit hgroup rfl rfl)

end Children

end Desk

namespace Session

/-- In a scene of distinct ids, that of the root among them, every child of a combinator or of the
root can be deleted and put back. The deletion hands out the subtree as it was and leaves none of
its ids, so it can be put under every combinator that is left and under the root. Put under its
own combinator, it is behind the other children, all else is as it was, and both changes are in
the history with the same subtree; where it was the last child, the scene and the documents are
the old ones. -/
theorem delete_insert_back {session : Session} (hdistinct : session.desk.scene.tree.ids.Nodup)
    {holder child : Shape} {front back : List Shape}
    (hholder : holder ∈ session.desk.scene.tree.nodes)
    (hchildren : holder.children? = some (front ++ child :: back)) :
    ∃ between, session.delete child.id holder.id = (.ok child, between) ∧
      (∀ id ∈ child.ids, session.desk.scene.contains id ∧ ¬ between.desk.scene.contains id) ∧
      (∀ other ∈ between.desk.scene.tree.nodes, other.isCombinator →
        ∃ after, between.insert child other.id = (.ok child.id, after)) ∧
      ∃ after, between.insert child holder.id = (.ok child.id, after) ∧
        Swapped holder.id holder (holder.withChildren (front ++ back ++ [child]))
          session.desk.scene.tree after.desk.scene.tree ∧
        after.desk.history = session.desk.history ++
          [⟨.deleted, holder.id, child⟩, ⟨.added, holder.id, child⟩] ∧
        (back = [] → after.desk.scene = session.desk.scene ∧
          after.documents = session.documents) := by
  have hgroup := Desk.group_of_mem hdistinct hholder hchildren
  obtain ⟨between, hdelete⟩ : ∃ between,
      session.desk.delete child.id holder.id = .ok (child, between) :=
    ⟨_, Desk.delete_of_mem hdistinct hholder hchildren⟩
  have hids := Desk.mem_ids_of_delete hdistinct hdelete
  have hback := Desk.insert_back hdistinct hholder hchildren hdelete
  refine ⟨{ session with desk := between }, edit_eq_ok.mpr ⟨between, hdelete, rfl⟩, ?_, ?_, ?_⟩
  · intro id hid
    have hchild := Scene.mem_nodes_of_group hgroup child
      (List.mem_append_right _ List.mem_cons_self)
    have hmem : id ∈ session.desk.scene.tree.ids := by
      obtain ⟨node, hnode, rfl⟩ := List.mem_map.mp hid
      exact List.mem_map_of_mem (nodes_subset_of_mem hchild hnode)
    exact ⟨Scene.contains_iff.mpr hmem, fun h => ((hids id).mp (Scene.contains_iff.mp h)).2 hid⟩
  · intro other hother hcombinator
    obtain ⟨children, hgiven⟩ := exists_children_of_isCombinator hcombinator
    have hplace := Scene.group_of_find?
      (find?_of_mem_nodes (Desk.nodup_of_delete hdistinct hdelete) hother) hgiven
    have hinsert := Desk.insert_of_fresh
      (fun id hid hmem => ((hids id).mp hmem).2 hid) hplace
    exact ⟨_, edit_eq_ok.mpr ⟨_, hinsert, rfl⟩⟩
  · refine ⟨_, edit_eq_ok.mpr ⟨_, hback, rfl⟩, ?_, rfl, ?_⟩
    · obtain ⟨node, -, -, hput⟩ := Scene.exists_swapped_group hgroup
      have hswapped := hput (front ++ back ++ [child])
      have hsame : some node = some holder :=
        hswapped.find?_old.symm.trans (find?_of_mem_nodes hdistinct hholder)
      rwa [Option.some.inj hsame] at hswapped
    · rintro rfl
      rw [List.append_nil]
      have hscene : session.desk.scene.withGroup ⟨holder.id, front ++ [child]⟩ =
          session.desk.scene := Scene.withGroup_self hgroup
      exact ⟨hscene, by simp only [documents, hscene]⟩

/-- A group of one node, which is the last child of another group, is deleted and put back. -/
theorem delete_insert_back_of_last :
    let group (id : NodeId) (children : List Shape) : Shape :=
      .combinator .union children .zero .identity id
    let leaf (id : NodeId) : Shape := .custom "c" .identity id
    let inner := group ⟨"3"⟩ [leaf ⟨"4"⟩]
    let session : Session := ⟨⟨.ofContent (group ⟨"1"⟩ [leaf ⟨"2"⟩, inner]), ⟨4⟩, []⟩,
      Builtin.camera, .transient, false, none⟩
    session.desk.scene.tree.ids.Nodup ∧ ∃ between after,
      session.delete ⟨"3"⟩ ⟨"1"⟩ = (.ok inner, between) ∧ ¬ between.desk.scene.contains ⟨"4"⟩ ∧
        between.insert inner ⟨"1"⟩ = (.ok ⟨"3"⟩, after) ∧ after.documents = session.documents := by
  intro group leaf inner session
  have hdistinct : session.desk.scene.tree.ids.Nodup := by decide +kernel
  have hholder : group ⟨"1"⟩ [leaf ⟨"2"⟩, inner] ∈ session.desk.scene.tree.nodes :=
    List.mem_cons_of_mem _ List.mem_cons_self
  have hchildren : (group ⟨"1"⟩ [leaf ⟨"2"⟩, inner]).children? =
      some ([leaf ⟨"2"⟩] ++ inner :: []) := rfl
  obtain ⟨between, hdelete, hgone, -, after, hinsert, -, -, hlast⟩ :=
    delete_insert_back hdistinct hholder hchildren
  exact ⟨hdistinct, between, after, hdelete, (hgone ⟨"4"⟩ (by decide +kernel)).2, hinsert,
    (hlast rfl).2⟩

end Session

end SdfScene
