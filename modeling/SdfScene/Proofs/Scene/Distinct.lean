import SdfScene.Proofs.Scene.Preservation

/-!
# Distinct ids under insertion and replacement

Before a subtree is put into a scene, each of its ids is looked up in the scene. That keeps
the subtree apart from the nodes that stay and from the root; whether the ids of the subtree
are distinct among themselves is not looked at. So a scene of distinct ids has distinct ids
afterwards exactly if the subtree has, which a subtree that was decoded without the check of a
whole document need not have.
-/

namespace SdfScene

open Shape Event

namespace Desk

/-- An edit that brings in one subtree, which takes no id of a node that stays, keeps the ids
of a scene distinct exactly if those of the subtree are. -/
theorem Edits.nodup_iff {before after : Desk} {events : List Event} {shape : Shape}
    (h : Edits before after events) (harrived : arrived events = [shape])
    (hdistinct : before.scene.tree.ids.Nodup)
    (hclash : ∀ id ∈ shape.ids, id ∈ before.scene.tree.ids → id ∈ idsIn (departed events)) :
    after.scene.tree.ids.Nodup ↔ shape.ids.Nodup := by
  have hexchanged := h.exchanged
  rw [harrived, traceIn_cons, traceIn_nil, List.append_nil] at hexchanged
  simp only [ids_eq_map_trace, idsIn_eq_map_traceIn] at hdistinct hclash ⊢
  exact hexchanged.nodup_iff hdistinct hclash

/-- In a scene of distinct ids, that of the root among them, a subtree is inserted or takes the
place of another one. The ids are distinct afterwards exactly if those of the subtree are. -/
theorem nodup_ids_iff_incoming {desk : Desk} (hdistinct : desk.scene.tree.ids.Nodup)
    (shape : Shape) (parent : NodeId) :
    (∀ id after, desk.insert shape parent = .ok (id, after) →
      (after.scene.tree.ids.Nodup ↔ shape.ids.Nodup)) ∧
    (∀ old child after, desk.replace old shape parent = .ok (child, after) →
      (after.scene.tree.ids.Nodup ↔ shape.ids.Nodup)) := by
  constructor
  · intro id after h
    obtain ⟨-, -, hedits⟩ := insert_ok h
    exact hedits.nodup_iff rfl hdistinct fun taken hid hmem =>
      absurd hmem (notMem_of_insert h taken hid)
  · intro old child after h
    obtain ⟨-, -, -, hedits⟩ := replace_ok h
    refine hedits.nodup_iff rfl hdistinct fun taken hid hmem => ?_
    simp only [departed_deleted, departed_added, departed_nil, idsIn_cons, idsIn_nil,
      List.append_nil]
    exact mem_of_replace hdistinct h taken hid hmem

/-- Two nodes under one id, in different combinators of a subtree, are put into an empty
combinator, and neither the insertion nor the replacement of a node by them is refused. -/
theorem nodup_ids_iff_incoming_of_twice :
    let group (id : NodeId) (children : List Shape) : Shape :=
      .combinator .union children .zero .identity id
    let leaf (content : String) : Shape := .custom content .identity ⟨"5"⟩
    let twice := group ⟨"2"⟩ [group ⟨"3"⟩ [leaf "a"], group ⟨"4"⟩ [leaf "b"]]
    let empty : Desk := ⟨.ofContent (group ⟨"1"⟩ []), .fresh, []⟩
    let filled : Desk := ⟨.ofContent (group ⟨"1"⟩ [leaf "c"]), .fresh, []⟩
    (∃ id after, empty.insert twice ⟨"1"⟩ = .ok (id, after) ∧ ¬ after.scene.tree.ids.Nodup) ∧
      ∃ child after, filled.replace ⟨"5"⟩ twice ⟨"1"⟩ = .ok (child, after) ∧
        ¬ after.scene.tree.ids.Nodup := by
  intro group leaf twice empty filled
  have htwice : ¬ twice.ids.Nodup := by decide +kernel
  have hempty : empty.scene.tree.ids.Nodup := by decide +kernel
  have hfilled : filled.scene.tree.ids.Nodup := by decide +kernel
  obtain ⟨id, later, hinsert⟩ :
      ∃ id after, empty.insert twice ⟨"1"⟩ = .ok (id, after) := ⟨_, _, rfl⟩
  obtain ⟨child, after, hreplace⟩ :
      ∃ child after, filled.replace ⟨"5"⟩ twice ⟨"1"⟩ = .ok (child, after) := ⟨_, _, rfl⟩
  refine ⟨⟨id, later, hinsert, ?_⟩, ⟨child, after, hreplace, ?_⟩⟩
  · exact mt ((nodup_ids_iff_incoming hempty twice ⟨"1"⟩).1 id later hinsert).mp htwice
  · exact mt ((nodup_ids_iff_incoming hfilled twice ⟨"1"⟩).2 _ child after hreplace).mp htwice

end Desk

end SdfScene
