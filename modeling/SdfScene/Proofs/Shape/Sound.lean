import SdfScene.Proofs.Node.Fresh
import SdfScene.Proofs.Shape.Search

/-!
# Sound trees

What has to hold of the nodes of one tree does not depend on how they are nested, so it is
a property of their list, and one that does not depend on its order. An exchange of some
nodes for others keeps it if the new ones have it and take no id of a node that stays.
-/

namespace SdfScene.Shape

/-- Nodes that can stand in one tree: their ids are distinct, the floor covers the numbers
among the ids, and the numbers stored in the nodes are finite. -/
structure NodesSound (ids : Allocator) (nodes : List Shape) : Prop where
  distinct : (nodes.map Shape.id).Nodup
  covered : ids.Covers (nodes.map Shape.id)
  finite : ∀ x ∈ nodes.flatMap ownNumbers, x.isFinite

/-- A tree of distinct ids under the floor and of finite numbers. -/
structure Sound (ids : Allocator) (shape : Shape) : Prop where
  distinct : shape.ids.Nodup
  covered : ids.Covers shape.ids
  finite : ∀ x ∈ shape.numbers, x.isFinite

instance (ids : Allocator) (shape : Shape) : Decidable (shape.Sound ids) :=
  decidable_of_iff
    (shape.ids.Nodup ∧ ids.Covers shape.ids ∧ ∀ x ∈ shape.numbers, x.isFinite)
    ⟨fun h => ⟨h.1, h.2.1, h.2.2⟩, fun h => ⟨h.distinct, h.covered, h.finite⟩⟩

/-- A tree is sound exactly if its nodes are. -/
theorem nodesSound_trace {ids : Allocator} {shape : Shape} :
    NodesSound ids shape.trace ↔ shape.Sound ids := by
  constructor
  · intro ⟨hdistinct, hcovered, hfinite⟩
    rw [← ids_eq_map_trace] at hdistinct hcovered
    exact ⟨hdistinct, hcovered, numbers_eq_flatMap_trace shape ▸ hfinite⟩
  · intro ⟨hdistinct, hcovered, hfinite⟩
    rw [ids_eq_map_trace] at hdistinct hcovered
    exact ⟨hdistinct, hcovered, numbers_eq_flatMap_trace shape ▸ hfinite⟩

/-- A higher floor covers what a lower one covers. -/
theorem Sound.mono {ids later : Allocator} {shape : Shape} (h : shape.Sound ids)
    (hle : ids.floor ≤ later.floor) : shape.Sound later :=
  ⟨h.distinct, h.covered.mono hle, h.finite⟩

namespace NodesSound

theorem nil (ids : Allocator) : NodesSound ids [] where
  distinct := List.nodup_nil
  covered := fun _ h => absurd h List.not_mem_nil
  finite := fun _ h => absurd h List.not_mem_nil

/-- Fewer nodes are sound as well. -/
theorem sublist {ids : Allocator} {nodes fewer : List Shape} (h : NodesSound ids nodes)
    (hsub : fewer.Sublist nodes) : NodesSound ids fewer where
  distinct := h.distinct.sublist (hsub.map Shape.id)
  covered := h.covered.of_subset (hsub.map Shape.id).subset
  finite := fun x hx => by
    obtain ⟨node, hnode, hmem⟩ := List.mem_flatMap.mp hx
    exact h.finite x (List.mem_flatMap.mpr ⟨node, hsub.subset hnode, hmem⟩)

/-- The order does not count. -/
theorem perm {ids : Allocator} {nodes others : List Shape} (h : NodesSound ids nodes)
    (hperm : nodes.Perm others) : NodesSound ids others where
  distinct := (hperm.map Shape.id).nodup_iff.mp h.distinct
  covered := h.covered.of_subset (hperm.map Shape.id).symm.subset
  finite := fun x hx => h.finite x ((hperm.flatMap_right ownNumbers).mem_iff.mpr hx)

/-- Two lists of sound nodes are sound together if they share no id. -/
theorem append {ids : Allocator} {front back : List Shape} (hfront : NodesSound ids front)
    (hback : NodesSound ids back)
    (hclash : ∀ id ∈ back.map Shape.id, id ∉ front.map Shape.id) :
    NodesSound ids (front ++ back) where
  distinct := by
    rw [List.map_append]
    exact hfront.distinct.append hback.distinct fun id hid hid' => hclash id hid' hid
  covered := by
    rw [List.map_append, Allocator.covers_append]
    exact ⟨hfront.covered, hback.covered⟩
  finite := by
    rw [List.flatMap_append, List.forall_mem_append]
    exact ⟨hfront.finite, hback.finite⟩

end NodesSound

/-- One list of nodes becomes another by an exchange of some for others, in any order. -/
def Exchanged (old new before after : List Shape) : Prop :=
  ∃ rest, before.Perm (rest ++ old) ∧ after.Perm (rest ++ new)

namespace Exchanged

variable {old new before after : List Shape}

private theorem perm_middle (front middle back : List Shape) :
    (front ++ middle ++ back).Perm (front ++ back ++ middle) := by
  rw [List.append_assoc, List.append_assoc]
  exact List.Perm.append_left front List.perm_append_comm

/-- An exchange in the middle of a list. -/
theorem middle (front back : List Shape) :
    Exchanged old new (front ++ old ++ back) (front ++ new ++ back) :=
  ⟨front ++ back, perm_middle front old back, perm_middle front new back⟩

/-- What is exchanged in a part of a list is exchanged in the list. -/
theorem within (h : Exchanged old new before after) (front back : List Shape) :
    Exchanged old new (front ++ before ++ back) (front ++ after ++ back) := by
  obtain ⟨rest, hbefore, hafter⟩ := h
  refine ⟨front ++ rest ++ back, ?_, ?_⟩
  · have hpart := (hbefore.append_left front).append_right back
    rw [← List.append_assoc front rest old] at hpart
    exact hpart.trans (perm_middle (front ++ rest) old back)
  · have hpart := (hafter.append_left front).append_right back
    rw [← List.append_assoc front rest new] at hpart
    exact hpart.trans (perm_middle (front ++ rest) new back)

/-- An exchange brings in no other ids than those of what comes. -/
theorem mem_ids (h : Exchanged old new before after) {id : NodeId}
    (hid : id ∈ after.map Shape.id) : id ∈ before.map Shape.id ∨ id ∈ new.map Shape.id := by
  obtain ⟨rest, hbefore, hafter⟩ := h
  have hin := (hafter.map Shape.id).mem_iff.mp hid
  rw [List.map_append, List.mem_append] at hin
  refine hin.imp_left fun hrest => (hbefore.map Shape.id).mem_iff.mpr ?_
  rw [List.map_append]
  exact List.mem_append_left _ hrest

/-- What comes and all that was there are what goes and all that is there. -/
theorem perm_append (h : Exchanged old new before after) :
    (after ++ old).Perm (before ++ new) := by
  obtain ⟨rest, hbefore, hafter⟩ := h
  have hgone : (after ++ old).Perm (rest ++ (new ++ old)) := by
    rw [← List.append_assoc]
    exact hafter.append_right old
  have hcome : (before ++ new).Perm (rest ++ (old ++ new)) := by
    rw [← List.append_assoc]
    exact hbefore.append_right new
  exact hgone.trans ((List.Perm.append_left rest List.perm_append_comm).trans hcome.symm)

/-- The nodes that are given away are sound if all were. -/
theorem sound_old (h : Exchanged old new before after) {ids : Allocator}
    (hbefore : NodesSound ids before) : NodesSound ids old := by
  obtain ⟨rest, hperm, -⟩ := h
  exact (hbefore.perm hperm).sublist (List.sublist_append_right rest old)

/-- Where ids are distinct, what comes shares no id with what stays if it takes none but
those of what goes. -/
theorem exists_rest (h : Exchanged old new before after) (hbefore : (before.map Shape.id).Nodup)
    (hclash : ∀ id ∈ new.map Shape.id, id ∈ before.map Shape.id → id ∈ old.map Shape.id) :
    ∃ rest, before.Perm (rest ++ old) ∧ after.Perm (rest ++ new) ∧
      ∀ id ∈ new.map Shape.id, id ∉ rest.map Shape.id := by
  obtain ⟨rest, hperm, hafter⟩ := h
  have hids := hperm.map Shape.id
  rw [List.map_append] at hids
  refine ⟨rest, hperm, hafter, fun id hid hmem => ?_⟩
  have hold := hclash id hid (hids.mem_iff.mpr (List.mem_append_left _ hmem))
  exact List.disjoint_of_nodup_append (hids.nodup_iff.mp hbefore) hmem hold

/-- An exchange keeps nodes sound if the new ones are, and take no id of one that stays. -/
theorem sound (h : Exchanged old new before after) {ids later : Allocator}
    (hbefore : NodesSound ids before) (hle : ids.floor ≤ later.floor)
    (hnew : NodesSound later new)
    (hclash : ∀ id ∈ new.map Shape.id, id ∈ before.map Shape.id → id ∈ old.map Shape.id) :
    NodesSound later after := by
  obtain ⟨rest, hperm, hafter, hapart⟩ := h.exists_rest hbefore.distinct hclash
  have hrest := (hbefore.perm hperm).sublist (List.sublist_append_left rest old)
  have hstays : NodesSound later rest :=
    ⟨hrest.distinct, hrest.covered.mono hle, hrest.finite⟩
  exact (hstays.append hnew hapart).perm hafter.symm

/-- Such an exchange keeps ids distinct exactly if those of what comes are. -/
theorem nodup_iff (h : Exchanged old new before after) (hbefore : (before.map Shape.id).Nodup)
    (hclash : ∀ id ∈ new.map Shape.id, id ∈ before.map Shape.id → id ∈ old.map Shape.id) :
    (after.map Shape.id).Nodup ↔ (new.map Shape.id).Nodup := by
  obtain ⟨rest, hperm, hafter, hapart⟩ := h.exists_rest hbefore hclash
  have hrest := (hperm.map Shape.id).nodup_iff.mp hbefore
  rw [List.map_append] at hrest
  rw [(hafter.map Shape.id).nodup_iff, List.map_append, List.nodup_append']
  exact ⟨fun hall => hall.2.1,
    fun hnew => ⟨(List.nodup_append'.mp hrest).1, hnew, fun id hmem hid => hapart id hid hmem⟩⟩

end Exchanged

namespace Sound

variable {ids later : Allocator} {shape node changed after : Shape} {front back : List Shape}

/-- A subtree of a sound tree is sound. -/
theorem of_trace (h : shape.Sound ids) (htrace : shape.trace = front ++ node.trace ++ back) :
    node.Sound ids := by
  rw [← nodesSound_trace, htrace] at h
  exact nodesSound_trace.mp (h.sublist
    ((List.sublist_append_right front _).trans (List.sublist_append_left _ back)))

/-- A subtree of a sound tree can be exchanged for a sound one that takes no id outside
it. -/
theorem splice (h : shape.Sound ids) (htrace : shape.trace = front ++ node.trace ++ back)
    (hafter : after.trace = front ++ changed.trace ++ back) (hle : ids.floor ≤ later.floor)
    (hchanged : changed.Sound later)
    (hids : ∀ id ∈ changed.ids, id ∈ shape.ids → id ∈ node.ids) : after.Sound later := by
  rw [← nodesSound_trace] at h ⊢
  rw [hafter]
  rw [htrace] at h
  refine (Exchanged.middle front back).sound h hle (nodesSound_trace.mpr hchanged) ?_
  intro id hid hmem
  rw [← ids_eq_map_trace] at hid ⊢
  rw [← htrace, ← ids_eq_map_trace] at hmem
  exact hids id hid hmem

/-- What is found in a sound tree is sound. -/
theorem of_find? {id : NodeId} (h : shape.Sound ids) (hnode : shape.find? id = some node) :
    node.Sound ids := by
  obtain ⟨front, back, htrace, -⟩ := exists_splice hnode
  exact h.of_trace htrace

/-- What is found can be changed into a sound tree that takes no id outside it. -/
theorem update {id : NodeId} (h : shape.Sound ids) (hnode : shape.find? id = some node)
    (hle : ids.floor ≤ later.floor) (hchanged : changed.Sound later)
    (hids : ∀ id ∈ changed.ids, id ∈ shape.ids → id ∈ node.ids) :
    ((shape.update? id fun _ => changed).getD shape).Sound later := by
  obtain ⟨front, back, htrace, hchange⟩ := exists_splice hnode
  obtain ⟨tree, hupdate, hafter⟩ := hchange fun _ => changed
  rw [hupdate, Option.getD_some]
  exact h.splice htrace hafter hle hchanged hids

end Sound

end SdfScene.Shape
