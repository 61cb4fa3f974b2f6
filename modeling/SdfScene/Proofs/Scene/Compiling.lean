import SdfScene.Proofs.Scene.Targets
import SdfScene.Scene.Desk

/-!
# What lowering leaves of a scene

One step of lowering, described to the last node: the new nodes, the nodes below the one that
is lowered, and those outside it. And any number of steps, described by what they have in
common: every node stays, with some splits made, for each of which an id was issued.
-/

namespace SdfScene

open Shape

namespace Scene

variable {scene : Scene} {ids : Allocator}

/-- The splits of a node have been made in its place. -/
structure SplitInPlace (node flat : Shape) (issued : List NodeId) (before after : Scene) :
    Prop where
  /-- No combinator has more than two children. -/
  narrow : ∀ part ∈ flat.nodes, (part.children?.getD []).length ≤ 2
  found : after.tree.find? node.id = some flat
  ids : after.tree.ids.Perm (before.tree.ids ++ issued)
  /-- The new nodes are below the node, each split off one that was too wide. -/
  added : ∀ part ∈ after.tree.nodes, part.id ∈ issued →
    part ∈ flat.nodes ∧ SplitOff (· ∈ issued) node flat part
  /-- Without them, the nodes are as they were and in the order that they had. -/
  below : flat.trace.filter (fun part => part.id ∉ issued) = node.trace
  kept : after.tree.trace.filter (fun part => part.id ∉ issued) = before.tree.trace
  /-- What is not below the node has its children as before, and they are unchanged unless
  the node is among them. -/
  outside : ∀ other ∈ before.tree.nodes, other.id ∉ node.ids →
    ∃ same, after.tree.find? other.id = some same ∧ same.bare = other.bare ∧
      same.children?.map (List.map Shape.id) = other.children?.map (List.map Shape.id) ∧
      (node.id ∉ other.ids → same = other)

/-- Splitting a node in its place splits what is below it and leaves the rest. -/
theorem Numbered.splitInPlace (h : scene.Numbered ids) {after : Scene} {node : Shape}
    (hroom : ids.floor + node.splits < 2 ^ 64)
    (hswapped : Swapped node.id node (node.splitAbove ids.floor) scene.tree after.tree) :
    SplitInPlace node (node.splitAbove ids.floor) (ids.upcoming node.splits) scene after := by
  have hid : (node.splitAbove ids.floor).id = node.id := id_splitAbove ids.floor node
  obtain ⟨hperm, hafter⟩ := h.swapped .inPlace hroom hswapped
  have hfree : ∀ id ∈ scene.tree.ids, id ∉ ids.upcoming node.splits :=
    fun id hid => h.covered.disjoint_upcoming hroom hid
  have hbelow : ∀ id ∈ node.ids, id ∉ ids.upcoming node.splits := fun id hin =>
    hfree id (List.map_subset Shape.id
      (nodes_subset_of_mem (mem_nodes_of_find? hswapped.find?_old)) hin)
  have hissued : ∀ n, ids.floor < n → n ≤ ids.floor + node.splits →
      NodeId.ofNumber n ∈ ids.upcoming node.splits := fun n hlow hhigh =>
    List.mem_map_of_mem (List.mem_range'_1.mpr ⟨hlow, by omega⟩)
  have hflat : (node.splitAbove ids.floor).trace.filter
      (fun part => part.id ∉ ids.upcoming node.splits) = node.trace :=
    filter_trace_splitAbove ids.floor node (fun id hin => decide_eq_true (hbelow id hin))
      fun n hlow hhigh => decide_eq_false (not_not_intro (hissued n hlow hhigh))
  refine ⟨fun part hpart => Nat.sub_eq_zero_iff_le.mp
      (excess_eq_zero (splits_splitAbove ids.floor node) hpart),
    hswapped.find?_new hid, hperm, fun part hpart hnew => ?_, hflat, ?_, fun other hother hout => ?_⟩
  · -- A new node is not one of the scene before, so it is below the place.
    have hin : part ∈ (node.splitAbove ids.floor).nodes := by
      rcases (hswapped.symm hid).node_cases hpart with hin | hin | ⟨later, hin, hbare, -⟩
      · exact hin
      · exact absurd hnew (hfree _ (List.mem_map_of_mem hin))
      · have hsame : later.id = part.id := by rw [← id_bare later, hbare, id_bare]
        exact absurd hnew (hsame ▸ hfree _ (List.mem_map_of_mem hin))
    exact ⟨hin, splitOff_splitAbove ids.floor node hbelow hissued hin hnew⟩
  · obtain ⟨front, back, hbefore, htrace⟩ := hswapped.exists_splice
    have hkeep : ∀ part ∈ scene.tree.trace, part.id ∉ ids.upcoming node.splits := fun part hpart =>
      hfree _ (ids_eq_map_trace scene.tree ▸ List.mem_map_of_mem hpart)
    rw [hbefore] at hkeep ⊢
    simp only [List.forall_mem_append] at hkeep
    rw [htrace, List.filter_append, List.filter_append, hflat,
      List.filter_eq_self.mpr fun part hpart => decide_eq_true (hkeep.1.1 part hpart),
      List.filter_eq_self.mpr fun part hpart => decide_eq_true (hkeep.2 part hpart)]
  · have habove : other.id ≠ node.id := fun heq => hout (heq ▸ id_mem_ids node)
    rcases hswapped.node_cases hother with hin | hin | ⟨later, hin, hbare, hthere⟩
    · exact absurd (List.mem_map_of_mem hin) hout
    · exact ⟨other, find?_of_mem_nodes hafter.distinct hin, rfl, rfl, fun _ => rfl⟩
    · have hsame : later.id = other.id := by rw [← id_bare later, hbare, id_bare]
      refine ⟨later, hsame ▸ find?_of_mem_nodes hafter.distinct hin, hbare,
        hthere.child_ids_eq hid habove, fun hnone => absurd ?_ hnone⟩
      exact isSome_find?.mp (Option.isSome_of_eq_some hthere.find?_old)

end Scene

namespace Desk

/-- One desk comes after another by lowering nodes of its scene: the ids that were issued lie
between the floors, every node is still there with some splits made, and the shapes below
the root have their ids. -/
structure Compiled (before after : Desk) : Prop where
  floor_le : before.ids.floor ≤ after.ids.floor
  numbered : after.scene.Numbered after.ids
  retains : Retains (after.ids.floor - before.ids.floor) before.scene.tree after.scene.tree
  displayed : after.scene.shapes.map Shape.id = before.scene.shapes.map Shape.id

namespace Compiled

theorem refl {desk : Desk} (h : desk.scene.Numbered desk.ids) : Compiled desk desk :=
  ⟨Nat.le_refl _, h, .refl _ _, rfl⟩

theorem trans {before between after : Desk} (h : Compiled before between)
    (h' : Compiled between after) : Compiled before after := by
  have hle := h.floor_le
  have hle' := h'.floor_le
  refine ⟨Nat.le_trans hle hle', h'.numbered, ?_, h'.displayed.trans h.displayed⟩
  have hsum : after.ids.floor - before.ids.floor =
      (between.ids.floor - before.ids.floor) + (after.ids.floor - between.ids.floor) := by
    omega
  exact hsum ▸ h.retains.trans h'.retains

/-- Putting the splits of a target in its place is such a step. -/
theorem of_swapped {desk after : Desk} (h : desk.scene.Numbered desk.ids) {id : Option NodeId}
    {node : Shape} {mode : FlattenMode} (htarget : desk.scene.target? id = some node)
    (hroom : desk.ids.floor + mode.issued node.splits < 2 ^ 64)
    (hswapped : Swapped node.id node (mode.split desk.ids.floor node) desk.scene.tree
      after.scene.tree)
    (hids : after.ids = ⟨desk.ids.floor + mode.spent node.splits⟩) : Compiled desk after := by
  have hroot := (h.find?_of_target? htarget).1.symm
  have hchildren := hswapped.child_ids_eq (id_split mode _ node) hroot
  have hissued : after.ids.floor - desk.ids.floor = mode.spent node.splits := by
    rw [hids]
    exact Nat.add_sub_cancel_left _ _
  refine ⟨?_, hids ▸ (h.swapped mode hroom hswapped).2, ?_, Option.some.inj hchildren⟩
  · rw [hids]
    exact Nat.le_add_right _ _
  · rw [hissued]
    exact (retains_split mode _ node).swapped (partlySplit_split mode _ node) hswapped

/-- What was addressed before is addressed after, with some splits made. -/
theorem exists_target {before after : Desk} (h : Compiled before after)
    (hbefore : before.scene.Numbered before.ids) {id : Option NodeId} {node : Shape}
    (htarget : before.scene.target? id = some node) :
    ∃ later, after.scene.target? id = some later ∧
      PartlySplit (after.ids.floor - before.ids.floor) node later := by
  obtain ⟨hroot, hfound⟩ := hbefore.find?_of_target? htarget
  obtain ⟨later, hlater, hsplit⟩ := h.retains node (mem_nodes_of_find? hfound)
  have hid := hsplit.id_eq
  have hthere := find?_of_mem_nodes h.numbered.distinct hlater
  refine ⟨later, ?_, hsplit⟩
  rw [Scene.target?] at htarget ⊢
  split at htarget
  · -- The displayed shape is the first one, and it has the id that it had.
    have hmap := h.displayed
    obtain ⟨others, hshapes⟩ := List.head?_eq_some_iff.mp htarget
    rw [hshapes, List.map_cons, List.map_eq_cons_iff] at hmap
    obtain ⟨first, rest, hafter, hfirst, -⟩ := hmap
    have hmem : first ∈ after.scene.tree.nodes := by
      refine mem_nodes_of_children? rfl first ?_
      rw [hafter]
      exact List.mem_cons_self
    have hsame := find?_of_mem_nodes h.numbered.distinct hmem
    rw [hfirst, ← hid, hthere, Option.some.injEq] at hsame
    rw [Scene.content?, hafter, List.head?_cons, hsame]
  · rw [id_of_find? ((hbefore.find?_tree htarget).2)] at hid hroot
    rw [hid] at hthere
    exact (Scene.find?_tree hroot _).symm.trans hthere

/-- Nothing is addressed anew by no id. -/
theorem content?_eq_none {before after : Desk} (h : Compiled before after)
    (hcontent : before.scene.content? = none) : after.scene.content? = none := by
  have hmap := h.displayed
  rw [Scene.content?, List.head?_eq_none_iff] at hcontent ⊢
  rw [hcontent, List.map_nil, List.map_eq_nil_iff] at hmap
  exact hmap

end Compiled

end Desk

end SdfScene
