import Mathlib.Data.List.Nodup
import SdfScene.Proofs.Shape.Nodes

/-!
# Searching and changing a tree

A search is one through the list of nodes, so where ids are distinct it finds every node
by its id. A change of one subtree replaces the segment of this subtree in the list of
nodes, and what stands before and after the segment does not depend on the change.
-/

namespace SdfScene.Shape

/-! Searching. -/

private theorem findIn?_eq_find?_flatMap (wanted : NodeId) (shapes : List Shape)
    (hshapes : ∀ shape ∈ shapes,
      shape.find? wanted = shape.nodes.find? fun node => node.id = wanted) :
    findIn? wanted shapes = (shapes.flatMap nodes).find? fun node => node.id = wanted := by
  induction shapes with
  | nil => rfl
  | cons shape shapes ih =>
    obtain ⟨hshape, hrest⟩ := List.forall_mem_cons.mp hshapes
    rw [findIn?, hshape, ih hrest, List.flatMap_cons, List.find?_append]

/-- A search goes through the list of nodes. -/
theorem find?_eq_find?_nodes (wanted : NodeId) (shape : Shape) :
    shape.find? wanted = shape.nodes.find? fun node => node.id = wanted := by
  induction shape with
  | primitive body transform color id =>
    by_cases h : id = wanted <;> simp [find?, nodes, Shape.id, h]
  | custom content transform id =>
    by_cases h : id = wanted <;> simp [find?, nodes, Shape.id, h]
  | combinator kind children smoothness transform id ih =>
    rw [find?, findIn?_eq_find?_flatMap wanted children ih, nodes_combinator, List.find?_cons]
    by_cases h : id = wanted <;> simp [Shape.id, h]

/-- A search in a list of trees goes through the nodes of one after the other. -/
theorem findIn?_eq_find?_nodesIn (wanted : NodeId) (shapes : List Shape) :
    findIn? wanted shapes = (nodesIn shapes).find? fun node => node.id = wanted := by
  rw [nodesIn_eq_flatMap]
  exact findIn?_eq_find?_flatMap wanted shapes fun shape _ => find?_eq_find?_nodes wanted shape

/-- What is found is a node of the tree. -/
theorem mem_nodes_of_find? {wanted : NodeId} {shape node : Shape}
    (h : shape.find? wanted = some node) : node ∈ shape.nodes := by
  rw [find?_eq_find?_nodes] at h
  exact List.mem_of_find?_eq_some h

/-- What is found has the wanted id. -/
theorem id_of_find? {wanted : NodeId} {shape node : Shape}
    (h : shape.find? wanted = some node) : node.id = wanted := by
  rw [find?_eq_find?_nodes] at h
  simpa using List.find?_some h

/-- A search finds something exactly for the ids of the tree. -/
theorem isSome_find? {wanted : NodeId} {shape : Shape} :
    (shape.find? wanted).isSome ↔ wanted ∈ shape.ids := by
  rw [find?_eq_find?_nodes, List.find?_isSome, ids, List.mem_map]
  simp

theorem idsIn_eq_map_nodesIn (shapes : List Shape) :
    idsIn shapes = (nodesIn shapes).map Shape.id := by
  rw [nodesIn_eq_flatMap, List.map_flatMap]
  rfl

/-- A search in a list of trees finds something exactly for their ids. -/
theorem isSome_findIn? {wanted : NodeId} {shapes : List Shape} :
    (findIn? wanted shapes).isSome ↔ wanted ∈ idsIn shapes := by
  rw [findIn?_eq_find?_nodesIn, List.find?_isSome, idsIn_eq_map_nodesIn, List.mem_map]
  simp only [decide_eq_true_eq]

/-- The ids that a tree contains are those of its nodes. -/
theorem contains_iff {wanted : NodeId} {shape : Shape} :
    shape.contains wanted ↔ wanted ∈ shape.ids :=
  isSome_find?

theorem find?_eq_none {wanted : NodeId} {shape : Shape} :
    shape.find? wanted = none ↔ wanted ∉ shape.ids := by
  rw [← isSome_find?, Bool.not_eq_true, Option.isSome_eq_false_iff, Option.isNone_iff_eq_none]

/-- A tree is what it has under the id of its root. -/
theorem find?_self (shape : Shape) : shape.find? shape.id = some shape := by
  cases shape <;> simp only [find?, Shape.id, ite_true]

private theorem find?_id_of_mem {nodes : List Shape} {node : Shape}
    (honce : (nodes.map Shape.id).count node.id ≤ 1) (hnode : node ∈ nodes) :
    (nodes.find? fun other => other.id = node.id) = some node := by
  obtain ⟨front, back, rfl⟩ := List.append_of_mem hnode
  rw [List.map_append, List.map_cons, List.count_append, List.count_cons_self] at honce
  have hfront : node.id ∉ front.map Shape.id := List.count_eq_zero.mp (by omega)
  rw [List.find?_eq_some_iff_append]
  refine ⟨decide_eq_true rfl, front, back, rfl, fun other hother => ?_⟩
  simpa using fun hid : other.id = node.id => hfront (hid ▸ List.mem_map_of_mem hother)

/-- A node whose id no other node has is found by it. -/
theorem find?_of_count_le_one {shape node : Shape} (honce : shape.ids.count node.id ≤ 1)
    (hnode : node ∈ shape.nodes) : shape.find? node.id = some node := by
  rw [find?_eq_find?_nodes]
  exact find?_id_of_mem honce hnode

/-- Where ids are distinct, every node is found by its id. -/
theorem find?_of_mem_nodes {shape node : Shape} (hdistinct : shape.ids.Nodup)
    (hnode : node ∈ shape.nodes) : shape.find? node.id = some node :=
  find?_of_count_le_one (List.nodup_iff_count_le_one.mp hdistinct _) hnode

theorem findIn?_of_mem_nodesIn {shapes : List Shape} {node : Shape}
    (hdistinct : (idsIn shapes).Nodup) (hnode : node ∈ nodesIn shapes) :
    findIn? node.id shapes = some node := by
  rw [idsIn_eq_map_nodesIn, List.nodup_iff_count_le_one] at hdistinct
  rw [findIn?_eq_find?_nodesIn]
  exact find?_id_of_mem (hdistinct node.id) hnode

/-- The nodes of a node are nodes of the tree. -/
theorem nodes_subset_of_mem {shape node : Shape} (hnode : node ∈ shape.nodes) :
    node.nodes ⊆ shape.nodes := by
  induction shape with
  | primitive => rw [List.mem_singleton.mp hnode]; exact List.Subset.refl _
  | custom => rw [List.mem_singleton.mp hnode]; exact List.Subset.refl _
  | combinator kind children smoothness transform id ih =>
    rw [nodes_combinator] at hnode ⊢
    rcases List.mem_cons.mp hnode with rfl | hbelow
    · rw [nodes_combinator]
      exact List.Subset.refl _
    · obtain ⟨child, hchild, hmem⟩ := List.mem_flatMap.mp hbelow
      intro other hother
      exact List.mem_cons_of_mem _
        (List.mem_flatMap.mpr ⟨child, hchild, ih child hchild hmem hother⟩)

/-! Children. -/

/-- A combinator is determined by its own fields and its children. -/
theorem trace_of_children? {shape : Shape} {children : List Shape}
    (h : shape.children? = some children) : shape.trace = shape.bare :: traceIn children := by
  rw [trace_eq_cons, h, Option.getD_some]

/-- A combinator with other children keeps its own fields. -/
theorem trace_withChildren {shape : Shape} {children : List Shape}
    (h : shape.children? = some children) (others : List Shape) :
    (shape.withChildren others).trace = shape.bare :: traceIn others := by
  cases shape with
  | primitive => cases h
  | custom => cases h
  | combinator kind inner smoothness transform id =>
    exact trace_combinator kind others smoothness transform id

/-- The children of a node are nodes of the tree. -/
theorem mem_nodes_of_children? {shape : Shape} {children : List Shape}
    (h : shape.children? = some children) : ∀ child ∈ children, child ∈ shape.nodes := by
  cases shape with
  | primitive => cases h
  | custom => cases h
  | combinator kind inner smoothness transform id =>
    cases h
    intro child hchild
    rw [nodes_combinator]
    exact List.mem_cons_of_mem _
      (List.mem_flatMap.mpr ⟨child, hchild, self_mem_nodes child⟩)

/-- Children of a tree with distinct ids have distinct ids. -/
theorem nodup_map_id {shapes : List Shape} (h : (idsIn shapes).Nodup) :
    (shapes.map Shape.id).Nodup := by
  refine h.sublist ?_
  induction shapes with
  | nil => exact List.Sublist.refl _
  | cons shape shapes ih =>
    rw [idsIn_cons] at h ⊢
    have hroot : [shape.id].Sublist shape.ids := List.singleton_sublist.mpr (id_mem_ids shape)
    exact hroot.append (ih (List.nodup_append'.mp h).2.1)

/-- A child with an id is there exactly if an id of a child is this one. -/
theorem hasChild_iff {id : NodeId} {children : List Shape} :
    hasChild id children ↔ ∃ child ∈ children, child.id = id := by
  simp only [hasChild, List.any_eq_true, decide_eq_true_eq]

/-- A child under an id that no child has goes to the end. -/
theorem putChild_eq_append {child : Shape} {children : List Shape}
    (h : hasChild child.id children = false) : putChild child children = children ++ [child] := by
  induction children with
  | nil => rfl
  | cons other others ih =>
    simp only [hasChild, List.any_cons, Bool.or_eq_false_iff, decide_eq_false_iff_not] at h
    rw [putChild, ite_cond_eq_false _ _ (eq_false h.1), ih h.2, List.cons_append]

/-! Changing a subtree. -/

/-- Under the id of its root the whole tree is changed. -/
theorem update?_self (change : Shape → Shape) (shape : Shape) :
    shape.update? shape.id change = some (change shape) := by
  cases shape <;> simp only [update?, Shape.id, ite_true]

private theorem updateIn?_eq_none {wanted : NodeId} {change : Shape → Shape} {shapes : List Shape}
    (hshapes : ∀ shape ∈ shapes, shape.find? wanted = none → shape.update? wanted change = none)
    (h : findIn? wanted shapes = none) : updateIn? wanted change shapes = none := by
  induction shapes with
  | nil => rfl
  | cons shape shapes ih =>
    obtain ⟨hshape, hrest⟩ := List.forall_mem_cons.mp hshapes
    rw [findIn?, Option.or_eq_none_iff] at h
    rw [updateIn?, hshape h.1, ih hrest h.2]
    rfl

/-- Nothing is changed where nothing is found. -/
theorem update?_eq_none {wanted : NodeId} {change : Shape → Shape} {shape : Shape}
    (h : shape.find? wanted = none) : shape.update? wanted change = none := by
  induction shape with
  | primitive body transform color id =>
    by_cases hid : id = wanted <;> simp [find?, update?, Shape.id, hid] at h ⊢
  | custom content transform id =>
    by_cases hid : id = wanted <;> simp [find?, update?, Shape.id, hid] at h ⊢
  | combinator kind children smoothness transform id ih =>
    by_cases hid : id = wanted
    · simp [find?, hid] at h
    · simp only [find?, hid, ite_false] at h
      simp only [update?, hid, ite_false, updateIn?_eq_none ih h, Option.map_none]

private theorem exists_spliceIn {wanted : NodeId} {node : Shape} {shapes : List Shape}
    (hshapes : ∀ shape ∈ shapes, shape.find? wanted = some node →
      ∃ front back, shape.trace = front ++ node.trace ++ back ∧
        ∀ change, ∃ changed, shape.update? wanted change = some changed ∧
          changed.trace = front ++ (change node).trace ++ back)
    (h : findIn? wanted shapes = some node) :
    ∃ front back, traceIn shapes = front ++ node.trace ++ back ∧
      ∀ change, ∃ changed, updateIn? wanted change shapes = some changed ∧
        traceIn changed = front ++ (change node).trace ++ back := by
  induction shapes with
  | nil => cases h
  | cons shape shapes ih =>
    obtain ⟨hshape, hrest⟩ := List.forall_mem_cons.mp hshapes
    cases hfound : shape.find? wanted with
    | some found =>
      rw [findIn?, hfound, Option.some_or] at h
      obtain ⟨front, back, htrace, hchange⟩ := hshape (hfound.trans h)
      refine ⟨front, back ++ traceIn shapes, ?_, fun change => ?_⟩
      · rw [traceIn_cons, htrace, List.append_assoc]
      · obtain ⟨changed, hupdate, hafter⟩ := hchange change
        refine ⟨changed :: shapes, by rw [updateIn?, hupdate], ?_⟩
        rw [traceIn_cons, hafter, List.append_assoc]
    | none =>
      rw [findIn?, hfound, Option.none_or] at h
      obtain ⟨front, back, htrace, hchange⟩ := ih hrest h
      refine ⟨shape.trace ++ front, back, ?_, fun change => ?_⟩
      · simp only [traceIn_cons, htrace, List.append_assoc]
      · obtain ⟨changed, hupdate, hafter⟩ := hchange change
        refine ⟨shape :: changed, by rw [updateIn?, update?_eq_none hfound, hupdate]; rfl, ?_⟩
        simp only [traceIn_cons, hafter, List.append_assoc]

private theorem exists_splice_root {wanted : NodeId} {shape node : Shape}
    (hroot : shape.id = wanted) (h : shape.find? wanted = some node) :
    ∃ front back, shape.trace = front ++ node.trace ++ back ∧
      ∀ change, ∃ changed, shape.update? wanted change = some changed ∧
        changed.trace = front ++ (change node).trace ++ back := by
  subst hroot
  rw [find?_self, Option.some.injEq] at h
  subst h
  exact ⟨[], [], by simp, fun change => ⟨change shape, update?_self change shape, by simp⟩⟩

/-- The nodes of the subtree that is found stand together in the list of nodes, and a change
of the subtree replaces them there and nothing else. -/
theorem exists_splice {wanted : NodeId} {shape node : Shape}
    (h : shape.find? wanted = some node) :
    ∃ front back, shape.trace = front ++ node.trace ++ back ∧
      ∀ change, ∃ changed, shape.update? wanted change = some changed ∧
        changed.trace = front ++ (change node).trace ++ back := by
  induction shape with
  | primitive body transform color id =>
    have hroot : (primitive body transform color id).id = wanted :=
      (List.mem_singleton.mp (mem_nodes_of_find? h)) ▸ id_of_find? h
    exact exists_splice_root hroot h
  | custom content transform id =>
    have hroot : (custom content transform id).id = wanted :=
      (List.mem_singleton.mp (mem_nodes_of_find? h)) ▸ id_of_find? h
    exact exists_splice_root hroot h
  | combinator kind children smoothness transform id ih =>
    by_cases hid : id = wanted
    · exact exists_splice_root hid h
    · simp only [find?, hid, ite_false] at h
      obtain ⟨front, back, htrace, hchange⟩ := exists_spliceIn ih h
      refine ⟨.combinator kind [] smoothness transform id :: front, back, ?_, fun change => ?_⟩
      · simp only [trace_combinator, htrace, List.cons_append]
      · obtain ⟨changed, hupdate, hafter⟩ := hchange change
        refine ⟨.combinator kind changed smoothness transform id, ?_, ?_⟩
        · simp only [update?, hid, ite_false, hupdate, Option.map_some]
        · simp only [trace_combinator, hafter, List.cons_append]

/-- The same holds of a list of trees. -/
theorem exists_splice_list {wanted : NodeId} {shapes : List Shape} {node : Shape}
    (h : findIn? wanted shapes = some node) :
    ∃ front back, traceIn shapes = front ++ node.trace ++ back ∧
      ∀ change, ∃ changed, updateIn? wanted change shapes = some changed ∧
        traceIn changed = front ++ (change node).trace ++ back :=
  exists_spliceIn (fun _ _ hfound => exists_splice hfound) h

/-- Nothing is changed in a list of trees where nothing is found. -/
theorem updateIn?_eq_none_of_notMem {wanted : NodeId} {change : Shape → Shape}
    {shapes : List Shape} (h : findIn? wanted shapes = none) :
    updateIn? wanted change shapes = none :=
  updateIn?_eq_none (fun _ _ hfound => update?_eq_none hfound) h

end SdfScene.Shape
