import Mathlib.Algebra.GroupWithZero.Nat
import SdfScene.Proofs.Shape.Splitting

/-!
# The shape of a split tree

A split tree is the tree itself with new combinators put into it: without them its nodes
are those of the tree in the same order. Each new combinator hangs, as the last child of
the one before it, below the wide combinator that it was split from, and no combinator has
more than two children.
-/

namespace SdfScene.Shape

/-- How many children a node has beyond two. -/
def excess (shape : Shape) : Nat := (shape.children?.getD []).length - 2

/-- The splits of several trees are those of one after the other. -/
theorem splitsIn_eq_sum (shapes : List Shape) : splitsIn shapes = (shapes.map splits).sum := by
  induction shapes with
  | nil => rfl
  | cons shape shapes ih => rw [splitsIn, ih, List.map_cons, List.sum_cons]

/-- One split is made for every child beyond the second of any node. -/
theorem splits_eq_sum_excess (shape : Shape) : shape.splits = (shape.nodes.map excess).sum := by
  induction shape with
  | primitive => rfl
  | custom => rfl
  | combinator kind children smoothness transform id ih =>
    rw [splits, nodes_combinator, List.map_cons, List.sum_cons, List.map_flatMap,
      List.flatMap_def, List.sum_flatten, List.map_map, splitsIn_eq_sum, List.map_congr_left ih]
    rfl

/-- Where nothing is left to split, no node has more than two children. -/
theorem excess_eq_zero {shape node : Shape} (h : shape.splits = 0) (hnode : node ∈ shape.nodes) :
    node.excess = 0 := by
  rw [splits_eq_sum_excess, List.sum_eq_zero_iff_forall_eq_nat] at h
  exact h _ (List.mem_map_of_mem hnode)

/-! The order of the nodes. What tells the new nodes from the others is their ids: those of
the tree are kept, and those issued above the floor are not. -/

section Order

variable {keep : NodeId → Bool}

private theorem filter_traceIn_splitRow (kind : CombinatorKind) (smoothness : Single)
    (transform : Transform) (floor : Nat) (children : List Shape)
    (hold : ∀ id ∈ idsIn children, keep id = true)
    (hnew : ∀ n, floor < n → n ≤ floor + ((children.length - 2) + splitsIn children) →
      keep (.ofNumber n) = false)
    (hchildren : ∀ child ∈ children, ∀ floor, (∀ id ∈ child.ids, keep id = true) →
      (∀ n, floor < n → n ≤ floor + child.splits → keep (.ofNumber n) = false) →
        (splitAbove floor child).trace.filter (fun node => keep node.id) = child.trace) :
    (traceIn (splitRow kind smoothness transform floor children)).filter
      (fun node => keep node.id) = traceIn children := by
  induction floor, children using rowInduction with
  | nil floor => rfl
  | one floor only =>
    simp only [idsIn_cons, idsIn_nil, List.append_nil, splitsIn, List.length_cons] at hold hnew
    rw [splitRow, traceIn_cons, traceIn_nil, List.append_nil, traceIn_cons, traceIn_nil,
      List.append_nil]
    exact hchildren only List.mem_cons_self floor hold fun n hlow hhigh => hnew n hlow (by omega)
  | two floor first second =>
    simp only [idsIn_cons, idsIn_nil, List.append_nil, List.forall_mem_append, splitsIn,
      List.length_cons] at hold hnew
    have hone := hchildren first List.mem_cons_self floor hold.1
      fun n hlow hhigh => hnew n hlow (by omega)
    have htwo := hchildren second (List.mem_cons_of_mem _ List.mem_cons_self)
      (floor + splits first) hold.2 fun n hlow hhigh => hnew n (by omega) (by omega)
    simp only [splitRow, traceIn_cons, traceIn_nil, List.append_nil, List.filter_append, hone,
      htwo]
  | wide floor first second third others ih =>
    rw [idsIn_cons, List.forall_mem_append] at hold
    simp only [splitsIn, List.length_cons] at hnew ih
    have hone := hchildren first List.mem_cons_self (floor + 1) hold.1
      fun n hlow hhigh => hnew n (by omega) (by omega)
    have hrest := ih hold.2 (fun n hlow hhigh => hnew n (by omega) (by omega))
      fun child hchild => hchildren child (List.mem_cons_of_mem _ hchild)
    have hissued : keep (.ofNumber (floor + 1)) = false :=
      hnew (floor + 1) (Nat.lt_succ_self floor) (by omega)
    rw [splitRow, traceIn_cons, traceIn_cons, traceIn_nil, List.append_nil, trace_combinator,
      List.filter_append, hone, List.filter_cons_of_neg (by simpa [id] using hissued), hrest,
      traceIn_cons first]

/-- Without the new nodes, the nodes of a split tree are those of the tree in their order. -/
theorem filter_trace_splitAbove (floor : Nat) (shape : Shape)
    (hold : ∀ id ∈ shape.ids, keep id = true)
    (hnew : ∀ n, floor < n → n ≤ floor + shape.splits → keep (.ofNumber n) = false) :
    (splitAbove floor shape).trace.filter (fun node => keep node.id) = shape.trace := by
  induction shape generalizing floor with
  | primitive body transform color id =>
    exact List.filter_cons_of_pos (hold id (List.mem_singleton_self id))
  | custom content transform id =>
    exact List.filter_cons_of_pos (hold id (List.mem_singleton_self id))
  | combinator kind children smoothness transform id ih =>
    rw [ids_combinator, List.forall_mem_cons] at hold
    have hrow := filter_traceIn_splitRow kind smoothness transform floor children hold.2 hnew ih
    rw [splitAbove, trace_combinator, trace_combinator,
      List.filter_cons_of_pos (by simpa [Shape.id] using hold.1), hrow]

end Order

/-! Where the new nodes hang. -/

/-- The combinators that a split combinator has become: itself and, as the last child of the
one before it, the next new one. -/
inductive Spine (isNew : NodeId → Prop) (origin : Shape) : Shape → Prop
  | origin : Spine isNew origin origin
  | next {node first last : Shape} (hnode : Spine isNew origin node)
      (hchildren : node.children? = some [first, last]) (hlast : isNew last.id) :
      Spine isNew origin last

/-- A node is one that a wide combinator of the tree before has become in the tree after: it
is on the spine of that combinator and has its kind, its smoothness and its transform. -/
def SplitOff (isNew : NodeId → Prop) (before after node : Shape) : Prop :=
  ∃ kind children smoothness transform id,
    combinator kind children smoothness transform id ∈ before.nodes ∧ 2 < children.length ∧
      (∃ halves, combinator kind halves smoothness transform id ∈ after.nodes ∧
        Spine isNew (combinator kind halves smoothness transform id) node) ∧
      ∃ halves, node = combinator kind halves smoothness transform node.id

section Spine

variable {isNew : NodeId → Prop}

/-- Larger trees have the same spines and more. -/
private theorem SplitOff.mono {before after larger wider node : Shape}
    (h : SplitOff isNew before after node) (hbefore : before.nodes ⊆ larger.nodes)
    (hafter : after.nodes ⊆ wider.nodes) : SplitOff isNew larger wider node := by
  obtain ⟨kind, children, smoothness, transform, id, hmem, hwide, ⟨halves, hhalves, hspine⟩,
    hnode⟩ := h
  exact ⟨kind, children, smoothness, transform, id, hbefore hmem, hwide,
    ⟨halves, hafter hhalves, hspine⟩, hnode⟩

/-- A node below a split row is one of a split child, or it is on the spine of the combinator
above the row. -/
private theorem spine_splitRow (origin : Shape) (kind : CombinatorKind) (smoothness : Single)
    (transform : Transform) (floor : Nat) (children : List Shape)
    (hnew : ∀ n, floor < n → n ≤ floor + ((children.length - 2) + splitsIn children) →
      isNew (.ofNumber n)) :
    ∀ above, Spine isNew origin above →
      above.children? = some (splitRow kind smoothness transform floor children) →
      ∀ node ∈ (splitRow kind smoothness transform floor children).flatMap nodes,
        (∃ child ∈ children, ∃ later, node ∈ (splitAbove later child).nodes ∧
          (splitAbove later child).nodes ⊆
            (splitRow kind smoothness transform floor children).flatMap nodes ∧
          ∀ n, later < n → n ≤ later + child.splits → isNew (.ofNumber n)) ∨
        (2 < children.length ∧ Spine isNew origin node ∧
          ∃ halves, node = combinator kind halves smoothness transform node.id) := by
  induction floor, children using rowInduction with
  | nil floor => exact fun _ _ _ node hnode => absurd hnode List.not_mem_nil
  | one floor only =>
    intro _ _ _ node hnode
    simp only [splitsIn, List.length_cons] at hnew
    refine Or.inl ⟨only, List.mem_cons_self, floor, ?_, ?_, fun n hlow hhigh =>
      hnew n hlow (by omega)⟩
    · simpa [splitRow] using hnode
    · simp [splitRow]
  | two floor first second =>
    intro _ _ _ node hnode
    simp only [splitsIn, List.length_cons] at hnew
    simp only [splitRow, List.flatMap_cons, List.flatMap_nil, List.append_nil] at hnode ⊢
    rcases List.mem_append.mp hnode with hmem | hmem
    · exact Or.inl ⟨first, List.mem_cons_self, floor, hmem, List.subset_append_left _ _,
        fun n hlow hhigh => hnew n hlow (by omega)⟩
    · exact Or.inl ⟨second, List.mem_cons_of_mem _ List.mem_cons_self, floor + splits first, hmem,
        List.subset_append_right _ _, fun n hlow hhigh => hnew n (by omega) (by omega)⟩
  | wide floor first second third others ih =>
    intro above habove hrow node hnode
    have hlength : 2 < (first :: second :: third :: others).length := by simp
    simp only [splitsIn, List.length_cons] at hnew ih
    have hissued : isNew (.ofNumber (floor + 1)) :=
      hnew (floor + 1) (Nat.lt_succ_self floor) (by omega)
    rw [splitRow] at hrow
    have hlast := Spine.next habove hrow hissued
    rw [splitRow, List.flatMap_cons, List.flatMap_cons, List.flatMap_nil, List.append_nil,
      nodes_combinator] at hnode ⊢
    rcases List.mem_append.mp hnode with hmem | hmem
    · exact Or.inl ⟨first, List.mem_cons_self, floor + 1, hmem, List.subset_append_left _ _,
        fun n hlow hhigh => hnew n (by omega) (by omega)⟩
    rcases List.mem_cons.mp hmem with rfl | hmem
    · exact Or.inr ⟨hlength, hlast, _, rfl⟩
    rcases ih (fun n hlow hhigh => hnew n (by omega) (by omega)) _ hlast rfl node hmem with
      ⟨child, hchild, later, hin, hsub, hbelow⟩ | ⟨-, hspine, hhalves⟩
    · refine Or.inl ⟨child, List.mem_cons_of_mem _ hchild, later, hin, fun other hother => ?_,
        hbelow⟩
      exact List.mem_append_right _ (List.mem_cons_of_mem _ (hsub hother))
    · exact Or.inr ⟨hlength, hspine, hhalves⟩

/-- Every new node of a split tree was split off a wide combinator of the tree. -/
theorem splitOff_splitAbove (floor : Nat) (shape : Shape) (hold : ∀ id ∈ shape.ids, ¬ isNew id)
    (hnew : ∀ n, floor < n → n ≤ floor + shape.splits → isNew (.ofNumber n)) {node : Shape}
    (hnode : node ∈ (splitAbove floor shape).nodes) (hisNew : isNew node.id) :
    SplitOff isNew shape (splitAbove floor shape) node := by
  induction shape generalizing floor with
  | primitive body transform color id =>
    rw [List.mem_singleton.mp hnode] at hisNew
    exact absurd hisNew (hold id (List.mem_singleton_self id))
  | custom content transform id =>
    rw [List.mem_singleton.mp hnode] at hisNew
    exact absurd hisNew (hold id (List.mem_singleton_self id))
  | combinator kind children smoothness transform id ih =>
    rw [ids_combinator, List.forall_mem_cons] at hold
    rw [splitAbove, nodes_combinator] at hnode
    rcases List.mem_cons.mp hnode with rfl | hbelow
    · exact absurd hisNew hold.1
    have hrow := spine_splitRow
      (combinator kind (splitRow kind smoothness transform floor children) smoothness transform id)
      kind smoothness transform floor children hnew _ .origin rfl node hbelow
    rcases hrow with ⟨child, hchild, later, hin, hsub, hissued⟩ | ⟨hwide, hspine, hhalves⟩
    · have hoff := ih child hchild later (fun id hid => hold.2 id (ids_subset_idsIn hchild hid))
        hissued hin
      refine hoff.mono (fun other hother => ?_) fun other hother => ?_
      · rw [nodes_combinator]
        exact List.mem_cons_of_mem _ (List.mem_flatMap.mpr ⟨child, hchild, hother⟩)
      · rw [splitAbove, nodes_combinator]
        exact List.mem_cons_of_mem _ (hsub hother)
    · exact ⟨kind, children, smoothness, transform, id, self_mem_nodes _, hwide,
        ⟨_, self_mem_nodes _, hspine⟩, hhalves⟩

end Spine

end SdfScene.Shape
