import SdfScene.Proofs.Shape.Flattened
import SdfScene.Proofs.Shape.Swapped

/-!
# What splitting retains

Whatever is split somewhere in a tree, every node of the tree is still there, draws what it
drew before and has no more to split than before; and what it has less to split is at most
what was issued. This holds of one split, and of one after the other.
-/

namespace SdfScene.Shape

/-- A node before and after some splits, for which at most so many ids were issued. -/
structure PartlySplit (issued : Nat) (before after : Shape) : Prop where
  bare : after.bare = before.bare
  drawn : ∀ parent, after.drawn? parent = before.drawn? parent
  fewer : after.splits ≤ before.splits
  counted : before.splits ≤ after.splits + issued

namespace PartlySplit

theorem refl (issued : Nat) (shape : Shape) : PartlySplit issued shape shape :=
  ⟨rfl, fun _ => rfl, Nat.le_refl _, Nat.le_add_right _ _⟩

theorem mono {issued more : Nat} {before after : Shape} (h : PartlySplit issued before after)
    (hle : issued ≤ more) : PartlySplit more before after :=
  ⟨h.bare, h.drawn, h.fewer, Nat.le_trans h.counted (Nat.add_le_add_left hle _)⟩

theorem trans {first second : Nat} {before between after : Shape}
    (h : PartlySplit first before between) (h' : PartlySplit second between after) :
    PartlySplit (first + second) before after where
  bare := h'.bare.trans h.bare
  drawn := fun parent => (h'.drawn parent).trans (h.drawn parent)
  fewer := Nat.le_trans h'.fewer h.fewer
  counted := by
    have hfirst := h.counted
    have hsecond := h'.counted
    omega

theorem id_eq {issued : Nat} {before after : Shape} (h : PartlySplit issued before after) :
    after.id = before.id := by
  rw [← id_bare after, h.bare, id_bare]

/-- The whole tree split. -/
theorem splitAbove (floor : Nat) (shape : Shape) :
    PartlySplit shape.splits shape (shape.splitAbove floor) where
  bare := by cases shape <;> rfl
  drawn := fun parent => drawn?_splitAbove parent floor shape
  fewer := by rw [splits_splitAbove]; exact Nat.zero_le _
  counted := Nat.le_add_left _ _

/-- What is split in one place is split so far in all that is above it. -/
theorem swapped {issued : Nat} {wanted : NodeId} {old new before after : Shape}
    (h : PartlySplit issued old new) (hswapped : Swapped wanted old new before after) :
    PartlySplit issued before after := by
  induction hswapped with
  | root _ => exact h
  | inside _ _ _ ih =>
    have hfewer := ih.fewer
    have hcounted := ih.counted
    refine ⟨rfl, fun parent => ?_, ?_, ?_⟩
    · simp only [drawn?, drawnIn_eq_filterMap, List.filterMap_append, List.filterMap_cons, ih.drawn]
    all_goals
      simp only [splits, splitsIn_eq_sum, List.length_append, List.length_cons, List.map_append,
        List.map_cons, List.sum_append, List.sum_cons]
      omega

end PartlySplit

/-- Every node of a tree is in another one, with some splits made. -/
def Retains (issued : Nat) (before after : Shape) : Prop :=
  ∀ node ∈ before.nodes, ∃ later ∈ after.nodes, PartlySplit issued node later

namespace Retains

theorem refl (issued : Nat) (shape : Shape) : Retains issued shape shape :=
  fun node hnode => ⟨node, hnode, .refl issued node⟩

theorem trans {first second : Nat} {before between after : Shape}
    (h : Retains first before between) (h' : Retains second between after) :
    Retains (first + second) before after := by
  intro node hnode
  obtain ⟨next, hnext, hfirst⟩ := h node hnode
  obtain ⟨later, hlater, hsecond⟩ := h' next hnext
  exact ⟨later, hlater, hfirst.trans hsecond⟩

private theorem exists_splitAbove_of_mem (kind : CombinatorKind) (smoothness : Single)
    (transform : Transform) (floor : Nat) (children : List Shape) :
    ∀ child ∈ children, ∃ later, (splitAbove later child).nodes ⊆
      (splitRow kind smoothness transform floor children).flatMap nodes := by
  induction floor, children using rowInduction with
  | nil floor => exact fun _ h => absurd h List.not_mem_nil
  | one floor only =>
    intro child hchild
    rw [List.mem_singleton.mp hchild]
    exact ⟨floor, by simp [splitRow]⟩
  | two floor first second =>
    simp only [splitRow, List.flatMap_cons, List.flatMap_nil, List.append_nil,
      List.forall_mem_cons]
    exact ⟨⟨_, List.subset_append_left _ _⟩, ⟨_, List.subset_append_right _ _⟩,
      fun _ h => absurd h List.not_mem_nil⟩
  | wide floor first second third others ih =>
    rw [splitRow, List.flatMap_cons, List.flatMap_cons, List.flatMap_nil, List.append_nil,
      nodes_combinator]
    refine List.forall_mem_cons.mpr ⟨⟨_, List.subset_append_left _ _⟩, fun child hchild => ?_⟩
    obtain ⟨later, hsub⟩ := ih child hchild
    exact ⟨later, fun node hnode =>
      List.mem_append_right _ (List.mem_cons_of_mem _ (hsub hnode))⟩

/-- A split tree has every node of the tree. -/
theorem splitAbove (floor : Nat) (shape : Shape) :
    Retains shape.splits shape (shape.splitAbove floor) := by
  induction shape generalizing floor with
  | primitive => exact refl _ _
  | custom => exact refl _ _
  | combinator kind children smoothness transform id ih =>
    intro node hnode
    rw [nodes_combinator] at hnode
    rcases List.mem_cons.mp hnode with rfl | hbelow
    · exact ⟨_, self_mem_nodes _, .splitAbove floor _⟩
    obtain ⟨child, hchild, hmem⟩ := List.mem_flatMap.mp hbelow
    obtain ⟨later, hsub⟩ :=
      exists_splitAbove_of_mem kind smoothness transform floor children child hchild
    obtain ⟨found, hfound, hsplit⟩ := ih child hchild later node hmem
    refine ⟨found, ?_, hsplit.mono ?_⟩
    · rw [Shape.splitAbove, nodes_combinator]
      exact List.mem_cons_of_mem _ (hsub hfound)
    · rw [splits]
      exact Nat.le_trans (splits_le_splitsIn hchild) (Nat.le_add_left _ _)

/-- Where one subtree is split, the tree has every node that it had. -/
theorem swapped {issued : Nat} {wanted : NodeId} {old new before after : Shape}
    (h : Retains issued old new) (hsplit : PartlySplit issued old new)
    (hswapped : Swapped wanted old new before after) : Retains issued before after := by
  intro node hnode
  rcases hswapped.node_cases hnode with hin | hin | ⟨later, hlater, -, hthere⟩
  · obtain ⟨later, hlater, hnode⟩ := h node hin
    exact ⟨later, hswapped.nodes_new_subset hlater, hnode⟩
  · exact ⟨node, hin, .refl issued node⟩
  · exact ⟨later, hlater, hsplit.swapped hthere⟩

end Retains

end SdfScene.Shape
