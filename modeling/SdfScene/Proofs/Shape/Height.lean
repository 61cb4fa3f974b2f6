import SdfScene.Shape.Basic

/-!
# The height of a tree

The number of nodes on the longest way from the root down.
-/

namespace SdfScene.Shape

mutual

/-- The height of a tree: one for a node without children. -/
def height : Shape → Nat
  | .combinator _ children _ _ _ => heightIn children + 1
  | _ => 1

/-- The height of the highest of several trees. -/
def heightIn : List Shape → Nat
  | [] => 0
  | shape :: shapes => max (height shape) (heightIn shapes)

end

theorem height_pos (shape : Shape) : 0 < shape.height := by
  cases shape <;> simp [height]

/-- Several trees are at most as high as each of them is. -/
theorem heightIn_le {shapes : List Shape} {bound : Nat} :
    heightIn shapes ≤ bound ↔ ∀ shape ∈ shapes, shape.height ≤ bound := by
  induction shapes with
  | nil => simp [heightIn]
  | cons shape shapes ih => rw [heightIn, Nat.max_le, List.forall_mem_cons, ih]

/-- A tree is one higher than the highest of its children. -/
theorem height_le_succ {shape : Shape} {bound : Nat} :
    shape.height ≤ bound + 1 ↔ ∀ child ∈ shape.children?.getD [], child.height ≤ bound := by
  cases shape with
  | primitive => simp [height, children?]
  | combinator => rw [height, Nat.add_le_add_iff_right, heightIn_le]; rfl
  | custom => simp [height, children?]

end SdfScene.Shape
