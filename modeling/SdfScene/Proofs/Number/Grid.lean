import SdfScene.Number.Grid

/-!
# Values of a grid
-/

namespace SdfScene.Number.Grid

/-- Only the index zero stands for zero. -/
theorem units_pos (g : Grid) {index : Nat} (hpos : 0 < index) : 0 < g.units index := by
  simp only [units]
  split
  · next hbinade =>
    have hdiv := Nat.div_add_mod index (Nat.pow 2 g.fraction)
    rw [hbinade, Nat.mul_zero, Nat.zero_add] at hdiv
    omega
  · exact Nat.mul_pos (Nat.add_pos_left (Nat.pow_pos (by decide)) _) (Nat.pow_pos (by decide))

end SdfScene.Number.Grid
