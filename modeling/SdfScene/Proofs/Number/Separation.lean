import Mathlib.Algebra.Order.Group.Int
import Mathlib.Algebra.Order.Ring.Int
import Mathlib.Tactic.Linarith
import Mathlib.Tactic.LinearCombination
import Mathlib.Tactic.Ring

/-!
# Fractions near a ratio

Two neighbouring fractions that enclose a ratio bound how near all other fractions come to
it, up to the numerator where their mediant lies: whatever is a multiple of neither of
them is farther off than both together. A search by Euclid's algorithm finds neighbours
that are close enough for a given bound.
-/

namespace SdfScene.Number

/-- Two neighbouring fractions that enclose the ratio `a / b`. -/
structure Neighbours (a b : ℕ) where
  lowerNum : ℕ
  lowerDen : ℕ
  upperNum : ℕ
  upperDen : ℕ
  unimodular : lowerDen * upperNum = upperDen * lowerNum + 1
  lower_le : lowerNum * b ≤ lowerDen * a
  le_upper : upperDen * a ≤ upperNum * b

namespace Neighbours

variable {a b : ℕ}

/-- How far the lower fraction is off, as a multiple of both denominators. -/
def below (n : Neighbours a b) : ℕ := n.lowerDen * a - n.lowerNum * b

/-- How far the upper fraction is off, as a multiple of both denominators. -/
def above (n : Neighbours a b) : ℕ := n.upperNum * b - n.upperDen * a

theorem below_eq (n : Neighbours a b) : (n.below : ℤ) = n.lowerDen * a - n.lowerNum * b := by
  rw [below, Nat.cast_sub n.lower_le, Nat.cast_mul, Nat.cast_mul]

theorem above_eq (n : Neighbours a b) : (n.above : ℤ) = n.upperNum * b - n.upperDen * a := by
  rw [above, Nat.cast_sub n.le_upper, Nat.cast_mul, Nat.cast_mul]

/-- Everything is enclosed by nought and infinity. -/
def start (a b : ℕ) : Neighbours a b where
  lowerNum := 0
  lowerDen := 1
  upperNum := 1
  upperDen := 0
  unimodular := rfl
  lower_le := by omega
  le_upper := by omega

/-- Replace the lower fraction by a mediant that takes the upper one several times. -/
def raise (n : Neighbours a b) (k : ℕ) (hk : k * n.above ≤ n.below) : Neighbours a b where
  lowerNum := n.lowerNum + k * n.upperNum
  lowerDen := n.lowerDen + k * n.upperDen
  upperNum := n.upperNum
  upperDen := n.upperDen
  unimodular := by rw [Nat.add_mul, n.unimodular]; ring
  lower_le := by
    have hlower := n.lower_le
    have hupper := Nat.mul_le_mul_left k n.le_upper
    rw [above, below, Nat.mul_sub] at hk
    rw [Nat.add_mul, Nat.add_mul, Nat.mul_assoc, Nat.mul_assoc]
    omega
  le_upper := n.le_upper

/-- Replace the upper fraction by a mediant that takes the lower one several times. -/
def lower (n : Neighbours a b) (k : ℕ) (hk : k * n.below ≤ n.above) : Neighbours a b where
  lowerNum := n.lowerNum
  lowerDen := n.lowerDen
  upperNum := n.upperNum + k * n.lowerNum
  upperDen := n.upperDen + k * n.lowerDen
  unimodular := by rw [Nat.mul_add, n.unimodular]; ring
  lower_le := n.lower_le
  le_upper := by
    have hupper := n.le_upper
    have hlower := Nat.mul_le_mul_left k n.lower_le
    rw [above, below, Nat.mul_sub] at hk
    rw [Nat.add_mul, Nat.add_mul, Nat.mul_assoc, Nat.mul_assoc]
    omega

private theorem min_div_mul_le (m n k : ℕ) : min (m / n) k * n ≤ m :=
  (Nat.mul_le_mul_right n (Nat.min_le_left _ _)).trans (Nat.div_mul_le_self m n)

/-- Neighbours whose mediant has a numerator beyond a bound, if the fuel suffices. -/
def search (bound : ℕ) : ℕ → Neighbours a b → Neighbours a b
  | 0, n => n
  | fuel + 1, n =>
    if bound < n.lowerNum + n.upperNum then n
    else if n.above ≤ n.below then
      search bound fuel (n.raise (min (n.below / n.above) ((bound - n.lowerNum) / n.upperNum))
        (min_div_mul_le _ _ _))
    else
      search bound fuel (n.lower (min (n.above / n.below) ((bound - n.upperNum) / n.lowerNum))
        (min_div_mul_le _ _ _))

/-- Distances to both sides of the ratio add up. -/
private theorem add_le_abs_sub {x y : ℤ} (hx : 0 < x) (hy : y < 0) (m n : ℕ) :
    (m + n : ℤ) ≤ |x * m - y * n| := by
  have hm : (m : ℤ) ≤ x * m := le_mul_of_one_le_left (Int.natCast_nonneg m) hx
  have hn : (n : ℤ) ≤ -y * n := le_mul_of_one_le_left (Int.natCast_nonneg n) (by omega)
  exact le_trans (by linarith) (le_abs_self _)

/-- A fraction below the mediant is a multiple of a neighbour, or it is farther off than
both neighbours together. -/
theorem multiple_or_le_abs_sub (n : Neighbours a b) {d m : ℕ} (hd : 0 < d)
    (hm : m < n.lowerNum + n.upperNum) :
    (∃ x, d = x * n.lowerDen ∧ m = x * n.lowerNum) ∨
      (∃ y, d = y * n.upperDen ∧ m = y * n.upperNum) ∨
      (n.below + n.above : ℤ) ≤ |(d * a - m * b : ℤ)| := by
  have hunimodular : (n.lowerDen * n.upperNum : ℤ) = n.upperDen * n.lowerNum + 1 := by
    exact_mod_cast n.unimodular
  -- the fraction as a combination of its neighbours
  obtain ⟨x, hx⟩ : ∃ x : ℤ, x = d * n.upperNum - m * n.upperDen := ⟨_, rfl⟩
  obtain ⟨y, hy⟩ : ∃ y : ℤ, y = m * n.lowerDen - d * n.lowerNum := ⟨_, rfl⟩
  have hden : (d : ℤ) = x * n.lowerDen + y * n.upperDen := by
    rw [hx, hy]
    linear_combination -(d : ℤ) * hunimodular
  have hnum : (m : ℤ) = x * n.lowerNum + y * n.upperNum := by
    rw [hx, hy]
    linear_combination -(m : ℤ) * hunimodular
  have hoff : (d * a - m * b : ℤ) = x * n.below - y * n.above := by
    rw [n.below_eq, n.above_eq, hden, hnum]
    ring
  have hd' : (0 : ℤ) < d := by exact_mod_cast hd
  rw [hoff]
  rcases lt_trichotomy x 0 with hxneg | rfl | hxpos
  · rcases le_or_gt y 0 with hyneg | hypos
    · have hlower := mul_nonpos_of_nonpos_of_nonneg hxneg.le (Int.natCast_nonneg n.lowerDen)
      have hupper := mul_nonpos_of_nonpos_of_nonneg hyneg (Int.natCast_nonneg n.upperDen)
      omega
    · right; right
      rw [abs_sub_comm, add_comm]
      exact add_le_abs_sub hypos hxneg n.above n.below
  · right; left
    rw [zero_mul, zero_add] at hden hnum
    have hy : 0 < y := pos_of_mul_pos_left (hden ▸ hd') (Int.natCast_nonneg n.upperDen)
    obtain ⟨k, rfl⟩ := Int.eq_ofNat_of_zero_le hy.le
    exact ⟨k, by exact_mod_cast hden, by exact_mod_cast hnum⟩
  · rcases lt_trichotomy y 0 with hyneg | rfl | hypos
    · exact .inr (.inr (add_le_abs_sub hxpos hyneg n.below n.above))
    · left
      rw [zero_mul, add_zero] at hden hnum
      obtain ⟨k, rfl⟩ := Int.eq_ofNat_of_zero_le hxpos.le
      exact ⟨k, by exact_mod_cast hden, by exact_mod_cast hnum⟩
    · -- a proper combination of both neighbours is not below the mediant
      have hlower := le_mul_of_one_le_left (Int.natCast_nonneg n.lowerNum) hxpos
      have hupper := le_mul_of_one_le_left (Int.natCast_nonneg n.upperNum) hypos
      omega

end Neighbours

end SdfScene.Number
