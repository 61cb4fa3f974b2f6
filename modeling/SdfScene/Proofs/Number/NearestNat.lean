import Mathlib.Algebra.Order.Field.Basic
import Mathlib.Algebra.Order.Field.Rat
import Mathlib.Algebra.Ring.Parity
import Mathlib.Tactic.Linarith
import Mathlib.Tactic.LinearCombination
import Mathlib.Tactic.Ring
import SdfScene.Number.Grid

/-!
# Rounding to a natural number

A rational has one nearest natural number, a half going to the even one, and the rounded
quotient of two natural numbers is it.
-/

namespace SdfScene.Number

/-- The rounded quotient is at most half a unit off, and even if it is just half a unit. -/
theorem roundDiv_bounds (num : ℕ) {den : ℕ} (hden : 0 < den) :
    2 * roundDiv num den * den ≤ 2 * num + den ∧ 2 * num ≤ (2 * roundDiv num den + 1) * den ∧
      (2 * roundDiv num den * den = 2 * num + den ∨ 2 * num = (2 * roundDiv num den + 1) * den →
        Even (roundDiv num den)) := by
  have hdiv := Nat.div_add_mod num den
  have hmod := Nat.mod_lt num hden
  have hexpand : ∀ q : ℕ, 2 * q * den = 2 * (den * q) ∧ (2 * q + 1) * den = 2 * (den * q) + den :=
    fun q => ⟨by ring, by ring⟩
  simp only [Nat.even_iff, hexpand, roundDiv]
  generalize num / den = quotient at hdiv ⊢
  generalize num % den = rest at hdiv hmod ⊢
  have hsucc : den * (quotient + 1) = den * quotient + den := Nat.mul_succ den quotient
  split_ifs
  · omega
  · rw [hsucc]
    omega
  · omega
  · rw [hsucc]
    omega

theorem div_le_roundDiv (num den : ℕ) : num / den ≤ roundDiv num den := by
  unfold roundDiv
  extract_lets quotient twice
  change quotient ≤ _
  split_ifs <;> omega

theorem roundDiv_le_succ (num den : ℕ) : roundDiv num den ≤ num / den + 1 := by
  unfold roundDiv
  extract_lets quotient twice
  change _ ≤ quotient + 1
  split_ifs <;> omega

/-- A natural number nearest to a rational: at most half a unit off, and even if it is
just half a unit. -/
structure NearestNat (n : ℕ) (z : ℚ) : Prop where
  abs_sub_le : |(n : ℚ) - z| ≤ 1 / 2
  even_of_tie : |(n : ℚ) - z| = 1 / 2 → Even n

namespace NearestNat

variable {m n : ℕ} {z : ℚ}

private theorem not_lt (hm : NearestNat m z) (hn : NearestNat n z) : ¬ m < n := by
  intro hlt
  have hle : (m : ℚ) + 1 ≤ n := by exact_mod_cast hlt
  have hbelow := (abs_le.mp hm.abs_sub_le).1
  have habove := (abs_le.mp hn.abs_sub_le).2
  -- the rational is halfway between the two, which are neighbours and both even
  have hsucc : m + 1 = n := by
    have : (m : ℚ) + 1 = n := by linarith
    exact_mod_cast this
  have hmeven := hm.even_of_tie (by rw [abs_sub_comm, abs_of_nonneg] <;> linarith)
  have hneven := hn.even_of_tie (by rw [abs_of_nonneg] <;> linarith)
  rw [← hsucc, Nat.even_add_one] at hneven
  exact hneven hmeven

/-- There is one nearest natural number only. -/
theorem unique (hm : NearestNat m z) (hn : NearestNat n z) : m = n :=
  le_antisymm (Nat.le_of_not_lt (hn.not_lt hm)) (Nat.le_of_not_lt (hm.not_lt hn))

/-- No integer is nearer than the nearest natural number, and another one is as near only
in a tie. -/
theorem le_abs_sub (hn : NearestNat n z) {k : ℤ} (hk : k ≠ n) : 1 / 2 ≤ |(k : ℚ) - z| := by
  obtain ⟨hbelow, habove⟩ := abs_le.mp hn.abs_sub_le
  rcases lt_or_gt_of_ne hk with hlt | hgt
  · have hle : (k : ℚ) + 1 ≤ n := by exact_mod_cast hlt
    rw [abs_sub_comm]
    exact le_abs_self _ |>.trans' (by linarith)
  · have hle : (n : ℚ) + 1 ≤ k := by exact_mod_cast hgt
    exact le_abs_self _ |>.trans' (by linarith)

end NearestNat

/-- A quotient of natural numbers is rounded to the nearest one. -/
theorem nearestNat_roundDiv (num : ℕ) {den : ℕ} (hden : 0 < den) :
    NearestNat (roundDiv num den) (num / den) := by
  have hpos : (0 : ℚ) < den := Nat.cast_pos.mpr hden
  have hquotient : (num : ℚ) / den * den = num := div_mul_cancel₀ _ hpos.ne'
  obtain ⟨hlower, hupper, heven⟩ := roundDiv_bounds num hden
  have hlower' : 2 * (roundDiv num den : ℚ) * den ≤ 2 * num + den := by exact_mod_cast hlower
  have hupper' : 2 * (num : ℚ) ≤ (2 * roundDiv num den + 1) * den := by exact_mod_cast hupper
  generalize (num : ℚ) / den = z at hquotient ⊢
  constructor
  · rw [abs_le]
    constructor <;> nlinarith
  · intro htie
    apply heven
    rcases abs_cases ((roundDiv num den : ℚ) - z) with ⟨h, -⟩ | ⟨h, -⟩
    · left
      have : 2 * (roundDiv num den : ℚ) * den = 2 * num + den := by
        linear_combination 2 * (den : ℚ) * (htie - h) + 2 * hquotient
      exact_mod_cast this
    · right
      have : 2 * (num : ℚ) = (2 * roundDiv num den + 1) * den := by
        linear_combination 2 * (den : ℚ) * (htie - h) - 2 * hquotient
      exact_mod_cast this

end SdfScene.Number
