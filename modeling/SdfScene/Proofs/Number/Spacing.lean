import Mathlib.Order.Monotone.Basic
import Mathlib.Tactic.Ring
import SdfScene.Number.Grid

/-!
# Spacing of a grid

A value is a significand scaled by a power of two, and the next value is that power
farther up. So the values increase with their indices, by gaps that double from one
binade to the next, and every short significand at every scale is a value.
-/

namespace SdfScene.Number.Grid

variable (g : Grid)

/-- The power of two between a value and the next one. -/
def exponent (index : ℕ) : ℕ := index / 2 ^ g.fraction - 1

/-- The multiple of its power of two that a value is. -/
def significand (index : ℕ) : ℕ := index - g.exponent index * 2 ^ g.fraction

/-- An index from its exponent and its significand, which is long unless the exponent
is zero. -/
theorem exponent_mul_add_significand (index : ℕ) :
    g.exponent index * 2 ^ g.fraction + g.significand index = index := by
  have hexponent : g.exponent index * 2 ^ g.fraction ≤ index :=
    (Nat.mul_le_mul_right _ (Nat.sub_le _ 1)).trans (Nat.div_mul_le_self index _)
  rw [significand]
  omega

theorem significand_lt (index : ℕ) : g.significand index < 2 ^ (g.fraction + 1) := by
  have hdiv := Nat.div_add_mod index (2 ^ g.fraction)
  have hmod := Nat.mod_lt index (Nat.two_pow_pos g.fraction)
  rw [significand, exponent, pow_succ]
  cases hbinade : index / 2 ^ g.fraction with
  | zero => simp only [hbinade, Nat.mul_zero] at hdiv; omega
  | succ k =>
    rw [hbinade, Nat.mul_succ, Nat.mul_comm] at hdiv
    rw [Nat.add_sub_cancel]
    omega

theorem le_significand (index : ℕ) :
    g.exponent index = 0 ∨ 2 ^ g.fraction ≤ g.significand index := by
  have hdiv := Nat.div_add_mod index (2 ^ g.fraction)
  rw [significand, exponent]
  cases hbinade : index / 2 ^ g.fraction with
  | zero => exact .inl rfl
  | succ k =>
    rw [hbinade, Nat.mul_succ, Nat.mul_comm] at hdiv
    rw [Nat.add_sub_cancel]
    exact .inr (by omega)

variable {g}

/-- The number of the binade that an exponent and a significand lead to. -/
private theorem binade_mul_add (g : Grid) (e n : ℕ) :
    (e * 2 ^ g.fraction + n) / 2 ^ g.fraction = e + n / 2 ^ g.fraction := by
  rw [Nat.add_comm, Nat.add_mul_div_right _ _ (Nat.two_pow_pos _), Nat.add_comm]

/-- The exponent that an index is put together from. -/
theorem exponent_mul_add {e n : ℕ} (hlong : e = 0 ∨ 2 ^ g.fraction ≤ n)
    (hshort : n < 2 ^ (g.fraction + 1)) : g.exponent (e * 2 ^ g.fraction + n) = e := by
  rw [exponent, binade_mul_add]
  have hupper : n / 2 ^ g.fraction < 2 := Nat.div_lt_of_lt_mul (by rwa [← pow_succ])
  rcases hlong with rfl | hlong
  · omega
  · have hlower := Nat.div_pos hlong (Nat.two_pow_pos _)
    omega

/-- A significand that is long enough lifts the index into the binade of its exponent. -/
theorem le_exponent_mul_add {e n : ℕ} (hlong : e = 0 ∨ 2 ^ g.fraction ≤ n) :
    e ≤ g.exponent (e * 2 ^ g.fraction + n) := by
  rw [exponent, binade_mul_add]
  rcases hlong with rfl | hlong
  · exact Nat.zero_le _
  · have hlower := Nat.div_pos hlong (Nat.two_pow_pos _)
    omega

/-- The value at an index put together from an exponent and a significand. The
significand past the longest one belongs to the next binade. -/
theorem units_mul_add {e n : ℕ} (hlong : e = 0 ∨ 2 ^ g.fraction ≤ n)
    (hshort : n ≤ 2 ^ (g.fraction + 1)) : g.units (e * 2 ^ g.fraction + n) = n * 2 ^ e := by
  have hplace : (e * 2 ^ g.fraction + n) % 2 ^ g.fraction = n % 2 ^ g.fraction :=
    Nat.mul_add_mod_self_right _ _ _
  have hdiv := Nat.div_add_mod n (2 ^ g.fraction)
  have hmod := Nat.mod_lt n (Nat.two_pow_pos g.fraction)
  have hbinades : n / 2 ^ g.fraction ≤ 2 := Nat.div_le_of_le_mul (by rwa [← pow_succ])
  rw [pow_succ] at hshort
  simp only [units, Nat.pow_eq, binade_mul_add, hplace]
  generalize n / 2 ^ g.fraction = binades at hdiv hbinades ⊢
  generalize n % 2 ^ g.fraction = place at hdiv hmod ⊢
  -- the significand spans no whole binade, one, or, past the longest one, two
  obtain rfl | rfl | rfl : binades = 0 ∨ binades = 1 ∨ binades = 2 := by omega
  · obtain rfl : e = 0 := hlong.resolve_right (by omega)
    rw [if_pos rfl]
    omega
  · rw [if_neg (Nat.succ_ne_zero _), Nat.add_sub_cancel, ← hdiv, Nat.mul_one]
  · obtain rfl : place = 0 := by omega
    rw [if_neg (Nat.succ_ne_zero _), ← hdiv, show e + 2 - 1 = e + 1 from rfl, pow_succ]
    ring

variable (g)

/-- A value is its significand scaled by its power of two. -/
theorem units_eq (index : ℕ) : g.units index = g.significand index * 2 ^ g.exponent index := by
  have h := units_mul_add (g.le_significand index) (g.significand_lt index).le
  rwa [exponent_mul_add_significand] at h

/-- The next value is one power of two farther up. -/
theorem units_succ (index : ℕ) : g.units (index + 1) = g.units index + 2 ^ g.exponent index := by
  have h := units_mul_add (g := g) (e := g.exponent index) (n := g.significand index + 1)
    ((g.le_significand index).imp_right Nat.le_succ_of_le) (g.significand_lt index)
  rw [← Nat.add_assoc, exponent_mul_add_significand] at h
  rw [h, units_eq, Nat.succ_mul]

/-- Gaps never shrink. -/
theorem exponent_mono : Monotone g.exponent := fun _ _ h =>
  Nat.sub_le_sub_right (Nat.div_le_div_right h) 1

/-- Values increase with their indices. -/
theorem units_strictMono : StrictMono g.units :=
  strictMono_nat_of_lt_succ fun index => by
    rw [units_succ]
    exact Nat.lt_add_of_pos_right (Nat.two_pow_pos _)

/-- Past the first binade a gap is small beside the value below it. -/
theorem two_pow_exponent_mul_le {index : ℕ} (hindex : 2 ^ g.fraction ≤ index) :
    2 ^ g.exponent index * 2 ^ g.fraction ≤ g.units index := by
  have hlong : 2 ^ g.fraction ≤ g.significand index := by
    rcases g.le_significand index with hzero | hlong
    · rwa [significand, hzero, Nat.zero_mul, Nat.sub_zero]
    · exact hlong
  rw [units_eq, Nat.mul_comm]
  exact Nat.mul_le_mul_right _ hlong

/-- The gap stays the same, or it doubles past the longest significand. -/
theorem exponent_succ (index : ℕ) :
    g.exponent (index + 1) = g.exponent index ∨
      g.significand index + 1 = 2 ^ (g.fraction + 1) ∧
        g.exponent (index + 1) = g.exponent index + 1 := by
  have hindex := g.exponent_mul_add_significand index
  have hlong := g.le_significand index
  rcases Nat.lt_or_eq_of_le (g.significand_lt index) with hshort | hlast
  · left
    have h := exponent_mul_add (g := g) (hlong.imp_right Nat.le_succ_of_le) hshort
    rwa [Nat.add_succ, hindex] at h
  · right
    have h := exponent_mul_add (g := g) (e := g.exponent index + 1) (n := 2 ^ g.fraction)
      (.inr le_rfl) (Nat.pow_lt_pow_right (by decide) (Nat.lt_succ_self _))
    have hsucc : (g.exponent index + 1) * 2 ^ g.fraction + 2 ^ g.fraction = index + 1 := by
      rw [Nat.succ_eq_add_one, pow_succ] at hlast
      rw [Nat.succ_mul]
      omega
    exact ⟨hlast, hsucc ▸ h⟩

/-- The leading binary digit of a value tells the gap below it, up to a factor of two. -/
theorem exponent_bounds (index : ℕ) :
    Nat.log2 (g.units (index + 1)) ≤ g.exponent index + (g.fraction + 1) ∧
      g.exponent index ≤ Nat.log2 (g.units (index + 1)) - g.fraction := by
  have hpos : g.units (index + 1) ≠ 0 :=
    (Nat.zero_le _ |>.trans_lt (g.units_strictMono (Nat.lt_succ_self index))).ne'
  have hunits : g.units (index + 1) = (g.significand index + 1) * 2 ^ g.exponent index := by
    rw [units_succ, units_eq, Nat.succ_mul]
  constructor
  · rw [← Nat.pow_le_pow_iff_right (a := 2) one_lt_two]
    calc 2 ^ Nat.log2 (g.units (index + 1)) ≤ g.units (index + 1) := Nat.log2_self_le hpos
      _ ≤ 2 ^ (g.fraction + 1) * 2 ^ g.exponent index := by
        rw [hunits]
        exact Nat.mul_le_mul_right _ (g.significand_lt index)
      _ = 2 ^ (g.exponent index + (g.fraction + 1)) := by rw [← pow_add, Nat.add_comm]
  · rcases g.le_significand index with hzero | hlong
    · rw [hzero]
      exact Nat.zero_le _
    · refine Nat.le_sub_of_add_le ((Nat.le_log2 hpos).mpr ?_)
      rw [hunits, pow_add, Nat.mul_comm]
      exact Nat.mul_le_mul_right _ (hlong.trans (Nat.le_succ _))

variable {g}

/-- Every short significand is a value at every scale. -/
theorem exists_units_eq {n : ℕ} (hn : n < 2 ^ (g.fraction + 1)) (e : ℕ) :
    ∃ index, g.units index = n * 2 ^ e := by
  induction e generalizing n with
  | zero => exact ⟨0 * 2 ^ g.fraction + n, units_mul_add (.inl rfl) hn.le⟩
  | succ e ih =>
    by_cases hlong : 2 ^ g.fraction ≤ n
    · exact ⟨(e + 1) * 2 ^ g.fraction + n, units_mul_add (.inr hlong) hn.le⟩
    · obtain ⟨index, hindex⟩ := ih (n := 2 * n) (by rw [pow_succ]; omega)
      exact ⟨index, by rw [hindex, pow_succ]; ring⟩

end SdfScene.Number.Grid
