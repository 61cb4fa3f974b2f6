import Mathlib.Algebra.Order.Field.Power
import Mathlib.Tactic.FieldSimp
import SdfScene.Json.Numeral
import SdfScene.Proofs.Number.Nearest

/-!
# Scaling in double precision

A whole number of 53 bits scaled by a moderate power of ten is off by three roundings at
most, each of a part in `2 ^ 53`. A result that double precision has is met exactly as long
as the power of ten is exact.
-/

namespace SdfScene.Json

open Number

private theorem value_limit : doubleGrid.value doubleGrid.limit = 2 ^ 1024 := by
  have hunits : doubleGrid.units doubleGrid.limit = 2 ^ 2098 := by decide +kernel
  have hdepth : doubleGrid.depth = 1074 := rfl
  rw [Grid.value, hunits, hdepth, Nat.cast_pow, Nat.cast_ofNat, div_eq_iff (by positivity),
    ← pow_add]

/-- Numbers of moderate size are rounded to finite values. -/
private theorem lt_limit {z : ℚ} {index : ℕ} (h : doubleGrid.RoundsTo z index)
    (hhigh : z ≤ 2 ^ 250) : index < doubleGrid.limit := by
  apply h.lt_limit
  rw [value_limit]
  calc 2 * z ≤ 2 * 2 ^ 250 := by linarith
    _ = 2 ^ 251 := (pow_succ' 2 250).symm
    _ < 2 ^ 1024 := pow_lt_pow_right₀ one_lt_two (by decide)

/-- Numbers of moderate size are rounded by a part in `2 ^ 53` of them. -/
private theorem abs_value_sub_le {z : ℚ} {index : ℕ} (h : doubleGrid.RoundsTo z index)
    (hlow : 1 ≤ z * 2 ^ 250) : |doubleGrid.value index - z| * 2 ^ 53 ≤ z := by
  apply h.abs_sub_mul_le
  have hscale : (2 : ℚ) ^ doubleGrid.depth = 2 ^ 250 * 2 ^ 824 := pow_add 2 250 824
  have hbinade : (2 : ℚ) ^ doubleGrid.fraction ≤ 1 * 2 ^ 824 := by
    rw [one_mul]
    exact pow_le_pow_right₀ one_le_two (by decide)
  rw [hscale, ← mul_assoc]
  exact hbinade.trans (mul_le_mul_of_nonneg_right hlow (by positivity))

/-- Every whole number of 53 bits is a double-precision value at every moderate scale. -/
theorem exists_double {n : ℕ} (hn : n < 2 ^ 53) {e : ℤ} (he : -1074 ≤ e) :
    ∃ index, doubleGrid.value index = n * 2 ^ e := by
  obtain ⟨index, hindex⟩ := Grid.exists_units_eq (g := doubleGrid) hn (e + 1074).toNat
  refine ⟨index, ?_⟩
  have hscale : (2 : ℚ) ^ (e + 1074).toNat = 2 ^ e * 2 ^ doubleGrid.depth := by
    have hdepth : ((e + 1074).toNat : ℤ) = e + (doubleGrid.depth : ℕ) :=
      Int.toNat_of_nonneg (by omega)
    rw [← zpow_natCast, hdepth, zpow_add₀ two_ne_zero, zpow_natCast]
  rw [Grid.value, hindex, Nat.cast_mul, Nat.cast_pow, Nat.cast_ofNat, hscale, ← mul_assoc,
    mul_div_cancel_right₀ _ (by positivity)]

/-- A natural number that is a value is read as that value. -/
private theorem value_nearest {n index : ℕ} (hindex : doubleGrid.value index = n)
    (hn : (n : ℚ) ≤ 2 ^ 250) : doubleGrid.value (doubleGrid.nearest n 1) = n := by
  have hrounds : doubleGrid.RoundsTo (n / (1 : ℕ)) index := by
    rw [Nat.cast_one, div_one, ← hindex]
    exact doubleGrid.roundsTo_value index
  have hlimit := lt_limit hrounds (by rwa [Nat.cast_one, div_one])
  rw [hrounds.nearest_eq (by decide) one_pos hlimit.le, hindex]

/-- A whole number of 53 bits is read exactly. -/
private theorem value_start {n : ℕ} (hn : n < 2 ^ 53) :
    doubleGrid.value (doubleGrid.nearest n 1) = n := by
  obtain ⟨index, hindex⟩ := exists_double hn (e := 0) (by decide)
  rw [zpow_zero, mul_one] at hindex
  have hsize : (n : ℚ) < 2 ^ 53 := by exact_mod_cast hn
  exact value_nearest hindex (hsize.le.trans (pow_le_pow_right₀ one_le_two (by decide)))

private theorem ten_pow_le {k : ℕ} (hk : k ≤ 45) : (10 : ℚ) ^ k ≤ 2 ^ 150 := by
  calc (10 : ℚ) ^ k ≤ 10 ^ 45 := pow_le_pow_right₀ (by norm_num) hk
    _ ≤ 2 ^ 150 := by norm_num

/-- A power of ten of 23 digits at most is exact. -/
private theorem value_powerOfTen {k : ℕ} (hk : k ≤ 22) :
    doubleGrid.value (powerOfTen k) = 10 ^ k := by
  have hfive : 5 ^ k < 2 ^ 53 := (Nat.pow_le_pow_right (by decide) hk).trans_lt (by decide)
  obtain ⟨index, hindex⟩ := exists_double hfive (e := k) (by omega)
  have hten : doubleGrid.value index = (10 ^ k : ℕ) := by
    rw [hindex, zpow_natCast]
    push_cast
    rw [← mul_pow]
    norm_num
  have hsize : ((10 ^ k : ℕ) : ℚ) ≤ 2 ^ 250 := by
    push_cast
    exact (ten_pow_le (by omega)).trans (pow_le_pow_right₀ one_le_two (by decide))
  rw [powerOfTen, Nat.pow_eq, value_nearest hten hsize, Nat.cast_pow, Nat.cast_ofNat]

/-- A moderate power of ten is rounded by a part in `2 ^ 53` of it. -/
private theorem abs_powerOfTen_sub_le {k : ℕ} (hk : k ≤ 45) :
    |doubleGrid.value (powerOfTen k) - 10 ^ k| * 2 ^ 53 ≤ 10 ^ k := by
  obtain ⟨index, hindex⟩ := Grid.exists_roundsTo (g := doubleGrid) (z := 10 ^ k) (by decide)
    (by positivity)
  have hone : (1 : ℚ) ≤ 10 ^ k := one_le_pow₀ (by norm_num)
  have hlimit := lt_limit hindex
    ((ten_pow_le hk).trans (pow_le_pow_right₀ one_le_two (by decide)))
  have hnear := abs_value_sub_le hindex (by
    have hscale : (1 : ℚ) ≤ 2 ^ 250 := one_le_pow₀ one_le_two
    nlinarith)
  have hquotient : ((10 ^ k : ℕ) : ℚ) / (1 : ℕ) = 10 ^ k := by
    push_cast
    exact div_one _
  rw [powerOfTen, Nat.pow_eq,
    (hquotient.symm ▸ hindex : doubleGrid.RoundsTo _ _).nearest_eq (by decide) one_pos hlimit.le]
  exact hnear

/-- A rational that is off by two roundings is rounded once more. -/
private theorem near_of_roundsTo {z t : ℚ} {index : ℕ} (h : doubleGrid.RoundsTo z index)
    (hz : |z - t| * 2 ^ 53 ≤ 2 * t) (hlow : 1 ≤ t * 2 ^ 200) (hhigh : t ≤ 2 ^ 204) :
    index < doubleGrid.limit ∧ |doubleGrid.value index - t| * 2 ^ 51 ≤ t := by
  have hpos : 0 < t := by
    by_contra hneg
    nlinarith [pow_pos (two_pos (α := ℚ)) 200]
  obtain ⟨hbelow, habove⟩ := abs_le.mp (le_div_iff₀ (by positivity) |>.mpr hz)
  have hsmall : 2 * t / 2 ^ 53 ≤ t / 2 := by
    rw [div_le_div_iff₀ (by positivity) two_pos]
    nlinarith
  have hnear := abs_value_sub_le h (by
    calc (1 : ℚ) ≤ t * 2 ^ 200 := hlow
      _ ≤ t / 2 * 2 ^ 250 := by norm_num; linarith
      _ ≤ z * 2 ^ 250 := by gcongr; linarith)
  refine ⟨lt_limit h ?_, ?_⟩
  · calc z ≤ 2 * 2 ^ 204 := by linarith
      _ = 2 ^ 205 := (pow_succ' 2 204).symm
      _ ≤ 2 ^ 250 := pow_le_pow_right₀ one_le_two (by decide)
  · have htriangle := abs_sub_le (doubleGrid.value index) z t
    linarith

/-- A power of ten that multiplies is rounded, and so is the product. -/
private theorem scale?_ofNat {n : ℕ} (hpos : 0 < n) (hn : n < 2 ^ 53) {k : ℕ} (hk : k ≤ 45) :
    ∃ index, scale? n (.ofNat k) = some index ∧
      doubleGrid.RoundsTo (n * doubleGrid.value (powerOfTen k)) index ∧
      |doubleGrid.value index - n * 10 ^ k| * 2 ^ 51 ≤ n * 10 ^ k := by
  have hn' : (n : ℚ) < 2 ^ 53 := by exact_mod_cast hn
  have hone : (1 : ℚ) ≤ n := by exact_mod_cast hpos
  have hten : (1 : ℚ) ≤ 10 ^ k := one_le_pow₀ (by norm_num)
  have hten' := ten_pow_le hk
  obtain ⟨index, hindex⟩ := Grid.exists_roundsTo (g := doubleGrid)
    (z := n * doubleGrid.value (powerOfTen k)) (by decide)
    (mul_nonneg (Nat.cast_nonneg n) (doubleGrid.value_nonneg _))
  have hproduct : |n * doubleGrid.value (powerOfTen k) - n * 10 ^ k| * 2 ^ 53 ≤
      2 * ((n : ℚ) * 10 ^ k) := by
    rw [← mul_sub, abs_mul, abs_of_nonneg (Nat.cast_nonneg n), mul_assoc]
    nlinarith [abs_powerOfTen_sub_le hk]
  have hlow : (1 : ℚ) ≤ n * 10 ^ k * 2 ^ 200 :=
    one_le_mul_of_one_le_of_one_le (one_le_mul_of_one_le_of_one_le hone hten)
      (one_le_pow₀ one_le_two)
  have hhigh : (n : ℚ) * 10 ^ k ≤ 2 ^ 204 := by
    calc (n : ℚ) * 10 ^ k ≤ 2 ^ 53 * 2 ^ 150 := by gcongr
      _ ≤ 2 ^ 204 := by norm_num
  obtain ⟨hlimit, hnear⟩ := near_of_roundsTo hindex hproduct hlow hhigh
  refine ⟨index, ?_, hindex, hnear⟩
  have hmul : doubleGrid.mul (doubleGrid.nearest n 1) (powerOfTen k) = index :=
    Grid.RoundsTo.mul_eq (by decide) (by rwa [value_start hn]) hlimit.le
  have hsmall : k ≤ 308 := by omega
  rw [scale?]
  simp only [hsmall, hmul, hlimit, ite_true]

/-- A power of ten that divides is rounded, and so is the quotient. -/
private theorem scale?_negSucc {n : ℕ} (hpos : 0 < n) (hn : n < 2 ^ 53) {k : ℕ}
    (hk : k + 1 ≤ 45) :
    ∃ index, scale? n (.negSucc k) = some index ∧
      doubleGrid.RoundsTo (n / doubleGrid.value (powerOfTen (k + 1))) index ∧
      |doubleGrid.value index - n / 10 ^ (k + 1)| * 2 ^ 51 ≤ n / 10 ^ (k + 1) := by
  have hn' : (n : ℚ) < 2 ^ 53 := by exact_mod_cast hn
  have hone : (1 : ℚ) ≤ n := by exact_mod_cast hpos
  have hten : (1 : ℚ) ≤ 10 ^ (k + 1) := one_le_pow₀ (by norm_num)
  have hten' := ten_pow_le hk
  have hpower := abs_powerOfTen_sub_le hk
  generalize hvalue : doubleGrid.value (powerOfTen (k + 1)) = power at hpower ⊢
  have hhalf : 10 ^ (k + 1) ≤ 2 * power := by
    have hbelow := neg_le_abs (power - 10 ^ (k + 1))
    linarith
  have hpower_pos : 0 < power := by linarith
  obtain ⟨index, hindex⟩ := Grid.exists_roundsTo (g := doubleGrid) (z := n / power) (by decide)
    (div_nonneg (Nat.cast_nonneg n) hpower_pos.le)
  have hquotient : |n / power - n / 10 ^ (k + 1)| * 2 ^ 53 ≤ 2 * ((n : ℚ) / 10 ^ (k + 1)) := by
    have hfactor : n / power - n / 10 ^ (k + 1) =
        (n : ℚ) / 10 ^ (k + 1) * ((10 ^ (k + 1) - power) / power) := by
      field_simp
    have hrelative : |power - 10 ^ (k + 1)| / power * 2 ^ 53 ≤ 2 := by
      rw [div_mul_eq_mul_div, div_le_iff₀ hpower_pos]
      exact hpower.trans hhalf
    rw [hfactor, abs_mul, abs_of_nonneg (by positivity), abs_div, abs_of_pos hpower_pos,
      abs_sub_comm, mul_assoc, mul_comm 2]
    exact mul_le_mul_of_nonneg_left hrelative (by positivity)
  have hlow : (1 : ℚ) ≤ n / 10 ^ (k + 1) * 2 ^ 200 := by
    rw [div_mul_eq_mul_div, one_le_div (by positivity)]
    calc (10 : ℚ) ^ (k + 1) ≤ 2 ^ 150 := hten'
      _ ≤ 1 * 2 ^ 200 := by norm_num
      _ ≤ n * 2 ^ 200 := by gcongr
  have hhigh : (n : ℚ) / 10 ^ (k + 1) ≤ 2 ^ 204 := by
    calc (n : ℚ) / 10 ^ (k + 1) ≤ n := div_le_self (by positivity) hten
      _ ≤ 2 ^ 53 := hn'.le
      _ ≤ 2 ^ 204 := pow_le_pow_right₀ one_le_two (by decide)
  obtain ⟨hlimit, hnear⟩ := near_of_roundsTo hindex hquotient hlow hhigh
  refine ⟨index, ?_, hindex, hnear⟩
  have hunits : 0 < doubleGrid.units (powerOfTen (k + 1)) := by
    rw [Nat.pos_iff_ne_zero]
    intro hzero
    rw [Grid.value, hzero, Nat.cast_zero, zero_div] at hvalue
    exact hpower_pos.ne hvalue
  have hdiv : doubleGrid.div (doubleGrid.nearest n 1) (powerOfTen (k + 1)) = index :=
    Grid.RoundsTo.div_eq (by decide) hunits (by rwa [value_start hn, hvalue]) hlimit.le
  have hsmall : k + 1 ≤ 308 := by omega
  rw [scale?]
  simp only [hsmall, hdiv, ite_true]

/-- A whole number of 53 bits times or over a moderate power of ten comes near the exact
result, and meets it if the power of ten is exact and the result a value. -/
theorem scale?_eq {n : ℕ} (hpos : 0 < n) (hn : n < 2 ^ 53) {p : ℤ} (hlow : -45 ≤ p)
    (hhigh : p ≤ 45) :
    ∃ index, scale? n p = some index ∧
      |doubleGrid.value index - n * 10 ^ p| * 2 ^ 51 ≤ n * 10 ^ p ∧
      (p.natAbs ≤ 22 → ∀ exact, doubleGrid.value exact = n * 10 ^ p →
        doubleGrid.value index = n * 10 ^ p) := by
  cases p with
  | ofNat k =>
    rw [Int.ofNat_eq_natCast] at hhigh
    obtain ⟨index, hscale, hrounds, hnear⟩ := scale?_ofNat hpos hn (k := k) (by omega)
    rw [Int.ofNat_eq_natCast, zpow_natCast] at *
    refine ⟨index, hscale, hnear, fun hk exact hexact => ?_⟩
    rw [value_powerOfTen (k := k) hk, ← hexact] at hrounds
    rw [hrounds.unique (doubleGrid.roundsTo_value exact), hexact]
  | negSucc k =>
    obtain ⟨index, hscale, hrounds, hnear⟩ := scale?_negSucc hpos hn (k := k) (by omega)
    rw [zpow_negSucc, ← div_eq_mul_inv]
    refine ⟨index, hscale, hnear, fun hk exact hexact => ?_⟩
    rw [value_powerOfTen (k := k + 1) hk, ← hexact] at hrounds
    rw [hrounds.unique (doubleGrid.roundsTo_value exact), hexact]

end SdfScene.Json
