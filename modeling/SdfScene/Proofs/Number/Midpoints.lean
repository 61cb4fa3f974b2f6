import Mathlib.Algebra.Order.Field.Power
import Mathlib.Tactic.FieldSimp
import SdfScene.Proofs.Number.Separation

/-!
# Decimals near a midpoint

A decimal with a significand of 24 bits at most is either a binary fraction of 25 bits or
well away from all of them, two decimals excepted. Each power of ten has its own pair of
neighbouring fractions that tells so.
-/

namespace SdfScene.Number

/-- The numerator of the leading part of a power of ten, a ratio from two up to four. -/
def tenNum : ℤ → ℕ
  | .ofNat k => 2 * 5 ^ k
  | .negSucc k => 2 ^ (Nat.log2 (5 ^ (k + 1)) + 2)

/-- The denominator of the leading part of a power of ten. -/
def tenDen : ℤ → ℕ
  | .ofNat k => 2 ^ Nat.log2 (5 ^ k)
  | .negSucc k => 5 ^ (k + 1)

/-- The binary exponent that a power of ten has beside its leading part. -/
def tenShift : ℤ → ℤ
  | .ofNat k => k + Nat.log2 (5 ^ k) - 1
  | .negSucc k => -(k + 1) - Nat.log2 (5 ^ (k + 1)) - 2

theorem tenDen_pos (p : ℤ) : 0 < tenDen p := by
  cases p with
  | ofNat k => exact Nat.two_pow_pos _
  | negSucc k => exact Nat.pow_pos (by decide)

theorem ten_zpow_eq (p : ℤ) : (10 : ℚ) ^ p = tenNum p / tenDen p * 2 ^ tenShift p := by
  have hten : (10 : ℚ) = 2 * 5 := by norm_num
  cases p with
  | ofNat k =>
    rw [tenNum, tenDen, tenShift, Int.ofNat_eq_natCast, zpow_natCast, hten, mul_pow,
      zpow_sub_one₀ two_ne_zero, zpow_add₀ two_ne_zero, zpow_natCast, zpow_natCast]
    push_cast
    field_simp
  | negSucc k =>
    have hshift : -((k : ℤ) + 1) - Nat.log2 (5 ^ (k + 1)) - 2 =
        -((k + 1 + (Nat.log2 (5 ^ (k + 1)) + 2) : ℕ) : ℤ) := by
      push_cast
      ring
    rw [tenNum, tenDen, tenShift, hshift, zpow_negSucc, zpow_neg, zpow_natCast, hten, mul_pow,
      pow_add 2 (k + 1)]
    push_cast
    field_simp

theorem two_mul_tenDen_le (p : ℤ) : 2 * tenDen p ≤ tenNum p := by
  cases p with
  | ofNat k =>
    exact Nat.mul_le_mul_left 2 (Nat.log2_self_le (Nat.pow_pos (by decide)).ne')
  | negSucc k =>
    rw [tenNum, tenDen, pow_succ, Nat.mul_comm]
    exact Nat.mul_le_mul_right 2 Nat.lt_log2_self.le

theorem tenNum_lt (p : ℤ) : tenNum p < 4 * tenDen p := by
  cases p with
  | ofNat k =>
    have hlog := Nat.lt_log2_self (n := 5 ^ k)
    rw [pow_succ] at hlog
    rw [tenNum, tenDen]
    omega
  | negSucc k =>
    -- a power of five is no power of two
    have hodd : Odd (5 ^ (k + 1)) := Odd.pow (by decide)
    have hlarge : 5 ≤ 5 ^ (k + 1) := Nat.le_self_pow (Nat.succ_ne_zero k) 5
    have hlog : Nat.log2 (5 ^ (k + 1)) ≠ 0 := by
      intro hzero
      have hless := Nat.lt_log2_self (n := 5 ^ (k + 1))
      rw [hzero] at hless
      omega
    have hne : 2 ^ Nat.log2 (5 ^ (k + 1)) ≠ 5 ^ (k + 1) := by
      intro heq
      rw [← heq] at hodd
      exact Nat.not_even_iff_odd.mpr hodd ((Nat.even_pow' hlog).mpr even_two)
    have hle := Nat.log2_self_le (n := 5 ^ (k + 1)) (by omega)
    rw [tenNum, tenDen, pow_add]
    omega

/-- The leading part is from two up to four, so the binary exponent tells the size. -/
theorem ten_zpow_bounds (p : ℤ) :
    (2 : ℚ) ^ (tenShift p + 1) ≤ 10 ^ p ∧ (10 : ℚ) ^ p < 2 ^ (tenShift p + 2) := by
  have hden : (0 : ℚ) < tenDen p := Nat.cast_pos.mpr (tenDen_pos p)
  have hlow : (2 : ℚ) * tenDen p ≤ tenNum p := by exact_mod_cast two_mul_tenDen_le p
  have hhigh : (tenNum p : ℚ) < 4 * tenDen p := by exact_mod_cast tenNum_lt p
  have hfour : (2 : ℚ) ^ (tenShift p + 2) = 4 * 2 ^ tenShift p := by
    rw [zpow_add₀ two_ne_zero, mul_comm]
    norm_num
  rw [ten_zpow_eq, zpow_add_one₀ two_ne_zero, mul_comm _ (2 : ℚ), hfour]
  constructor
  · refine mul_le_mul_of_nonneg_right ?_ (by positivity)
    rwa [le_div_iff₀ hden]
  · refine mul_lt_mul_of_pos_right ?_ (by positivity)
    rwa [div_lt_iff₀ hden]

/-- The decimals of 24 bits that come near a fraction of 25 bits. -/
def closeDecimals : List (ℕ × ℤ) := [(7038531, -32), (10475821, -12)]

/-- The multiples of a fraction are far from a power of ten, or there is one multiple only
and it is a known exception. -/
def RayFar (p : ℤ) (num den off : ℕ) : Prop :=
  den * tenNum p < off * 2 ^ 51 ∨ 2 ^ 25 + 2 < 2 * num ∧ (den, p) ∈ closeDecimals

/-- A power of ten is so short that other fractions are far from it, or it has neighbours
that are. -/
def Separated (p : ℤ) : Prop :=
  let n := Neighbours.search (2 ^ 25 + 2) 40 (.start (tenNum p) (tenDen p))
  (2 ^ 24 + 1) * tenNum p < 2 ^ 51 ∧ p.natAbs ≤ 22 ∨
    2 ^ 25 + 2 < n.lowerNum + n.upperNum ∧
      (2 ^ 24 + 1) * tenNum p < (n.below + n.above) * 2 ^ 51 ∧
      RayFar p n.lowerNum n.lowerDen n.below ∧ RayFar p n.upperNum n.upperDen n.above

instance (p : ℤ) (num den off : ℕ) : Decidable (RayFar p num den off) :=
  inferInstanceAs (Decidable (_ ∨ _))

instance (p : ℤ) : Decidable (Separated p) := inferInstanceAs (Decidable (_ ∨ _))

private theorem separated_table : ∀ k < 86, Separated ((k : ℕ) - 45) := by
  decide +kernel

/-- The powers of ten that shortest digits are scaled by are separated. -/
theorem separated {p : ℤ} (hlower : -45 ≤ p) (hupper : p ≤ 40) : Separated p := by
  have h := separated_table (p + 45).toNat (by omega)
  rwa [Int.toNat_of_nonneg (by omega), add_sub_cancel_right] at h

/-- A multiple of a fraction that is far from a power of ten is far from the decimal. -/
private theorem RayFar.lt_or_mem {p : ℤ} {num den off : ℕ} (h : RayFar p num den off) {x : ℕ}
    (hx : 0 < x) (hnum : x * num ≤ 2 ^ 25 + 2) :
    x * den * tenNum p < x * off * 2 ^ 51 ∨ (x * den, p) ∈ closeDecimals := by
  rcases h with hfar | ⟨hlarge, hmem⟩
  · left
    rw [Nat.mul_assoc, Nat.mul_assoc]
    exact Nat.mul_lt_mul_of_pos_left hfar hx
  · right
    obtain rfl : x = 1 := by nlinarith
    rwa [Nat.one_mul]

/-- A significand of 24 bits scaled by a power of ten is a fraction of 25 bits, far from it,
or one of the exceptions. -/
theorem Separated.cases {p : ℤ} (h : Separated p) {d m : ℕ} (hd : 0 < d) (hd' : d ≤ 2 ^ 24 + 1)
    (hm : m ≤ 2 ^ 25 + 2) :
    (d * tenNum p = m * tenDen p ∧ p.natAbs ≤ 22) ∨
      (d * tenNum p : ℤ) < |(d * tenNum p - m * tenDen p : ℤ)| * 2 ^ 51 ∨
      (d, p) ∈ closeDecimals := by
  have hsize : d * tenNum p ≤ (2 ^ 24 + 1) * tenNum p := Nat.mul_le_mul_right _ hd'
  rcases h with ⟨hshort, hexponent⟩ | ⟨hcover, hboth, hlower, hupper⟩
  · by_cases heq : d * tenNum p = m * tenDen p
    · exact .inl ⟨heq, hexponent⟩
    · right; left
      have hne : (d * tenNum p - m * tenDen p : ℤ) ≠ 0 := by
        rw [sub_ne_zero]
        exact_mod_cast heq
      have hsize' : (d * tenNum p : ℤ) < 2 ^ 51 := by exact_mod_cast hsize.trans_lt hshort
      have hone := Int.one_le_abs hne
      linarith
  · right
    generalize Neighbours.search (2 ^ 25 + 2) 40 (.start (tenNum p) (tenDen p)) = n at *
    rcases n.multiple_or_le_abs_sub hd (hm.trans_lt hcover) with
      ⟨x, rfl, rfl⟩ | ⟨y, rfl, rfl⟩ | hfar
    · refine (hlower.lt_or_mem (Nat.pos_of_mul_pos_right hd) hm).imp_left fun hless => ?_
      have hoff : ((x * n.lowerDen : ℕ) * tenNum p - (x * n.lowerNum : ℕ) * tenDen p : ℤ) =
          x * n.below := by
        rw [n.below_eq]
        push_cast
        ring
      rw [hoff, abs_of_nonneg (by positivity)]
      exact_mod_cast hless
    · refine (hupper.lt_or_mem (Nat.pos_of_mul_pos_right hd) hm).imp_left fun hless => ?_
      have hoff : ((y * n.upperDen : ℕ) * tenNum p - (y * n.upperNum : ℕ) * tenDen p : ℤ) =
          -(y * n.above) := by
        rw [n.above_eq]
        push_cast
        ring
      rw [hoff, abs_neg, abs_of_nonneg (by positivity)]
      exact_mod_cast hless
    · left
      have hsize' : (d * tenNum p : ℤ) < (n.below + n.above) * 2 ^ 51 := by
        exact_mod_cast hsize.trans_lt hboth
      linarith

/-- The significands of the exceptions are odd. -/
private theorem eq_zero_of_mem_closeDecimals {d j : ℕ} {p : ℤ}
    (h : (d * 2 ^ j, p) ∈ closeDecimals) : j = 0 := by
  have hodd : ∀ c ∈ closeDecimals, Odd c.1 := by decide
  have h := hodd _ h
  by_contra hj
  exact Nat.not_even_iff_odd.mpr h (((Nat.even_pow' hj).mpr even_two).mul_left d)

/-- A decimal on a grid no finer than a gap, and of 24 bits beside it, is a multiple of half
the gap, far from all of 25 bits, or one of the exceptions. -/
theorem Separated.midpoint_cases {p e : ℤ} (h : Separated p) {d m : ℕ} (hd : 0 < d)
    (hm : m ≤ 2 ^ 25 + 2) (hcoarse : (2 : ℚ) ^ e ≤ 10 ^ p)
    (hshort : d * 10 ^ p ≤ (2 ^ 24 + 1) * (2 : ℚ) ^ e) :
    (d * 10 ^ p = m * (2 : ℚ) ^ (e - 1) ∧ p.natAbs ≤ 22) ∨
      d * 10 ^ p < |(d : ℚ) * 10 ^ p - m * 2 ^ (e - 1)| * 2 ^ 51 ∨ (d, p) ∈ closeDecimals := by
  have hden : (0 : ℚ) < tenDen p := Nat.cast_pos.mpr (tenDen_pos p)
  have hlow : (2 : ℚ) * tenDen p ≤ tenNum p := by exact_mod_cast two_mul_tenDen_le p
  -- the half gap is the binary scale of the power of ten, or it is finer
  obtain ⟨j, hj⟩ : ∃ j : ℕ, tenShift p = e - 1 + j := by
    have hexponent : e < tenShift p + 2 :=
      (zpow_lt_zpow_iff_right₀ one_lt_two).mp (hcoarse.trans_lt (ten_zpow_bounds p).2)
    exact ⟨(tenShift p - (e - 1)).toNat, by omega⟩
  have hhalf : (2 : ℚ) ^ e = 2 * 2 ^ (e - 1) := by
    rw [zpow_sub_one₀ two_ne_zero]
    ring
  have hr : (0 : ℚ) < 2 ^ (e - 1) / tenDen p := div_pos (zpow_pos two_pos _) hden
  have hten : (d : ℚ) * 10 ^ p = (d * 2 ^ j : ℕ) * tenNum p * (2 ^ (e - 1) / tenDen p) := by
    rw [ten_zpow_eq, hj, zpow_add₀ two_ne_zero, zpow_natCast]
    push_cast
    ring
  have hoff : (d : ℚ) * 10 ^ p - m * 2 ^ (e - 1) =
      ((d * 2 ^ j : ℕ) * tenNum p - m * tenDen p) * (2 ^ (e - 1) / tenDen p) := by
    rw [hten, sub_mul, mul_assoc (m : ℚ), mul_div_cancel₀ _ hden.ne']
  have hscaled : d * 2 ^ j ≤ 2 ^ 24 + 1 := by
    have hsize : ((d * 2 ^ j : ℕ) : ℚ) * tenNum p ≤ (2 ^ 24 + 1) * (2 * tenDen p) := by
      refine le_of_mul_le_mul_right ?_ hr
      calc _ ≤ (2 ^ 24 + 1) * (2 : ℚ) ^ e := hten ▸ hshort
        _ = (2 ^ 24 + 1) * (2 * tenDen p) * (2 ^ (e - 1) / tenDen p) := by
          rw [hhalf]
          field_simp
    have hnum : (0 : ℚ) < tenNum p := by linarith
    have hle : ((d * 2 ^ j : ℕ) : ℚ) ≤ 2 ^ 24 + 1 :=
      le_of_mul_le_mul_right (hsize.trans (by gcongr)) hnum
    exact_mod_cast hle
  rcases h.cases (Nat.mul_pos hd (Nat.two_pow_pos j)) hscaled hm with
    ⟨heq, hexponent⟩ | hfar | hclose
  · left
    have heq' : ((d * 2 ^ j : ℕ) : ℚ) * tenNum p = m * tenDen p := by exact_mod_cast heq
    rw [heq', sub_self, zero_mul, sub_eq_zero] at hoff
    exact ⟨hoff, hexponent⟩
  · right; left
    have hfar' : ((d * 2 ^ j : ℕ) : ℚ) * tenNum p <
        |((d * 2 ^ j : ℕ) : ℚ) * tenNum p - m * tenDen p| * 2 ^ 51 := by exact_mod_cast hfar
    rw [hoff, abs_mul, abs_of_pos hr, hten, mul_right_comm _ _ ((2 : ℚ) ^ 51)]
    exact mul_lt_mul_of_pos_right hfar' hr
  · right; right
    obtain rfl := eq_zero_of_mem_closeDecimals hclose
    rwa [pow_zero, Nat.mul_one] at hclose

private theorem tenNum_table : ∀ k < 86, 1024 * tenNum ((k : ℕ) - 45) ≤ 4092 * tenDen (k - 45) := by
  decide +kernel

/-- A power of ten below a power of two is well below it. -/
theorem ten_zpow_le_of_lt {p e : ℤ} (hlower : -45 ≤ p) (hupper : p ≤ 40)
    (h : (10 : ℚ) ^ p < 2 ^ e) : 1024 * (10 : ℚ) ^ p ≤ 1023 * 2 ^ e := by
  have hden : (0 : ℚ) < tenDen p := Nat.cast_pos.mpr (tenDen_pos p)
  have hhigh : (1024 : ℚ) * tenNum p ≤ 4092 * tenDen p := by
    have hrow := tenNum_table (p + 45).toNat (by omega)
    rw [Int.toNat_of_nonneg (by omega), add_sub_cancel_right] at hrow
    exact_mod_cast hrow
  have hexponent : tenShift p + 2 ≤ e := by
    have hless : tenShift p + 1 < e :=
      (zpow_lt_zpow_iff_right₀ one_lt_two).mp ((ten_zpow_bounds p).1.trans_lt h)
    omega
  calc 1024 * (10 : ℚ) ^ p = 1024 * tenNum p / tenDen p * 2 ^ tenShift p := by
        rw [ten_zpow_eq]
        ring
    _ ≤ 4092 * 2 ^ tenShift p := by
        refine mul_le_mul_of_nonneg_right ?_ (by positivity)
        rwa [div_le_iff₀ hden]
    _ = 1023 * 2 ^ (tenShift p + 2) := by
        rw [zpow_add₀ two_ne_zero]
        norm_num
        ring
    _ ≤ 1023 * 2 ^ e := by
        refine mul_le_mul_of_nonneg_left ?_ (by norm_num)
        exact zpow_le_zpow_right₀ one_le_two hexponent

end SdfScene.Number
