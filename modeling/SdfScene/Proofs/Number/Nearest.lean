import SdfScene.Proofs.Number.NearestNat
import SdfScene.Proofs.Number.Spacing

/-!
# Rounding to the nearest value

The rationals that round to an index lie between the midpoints to the neighbouring
values; a midpoint itself goes to the even index. Every rational rounds to one index
only, the value there is the closest one, and the operations of a grid find it.
-/

namespace SdfScene.Number

namespace Grid

/-- The value at an index. -/
def value (g : Grid) (index : ℕ) : ℚ := g.units index / 2 ^ g.depth

/-- A rational rounds to an index: it lies between the midpoints to the neighbouring
values, on a midpoint only if the index is even. -/
structure RoundsTo (g : Grid) (z : ℚ) (index : ℕ) : Prop where
  lower : g.value (index - 1) + g.value index ≤ 2 * z
  upper : 2 * z ≤ g.value index + g.value (index + 1)
  even_of_lower : 2 * z = g.value (index - 1) + g.value index → Even index
  even_of_upper : 2 * z = g.value index + g.value (index + 1) → Even index

variable {g : Grid} {z : ℚ} {index : ℕ}

theorem value_strictMono (g : Grid) : StrictMono g.value := fun _ _ h =>
  div_lt_div_of_pos_right (Nat.cast_lt.mpr (g.units_strictMono h)) (by positivity)

@[simp] theorem value_zero (g : Grid) : g.value 0 = 0 := by simp [value, units]

theorem value_nonneg (g : Grid) (index : ℕ) : 0 ≤ g.value index :=
  div_nonneg (Nat.cast_nonneg _) (by positivity)

/-- A value rounds to its own index. -/
theorem roundsTo_value (g : Grid) (index : ℕ) : g.RoundsTo (g.value index) index := by
  have hupper := g.value_strictMono (Nat.lt_succ_self index)
  cases index with
  | zero => exact ⟨by simp, by linarith, fun _ => Even.zero, fun _ => Even.zero⟩
  | succ index =>
    have hlower : g.value (index + 1 - 1) < g.value (index + 1) :=
      g.value_strictMono (Nat.lt_succ_self index)
    exact ⟨by linarith, by linarith, fun h => by linarith, fun h => by linarith⟩

/-- No rational rounds to two indices. -/
theorem RoundsTo.unique {i j : ℕ} (hi : g.RoundsTo z i) (hj : g.RoundsTo z j) : i = j := by
  wlog hlt : i < j generalizing i j
  · rcases Nat.lt_trichotomy i j with h | h | h
    · exact this hi hj h
    · exact h
    · exact (this hj hi h).symm
  exfalso
  have hbelow : g.value i ≤ g.value (j - 1) := g.value_strictMono.monotone (by omega)
  have habove : g.value (i + 1) ≤ g.value j := g.value_strictMono.monotone hlt
  have hupper := hi.upper
  have hlower := hj.lower
  -- both midpoints are the number itself, so the indices are neighbours and both even
  have hnext : g.value (i + 1) = g.value j := by linarith
  have hsucc : i + 1 = j := g.value_strictMono.injective hnext
  have hieven := hi.even_of_upper (by linarith)
  have hjeven := hj.even_of_lower (by linarith)
  rw [← hsucc, Nat.even_add_one] at hjeven
  exact hjeven hieven

/-- What is nearer to a number than the midpoints around it rounds as the number does. -/
theorem RoundsTo.of_near {w : ℚ} (h : g.RoundsTo z index)
    (hlower : w = z ∨ |w - z| < |z - (g.value (index - 1) + g.value index) / 2|)
    (hupper : w = z ∨ |w - z| < |z - (g.value index + g.value (index + 1)) / 2|) :
    g.RoundsTo w index := by
  rcases hlower with rfl | hlower
  · exact h
  rcases hupper with rfl | hupper
  · exact h
  have hlower' := h.lower
  have hupper' := h.upper
  rw [abs_of_nonneg (a := z - _) (by linarith)] at hlower
  rw [abs_of_nonpos (a := z - _) (by linarith)] at hupper
  have hbelow := neg_abs_le (w - z)
  have habove := le_abs_self (w - z)
  exact ⟨by linarith, by linarith, fun h => by linarith, fun h => by linarith⟩

/-- The value that a number rounds to is the closest one. -/
theorem RoundsTo.abs_sub_le (h : g.RoundsTo z index) (other : ℕ) :
    |g.value index - z| ≤ |g.value other - z| := by
  obtain ⟨hlower, hupper, -, -⟩ := h
  rcases Nat.lt_trichotomy other index with hlt | rfl | hlt
  · have hother : g.value other ≤ g.value (index - 1) := g.value_strictMono.monotone (by omega)
    have hless := g.value_strictMono hlt
    rw [abs_sub_comm (g.value other), abs_of_nonneg (by linarith : (0 : ℚ) ≤ z - g.value other)]
    exact abs_le.mpr ⟨by linarith, by linarith⟩
  · exact le_rfl
  · have hother : g.value (index + 1) ≤ g.value other := g.value_strictMono.monotone hlt
    have hless := g.value_strictMono hlt
    rw [abs_of_nonneg (by linarith : (0 : ℚ) ≤ g.value other - z)]
    exact abs_le.mpr ⟨by linarith, by linarith⟩

/-- The significand that a quotient is rounded to at the scale of its leading digit: long
enough for the scale, and at most one past the longest. -/
private theorem significand_bounds (g : Grid) (num den : ℕ) :
    let e := Nat.log2 (num / den) - g.fraction
    (e = 0 ∨ 2 ^ g.fraction ≤ num / (den * 2 ^ e)) ∧
      num / (den * 2 ^ e) < 2 ^ (g.fraction + 1) := by
  intro e
  rw [← Nat.div_div_eq_div_mul]
  constructor
  · rcases Nat.eq_zero_or_pos e with he | he
    · exact .inl he
    · right
      have hlog : Nat.log2 (num / den) = g.fraction + e := by omega
      have hne : num / den ≠ 0 := by
        intro hzero
        rw [hzero, Nat.log2_zero] at hlog
        omega
      rw [Nat.le_div_iff_mul_le (Nat.two_pow_pos e), ← pow_add, ← hlog]
      exact Nat.log2_self_le hne
  · refine Nat.div_lt_of_lt_mul (lt_of_lt_of_le Nat.lt_log2_self ?_)
    rw [← pow_add]
    exact Nat.pow_le_pow_right (by decide) (by omega)

/-- The rounded index, by its exponent and its significand. -/
private theorem exists_nearestUnits_eq (g : Grid) (num : ℕ) {den : ℕ} (hden : 0 < den) :
    ∃ e n, g.nearestUnits num den = e * 2 ^ g.fraction + n ∧ n ≤ 2 ^ (g.fraction + 1) ∧
      (e = 0 ∨ 2 ^ g.fraction ≤ n ∧ 2 ^ g.fraction * (den * 2 ^ e) ≤ num) ∧
      2 * n * (den * 2 ^ e) ≤ 2 * num + den * 2 ^ e ∧
      2 * num ≤ (2 * n + 1) * (den * 2 ^ e) ∧
      (2 * n * (den * 2 ^ e) = 2 * num + den * 2 ^ e ∨
        2 * num = (2 * n + 1) * (den * 2 ^ e) → Even n) := by
  obtain ⟨hlong, hshort⟩ := significand_bounds g num den
  have hscale : 0 < den * 2 ^ (Nat.log2 (num / den) - g.fraction) :=
    Nat.mul_pos hden (Nat.two_pow_pos _)
  refine ⟨_, _, rfl, (roundDiv_le_succ _ _).trans hshort, hlong.imp_right fun h => ⟨?_, ?_⟩,
    roundDiv_bounds num hscale⟩
  · exact h.trans (div_le_roundDiv _ _)
  · exact (Nat.le_div_iff_mul_le hscale).mp h

/-- The rounded quotient of natural numbers of units lies between the midpoints. -/
private theorem nearestUnits_bounds (hfraction : 0 < g.fraction) (num : ℕ) {den j : ℕ}
    (hden : 0 < den) (hj : g.nearestUnits num den = j) :
    (g.units (j - 1) + g.units j) * den ≤ 2 * num ∧
      2 * num ≤ (g.units j + g.units (j + 1)) * den ∧
      (2 * num = (g.units (j - 1) + g.units j) * den → Even j) ∧
      (2 * num = (g.units j + g.units (j + 1)) * den → Even j) := by
  obtain ⟨e, n, hindex, hshort, hlong, hlower, hupper, htie⟩ := exists_nearestUnits_eq g num hden
  obtain rfl : j = e * 2 ^ g.fraction + n := hj.symm.trans hindex
  have hlong' : e = 0 ∨ 2 ^ g.fraction ≤ n := hlong.imp_right And.left
  have heven : Even n → Even (e * 2 ^ g.fraction + n) := fun h =>
    (((Nat.even_pow' hfraction.ne').mpr even_two).mul_left e).add h
  have hunits := units_mul_add hlong' hshort
  have habove : (2 * n + 1) * (den * 2 ^ e) ≤ (g.units (e * 2 ^ g.fraction + n) +
      g.units (e * 2 ^ g.fraction + n + 1)) * den := by
    have hgap := Nat.pow_le_pow_right two_pos (le_exponent_mul_add hlong')
    rw [units_succ, hunits]
    calc (2 * n + 1) * (den * 2 ^ e) = (n * 2 ^ e + (n * 2 ^ e + 2 ^ e)) * den := by ring
      _ ≤ _ := by gcongr
  have hbelow : (g.units (e * 2 ^ g.fraction + n - 1) + g.units (e * 2 ^ g.fraction + n)) * den ≤
        2 * num ∧ (2 * num = (g.units (e * 2 ^ g.fraction + n - 1) +
          g.units (e * 2 ^ g.fraction + n)) * den → Even (e * 2 ^ g.fraction + n)) := by
    cases n with
    | zero =>
      obtain rfl : e = 0 := hlong'.resolve_right (Nat.two_pow_pos _).not_ge
      simp only [Nat.zero_mul, Nat.add_zero, Nat.zero_sub] at hunits ⊢
      rw [hunits]
      exact ⟨by omega, fun _ => Even.zero⟩
    | succ m =>
      by_cases hm : e = 0 ∨ 2 ^ g.fraction ≤ m
      · have hsum : (g.units (e * 2 ^ g.fraction + (m + 1) - 1) +
            g.units (e * 2 ^ g.fraction + (m + 1))) * den + den * 2 ^ e =
            2 * (m + 1) * (den * 2 ^ e) := by
          rw [hunits, ← Nat.add_assoc, Nat.add_sub_cancel, units_mul_add hm (by omega)]
          ring
        exact ⟨by omega, fun h => heven (htie (.inl (by omega)))⟩
      · -- at the bottom of a binade the quotient is not below the value itself
        obtain ⟨hbinade, hmin⟩ := hlong.resolve_left fun h => hm (.inl h)
        have hvalue : g.units (e * 2 ^ g.fraction + (m + 1)) * den ≤ num := by
          have hbottom : m + 1 = 2 ^ g.fraction := by omega
          calc _ = 2 ^ g.fraction * (den * 2 ^ e) := by rw [hunits, hbottom]; ring
            _ ≤ num := hmin
        have hless : g.units (e * 2 ^ g.fraction + (m + 1) - 1) * den <
            g.units (e * 2 ^ g.fraction + (m + 1)) * den :=
          Nat.mul_lt_mul_of_pos_right (g.units_strictMono (by omega)) hden
        rw [Nat.add_mul]
        exact ⟨by omega, fun h => by omega⟩
  exact ⟨hbelow.1, hupper.trans habove, hbelow.2,
    fun h => heven (htie (.inr (le_antisymm hupper (habove.trans h.ge))))⟩

/-- The rounded quotient of two natural numbers, one of them scaled to units. -/
theorem roundsTo_nearestUnits (hfraction : 0 < g.fraction) (num : ℕ) {den : ℕ} (hden : 0 < den) :
    g.RoundsTo (num / den / 2 ^ g.depth) (g.nearestUnits num den) := by
  have hden' : (0 : ℚ) < den := Nat.cast_pos.mpr hden
  have hscale : (0 : ℚ) < 2 ^ g.depth := by positivity
  obtain ⟨hlower, hupper, hlowerTie, hupperTie⟩ := nearestUnits_bounds hfraction num hden rfl
  have hsum : ∀ i j : ℕ, g.value i + g.value j = ((g.units i + g.units j : ℕ) : ℚ) / 2 ^ g.depth :=
    fun i j => by rw [value, value, Nat.cast_add, add_div]
  have htwice : (2 : ℚ) * (num / den / 2 ^ g.depth) = (2 * num : ℕ) / den / 2 ^ g.depth := by
    push_cast
    ring
  constructor
  · rw [hsum, htwice, div_le_div_iff_of_pos_right hscale, le_div_iff₀ hden']
    exact_mod_cast hlower
  · rw [hsum, htwice, div_le_div_iff_of_pos_right hscale, div_le_iff₀ hden']
    exact_mod_cast hupper
  · rw [hsum, htwice, div_left_inj' hscale.ne', div_eq_iff hden'.ne']
    exact fun h => hlowerTie (by exact_mod_cast h)
  · rw [hsum, htwice, div_left_inj' hscale.ne', div_eq_iff hden'.ne']
    exact fun h => hupperTie (by exact_mod_cast h)

private theorem scaled_div_div (num den depth : ℕ) :
    ((num * 2 ^ depth : ℕ) : ℚ) / den / 2 ^ depth = num / den := by
  rw [Nat.cast_mul, Nat.cast_pow, Nat.cast_ofNat, mul_div_right_comm,
    mul_div_cancel_right₀ _ (by positivity)]

/-- How far a value is above the one before it. -/
def gap (g : Grid) (index : ℕ) : ℚ := g.value index - g.value (index - 1)

theorem gap_succ (g : Grid) (index : ℕ) :
    g.gap (index + 1) = 2 ^ g.exponent index / 2 ^ g.depth := by
  rw [gap, Nat.add_sub_cancel, value, value, units_succ, Nat.cast_add, add_div,
    add_sub_cancel_left, Nat.cast_pow, Nat.cast_ofNat]

/-- The gap above a value is no smaller than the one below it. -/
theorem gap_le_gap_succ (g : Grid) (index : ℕ) : g.gap index ≤ g.gap (index + 1) := by
  cases index with
  | zero =>
    rw [gap_succ, gap, Nat.zero_sub, sub_self]
    positivity
  | succ index =>
    rw [gap_succ, gap_succ, div_le_div_iff_of_pos_right (by positivity)]
    exact pow_le_pow_right₀ one_le_two (g.exponent_mono (Nat.le_succ index))

theorem value_succ (g : Grid) (index : ℕ) :
    g.value (index + 1) = g.value index + g.gap (index + 1) := by
  rw [gap, Nat.add_sub_cancel, add_sub_cancel]

/-- A value as a multiple of the gap above it. -/
theorem value_eq (g : Grid) (index : ℕ) :
    g.value index = g.significand index * g.gap (index + 1) := by
  rw [gap_succ, value, units_eq, Nat.cast_mul, Nat.cast_pow, Nat.cast_ofNat, mul_div_assoc]

/-- The midpoints around a value are short multiples of half the gap below it. -/
theorem exists_midpoints (g : Grid) (index : ℕ) :
    ∃ low high : ℕ, low ≤ 2 ^ (g.fraction + 2) + 2 ∧ high ≤ 2 ^ (g.fraction + 2) + 2 ∧
      (g.value index + g.value (index + 1)) / 2 = low * (g.gap (index + 1) / 2) ∧
      (g.value (index + 1) + g.value (index + 2)) / 2 = high * (g.gap (index + 1) / 2) := by
  have hshort : g.significand index + 1 ≤ 2 ^ (g.fraction + 1) := g.significand_lt index
  have hpow : 2 ^ (g.fraction + 2) = 2 * 2 ^ (g.fraction + 1) := pow_succ' _ _
  have hvalue := g.value_eq index
  have hnext := g.value_succ index
  have hlow : (g.value index + g.value (index + 1)) / 2 =
      (2 * g.significand index + 1 : ℕ) * (g.gap (index + 1) / 2) := by
    rw [hnext, hvalue]
    push_cast
    ring
  rcases g.exponent_succ index with hsame | ⟨hlast, hdouble⟩
  · have hgap : g.gap (index + 2) = g.gap (index + 1) := by rw [gap_succ, gap_succ, hsame]
    refine ⟨_, 2 * g.significand index + 3, by omega, by omega, hlow, ?_⟩
    rw [g.value_succ (index + 1), hgap, hnext, hvalue]
    push_cast
    ring
  · have hgap : g.gap (index + 2) = 2 * g.gap (index + 1) := by
      rw [gap_succ, gap_succ, hdouble, pow_succ']
      ring
    refine ⟨_, 2 * g.significand index + 4, by omega, by omega, hlow, ?_⟩
    rw [g.value_succ (index + 1), hgap, hnext, hvalue]
    push_cast
    ring

/-- What is nearer to a value than half the gap below it rounds to its index. -/
theorem roundsTo_of_abs_sub_lt (h : |z - g.value index| < g.gap index / 2) :
    g.RoundsTo z index := by
  have hnext : g.gap index ≤ g.value (index + 1) - g.value index := g.gap_le_gap_succ index
  have hgap : g.gap index = g.value index - g.value (index - 1) := rfl
  obtain ⟨hlower, hupper⟩ := abs_lt.mp h
  exact ⟨by linarith, by linarith, fun h => by linarith, fun h => by linarith⟩

/-- Every nonnegative rational rounds to an index. -/
theorem exists_roundsTo (hfraction : 0 < g.fraction) (hz : 0 ≤ z) :
    ∃ index, g.RoundsTo z index := by
  have h := roundsTo_nearestUnits (g := g) hfraction (z.num.toNat * 2 ^ g.depth) z.den_pos
  have hnum : ((z.num.toNat : ℕ) : ℚ) = z.num := by
    exact_mod_cast Int.toNat_of_nonneg (Rat.num_nonneg.mpr hz)
  rw [scaled_div_div, hnum, Rat.num_div_den] at h
  exact ⟨_, h⟩

/-- Rounding to the nearest value finds the index that a quotient rounds to. -/
theorem RoundsTo.nearest_eq (hfraction : 0 < g.fraction) {num den : ℕ} (hden : 0 < den)
    (h : g.RoundsTo (num / den) index) (hlimit : index ≤ g.limit) :
    g.nearest num den = index := by
  have hunits := roundsTo_nearestUnits (g := g) hfraction (num * 2 ^ g.depth) hden
  rw [scaled_div_div] at hunits
  rw [nearest, Nat.pow_eq, hunits.unique h, Nat.min_eq_left hlimit]

@[simp] theorem nearest_zero (g : Grid) (den : ℕ) : g.nearest 0 den = 0 := by
  simp [nearest, nearestUnits, roundDiv]

/-- The product of two values is rounded once. -/
theorem RoundsTo.mul_eq (hfraction : 0 < g.fraction) {i j : ℕ}
    (h : g.RoundsTo (g.value i * g.value j) index) (hlimit : index ≤ g.limit) :
    g.mul i j = index := by
  have hunits := roundsTo_nearestUnits (g := g) hfraction (g.units i * g.units j)
    (Nat.two_pow_pos g.depth)
  have hvalue : ((g.units i * g.units j : ℕ) : ℚ) / ((2 ^ g.depth : ℕ) : ℚ) / 2 ^ g.depth =
      g.value i * g.value j := by
    rw [value, value, Nat.cast_mul, Nat.cast_pow, Nat.cast_ofNat]
    ring
  rw [hvalue] at hunits
  rw [Grid.mul, Nat.pow_eq, hunits.unique h, Nat.min_eq_left hlimit]

/-- The quotient of two values is rounded once. -/
theorem RoundsTo.div_eq (hfraction : 0 < g.fraction) {i j : ℕ} (hj : 0 < g.units j)
    (h : g.RoundsTo (g.value i / g.value j) index) (hlimit : index ≤ g.limit) :
    g.div i j = index := by
  have hunits := roundsTo_nearestUnits (g := g) hfraction (g.units i * 2 ^ g.depth) hj
  have hvalue : (g.units i : ℚ) / g.units j = g.value i / g.value j :=
    (div_div_div_cancel_right₀ (by positivity) _ _).symm
  rw [scaled_div_div, hvalue] at hunits
  rw [Grid.div, Nat.pow_eq, hunits.unique h, Nat.min_eq_left hlimit]

/-- What is far enough below the limit does not round to it. -/
theorem RoundsTo.lt_limit (h : g.RoundsTo z index) (hz : 2 * z < g.value g.limit) :
    index < g.limit := by
  by_contra hlimit
  have hvalue := g.value_strictMono.monotone (Nat.le_of_not_lt hlimit)
  have hbelow := g.value_nonneg (index - 1)
  linarith [h.lower]

/-- Above the first binade the gap around a number is small beside the number. -/
private theorem gap_mul_le (hz : 2 ^ g.fraction ≤ z * 2 ^ g.depth)
    (hnext : z < g.value (index + 1)) :
    (g.value (index + 1) - g.value index) * 2 ^ g.fraction ≤ g.value index := by
  have hscale : (0 : ℚ) < 2 ^ g.depth := by positivity
  have hbinade : 2 ^ g.fraction ≤ index := by
    have hbottom : g.units (2 ^ g.fraction) = 2 ^ g.fraction := by
      have h := units_mul_add (g := g) (e := 0) (n := 2 ^ g.fraction) (.inl rfl)
        (Nat.pow_le_pow_right two_pos (Nat.le_succ _))
      rwa [Nat.zero_mul, Nat.zero_add, pow_zero, Nat.mul_one] at h
    rw [value, lt_div_iff₀ hscale] at hnext
    have hless : 2 ^ g.fraction < g.units (index + 1) := by exact_mod_cast hz.trans_lt hnext
    rw [← hbottom] at hless
    exact Nat.le_of_lt_succ (g.units_strictMono.lt_iff_lt.mp hless)
  have hgap : ((2 ^ g.exponent index * 2 ^ g.fraction : ℕ) : ℚ) ≤ g.units index :=
    Nat.cast_le.mpr (g.two_pow_exponent_mul_le hbinade)
  push_cast at hgap
  rw [value, value, units_succ, ← sub_div, div_mul_eq_mul_div, div_le_div_iff_of_pos_right hscale]
  push_cast
  linarith

/-- Above the first binade rounding moves a number by a small part of it only. -/
theorem RoundsTo.abs_sub_mul_le (h : g.RoundsTo z index)
    (hz : 2 ^ g.fraction ≤ z * 2 ^ g.depth) :
    |g.value index - z| * 2 ^ (g.fraction + 1) ≤ z := by
  have hpow : (0 : ℚ) < 2 ^ g.fraction := by positivity
  obtain ⟨hlower, hupper, -, -⟩ := h
  rw [pow_succ]
  rcases le_or_gt (g.value index) z with hle | hgt
  · have hnext : g.value index < g.value (index + 1) :=
      g.value_strictMono (Nat.lt_succ_self index)
    have hgap : (g.value (index + 1) - g.value index) * 2 ^ g.fraction ≤ g.value index :=
      gap_mul_le hz (by linarith)
    rw [abs_sub_comm, abs_of_nonneg (sub_nonneg.mpr hle)]
    nlinarith
  · cases index with
    | zero =>
      rw [value_zero] at hgt
      have hneg : z * 2 ^ g.depth < 0 := mul_neg_of_neg_of_pos hgt (by positivity)
      linarith
    | succ index =>
      rw [Nat.add_sub_cancel] at hlower
      have hgap : (g.value (index + 1) - g.value index) * 2 ^ g.fraction ≤ g.value index :=
      gap_mul_le hz hgt
      rw [abs_of_pos (sub_pos.mpr hgt)]
      nlinarith

end Grid

end SdfScene.Number
