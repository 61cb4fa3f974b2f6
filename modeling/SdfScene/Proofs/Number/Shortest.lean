import Mathlib.Algebra.Order.Field.Power
import Mathlib.Tactic.FieldSimp
import SdfScene.Number.Shortest
import SdfScene.Proofs.Number.Nearest

/-!
# Shortest digits round to their number

The search for the shortest digits always ends on a decimal grid. What it finds rounds to
the number, and no decimal grid much coarser than the gap below the number is passed over.
-/

namespace SdfScene.Number

/-- A power of ten as a quotient of natural powers. -/
theorem ten_zpow (p : ℤ) : (10 : ℚ) ^ p = 10 ^ p.toNat / 10 ^ (-p).toNat := by
  cases p with
  | ofNat k => simp
  | negSucc k => simp [zpow_negSucc]

/-- Natural numbers compare as rationals do of which they are the same multiples. -/
private theorem compare_iff {m n : ℕ} {x y c : ℚ} (hc : 0 < c) (hm : (m : ℚ) = x * c)
    (hn : (n : ℚ) = y * c) : (m < n ↔ x < y) ∧ (m = n ↔ x = y) := by
  rw [← Nat.cast_lt (α := ℚ), ← Nat.cast_inj (R := ℚ), hm, hn]
  exact ⟨mul_lt_mul_iff_left₀ hc, mul_left_inj' hc.ne'⟩

/-- The test for a decimal tells whether it rounds to the index. -/
theorem roundsTo_iff {index d : ℕ} {p : ℤ} (hpos : 0 < index) :
    roundsTo index d p = true ↔ singleGrid.RoundsTo (d * 10 ^ p) index := by
  -- the numbers that are compared, brought over the denominators of both sides
  have hscale : (0 : ℚ) < 10 ^ (-p).toNat * 2 ^ singleGrid.depth := by positivity
  have hsize : ((d * 10 ^ p.toNat * 2 ^ (singleGrid.depth + 1) : ℕ) : ℚ) =
      2 * (d * 10 ^ p) * (10 ^ (-p).toNat * 2 ^ singleGrid.depth) := by
    rw [ten_zpow, pow_succ]
    push_cast
    field_simp
  have hsum : ∀ i j : ℕ, (((singleGrid.units i + singleGrid.units j) * 10 ^ (-p).toNat : ℕ) : ℚ) =
      (singleGrid.value i + singleGrid.value j) * (10 ^ (-p).toNat * 2 ^ singleGrid.depth) := by
    intro i j
    rw [Grid.value, Grid.value]
    push_cast
    field_simp
  obtain ⟨hlower, hlowerTie⟩ := compare_iff hscale (hsum (index - 1) index) hsize
  obtain ⟨hupper, hupperTie⟩ := compare_iff hscale hsize (hsum index (index + 1))
  have hbelow : singleGrid.value (index - 1) < singleGrid.value index :=
    singleGrid.value_strictMono (by omega)
  have habove : singleGrid.value index < singleGrid.value (index + 1) :=
    singleGrid.value_strictMono (by omega)
  simp only [roundsTo, Nat.pow_eq, Bool.or_eq_true, Bool.and_eq_true, decide_eq_true_eq,
    hlower, hlowerTie, hupper, hupperTie, ← Nat.even_iff]
  constructor
  · rintro (⟨hlo, hhi⟩ | ⟨heven, htie⟩)
    · exact ⟨hlo.le, hhi.le, fun h => absurd h hlo.ne', fun h => absurd h hhi.ne⟩
    · refine ⟨?_, ?_, fun _ => heven, fun _ => heven⟩ <;> rcases htie with htie | htie <;> linarith
  · rintro ⟨hlo, hhi, hloEven, hhiEven⟩
    rcases hlo.lt_or_eq with hlo | hlo
    · rcases hhi.lt_or_eq with hhi | hhi
      · exact .inl ⟨hlo, hhi⟩
      · exact .inr ⟨hhiEven hhi, .inr hhi⟩
    · exact .inr ⟨hloEven hlo.symm, .inl hlo⟩

/-- The nearer neighbour of a number on a decimal grid. -/
private def nearer (index : ℕ) (p : ℤ) : ℕ :=
  roundDiv (singleGrid.units index * 10 ^ (-p).toNat) (2 ^ singleGrid.depth * 10 ^ p.toNat)

private theorem abs_nearer_sub_le (index : ℕ) (p : ℤ) :
    |(nearer index p : ℚ) * 10 ^ p - singleGrid.value index| ≤ 10 ^ p / 2 := by
  have hten : (0 : ℚ) < 10 ^ p := by positivity
  have hden : 0 < 2 ^ singleGrid.depth * 10 ^ p.toNat :=
    Nat.mul_pos (Nat.two_pow_pos _) (Nat.pow_pos (by decide))
  have hnearest :=
    (nearestNat_roundDiv (singleGrid.units index * 10 ^ (-p).toNat) hden).abs_sub_le
  have hquotient : ((singleGrid.units index * 10 ^ (-p).toNat : ℕ) : ℚ) /
      (2 ^ singleGrid.depth * 10 ^ p.toNat : ℕ) = singleGrid.value index / 10 ^ p := by
    rw [Grid.value, ten_zpow]
    push_cast
    field_simp
  have hfactor : (nearer index p : ℚ) * 10 ^ p - singleGrid.value index =
      (nearer index p - singleGrid.value index / 10 ^ p) * 10 ^ p := by
    rw [sub_mul, div_mul_cancel₀ _ hten.ne']
  rw [hquotient] at hnearest
  rw [hfactor, abs_mul, abs_of_pos hten, ← one_div_mul_eq_div 2]
  exact mul_le_mul_of_nonneg_right hnearest hten.le

/-- On a grid finer than the gap the nearer neighbour is a hit. -/
private theorem roundsTo_nearer {index : ℕ} {p : ℤ} (hfine : 10 ^ p < singleGrid.gap index) :
    singleGrid.RoundsTo (nearer index p * 10 ^ p) index :=
  Grid.roundsTo_of_abs_sub_lt ((abs_nearer_sub_le index p).trans_lt (by linarith))

/-- A hit on a decimal grid rounds to the number, and on a grid finer than the gap it is the
nearer neighbour. -/
theorem gridHit?_eq_some {index : ℕ} {p : ℤ} {hit : ℕ × ℤ} (hpos : 0 < index)
    (h : gridHit? index p = some hit) :
    hit.2 = p ∧ singleGrid.RoundsTo (hit.1 * 10 ^ p) index ∧
      (10 ^ p < singleGrid.gap index →
        |(hit.1 : ℚ) * 10 ^ p - singleGrid.value index| ≤ 10 ^ p / 2) := by
  unfold gridHit? at h
  extract_lets num den below near farther at h
  have hnear : near = nearer index p := rfl
  split at h
  · next hrounds =>
    cases h
    exact ⟨rfl, (roundsTo_iff hpos).mp hrounds, fun _ => hnear ▸ abs_nearer_sub_le index p⟩
  · next hmiss =>
    split at h
    · next hrounds =>
      cases h
      refine ⟨rfl, (roundsTo_iff hpos).mp hrounds, fun hfine => ?_⟩
      exact absurd ((roundsTo_iff hpos).mpr (roundsTo_nearer hfine)) (hnear ▸ hmiss)
    · cases h

/-- A decimal grid without a hit is no finer than the gap. -/
theorem gap_le_of_gridHit?_eq_none {index : ℕ} {p : ℤ} (hpos : 0 < index)
    (h : gridHit? index p = none) : singleGrid.gap index ≤ 10 ^ p := by
  by_contra hfine
  rw [not_le] at hfine
  unfold gridHit? at h
  extract_lets num den below near farther at h
  have hnear : near = nearer index p := rfl
  have hrounds : roundsTo index near p = true :=
    hnear ▸ (roundsTo_iff hpos).mpr (roundsTo_nearer hfine)
  rw [if_pos hrounds] at h
  cases h

/-- The first hit of a search over a range, with the miss before it. -/
private theorem findSome?_range {α : Type} {f : ℕ → Option α} {n : ℕ} {a : α}
    (h : (List.range n).findSome? f = some a) :
    ∃ k < n, f k = some a ∧ (k = 0 ∨ ∃ j, k = j + 1 ∧ f j = none) := by
  induction n with
  | zero => cases h
  | succ n ih =>
    rw [List.range_succ, List.findSome?_append, Option.or_eq_some_iff] at h
    rcases h with h | ⟨hnone, h⟩
    · obtain ⟨k, hk, hfound, hmiss⟩ := ih h
      exact ⟨k, by omega, hfound, hmiss⟩
    · rw [List.findSome?_singleton] at h
      rw [List.findSome?_eq_none_iff] at hnone
      refine ⟨n, Nat.lt_succ_self n, h, ?_⟩
      cases n with
      | zero => exact .inl rfl
      | succ n => exact .inr ⟨n, rfl, hnone n (List.mem_range.mpr (Nat.lt_succ_self n))⟩

/-- The power of ten that the search starts with, by the leading binary digit. -/
private def top (log : ℕ) : ℤ := (log + 2) * 30103 / 100000 - 43

/-- The twenty decimal grids of a search reach from above the number down to far below its
gap. -/
private theorem top_bounds : ∀ log < 278, top log ≤ 40 ∧
    10 ^ (top log - 19).toNat * 2 ^ 149 < 2 ^ (log - 24) * 10 ^ (-(top log - 19)).toNat ∧
    2 ^ (log - 23) * 10 ^ (-(top log + 1)).toNat ≤ 10 ^ (top log + 1).toNat * 2 ^ 149 := by
  decide +kernel

/-- What the search for the shortest digits tells of them. -/
structure ShortestHit (index d : ℕ) (p : ℤ) : Prop where
  roundsTo : singleGrid.RoundsTo (d * 10 ^ p) index
  /-- The next coarser grid is no finer than the gap below the number. -/
  gap_le : singleGrid.gap index ≤ 10 ^ (p + 1)
  /-- On a grid finer than the gap the digits are the nearer neighbour. -/
  near : 10 ^ p < singleGrid.gap index →
    |(d : ℚ) * 10 ^ p - singleGrid.value index| ≤ 10 ^ p / 2
  le_exponent : -45 ≤ p
  exponent_le : p ≤ 40

/-- The search ranges over grids from no finer than the gap to finer than the gap. -/
private theorem gap_bounds {index : ℕ} (hlimit : index + 1 < singleGrid.limit) :
    let first := top (Nat.log2 (singleGrid.units (index + 1)))
    first ≤ 40 ∧ 10 ^ (first - 19) < singleGrid.gap (index + 1) ∧
      singleGrid.gap (index + 1) ≤ 10 ^ (first + 1) := by
  intro first
  obtain ⟨hlower, hupper⟩ := singleGrid.exponent_bounds index
  have hexponent : singleGrid.exponent index ≤ 253 := by
    change index / 2 ^ 23 - 1 ≤ 253
    change index + 1 < 0x7F800000 at hlimit
    omega
  change _ ≤ _ + 24 at hlower
  change _ ≤ _ - 23 at hupper
  obtain ⟨hforty, hfine, hcoarse⟩ :=
    top_bounds (Nat.log2 (singleGrid.units (index + 1))) (by omega)
  change first ≤ 40 at hforty
  change 10 ^ (first - 19).toNat * _ < _ * 10 ^ (-(first - 19)).toNat at hfine
  change _ * 10 ^ (-(first + 1)).toNat ≤ 10 ^ (first + 1).toNat * _ at hcoarse
  have hdepth : singleGrid.depth = 149 := rfl
  rw [Grid.gap_succ, hdepth, ten_zpow, ten_zpow]
  refine ⟨hforty, ?_, ?_⟩
  · rw [div_lt_div_iff₀ (by positivity) (by positivity)]
    have hscaled := hfine.trans_le
      (Nat.mul_le_mul_right _ (Nat.pow_le_pow_right two_pos (Nat.sub_le_of_le_add hlower)))
    exact_mod_cast hscaled
  · rw [div_le_div_iff₀ (by positivity) (by positivity)]
    have hscaled :=
      (Nat.mul_le_mul_right _ (Nat.pow_le_pow_right two_pos hupper)).trans hcoarse
    exact_mod_cast hscaled

/-- No gap is finer than the decimal grid below the unit. -/
private theorem le_of_gap_le {index : ℕ} {p : ℤ}
    (h : singleGrid.gap (index + 1) ≤ 10 ^ (p + 1)) : -45 ≤ p := by
  by_contra hlow
  have hten : (10 : ℚ) ^ (p + 1) ≤ 10 ^ (-45 : ℤ) := zpow_le_zpow_right₀ (by norm_num) (by omega)
  have hunit : (10 : ℚ) ^ (-45 : ℤ) < 1 / 2 ^ 149 := by norm_num
  have hgap : (1 : ℚ) / 2 ^ 149 ≤ singleGrid.gap (index + 1) := by
    rw [Grid.gap_succ]
    exact div_le_div_of_nonneg_right (one_le_pow₀ one_le_two) (by positivity)
  exact absurd ((hgap.trans h).trans hten) (not_le.mpr hunit)

/-- The search for the shortest digits of a finite number ends with a hit. -/
theorem shortestHit {index : ℕ} (hpos : 0 < index) (hlimit : index < singleGrid.limit) :
    ShortestHit index (shortestDecimal index).1 (shortestDecimal index).2 := by
  obtain ⟨below, rfl⟩ := Nat.exists_eq_succ_of_ne_zero hpos.ne'
  obtain ⟨hforty, hfine, hcoarse⟩ := gap_bounds hlimit
  have hdecimal : shortestDecimal (below + 1) = Option.getD ((List.range 20).findSome?
      fun step : ℕ => gridHit? (below + 1)
        (top (Nat.log2 (singleGrid.units (below + 1))) - step)) _ := rfl
  rw [hdecimal]
  generalize top (Nat.log2 (singleGrid.units (below + 1))) = first at *
  cases hfound : (List.range 20).findSome? fun step : ℕ => gridHit? (below + 1) (first - step) with
  | none =>
    have hmiss := List.findSome?_eq_none_iff.mp hfound 19 (List.mem_range.mpr (by decide))
    exact absurd (gap_le_of_gridHit?_eq_none hpos hmiss) (not_le.mpr hfine)
  | some hit =>
    obtain ⟨step, hstep, hhit, hbefore⟩ := findSome?_range hfound
    obtain ⟨hexponent, hrounds, hnear⟩ := gridHit?_eq_some hpos hhit
    have hgap : singleGrid.gap (below + 1) ≤ 10 ^ (first - step + 1) := by
      rcases hbefore with rfl | ⟨before, rfl, hmiss⟩
      · rwa [Nat.cast_zero, sub_zero]
      · have hgap := gap_le_of_gridHit?_eq_none hpos hmiss
        rwa [Nat.cast_succ, sub_add_eq_sub_sub, sub_add_cancel]
    rw [Option.getD_some, hexponent]
    exact ⟨hrounds, hgap, hnear, le_of_gap_le hgap, by omega⟩

namespace ShortestHit

variable {index d : ℕ} {p : ℤ}

/-- The digits denote no more than the gap below their number times 24 bits. -/
theorem le_gap (h : ShortestHit (index + 1) d p) :
    d * 10 ^ p ≤ (2 ^ 24 + 1) * singleGrid.gap (index + 1) := by
  obtain ⟨low, high, -, hhigh, -, hmid⟩ := singleGrid.exists_midpoints index
  have hupper := h.roundsTo.upper
  have hgap : 0 < singleGrid.gap (index + 1) := by
    rw [Grid.gap_succ]
    positivity
  have hhigh' : (high : ℚ) ≤ 2 ^ 25 + 2 := by exact_mod_cast hhigh
  nlinarith

/-- The digits are few. -/
theorem lt_two_pow (h : ShortestHit (index + 1) d p) : d < 2 ^ 53 := by
  have hten : (0 : ℚ) < 10 ^ p := by positivity
  have hsize : (d : ℚ) ≤ (2 ^ 24 + 1) * 10 := by
    refine le_of_mul_le_mul_right ?_ hten
    calc (d : ℚ) * 10 ^ p ≤ (2 ^ 24 + 1) * singleGrid.gap (index + 1) := h.le_gap
      _ ≤ (2 ^ 24 + 1) * 10 ^ (p + 1) := mul_le_mul_of_nonneg_left h.gap_le (by norm_num)
      _ = (2 ^ 24 + 1) * 10 * 10 ^ p := by
        rw [zpow_add_one₀ (by norm_num)]
        ring
  have hsize' : d ≤ (2 ^ 24 + 1) * 10 := by exact_mod_cast hsize
  omega

end ShortestHit

/-- The gap below a number as a power of two. -/
theorem gap_eq_zpow (index : ℕ) :
    singleGrid.gap (index + 1) = (2 : ℚ) ^ ((singleGrid.exponent index : ℤ) - 149) := by
  rw [Grid.gap_succ, zpow_sub₀ two_ne_zero, zpow_natCast]
  rfl

end SdfScene.Number
