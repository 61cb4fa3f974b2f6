import SdfScene.Proofs.Json.Layout
import SdfScene.Proofs.Json.Scaled
import SdfScene.Proofs.Number.Midpoints
import SdfScene.Proofs.Number.Shortest

/-!
# Shortest digits are read back

The shortest digits of a number are rounded to double precision first, and only then to
single precision. The detour does no harm: on a grid finer than the gap below the number
the digits are well inside its rounding interval, and on a coarser one they have 24 bits
and so are well away from its midpoints or meet one of them exactly.
-/

namespace SdfScene

namespace Number.ShortestHit

variable {index d : ℕ} {p : ℤ}

/-- On a grid finer than the gap, what is near the digits rounds as they do. -/
private theorem roundsTo_of_fine (h : ShortestHit (index + 1) d p)
    (hfine : 10 ^ p < singleGrid.gap (index + 1)) {w : ℚ}
    (hnear : |w - d * 10 ^ p| * 2 ^ 51 ≤ d * 10 ^ p) : singleGrid.RoundsTo w (index + 1) := by
  apply Grid.roundsTo_of_abs_sub_lt
  have hvalue := h.near hfine
  have hsize := h.le_gap
  rw [gap_eq_zpow] at *
  have hwell := ten_zpow_le_of_lt h.le_exponent h.exponent_le hfine
  have htriangle := abs_sub_le w (d * 10 ^ p) (singleGrid.value (index + 1))
  have hten : (0 : ℚ) < 10 ^ p := by positivity
  linarith

/-- On a grid no finer than the gap, what is near the digits rounds as they do if it meets
them where they are a short binary fraction. -/
private theorem roundsTo_of_coarse (h : ShortestHit (index + 1) d p)
    (hcoarse : singleGrid.gap (index + 1) ≤ 10 ^ p) (hd : 0 < d) (hfar : (d, p) ∉ closeDecimals)
    {w : ℚ} (hnear : |w - d * 10 ^ p| * 2 ^ 51 ≤ d * 10 ^ p)
    (hexact : p.natAbs ≤ 22 → ∀ m < 2 ^ 53, ∀ e : ℤ, -1074 ≤ e →
      (d : ℚ) * 10 ^ p = (m : ℕ) * 2 ^ e → w = d * 10 ^ p) :
    singleGrid.RoundsTo w (index + 1) := by
  have hsize := h.le_gap
  obtain ⟨low, high, hlow, hhigh, hlower, hupper⟩ := singleGrid.exists_midpoints index
  have hhalf : singleGrid.gap (index + 1) / 2 =
      (2 : ℚ) ^ ((singleGrid.exponent index : ℤ) - 149 - 1) := by
    rw [gap_eq_zpow, zpow_sub_one₀ two_ne_zero]
    rfl
  rw [hhalf] at hlower hupper
  rw [gap_eq_zpow] at hcoarse hsize
  have hmid : ∀ m : ℕ, m ≤ 2 ^ 25 + 2 → w = d * 10 ^ p ∨ |w - d * 10 ^ p| <
      |(d : ℚ) * 10 ^ p - m * 2 ^ ((singleGrid.exponent index : ℤ) - 149 - 1)| := by
    intro m hm
    rcases (separated h.le_exponent h.exponent_le).midpoint_cases hd hm hcoarse hsize with
      ⟨hmeets, hp⟩ | haway | hclose
    · exact .inl (hexact hp m (by omega) _ (by omega) hmeets)
    · right
      linarith
    · exact absurd hclose hfar
  apply h.roundsTo.of_near
  · exact hlower ▸ hmid low hlow
  · exact hupper ▸ hmid high hhigh

/-- What is near the digits, and meets them where they are a short binary fraction, rounds as
they do. -/
theorem roundsTo_of_near (h : ShortestHit (index + 1) d p) (hd : 0 < d)
    (hfar : (d, p) ∉ closeDecimals) {w : ℚ} (hnear : |w - d * 10 ^ p| * 2 ^ 51 ≤ d * 10 ^ p)
    (hexact : p.natAbs ≤ 22 → ∀ m < 2 ^ 53, ∀ e : ℤ, -1074 ≤ e →
      (d : ℚ) * 10 ^ p = (m : ℕ) * 2 ^ e → w = d * 10 ^ p) :
    singleGrid.RoundsTo w (index + 1) := by
  rcases le_or_gt (singleGrid.gap (index + 1)) (10 ^ p) with hcoarse | hfine
  · exact h.roundsTo_of_coarse hcoarse hd hfar hnear hexact
  · exact h.roundsTo_of_fine hfine hnear

end Number.ShortestHit

namespace Json

open Number

/-- The index of the single-precision number that a double-precision one is rounded to. -/
def narrow (index : ℕ) : ℕ := singleGrid.nearest (doubleGrid.units index) (2 ^ doubleGrid.depth)

/-- The exceptional decimals are read as if they were rounded once. -/
private theorem narrow_closeDecimals : ∀ c ∈ closeDecimals, c.2 < 0 ∧
    (scale? c.1 c.2).map narrow = some (singleGrid.nearest c.1 (10 ^ (-c.2).toNat)) := by
  decide +kernel

/-- Digits are read as the number they are the shortest digits of, also if they are filled
up to a whole number first. -/
theorem narrow_scale? {index d n : ℕ} {p e : ℤ} (h : ShortestHit (index + 1) d p) (hd : 0 < d)
    (hlimit : index + 1 < singleGrid.limit)
    (hread : n = d ∧ e = p ∨ 0 ≤ p ∧ n = d * 10 ^ (p.toNat + 1) ∧ n < 10 ^ 14 ∧ e = -1) :
    (scale? n e).map narrow = some (index + 1) := by
  by_cases hfar : (d, p) ∈ closeDecimals
  · obtain ⟨hneg, hnarrow⟩ := narrow_closeDecimals _ hfar
    obtain ⟨rfl, rfl⟩ := hread.resolve_right fun hwhole => (not_le.mpr hneg) hwhole.1
    have hrounds := h.roundsTo
    rw [ten_zpow, Int.toNat_of_nonpos hneg.le, pow_zero, mul_one_div] at hrounds
    have hnearest : singleGrid.nearest n (10 ^ (-e).toNat) = index + 1 :=
      Grid.RoundsTo.nearest_eq (by decide) (Nat.pow_pos (by decide))
        (by exact_mod_cast hrounds) hlimit.le
    rwa [hnearest] at hnarrow
  · have hsame : (n : ℚ) * 10 ^ e = d * 10 ^ p := by
      rcases hread with ⟨rfl, rfl⟩ | ⟨hp, rfl, -, rfl⟩
      · rfl
      · obtain ⟨k, rfl⟩ := Int.eq_ofNat_of_zero_le hp
        rw [Int.toNat_natCast, zpow_natCast, pow_succ]
        push_cast
        rw [zpow_neg_one, mul_assoc, mul_assoc, mul_inv_cancel₀ (by norm_num), mul_one]
    have hpos : 0 < n := by
      rcases hread with ⟨rfl, -⟩ | ⟨-, rfl, -, -⟩
      · exact hd
      · exact Nat.mul_pos hd (Nat.pow_pos (by decide))
    have hn : n < 2 ^ 53 := by
      rcases hread with ⟨rfl, -⟩ | ⟨-, -, hn, -⟩
      · exact h.lt_two_pow
      · exact hn.trans (by decide)
    have hlow := h.le_exponent
    have hhigh := h.exponent_le
    obtain ⟨double, hscale, hnear, hexact⟩ := scale?_eq hpos hn (p := e) (by omega) (by omega)
    rw [hsame] at hnear hexact
    have hrounds : singleGrid.RoundsTo (doubleGrid.value double) (index + 1) := by
      refine h.roundsTo_of_near hd hfar hnear fun hp m hm e' he' hmeets => ?_
      obtain ⟨exact, hvalue⟩ := exists_double hm he'
      exact hexact (by omega) exact (hvalue.trans hmeets.symm)
    have hnarrow : narrow double = index + 1 := by
      refine Grid.RoundsTo.nearest_eq (by decide) (Nat.two_pow_pos _) ?_ hlimit.le
      rwa [Nat.cast_pow, Nat.cast_ofNat]
    rw [hscale, Option.map_some, hnarrow]

/-- A zero is read with its sign. -/
private theorem toSingle_zero : ∀ negative, (Numeral.quantity? ⟨negative, ['0'], ['0'], none⟩).map
    Quantity.toSingle = some (.ofIndex negative 0) := by
  decide +kernel

/-- The numeral of a finite number stands for that number, bit for bit. -/
theorem toSingle_quantity?_ofSingle {x : Single} (hx : x.isFinite) :
    (Numeral.ofSingle x).quantity?.map Quantity.toSingle = some x := by
  rw [Single.isFinite, decide_eq_true_eq] at hx
  have hself : Single.ofIndex x.negative x.index.val = x := by
    have hindex : min x.index.val singleGrid.limit = x.index.val := Nat.min_eq_left hx.le
    exact congrArg (Single.mk x.negative) (Fin.ext hindex)
  rw [Numeral.ofSingle]
  split
  · next hzero =>
    rw [Single.isZero, decide_eq_true_eq] at hzero
    rw [toSingle_zero, ← hzero, hself]
  · next hzero =>
    rw [Single.isZero, decide_eq_true_eq] at hzero
    obtain ⟨below, hbelow⟩ : ∃ below, x.index.val = below + 1 :=
      Nat.exists_eq_succ_of_ne_zero hzero
    have hd := Numeral.shortestDecimal_pos (Nat.pos_of_ne_zero hzero)
    have hhit := shortestHit (Nat.pos_of_ne_zero hzero) hx
    generalize shortestDecimal x.index.val = decimal at hd hhit ⊢
    obtain ⟨d, p⟩ := decimal
    rw [hbelow] at hhit
    have hshort : d < 2 ^ 64 := hhit.lt_two_pow.trans (by decide)
    obtain ⟨n, e, hquantity, hread⟩ := Numeral.quantity?_layout x.negative hshort p
    have hnarrow := narrow_scale? hhit hd (hbelow.symm.trans_lt hx) hread
    obtain ⟨double, hscale, hindex⟩ := Option.map_eq_some_iff.mp hnarrow
    have hsingle : Quantity.toSingle (.double x.negative double) =
        .ofIndex x.negative (narrow double) := by
      simp only [Quantity.toSingle, Single.ofRatio, narrow, Nat.pow_eq]
    rw [hbelow] at hself
    simp only [hquantity, hscale, Option.map_some, hsingle, hindex, hself]

end Json

end SdfScene
