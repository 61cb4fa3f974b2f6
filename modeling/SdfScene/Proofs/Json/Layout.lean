import Mathlib.Tactic.Ring
import SdfScene.Proofs.Json.Numeral

/-!
# What a laid-out numeral stands for

The digits of a numeral of moderate length are all read, so it stands for its digits scaled
by its exponent. Laying out digits scaled by a power of ten keeps what they denote: the
zeros that fill up a whole number only change the scale.
-/

namespace SdfScene.Json

open Number

/-- Digits that stay below the bound are all taken. -/
theorem takeDigits_eq {n : ℕ} {cs : List Char}
    (h : n * 10 ^ cs.length + ofDigits cs < 2 ^ 64) :
    takeDigits n cs = (n * 10 ^ cs.length + ofDigits cs, []) := by
  induction cs generalizing n with
  | nil => simp [takeDigits, ofDigits]
  | cons c cs ih =>
    have hdigits : n * 10 ^ (c :: cs).length + ofDigits (c :: cs) =
        (n * 10 + digitValue c) * 10 ^ cs.length + ofDigits cs := by
      have hc : ofDigits [c] = digitValue c := Nat.zero_add _
      rw [← List.singleton_append, ofDigits_append, hc, List.length_append, List.length_singleton]
      ring
    rw [hdigits] at h ⊢
    have hnext : n * 10 + digitValue c < 2 ^ 64 :=
      (Nat.le_mul_of_pos_right _ (Nat.pow_pos (by decide))).trans_lt
        (Nat.lt_of_add_right_lt h)
    simp only [takeDigits, Nat.pow_eq, hnext, ite_true]
    exact ih h

namespace Numeral

/-- A numeral with a point or an exponent stands for its digits scaled by a power of ten in
double precision. -/
theorem quantity?_eq {x : Numeral} (h : ofDigits (x.whole ++ x.fraction) < 2 ^ 64)
    (hscaled : x.fraction ≠ [] ∨ x.exponent ≠ none) :
    x.quantity? = (scale? (ofDigits (x.whole ++ x.fraction))
      (x.exponent.getD 0 - x.fraction.length)).map (.double x.negative) := by
  have hscaled' : ¬ (x.fraction = [] ∧ x.exponent = none) := fun ⟨hfraction, hexponent⟩ =>
    hscaled.elim (fun h => h hfraction) fun h => h hexponent
  rw [ofDigits_append] at h ⊢
  have hwhole : takeDigits 0 x.whole = (ofDigits x.whole, []) := by
    have hle : ofDigits x.whole ≤ ofDigits x.whole * 10 ^ x.fraction.length :=
      Nat.le_mul_of_pos_right _ (Nat.pow_pos (by decide))
    have hvalue : 0 * 10 ^ x.whole.length + ofDigits x.whole = ofDigits x.whole := by
      rw [Nat.zero_mul, Nat.zero_add]
    exact hvalue ▸ takeDigits_eq (by omega)
  simp only [quantity?, hwhole, takeDigits_eq h, true_and, hscaled', ite_false, List.length_nil,
    Nat.cast_zero, add_zero, Nat.sub_zero]

/-- A numeral of given digits and scale stands for the digits at that scale. -/
private theorem quantity?_of_digits {x : Numeral} {d : ℕ} {p : ℤ} (hd : d < 2 ^ 64)
    (hdigits : ofDigits (x.whole ++ x.fraction) = d)
    (hscale : x.exponent.getD 0 - x.fraction.length = p)
    (hscaled : x.fraction ≠ [] ∨ x.exponent ≠ none) :
    x.quantity? = (scale? d p).map (.double x.negative) := by
  rw [quantity?_eq (hdigits ▸ hd) hscaled, hdigits, hscale]

/-- Digits filled up to a whole number, with a zero after the point, have ten times the
value. -/
private theorem ofDigits_filled {ds : List Char} {d : ℕ} (hvalue : ofDigits ds = d) (k : ℕ) :
    ofDigits (ds ++ List.replicate k '0' ++ ['0']) = d * 10 ^ (k + 1) := by
  rw [List.append_assoc, ← List.replicate_succ', ofDigits_append, ofDigits_replicate_zero,
    List.length_replicate, hvalue, Nat.add_zero]

/-- Leading zeros do not count. -/
private theorem ofDigits_padded {ds : List Char} {d : ℕ} (hvalue : ofDigits ds = d) (k : ℕ) :
    ofDigits (['0'] ++ (List.replicate k '0' ++ ds)) = d := by
  rw [← List.append_assoc, ofDigits_append, ← List.replicate_one,
    List.replicate_append_replicate, ofDigits_replicate_zero, Nat.zero_mul, Nat.zero_add, hvalue]

/-- A laid-out numeral stands for the digits at their scale, or, filled up to a whole number
with a zero after the point, for ten times that number at a scale of a tenth. -/
theorem quantity?_layout (negative : Bool) {d : ℕ} (hd : d < 2 ^ 64) (p : ℤ) :
    ∃ n e, (layout negative (digits d) p).quantity? = (scale? n e).map (.double negative) ∧
      (n = d ∧ e = p ∨ 0 ≤ p ∧ n = d * 10 ^ (p.toNat + 1) ∧ n < 10 ^ 14 ∧ e = -1) := by
  have hlength := lt_pow_length_digits d
  have hvalue := ofDigits_digits d
  have hne := digits_ne_nil d
  generalize digits d = ds at *
  rw [layout]
  split
  · next hwhole =>
    obtain ⟨hp, hpoint⟩ := hwhole
    have hbound : d * 10 ^ (p.toNat + 1) < 10 ^ 14 := by
      calc d * 10 ^ (p.toNat + 1) < 10 ^ ds.length * 10 ^ (p.toNat + 1) :=
            Nat.mul_lt_mul_of_pos_right hlength (Nat.pow_pos (by decide))
        _ ≤ 10 ^ 14 := by
          rw [← Nat.pow_add]
          exact Nat.pow_le_pow_right (by decide) (by omega)
    exact ⟨_, _, quantity?_of_digits (hbound.trans (by decide)) (ofDigits_filled hvalue _) rfl
      (.inl (List.cons_ne_nil _ _)), .inr ⟨hp, rfl, hbound, rfl⟩⟩
  · next hwhole =>
    split
    · next hpoint =>
      have hdrop : ((ds.drop (ds.length + p).toNat).length : ℤ) = -p := by
        rw [List.length_drop]
        omega
      refine ⟨d, p, quantity?_of_digits hd ?_ ?_ (.inl ?_), .inl ⟨rfl, rfl⟩⟩
      · rw [List.take_append_drop, hvalue]
      · rw [hdrop]
        exact (zero_sub _).trans (neg_neg p)
      · intro hnil
        change ds.drop _ = [] at hnil
        rw [hnil, List.length_nil] at hdrop
        omega
    · split
      · next hpoint =>
        refine ⟨d, p, quantity?_of_digits hd (ofDigits_padded hvalue _) ?_ (.inl ?_),
          .inl ⟨rfl, rfl⟩⟩
        · rw [List.length_append, List.length_replicate, Nat.cast_add,
            Int.toNat_of_nonneg (by omega)]
          change 0 - (-((ds.length : ℤ) + p) + ds.length) = p
          ring
        · exact List.append_ne_nil_of_right_ne_nil _ hne
      · refine ⟨d, p, quantity?_of_digits hd ?_ ?_ (.inr (Option.some_ne_none _)),
          .inl ⟨rfl, rfl⟩⟩
        · rw [List.take_append_drop, hvalue]
        · have hlen := List.length_pos_iff.mpr hne
          rw [List.length_drop, Nat.cast_sub hlen, Option.getD_some]
          push_cast
          ring

end Numeral

end SdfScene.Json
