import Mathlib.Data.List.TakeWhile
import SdfScene.Json.Reader
import SdfScene.Json.Writer
import SdfScene.Proofs.Number.Digits
import SdfScene.Proofs.Number.Grid

/-!
# Numerals are read back

A numeral in normal form is read as itself, as long as nothing that could belong to it
comes next. The numeral of a finite number is in normal form.
-/

namespace SdfScene.Json

open Number

/-- A text that does not go on with a numeral. -/
def EndsNumeral (rest : List Char) : Prop :=
  ∀ c, rest.head? = some c → c.isDigit = false ∧ c ≠ '.' ∧ c ≠ 'e' ∧ c ≠ 'E'

theorem endsNumeral_nil : EndsNumeral [] := fun _ h => by cases h

theorem endsNumeral_cons {c : Char} {rest : List Char}
    (h : c.isDigit = false ∧ c ≠ '.' ∧ c ≠ 'e' ∧ c ≠ 'E') : EndsNumeral (c :: rest) :=
  fun _ hc => Option.some.inj hc ▸ h

/-- The digits at the start of a text, and the text after them. -/
private theorem splitDigits {ds rest : List Char} (hds : ∀ c ∈ ds, c.isDigit = true)
    (hrest : ∀ c, rest.head? = some c → c.isDigit = false) :
    (ds ++ rest).takeWhile Char.isDigit = ds ∧ (ds ++ rest).dropWhile Char.isDigit = rest := by
  have hnone : rest.takeWhile Char.isDigit = [] ∧ rest.dropWhile Char.isDigit = rest := by
    cases rest with
    | nil => exact ⟨rfl, rfl⟩
    | cons c rest => simp [hrest c rfl]
  rw [List.takeWhile_append_of_pos hds, List.dropWhile_append_of_pos hds, hnone.1, hnone.2,
    List.append_nil]
  exact ⟨rfl, rfl⟩

namespace Numeral

/-- A numeral of digits without a leading zero. -/
structure Normal (x : Numeral) : Prop where
  whole_ne_nil : x.whole ≠ []
  isDigit_whole : ∀ c ∈ x.whole, c.isDigit = true
  isDigit_fraction : ∀ c ∈ x.fraction, c.isDigit = true
  head_whole : x.whole.head? = some '0' → x.whole.length = 1

/-- An exponent as it is written. -/
def writtenExponent : Option Int → List Char
  | none => []
  | some e => 'e' :: (if e < 0 then '-' else '+') :: digits e.natAbs

/-- The text of a numeral after its sign. -/
def body (x : Numeral) : List Char :=
  x.whole ++ ((if x.fraction = [] then [] else '.' :: x.fraction) ++ writtenExponent x.exponent)

theorem text_eq (x : Numeral) : x.text = (if x.negative then ['-'] else []) ++ x.body := by
  obtain ⟨negative, whole, fraction, exponent⟩ := x
  cases exponent <;> simp [text, body, writtenExponent]

private theorem readExponent_written (negative : Bool) (whole fraction : List Char)
    (exponent : Option Int) {rest : List Char} (hrest : EndsNumeral rest) :
    readExponent negative whole fraction (writtenExponent exponent ++ rest) =
      (.number ⟨negative, whole, fraction, exponent⟩, some rest) := by
  cases exponent with
  | none =>
    cases rest with
    | nil => rfl
    | cons c rest =>
      obtain ⟨-, -, he, hE⟩ := hrest c rfl
      simp [readExponent, writtenExponent, he, hE]
  | some e =>
    obtain ⟨htake, hdrop⟩ := splitDigits
      (fun c (hc : c ∈ digits e.natAbs) => isDigit_of_mem_digits hc) fun c hc => (hrest c hc).1
    by_cases hneg : e < 0
    · have hvalue : -(e.natAbs : Int) = e := by omega
      simp only [readExponent, writtenExponent, hneg, ite_true, ite_false, List.cons_append,
        true_or, takeSign, htake, hdrop, digits_ne_nil, ofDigits_digits, hvalue]
    · have hvalue : (e.natAbs : Int) = e := by omega
      simp only [readExponent, writtenExponent, hneg, ite_true, ite_false, List.cons_append,
        true_or, takeSign, htake, hdrop, digits_ne_nil, ofDigits_digits, Bool.false_eq_true,
        hvalue]

/-- What follows the digits of a numeral is neither a digit nor a point. -/
private theorem head_writtenExponent (exponent : Option Int) {rest : List Char}
    (hrest : EndsNumeral rest) (c : Char) (hc : (writtenExponent exponent ++ rest).head? = some c) :
    c.isDigit = false ∧ c ≠ '.' := by
  cases exponent with
  | none => exact ⟨(hrest c hc).1, (hrest c hc).2.1⟩
  | some e =>
    cases hc
    decide

/-- A numeral in normal form is read as itself. -/
theorem Normal.readNumeral_body {x : Numeral} (h : x.Normal) {rest : List Char}
    (hrest : EndsNumeral rest) :
    readNumeral x.negative (x.body ++ rest) = (.number x, some rest) := by
  obtain ⟨negative, whole, fraction, exponent⟩ := x
  obtain ⟨hne, hwhole, hfraction, hhead⟩ := h
  have hexponent := readExponent_written negative whole fraction exponent hrest
  have hstart := head_writtenExponent exponent hrest
  have hlength : ¬ (whole.head? = some '0' ∧ whole.length ≠ 1) := fun h => h.2 (hhead h.1)
  simp only at hne hwhole hfraction
  simp only [body, List.append_assoc]
  generalize writtenExponent exponent ++ rest = back at hexponent hstart ⊢
  by_cases hnone : fraction = []
  · subst hnone
    obtain ⟨htake, hdrop⟩ := splitDigits hwhole fun c hc => (hstart c hc).1
    simp only [ite_true, List.nil_append, readNumeral, htake, hdrop, hne, hlength, ite_false]
    split
    · exact absurd rfl (hstart '.' rfl).2
    · exact hexponent
  · obtain ⟨htake, hdrop⟩ := splitDigits hwhole
      (fun c (hc : ('.' :: (fraction ++ back)).head? = some c) => by cases hc; rfl)
    obtain ⟨htake', hdrop'⟩ := splitDigits hfraction fun c hc => (hstart c hc).1
    simp only [hnone, ite_false, List.cons_append, readNumeral, htake, hdrop, hne, hlength,
      htake', hdrop']
    exact hexponent

/-- Digits without a leading zero are laid out in normal form, wherever the point comes. -/
theorem normal_layout {ds : List Char} (hne : ds ≠ []) (hdigits : ∀ c ∈ ds, c.isDigit = true)
    (hhead : ds.head? ≠ some '0') (negative : Bool) (scale : Int) :
    (layout negative ds scale).Normal := by
  have hzeros : ∀ count, ∀ c ∈ List.replicate count '0', c.isDigit = true := fun count c hc =>
    List.eq_of_mem_replicate hc ▸ rfl
  have htake : ∀ count, ∀ c ∈ ds.take count, c.isDigit = true := fun count c hc =>
    hdigits c (List.mem_of_mem_take hc)
  have hdrop : ∀ count, ∀ c ∈ ds.drop count, c.isDigit = true := fun count c hc =>
    hdigits c (List.mem_of_mem_drop hc)
  obtain ⟨c, cs, rfl⟩ := List.exists_cons_of_ne_nil hne
  unfold layout
  extract_lets point
  split
  · refine ⟨List.cons_ne_nil _ _, List.forall_mem_append.mpr ⟨hdigits, hzeros _⟩, hzeros 1, ?_⟩
    exact fun h => absurd h hhead
  · split
    · next hpoint =>
      obtain ⟨count, hcount⟩ := Nat.exists_eq_succ_of_ne_zero (show point.toNat ≠ 0 by omega)
      refine ⟨?_, htake _, hdrop _, ?_⟩ <;> simp only [hcount, List.take_succ_cons]
      · exact List.cons_ne_nil _ _
      · exact fun h => absurd h hhead
    · split
      · exact ⟨List.cons_ne_nil _ _, hzeros 1, List.forall_mem_append.mpr ⟨hzeros _, hdigits⟩,
          fun _ => rfl⟩
      · exact ⟨List.cons_ne_nil _ _, htake 1, hdrop 1, fun h => absurd h hhead⟩

/-- A hit on a decimal grid is no zero, which lies below all that rounds to a positive
number. -/
private theorem pos_of_roundsTo {index d : Nat} {p : Int} (hpos : 0 < index)
    (h : roundsTo index d p = true) : 0 < d := by
  rcases Nat.eq_zero_or_pos d with rfl | hd
  · have hunits : 0 < singleGrid.units index := Grid.units_pos singleGrid hpos
    have hscale : 0 < Nat.pow 10 (-p).toNat := Nat.pow_pos (by decide)
    simp only [roundsTo, Nat.zero_mul, Bool.or_eq_true, Bool.and_eq_true, decide_eq_true_eq] at h
    have hlow : 0 < singleGrid.units (index - 1) + singleGrid.units index := by omega
    have hhigh : 0 < singleGrid.units index + singleGrid.units (index + 1) := by omega
    have hlower := Nat.mul_pos hlow hscale
    have hupper := Nat.mul_pos hhigh hscale
    omega
  · exact hd

private theorem pos_of_gridHit? {index : Nat} {p : Int} {hit : Nat × Int} (hpos : 0 < index)
    (h : gridHit? index p = some hit) : 0 < hit.1 := by
  unfold gridHit? at h
  extract_lets num den below nearer farther at h
  split at h
  · next hrounds => exact Option.some.inj h ▸ pos_of_roundsTo hpos hrounds
  · split at h
    · next hrounds => exact Option.some.inj h ▸ pos_of_roundsTo hpos hrounds
    · cases h

/-- The decimal of a positive number is no zero. -/
theorem shortestDecimal_pos {index : Nat} (hpos : 0 < index) : 0 < (shortestDecimal index).1 := by
  unfold shortestDecimal
  extract_lets units top
  cases hfound : (List.range 20).findSome? fun (step : Nat) => gridHit? index (top - step) with
  | none => exact Nat.mul_pos (Grid.units_pos singleGrid hpos) (Nat.pow_pos (by decide))
  | some hit =>
    obtain ⟨step, -, hstep⟩ := List.exists_of_findSome?_eq_some hfound
    exact pos_of_gridHit? hpos hstep

/-- The numeral of a number is in normal form. -/
theorem normal_ofSingle (x : Single) : (ofSingle x).Normal := by
  have hzeros : ∀ c ∈ ['0'], c.isDigit = true := List.forall_mem_singleton.mpr rfl
  rw [ofSingle]
  split
  · exact ⟨List.cons_ne_nil _ _, hzeros, hzeros, fun _ => rfl⟩
  · next hzero =>
    have hpos : 0 < x.index.val := by
      rw [Single.isZero, decide_eq_true_eq] at hzero
      exact Nat.pos_of_ne_zero hzero
    have hdigits := shortestDecimal_pos hpos
    generalize shortestDecimal x.index.val = decimal at hdigits ⊢
    obtain ⟨d, scale⟩ := decimal
    exact normal_layout (digits_ne_nil d) (fun c hc => isDigit_of_mem_digits hc)
      (head?_digits_ne_zero hdigits) x.negative scale

end Numeral

end SdfScene.Json
