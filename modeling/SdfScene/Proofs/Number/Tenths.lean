import Mathlib.Algebra.Order.Field.Basic
import Mathlib.Data.List.TakeWhile
import SdfScene.Proofs.Number.Digits
import SdfScene.Proofs.Number.Nearest
import SdfScene.Vector

/-!
# Editor text is stable

The text of a finite number denotes the nearest multiple of a tenth. Reading it may give
another number, but that number is at least as near to the multiple and so has the same
text.
-/

namespace SdfScene

open Number

/-- A number is finite if its index is below the limit. -/
theorem Single.isFinite_ofIndex {negative : Bool} {index : ℕ} :
    (ofIndex negative index).isFinite ↔ index < singleGrid.limit := by
  rw [isFinite, decide_eq_true_eq]
  change min index singleGrid.limit < singleGrid.limit ↔ _
  omega

/-- A numeral that is not far too small is rounded as a quotient by a power of ten. -/
private theorem Decimal.toIndex_negSucc (d e : ℕ) (h : ¬ Nat.log2 d + 151 ≤ 3 * (e + 1)) :
    toIndex ⟨d, .negSucc e⟩ = singleGrid.nearest d (10 ^ (e + 1)) := by
  have hunfold : toIndex ⟨d, .negSucc e⟩ = if d = 0 then 0 else
      if Nat.log2 d + 151 ≤ 3 * (e + 1) then 0 else singleGrid.nearest d (Nat.pow 10 (e + 1)) := rfl
  rw [hunfold, if_neg h, Nat.pow_eq]
  split_ifs with hzero
  · rw [hzero, Grid.nearest_zero]
  · rfl

private theorem isDigit_bounds {c : Char} (h : c.isDigit = true) : 48 ≤ c.toNat ∧ c.toNat ≤ 57 := by
  rw [Char.isDigit, Bool.and_eq_true, decide_eq_true_eq, decide_eq_true_eq] at h
  exact h

/-- A digit is the same in either case. -/
private theorem toLower_of_isDigit {c : Char} (h : c.isDigit = true) : c.toLower = c := by
  have hbounds := isDigit_bounds h
  have hupper : ¬ (c.val ≥ 65 ∧ c.val ≤ 90) := by
    rintro ⟨hlow, -⟩
    have hnat : 65 ≤ c.toNat := hlow
    omega
  exact dif_neg hupper

private theorem isBlank_of_isDigit {c : Char} (h : c.isDigit = true) : Text.isBlank c = false := by
  have hbounds := isDigit_bounds h
  simp only [Text.isBlank, Bool.or_eq_false_iff, Bool.and_eq_false_iff, decide_eq_false_iff_not]
  omega

/-- A text without blanks is trimmed to itself. -/
theorem Text.trim_eq_self {cs : List Char} (h : ∀ c ∈ cs, isBlank c = false) : trim cs = cs := by
  have hdrop : ∀ ds : List Char, (∀ c ∈ ds, isBlank c = false) → ds.dropWhile isBlank = ds := by
    intro ds hds
    cases ds with
    | nil => rfl
    | cons d ds => rw [List.dropWhile_cons, hds d List.mem_cons_self]; rfl
  rw [trim, trimEnd, hdrop cs h, hdrop cs.reverse fun c hc => h c (List.mem_reverse.mp hc),
    List.reverse_reverse]

/-- A size with a sign. -/
def Number.signed (negative : Bool) (size : ℚ) : ℚ := if negative then -size else size

theorem Number.abs_signed_sub_signed (negative : Bool) (w z : ℚ) :
    |signed negative w - signed negative z| = |w - z| := by
  cases negative with
  | false => rfl
  | true => rw [signed, signed, if_pos rfl, if_pos rfl, neg_sub_neg, abs_sub_comm]

/-- The exact value of a finite number. -/
def Single.toRat (x : Single) : ℚ := signed x.negative (singleGrid.value x.index.val)

/-- An optional minus, digits, a point and one digit. -/
structure OneDecimal where
  minus : Bool
  whole : List Char
  tenth : Char
  whole_ne_nil : whole ≠ []
  isDigit_whole : ∀ c ∈ whole, c.isDigit = true
  isDigit_tenth : tenth.isDigit = true

namespace OneDecimal

/-- The characters after the sign. -/
def body (t : OneDecimal) : List Char := t.whole ++ ['.', t.tenth]

/-- The characters that are written. -/
def text (t : OneDecimal) : List Char := if t.minus then '-' :: t.body else t.body

/-- The number of tenths without the sign. -/
def count (t : OneDecimal) : ℕ := ofDigits (t.whole ++ [t.tenth])

/-- The multiple of a tenth that is denoted. -/
def toRat (t : OneDecimal) : ℚ := signed t.minus (t.count / 10)

/-- No multiple of a tenth is nearer to a number, and of two that are equally near the one
with the even last digit is denoted. -/
structure Nearest (t : OneDecimal) (z : ℚ) : Prop where
  abs_sub_le : ∀ k : ℤ, |t.toRat - z| ≤ |k / 10 - z|
  even_of_tie : ∀ k : ℤ, (k / 10 : ℚ) ≠ t.toRat → |k / 10 - z| = |t.toRat - z| →
    Even (digitValue t.tenth)

/-- A count of tenths with a sign. -/
def ofTenths (minus : Bool) (count : ℕ) : OneDecimal where
  minus := minus
  whole := digits (count / 10)
  tenth := digitChar (count % 10)
  whole_ne_nil := digits_ne_nil _
  isDigit_whole := fun _ hc => isDigit_of_mem_digits hc
  isDigit_tenth := isDigit_digitChar (Nat.mod_lt _ (by decide))

@[simp] theorem count_ofTenths (minus : Bool) (count : ℕ) :
    (ofTenths minus count).count = count := by
  rw [OneDecimal.count, ofTenths, ofDigits_concat, ofDigits_digits,
    digitValue_digitChar (Nat.mod_lt _ (by decide)), Nat.div_add_mod']

theorem tenthsText_eq (negative : Bool) (count : ℕ) :
    Single.tenthsText negative count = (ofTenths (negative && decide (count ≠ 0)) count).text := by
  rw [Single.tenthsText, digits_of_lt (Nat.mod_lt count (by decide))]
  by_cases h : negative ∧ count ≠ 0 <;> simp [text, body, ofTenths, h]

variable (t : OneDecimal)

theorem exists_body_eq_cons : ∃ c cs, t.body = c :: cs ∧ c.isDigit = true := by
  obtain ⟨c, cs, hwhole⟩ := List.exists_cons_of_ne_nil t.whole_ne_nil
  exact ⟨c, cs ++ ['.', t.tenth], by rw [body, hwhole, List.cons_append],
    t.isDigit_whole c (hwhole ▸ List.mem_cons_self)⟩

/-- The sign is taken off as it was written. -/
theorem takeSign_text : takeSign t.text = (t.minus, t.body) := by
  rw [text]
  cases t.minus with
  | true => rfl
  | false =>
    obtain ⟨c, cs, hbody, hdigit⟩ := t.exists_body_eq_cons
    simp only [hbody, Bool.false_eq_true, ite_false, takeSign]
    split
    · cases ‹_ :: _ = _›
      cases hdigit
    · cases ‹_ :: _ = _›
      cases hdigit
    · rfl

/-- The characters after the sign are read as the count of tenths. -/
theorem ofText?_body : Decimal.ofText? t.body = some ⟨t.count, -1⟩ := by
  have htake : t.body.takeWhile Char.isDigit = t.whole := by
    rw [body, List.takeWhile_append_of_pos t.isDigit_whole]
    simp
  have hdrop : t.body.dropWhile Char.isDigit = ['.', t.tenth] := by
    rw [body, List.dropWhile_append_of_pos t.isDigit_whole]
    rfl
  simp [Decimal.ofText?, htake, hdrop, t.isDigit_tenth, t.whole_ne_nil, exponentPart?, count]

/-- A text tells its sign and its count of tenths. -/
theorem text_inj {s t : OneDecimal} (h : s.text = t.text) :
    s.minus = t.minus ∧ s.count = t.count := by
  have hsign : (s.minus, s.body) = (t.minus, t.body) := by
    rw [← takeSign_text, ← takeSign_text, h]
  have hbody : some (Decimal.mk s.count (-1)) = some (Decimal.mk t.count (-1)) := by
    rw [← ofText?_body, ← ofText?_body, (Prod.mk.inj hsign).2]
  exact ⟨(Prod.mk.inj hsign).1, (Decimal.mk.inj (Option.some.inj hbody)).1⟩

/-- The text is read as the number nearest to what it denotes. -/
theorem ofText?_text :
    Single.ofText? t.text = some (.ofIndex t.minus (singleGrid.nearest t.count 10)) := by
  have hword : ∀ first rest, first.isDigit = false →
      t.body.map Char.toLower ≠ first :: rest := by
    intro first rest hfirst hword
    obtain ⟨c, cs, hbody, hdigit⟩ := t.exists_body_eq_cons
    rw [hbody, List.map_cons, toLower_of_isDigit hdigit] at hword
    rw [← (List.cons.inj hword).1, hdigit] at hfirst
    cases hfirst
  have hinf : t.body.map Char.toLower ≠ "inf".toList := hword 'i' _ rfl
  have hinfinity : t.body.map Char.toLower ≠ "infinity".toList := hword 'i' _ rfl
  have hnan : t.body.map Char.toLower ≠ "nan".toList := hword 'n' _ rfl
  have hindex : Decimal.toIndex ⟨t.count, -1⟩ = singleGrid.nearest t.count 10 :=
    Decimal.toIndex_negSucc t.count 0 (by omega)
  simp only [Single.ofText?, t.takeSign_text, hinf, hinfinity, hnan, or_self, ite_false,
    t.ofText?_body, Option.map_some, hindex]

theorem abs_toRat : |t.toRat| = t.count / 10 := by
  have hsize : (0 : ℚ) ≤ t.count / 10 := by positivity
  rw [toRat, signed]
  split
  · rw [abs_neg, abs_of_nonneg hsize]
  · exact abs_of_nonneg hsize

/-- No character of the text is a blank. -/
theorem isBlank_text : ∀ c ∈ t.text, Text.isBlank c = false := by
  have hbody : ∀ c ∈ t.body, Text.isBlank c = false := by
    intro c hc
    rcases List.mem_append.mp hc with hc | hc
    · exact isBlank_of_isDigit (t.isDigit_whole c hc)
    · rcases List.mem_cons.mp hc with rfl | hc
      · rfl
      · exact List.mem_singleton.mp hc ▸ isBlank_of_isDigit t.isDigit_tenth
  rw [text]
  split
  · exact List.forall_mem_cons.mpr ⟨rfl, hbody⟩
  · exact hbody

/-- An editor accepts the text if the number nearest to it is finite. -/
theorem ofEditorText_text {index : ℕ} (h : singleGrid.RoundsTo (t.count / 10) index)
    (hlimit : index < singleGrid.limit) :
    Single.ofEditorText t.text = .ok (.ofIndex t.minus index) := by
  have hnearest : singleGrid.nearest t.count 10 = index :=
    Grid.RoundsTo.nearest_eq (by decide) (by decide) h hlimit.le
  have hfinite : (Single.ofIndex t.minus index).isFinite := Single.isFinite_ofIndex.mpr hlimit
  simp only [Single.ofEditorText, Text.trim_eq_self t.isBlank_text, t.ofText?_text, hnearest,
    hfinite, ite_true]

end OneDecimal

namespace Single

/-- The tenths of a number are the natural number nearest to ten times its size. -/
theorem nearestNat_tenths (x : Single) :
    NearestNat x.tenths (10 * singleGrid.value x.index.val) := by
  have hvalue : ((x.units * 10 : ℕ) : ℚ) / (2 ^ singleGrid.depth : ℕ) =
      10 * singleGrid.value x.index.val := by
    rw [Grid.value, units]
    push_cast
    ring
  rw [← hvalue]
  exact nearestNat_roundDiv _ (Nat.two_pow_pos _)

/-- The multiple of a tenth that the text of a number denotes. -/
def oneDecimal (x : Single) : OneDecimal :=
  .ofTenths (x.negative && decide (x.tenths ≠ 0)) x.tenths

theorem text_eq {x : Single} (hx : x.isFinite) : x.text = String.ofList x.oneDecimal.text := by
  rw [isFinite, decide_eq_true_eq] at hx
  have hnan : x.isNaN = false := by
    rw [isNaN, decide_eq_false_iff_not]
    omega
  have hinfinite : x.isInfinite = false := by
    rw [isInfinite, decide_eq_false_iff_not]
    omega
  rw [text, hnan, hinfinite, OneDecimal.tenthsText_eq]
  rfl

theorem toRat_oneDecimal (x : Single) : x.oneDecimal.toRat = signed x.negative (x.tenths / 10) := by
  rw [OneDecimal.toRat, oneDecimal, OneDecimal.count_ofTenths]
  by_cases hzero : x.tenths = 0
  · simp [signed, hzero]
  · simp [OneDecimal.ofTenths, hzero]

/-- No multiple of a tenth is nearer to a number than its text. -/
theorem nearest_oneDecimal (x : Single) : x.oneDecimal.Nearest x.toRat := by
  have htenths := x.nearestNat_tenths
  generalize hten : 10 * singleGrid.value x.index.val = ten at htenths
  have hsize : ∀ m : ℤ, |signed x.negative (m / 10) - x.toRat| = |m - ten| / 10 := fun m => by
    have hfactor : (m : ℚ) / 10 - singleGrid.value x.index.val = (m - ten) / 10 := by
      rw [← hten]
      ring
    rw [toRat, abs_signed_sub_signed, hfactor, abs_div, abs_of_pos (by norm_num : (0 : ℚ) < 10)]
  have hself : |x.oneDecimal.toRat - x.toRat| = |(x.tenths : ℚ) - ten| / 10 := by
    have h := hsize x.tenths
    rwa [Int.cast_natCast, ← toRat_oneDecimal] at h
  have hsigned : ∀ k : ℤ, ∃ m : ℤ, (k : ℚ) / 10 = signed x.negative (m / 10) := fun k => by
    cases x.negative with
    | false => exact ⟨k, rfl⟩
    | true => exact ⟨-k, by rw [signed, if_pos rfl]; push_cast; ring⟩
  constructor
  · intro k
    obtain ⟨m, hm⟩ := hsigned k
    rw [hself, hm, hsize]
    by_cases heq : m = x.tenths
    · rw [heq, Int.cast_natCast]
    · have := htenths.le_abs_sub heq
      have := htenths.abs_sub_le
      linarith
  · intro k hne htie
    obtain ⟨m, hm⟩ := hsigned k
    rw [hself, hm, hsize] at htie
    have hother : m ≠ x.tenths := by
      rintro rfl
      rw [hm, toRat_oneDecimal, Int.cast_natCast] at hne
      exact hne rfl
    have hhalf := htenths.le_abs_sub hother
    have heven : Even x.tenths :=
      htenths.even_of_tie (le_antisymm htenths.abs_sub_le (by linarith))
    have hlast : digitValue x.oneDecimal.tenth = x.tenths % 10 :=
      digitValue_digitChar (Nat.mod_lt _ (by decide))
    rw [hlast]
    rw [Nat.even_iff] at heven ⊢
    omega

/-- The largest finite number is far below the limit. -/
private theorem value_limit : singleGrid.value (singleGrid.limit - 1) + 1 ≤
    singleGrid.value singleGrid.limit := by
  have hsucc : singleGrid.units singleGrid.limit =
      singleGrid.units (singleGrid.limit - 1) + 2 ^ 253 :=
    singleGrid.units_succ (singleGrid.limit - 1)
  have hscale : (2 : ℚ) ^ 253 / 2 ^ 149 = 2 ^ 104 := by norm_num
  have hdepth : singleGrid.depth = 149 := rfl
  rw [Grid.value, Grid.value, hsucc, hdepth, Nat.cast_add, Nat.cast_pow, Nat.cast_ofNat, add_div,
    hscale]
  norm_num

/-- What is nearest to the tenths of a finite number is finite and has as many tenths. -/
theorem tenths_of_roundsTo {x : Single} (hx : x.isFinite) {index : ℕ}
    (h : singleGrid.RoundsTo (x.tenths / 10) index) :
    index < singleGrid.limit ∧ ∀ negative, (ofIndex negative index).tenths = x.tenths := by
  rw [isFinite, decide_eq_true_eq] at hx
  have htenths := x.nearestNat_tenths
  have hfinite : index < singleGrid.limit := by
    by_contra hlimit
    have hmono := singleGrid.value_strictMono.monotone
    have hlast : singleGrid.value x.index.val ≤ singleGrid.value (singleGrid.limit - 1) :=
      hmono (by omega)
    have hpred : singleGrid.value (singleGrid.limit - 1) ≤ singleGrid.value (index - 1) :=
      hmono (by omega)
    have hindex : singleGrid.value singleGrid.limit ≤ singleGrid.value index := hmono (by omega)
    have hnear := (abs_le.mp htenths.abs_sub_le).2
    have hlower := h.lower
    have hgap := value_limit
    linarith
  refine ⟨hfinite, fun negative => ?_⟩
  have hother := (ofIndex negative index).nearestNat_tenths
  have hindex : (ofIndex negative index).index.val = index := Nat.min_eq_left hfinite.le
  rw [hindex] at hother
  -- the other number is at least as near to the tenths as the one they were counted of
  have hnearer : |(x.tenths : ℚ) - 10 * singleGrid.value index| ≤
      |(x.tenths : ℚ) - 10 * singleGrid.value x.index.val| := by
    have hscaled : ∀ v : ℚ, |(x.tenths : ℚ) - 10 * v| = 10 * |v - x.tenths / 10| := fun v => by
      have hfactor : (x.tenths : ℚ) - 10 * v = 10 * (x.tenths / 10 - v) := by ring
      rw [hfactor, abs_mul, abs_of_pos (by norm_num : (0 : ℚ) < 10), abs_sub_comm]
    rw [hscaled, hscaled]
    linarith [h.abs_sub_le x.index.val]
  have hsame : NearestNat x.tenths (10 * singleGrid.value index) :=
    ⟨hnearer.trans htenths.abs_sub_le,
      fun htie => htenths.even_of_tie (le_antisymm htenths.abs_sub_le (htie ▸ hnearer))⟩
  exact hother.unique hsame

/-- A number without tenths is written without a minus. -/
theorem text_ne_negative_zero {x : Single} (hx : x.isFinite) : x.text ≠ "-0.0" := by
  intro h
  rw [text_eq hx] at h
  have hzero : String.ofList (OneDecimal.ofTenths true 0).text = "-0.0" := by decide
  obtain ⟨hminus, hcount⟩ := OneDecimal.text_inj (String.ofList_injective (h.trans hzero.symm))
  rw [OneDecimal.count_ofTenths, oneDecimal, OneDecimal.count_ofTenths] at hcount
  rw [oneDecimal, hcount] at hminus
  simp [OneDecimal.ofTenths] at hminus

/-- The text of a finite number denotes the nearest multiple of a tenth, of two equally
near ones the even one, and is never a negative zero. An editor that is given the text sets
the finite number nearest to it, and that number has the same text. -/
theorem text_reread (x : Single) (hx : x.isFinite) :
    ∃ t : OneDecimal, x.text = String.ofList t.text ∧ x.text ≠ "-0.0" ∧ t.Nearest x.toRat ∧
      ∃ y, ofEditorText x.text.toList = .ok y ∧ y.isFinite ∧ y.negative = t.minus ∧
        singleGrid.RoundsTo |t.toRat| y.index.val ∧ y.text = x.text := by
  have hcount : x.oneDecimal.count = x.tenths := OneDecimal.count_ofTenths _ _
  obtain ⟨index, hindex⟩ := Grid.exists_roundsTo (g := singleGrid) (z := x.tenths / 10) (by decide)
    (by positivity)
  obtain ⟨hlimit, hsame⟩ := tenths_of_roundsTo hx hindex
  have hfinite : (ofIndex x.oneDecimal.minus index).isFinite := isFinite_ofIndex.mpr hlimit
  have hvalue : (ofIndex x.oneDecimal.minus index).index.val = index := Nat.min_eq_left hlimit.le
  refine ⟨x.oneDecimal, text_eq hx, text_ne_negative_zero hx, x.nearest_oneDecimal,
    ofIndex x.oneDecimal.minus index, ?_, hfinite, rfl, ?_, ?_⟩
  · rw [text_eq hx, String.toList_ofList]
    exact x.oneDecimal.ofEditorText_text (hcount.symm ▸ hindex) hlimit
  · rwa [OneDecimal.abs_toRat, hcount, hvalue]
  · have hminus : (ofIndex x.oneDecimal.minus index).negative =
        (x.negative && decide (x.tenths ≠ 0)) := rfl
    rw [text_eq hfinite, text_eq hx, oneDecimal, hsame, hminus, Bool.and_assoc, Bool.and_self]
    rfl

/-- A quarter is a tie, which goes to the even digit. -/
theorem text_reread_of_tie : (ofBits 0xBE800000).isFinite ∧
    ∃ t : OneDecimal, (ofBits 0xBE800000).text = String.ofList t.text ∧
      (ofBits 0xBE800000).text ≠ "-0.0" ∧ t.Nearest (ofBits 0xBE800000).toRat ∧
      ∃ y, ofEditorText (ofBits 0xBE800000).text.toList = .ok y ∧ y.isFinite ∧
        y.negative = t.minus ∧ singleGrid.RoundsTo |t.toRat| y.index.val ∧
        y.text = (ofBits 0xBE800000).text :=
  ⟨by decide, text_reread (ofBits 0xBE800000) (by decide)⟩

end Single

end SdfScene
