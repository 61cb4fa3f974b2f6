import Mathlib.Algebra.Group.Nat.Defs
import Mathlib.Data.List.Induction
import SdfScene.Number.Decimal

/-!
# Digits of natural numbers

Writing a number in digits and reading the digits back are inverse to each other, and no
number is written with a leading zero. Distinct numbers therefore have distinct digits.
-/

namespace SdfScene.Number

/-- A digit has the value it was made from. -/
theorem digitValue_digitChar {d : Nat} (hd : d < 10) : digitValue (digitChar d) = d := by
  have h : ∀ d, d < 10 → digitValue (digitChar d) = d := by decide
  exact h d hd

/-- What stands for a number below ten is a digit. -/
theorem isDigit_digitChar {d : Nat} (hd : d < 10) : (digitChar d).isDigit = true := by
  have h : ∀ d, d < 10 → (digitChar d).isDigit = true := by decide
  exact h d hd

/-- Only nought is written as a zero. -/
theorem digitChar_eq_zero {d : Nat} (hd : d < 10) : digitChar d = '0' ↔ d = 0 := by
  have h : ∀ d, d < 10 → (digitChar d = '0' ↔ d = 0) := by decide
  exact h d hd

/-- One more digit shifts the others by one place. -/
theorem ofDigits_concat (cs : List Char) (c : Char) :
    ofDigits (cs ++ [c]) = ofDigits cs * 10 + digitValue c := by
  simp only [ofDigits, List.foldl_append, List.foldl_cons, List.foldl_nil]

/-- Digits before other digits count by the number of these. -/
theorem ofDigits_append (cs ds : List Char) :
    ofDigits (cs ++ ds) = ofDigits cs * 10 ^ ds.length + ofDigits ds := by
  induction ds using List.reverseRecOn with
  | nil => simp [ofDigits]
  | append_singleton ds d ih =>
    rw [← List.append_assoc, ofDigits_concat, ih, ofDigits_concat, List.length_append,
      List.length_singleton, Nat.pow_succ, Nat.add_mul, Nat.mul_assoc, Nat.add_assoc]

theorem ofDigits_replicate_zero (count : Nat) : ofDigits (List.replicate count '0') = 0 := by
  induction count with
  | zero => rfl
  | succ count ih => rw [List.replicate_succ', ofDigits_concat, ih]; rfl

/-- With fuel for every binary digit, no decimal digit is lost. -/
private theorem ofDigits_digitsBack (fuel n : Nat) (hn : n < 2 ^ fuel) (hf : fuel ≠ 0) :
    ofDigits (digitsBack fuel n).reverse = n := by
  induction fuel generalizing n with
  | zero => exact absurd rfl hf
  | succ fuel ih =>
    rw [digitsBack]
    split
    · next h =>
      simp only [List.reverse_singleton, ofDigits, List.foldl_cons, List.foldl_nil,
        digitValue_digitChar h]
      omega
    · next h =>
      have hsmall : n / 10 < 2 ^ fuel := by rw [Nat.pow_succ] at hn; omega
      have hfuel : fuel ≠ 0 := by rintro rfl; omega
      rw [List.reverse_cons, ofDigits_concat, ih (n / 10) hsmall hfuel,
        digitValue_digitChar (Nat.mod_lt n (by decide))]
      omega

/-- The digits of a number read back as that number. -/
@[simp] theorem ofDigits_digits (n : Nat) : ofDigits (digits n) = n :=
  ofDigits_digitsBack _ n Nat.lt_log2_self (Nat.succ_ne_zero _)

/-- A number is below the power of ten that its digits count. -/
theorem lt_pow_length_digits (n : Nat) : n < 10 ^ (digits n).length := by
  have hbound : ∀ fuel n, n < 2 ^ fuel → n < 10 ^ (digitsBack fuel n).length := by
    intro fuel
    induction fuel with
    | zero => exact fun n hn => hn
    | succ fuel ih =>
      intro n hn
      rw [digitsBack]
      split
      · assumption
      · have hrest := ih (n / 10) (by rw [Nat.pow_succ] at hn; omega)
        rw [List.length_cons, Nat.pow_succ]
        omega
  rw [digits, List.length_reverse]
  exact hbound _ n Nat.lt_log2_self

/-- A number below ten is written as one digit. -/
theorem digits_of_lt {d : Nat} (hd : d < 10) : digits d = [digitChar d] := by
  rw [digits, digitsBack, if_pos hd, List.reverse_singleton]

/-- Different numbers have different digits. -/
theorem digits_injective : Function.Injective digits := fun m n h => by
  rw [← ofDigits_digits m, h, ofDigits_digits]

private theorem isDigit_digitsBack (fuel n : Nat) :
    ∀ c ∈ digitsBack fuel n, c.isDigit = true := by
  induction fuel generalizing n with
  | zero => simp [digitsBack]
  | succ fuel ih =>
    intro c hc
    rw [digitsBack] at hc
    split at hc
    · next h =>
      rw [List.mem_singleton] at hc
      exact hc ▸ isDigit_digitChar h
    · rcases List.mem_cons.mp hc with rfl | hc
      · exact isDigit_digitChar (Nat.mod_lt n (by decide))
      · exact ih (n / 10) c hc

/-- A number is written in digits only. -/
theorem isDigit_of_mem_digits {n : Nat} {c : Char} (hc : c ∈ digits n) : c.isDigit = true :=
  isDigit_digitsBack _ n c (List.mem_reverse.mp hc)

/-- The text of a number passes the test for digits. -/
@[simp] theorem all_isDigit_digits (n : Nat) : (digits n).all Char.isDigit = true :=
  List.all_eq_true.mpr fun _ hc => isDigit_of_mem_digits hc

/-- Every number has a digit. -/
@[simp] theorem digits_ne_nil (n : Nat) : digits n ≠ [] := by
  rw [digits, ne_eq, List.reverse_eq_nil_iff, digitsBack]
  split <;> exact List.cons_ne_nil _ _

/-- The last digit from the back is the leading one, and it is no zero. -/
private theorem getLast?_digitsBack (fuel n : Nat) (hn : n < 2 ^ fuel) (hpos : 0 < n) :
    (digitsBack fuel n).getLast? ≠ some '0' := by
  induction fuel generalizing n with
  | zero => omega
  | succ fuel ih =>
    rw [digitsBack]
    split
    · next h =>
      rw [List.getLast?_singleton, ne_eq, Option.some.injEq, digitChar_eq_zero h]
      omega
    · next h =>
      have hsmall : n / 10 < 2 ^ fuel := by rw [Nat.pow_succ] at hn; omega
      have htail := ih (n / 10) hsmall (by omega)
      cases hback : digitsBack fuel (n / 10) with
      | nil =>
        cases fuel with
        | zero => omega
        | succ fuel =>
          rw [digitsBack] at hback
          split at hback <;> simp at hback
      | cons c cs => rwa [List.getLast?_cons_cons, ← hback]

/-- A positive number is written without a leading zero. -/
theorem head?_digits_ne_zero {n : Nat} (hpos : 0 < n) : (digits n).head? ≠ some '0' := by
  rw [digits, List.head?_reverse]
  exact getLast?_digitsBack _ n Nat.lt_log2_self hpos

end SdfScene.Number
