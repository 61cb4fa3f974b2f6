import SdfScene.Number.Single

/-!
# Decimal numerals

Natural numbers are written in digits without leading zeros and read back by a
fold. A decimal numeral `d * 10 ^ e` is rounded to single precision in one step,
and `Single.ofText?` reads the text forms that an editor accepts.
-/

namespace SdfScene

namespace Number

/-- The digit of a number below ten. -/
def digitChar (d : Nat) : Char := Char.ofNat ('0'.toNat + d)

/-- The value of a digit. -/
def digitValue (c : Char) : Nat := c.toNat - '0'.toNat

/-- The digits of a number from the last one back, `fuel` bounding their count. -/
def digitsBack : Nat → Nat → List Char
  | 0, _ => []
  | fuel + 1, n =>
    if n < 10 then [digitChar n] else digitChar (n % 10) :: digitsBack fuel (n / 10)

/-- The decimal digits of a number, without leading zeros. -/
def digits (n : Nat) : List Char := (digitsBack (Nat.log2 n + 1) n).reverse

/-- The number that a list of digits denotes. -/
def ofDigits (cs : List Char) : Nat := cs.foldl (fun n c => n * 10 + digitValue c) 0

end Number

open Number

/-- The magnitude `significand * 10 ^ exponent`. -/
structure Decimal where
  /-- The digits, read as a natural number. -/
  significand : Nat
  /-- The power of ten they are scaled by. -/
  exponent : Int

namespace Decimal

/-- The index of the nearest single-precision value. Forty powers of ten overflow,
and a numeral far below the least positive value is zero, so huge exponents need
no huge numbers. -/
def toIndex (d : Decimal) : Nat :=
  if d.significand = 0 then 0
  else match d.exponent with
    | .ofNat e =>
      if 40 ≤ e then singleGrid.limit else singleGrid.nearest (d.significand * Nat.pow 10 e) 1
    | .negSucc e =>
      if Nat.log2 d.significand + 151 ≤ 3 * (e + 1) then 0
      else singleGrid.nearest d.significand (Nat.pow 10 (e + 1))

end Decimal

/-- An optional sign: whether it is a minus, and the text after it. -/
def Number.takeSign : List Char → Bool × List Char
  | '-' :: rest => (true, rest)
  | '+' :: rest => (false, rest)
  | rest => (false, rest)

/-- An exponent part that ends the text: nothing, or a mark, a sign and digits. -/
def Number.exponentPart? : List Char → Option Int
  | [] => some 0
  | mark :: rest =>
    if mark = 'e' ∨ mark = 'E' then
      let (negative, digits) := takeSign rest
      if digits ≠ [] ∧ digits.all Char.isDigit then
        some (if negative then -(ofDigits digits : Int) else ofDigits digits)
      else none
    else none

/-- A decimal numeral that is the whole text: digits with an optional point, at
least one digit beside it, and an optional exponent. -/
def Decimal.ofText? (text : List Char) : Option Decimal :=
  let whole := text.takeWhile Char.isDigit
  let (fraction, rest) :=
    match text.dropWhile Char.isDigit with
    | '.' :: rest => (rest.takeWhile Char.isDigit, rest.dropWhile Char.isDigit)
    | rest => ([], rest)
  if whole = [] ∧ fraction = [] then none
  else (exponentPart? rest).map fun e =>
    ⟨ofDigits (whole ++ fraction), e - fraction.length⟩

/-- The number that a text denotes: a decimal numeral, `inf`, `infinity` or `nan` in
any case, with an optional sign. -/
def Single.ofText? (text : List Char) : Option Single :=
  let (negative, body) := takeSign text
  let word := body.map Char.toLower
  if word = "inf".toList ∨ word = "infinity".toList then some (infinity negative)
  else if word = "nan".toList then some { nan with negative }
  else (Decimal.ofText? body).map fun d => ofIndex negative d.toIndex

end SdfScene
