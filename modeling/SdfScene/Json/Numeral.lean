import SdfScene.Number.Decimal

/-!
# Numerals of a document

A numeral keeps the digits it was written with. Whole numerals that fit in 64 bits
stand for themselves. All others are read in double precision: the leading digits
that fit in 64 bits are multiplied or divided by a power of ten, both rounded, and
the digits after them only count by their position.
-/

namespace SdfScene.Json

open Number

/-- A numeral as it is written. -/
structure Numeral where
  /-- Whether it starts with a minus. -/
  negative : Bool
  /-- The digits before the point. -/
  whole : List Char
  /-- The digits after the point; none without a point. -/
  fraction : List Char
  /-- The exponent, if one is written. -/
  exponent : Option Int
  deriving DecidableEq

/-- What a numeral stands for. -/
inductive Quantity where
  /-- A natural number below `2 ^ 64`. -/
  | natural (n : Nat)
  /-- The negative of a number of at most `2 ^ 63`. -/
  | negative (n : Nat)
  /-- A double-precision number, by its sign and its index. -/
  | double (negative : Bool) (index : Nat)
  deriving DecidableEq

/-- Extend a number by the leading digits that keep it below `2 ^ 64`; the digits that
do not fit are left over. -/
def takeDigits (n : Nat) : List Char → Nat × List Char
  | [] => (n, [])
  | c :: cs =>
    let next := n * 10 + digitValue c
    if next < Nat.pow 2 64 then takeDigits next cs else (n, c :: cs)

/-- The double-precision power of ten. -/
def powerOfTen (k : Nat) : Nat := doubleGrid.nearest (Nat.pow 10 k) 1

/-- A whole number scaled by a power of ten in double precision; `none` on overflow.
Powers beyond the largest double are taken in two steps, and what is left after two
such steps down is zero. -/
def scale? (significand : Nat) (exponent : Int) : Option Nat :=
  let start := doubleGrid.nearest significand 1
  match exponent with
  | .ofNat k =>
    if k ≤ 308 then
      let product := doubleGrid.mul start (powerOfTen k)
      if product < doubleGrid.limit then some product else none
    else if significand = 0 then some 0 else none
  | .negSucc j =>
    let k := j + 1
    if k ≤ 308 then some (doubleGrid.div start (powerOfTen k))
    else if k ≤ 616 then
      some (doubleGrid.div (doubleGrid.div start (powerOfTen 308)) (powerOfTen (k - 308)))
    else some 0

namespace Numeral

/-- What a numeral stands for; `none` if it is beyond double precision. -/
def quantity? (x : Numeral) : Option Quantity :=
  let (n, beyond) := takeDigits 0 x.whole
  if beyond = [] ∧ x.fraction = [] ∧ x.exponent = none then
    if !x.negative then some (.natural n)
    else if 0 < n ∧ n ≤ Nat.pow 2 63 then some (.negative n)
    else some (.double true (doubleGrid.nearest n 1))
  else
    let (n, ignored) := takeDigits n x.fraction
    let exponent : Int :=
      x.exponent.getD 0 + beyond.length - (x.fraction.length - ignored.length : Nat)
    (scale? n exponent).map (.double x.negative)

end Numeral

/-- A quantity rounded to single precision. -/
def Quantity.toSingle : Quantity → Single
  | natural n => Single.ofNat n
  | negative n => Single.ofRatio true n 1
  | double minus index =>
    Single.ofRatio minus (doubleGrid.units index) (Nat.pow 2 doubleGrid.depth)

end SdfScene.Json
