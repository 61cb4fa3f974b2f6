import SdfScene.Number.Single

/-!
# Single-precision arithmetic

Each operation computes the exact result over natural numbers of units and rounds
it once. Infinite operands and not-a-number follow the usual rules of binary
floating-point arithmetic.
-/

namespace SdfScene

open Number

/-- The greatest `r` with `r * r ≤ n`, found bit by bit from the top. -/
def Number.squareRoot (n : Nat) : Nat :=
  (List.range (Nat.log2 n / 2 + 1)).reverse.foldl
    (fun r bit =>
      let next := r + Nat.pow 2 bit
      if next * next ≤ n then next else r) 0

namespace Single

/-- The number nearest to `num / den` units with a sign, infinity on overflow. -/
def ofUnits (negative : Bool) (num den : Nat) : Single :=
  ofIndex negative (singleGrid.nearestUnits num den)

/-- The same number with the other sign. -/
def neg (x : Single) : Single := { x with negative := !x.negative }

/-- The exact value of a finite number, in units with its sign. -/
def signedUnits (x : Single) : Int := if x.negative then -(x.units : Int) else x.units

/-- The rounded sum; a sum of zero is negative only if both numbers are. -/
def add (x y : Single) : Single :=
  if x.isNaN || y.isNaN then nan
  else if x.isInfinite then
    if y.isInfinite && x.negative != y.negative then nan else x
  else if y.isInfinite then y
  else
    let sum := x.signedUnits + y.signedUnits
    if sum = 0 then ofIndex (x.negative && y.negative) 0
    else ofUnits (decide (sum < 0)) sum.natAbs 1

/-- The rounded difference. -/
def sub (x y : Single) : Single := x.add y.neg

/-- The rounded product. -/
def mul (x y : Single) : Single :=
  let negative := x.negative != y.negative
  if x.isNaN || y.isNaN then nan
  else if x.isInfinite || y.isInfinite then
    if x.isZero || y.isZero then nan else infinity negative
  else ofIndex negative (singleGrid.mul x.index.val y.index.val)

/-- The rounded quotient. -/
def div (x y : Single) : Single :=
  let negative := x.negative != y.negative
  if x.isNaN || y.isNaN then nan
  else if x.isInfinite then
    if y.isInfinite then nan else infinity negative
  else if y.isInfinite then ofIndex negative 0
  else if y.isZero then
    if x.isZero then nan else infinity negative
  else ofIndex negative (singleGrid.div x.index.val y.index.val)

/-- The rounded square root. The root of a positive number is far above the unit,
so half a unit added to an inexact integer root falls on the right side of every tie. -/
def sqrt (x : Single) : Single :=
  if x.isNaN then nan
  else if x.isZero then x
  else if x.negative then nan
  else if x.isInfinite then x
  else
    let radicand := x.units * Nat.pow 2 singleGrid.depth
    let root := squareRoot radicand
    ofUnits false (2 * root + if root * root = radicand then 0 else 1) 2

/-- One divided by the number. -/
def recip (x : Single) : Single := one.div x

/-- Greater than zero. -/
def isPositive (x : Single) : Bool := !x.isNaN && !x.isZero && !x.negative

end Single

end SdfScene
