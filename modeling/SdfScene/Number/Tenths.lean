import SdfScene.Number.Decimal

/-!
# Editor text of a number

Editors and compiled expressions show a number with exactly one decimal place: the
nearest multiple of a tenth, a half going to the even digit, and never a negative
zero.
-/

namespace SdfScene

open Number

namespace Single

/-- The number of tenths nearest to the size of a finite number. -/
def tenths (x : Single) : Nat := roundDiv (x.units * 10) (Nat.pow 2 singleGrid.depth)

/-- A count of tenths written with one decimal place. -/
def tenthsText (negative : Bool) (count : Nat) : List Char :=
  (if negative ∧ count ≠ 0 then ['-'] else []) ++ digits (count / 10) ++ ['.'] ++
    digits (count % 10)

/-- The text of a number with one decimal place. -/
def text (x : Single) : String :=
  if x.isNaN then "NaN"
  else if x.isInfinite then (if x.negative then "-inf" else "inf")
  else String.ofList (tenthsText x.negative x.tenths)

end Single

end SdfScene
