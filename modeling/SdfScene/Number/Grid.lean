/-!
# Binary floating-point grids

The nonnegative finite values of a binary format are natural multiples of its
least positive value. They are numbered in increasing order, so a value is a
natural index and its size a natural number of units. Every rounding in the
library goes through `nearest`: the index whose value is closest to a quotient,
a half going to the even index. Powers are `Nat.pow` by name, which the imports of a
module cannot turn into the power of some other structure.
-/

namespace SdfScene.Number

/-- Round `num / den` to the nearest natural number, a half to the even one. -/
def roundDiv (num den : Nat) : Nat :=
  let quotient := num / den
  let twice := 2 * (num % den)
  if twice < den then quotient
  else if den < twice then quotient + 1
  else if quotient % 2 = 0 then quotient else quotient + 1

/-- The layout of the nonnegative values of a binary format. -/
structure Grid where
  /-- Number of fraction bits. -/
  fraction : Nat
  /-- The least positive value is `2 ^ -depth`, the unit of the grid. -/
  depth : Nat
  /-- The first index beyond the largest finite value. -/
  limit : Nat

/-- Single precision: 24 significant bits, units of `2 ^ -149`. -/
def singleGrid : Grid := ⟨23, 149, 0x7F800000⟩

/-- Double precision: 53 significant bits, units of `2 ^ -1074`. -/
def doubleGrid : Grid := ⟨52, 1074, 0x7FF0000000000000⟩

namespace Grid

/-- The value at an index, in units: evenly spaced up to `2 ^ fraction`, then in
binades of `2 ^ fraction` values whose spacing doubles from one to the next. -/
def units (g : Grid) (index : Nat) : Nat :=
  let binade := index / Nat.pow 2 g.fraction
  let place := index % Nat.pow 2 g.fraction
  if binade = 0 then place else (Nat.pow 2 g.fraction + place) * Nat.pow 2 (binade - 1)

/-- The index of the value nearest to `num / den` units, ignoring the limit. -/
def nearestUnits (g : Grid) (num den : Nat) : Nat :=
  let shift := Nat.log2 (num / den) - g.fraction
  shift * Nat.pow 2 g.fraction + roundDiv num (den * Nat.pow 2 shift)

/-- The index of the value nearest to `num / den`; `limit` stands for overflow. -/
def nearest (g : Grid) (num den : Nat) : Nat :=
  min (g.nearestUnits (num * Nat.pow 2 g.depth) den) g.limit

/-- The index of the product of two values. -/
def mul (g : Grid) (a b : Nat) : Nat :=
  min (g.nearestUnits (g.units a * g.units b) (Nat.pow 2 g.depth)) g.limit

/-- The index of the quotient of two values, the second one positive. -/
def div (g : Grid) (a b : Nat) : Nat :=
  min (g.nearestUnits (g.units a * Nat.pow 2 g.depth) (g.units b)) g.limit

end Grid

end SdfScene.Number
