import SdfScene.Number.Decimal

/-!
# Shortest digits of a number

The fewest decimal digits that round to a given single-precision value, by exact
integer arithmetic: on each decimal grid, from coarse to fine, the two neighbours of
the value are tested against the interval of reals that round to it, and the first
grid with a hit wins.
-/

namespace SdfScene

open Number

namespace Number

/-- Whether `d * 10 ^ p` rounds to the value at a positive index of the single grid:
it lies between the midpoints to the two neighbouring values, which belong to the
interval when the index is even. -/
def roundsTo (index : Nat) (d : Nat) (p : Int) : Bool :=
  let low := singleGrid.units (index - 1) + singleGrid.units index
  let high := singleGrid.units index + singleGrid.units (index + 1)
  let size := d * Nat.pow 10 p.toNat * Nat.pow 2 (singleGrid.depth + 1)
  let scale := Nat.pow 10 (-p).toNat
  (low * scale < size && size < high * scale) ||
    (index % 2 = 0 && (low * scale = size || size = high * scale))

/-- The hit on the grid of multiples of `10 ^ p`, if there is one: of two hits the
nearer, and of two equally near the even one. -/
def gridHit? (index : Nat) (p : Int) : Option (Nat × Int) :=
  let num := singleGrid.units index * Nat.pow 10 (-p).toNat
  let den := Nat.pow 2 singleGrid.depth * Nat.pow 10 p.toNat
  let below := num / den
  let nearer := roundDiv num den
  let farther := if nearer = below then below + 1 else below
  if roundsTo index nearer p then some (nearer, p)
  else if roundsTo index farther p then some (farther, p)
  else none

/-- The coarsest decimal that rounds to the value at a positive index. The search
starts above the value's leading digit and the exact expansion ends it in any case. -/
def shortestDecimal (index : Nat) : Nat × Int :=
  let units := singleGrid.units index
  let top : Int := (Nat.log2 units + 2) * 30103 / 100000 - 43
  ((List.range 20).findSome? fun (step : Nat) => gridHit? index (top - (step : Int))).getD
    (units * Nat.pow 5 singleGrid.depth, -(singleGrid.depth : Int))

end Number

end SdfScene
