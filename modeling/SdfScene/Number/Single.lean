import SdfScene.Number.Grid

/-!
# Single-precision numbers

A number is a sign and an index into the single-precision grid. The index at the
grid's limit stands for infinity and the indices beyond it for not-a-number, so
sign and index together are the 32-bit pattern.
-/

namespace SdfScene

open Number

/-- A single-precision number: its sign and the other 31 bits of its pattern. -/
structure Single where
  /-- Whether the sign bit is set. -/
  negative : Bool
  /-- The pattern without the sign bit. -/
  index : Fin 0x80000000
  deriving DecidableEq

namespace Single

/-- The number with a sign and an index; larger indices are cut to infinity. -/
def ofIndex (negative : Bool) (index : Nat) : Single :=
  ⟨negative, ⟨min index 0x7F800000, by omega⟩⟩

/-- The number with a 32-bit pattern. -/
def ofBits (bits : UInt32) : Single :=
  ⟨0x80000000 ≤ bits.toNat, ⟨bits.toNat % 0x80000000, Nat.mod_lt _ (by decide)⟩⟩

/-- Neither infinite nor not-a-number. -/
def isFinite (x : Single) : Bool := x.index.val < singleGrid.limit

/-- Infinite, of either sign. -/
def isInfinite (x : Single) : Bool := x.index.val = singleGrid.limit

/-- Not a number. -/
def isNaN (x : Single) : Bool := singleGrid.limit < x.index.val

/-- Zero, of either sign. -/
def isZero (x : Single) : Bool := x.index.val = 0

/-- The size of a finite number in units of `2 ^ -149`. -/
def units (x : Single) : Nat := singleGrid.units x.index.val

/-- Positive zero. -/
def zero : Single := ofIndex false 0

/-- The number one. -/
def one : Single := ofIndex false 0x3F800000

/-- Infinity with a sign. -/
def infinity (negative : Bool) : Single := ofIndex negative singleGrid.limit

/-- The not-a-number that a failing operation gives. -/
def nan : Single := ⟨false, ⟨0x7FC00000, by decide⟩⟩

/-- The number nearest to `num / den` with a sign, infinity on overflow. -/
def ofRatio (negative : Bool) (num den : Nat) : Single :=
  ofIndex negative (singleGrid.nearest num den)

/-- The number nearest to a natural number. -/
def ofNat (n : Nat) : Single := ofRatio false n 1

/-- Equality of values: the two zeros are equal, not-a-number differs from itself. -/
def equal (x y : Single) : Bool :=
  !x.isNaN && (x = y || (x.isZero && y.isZero))

end Single

end SdfScene
