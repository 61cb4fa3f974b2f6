import SdfScene.Number.Decimal

/-!
# Node ids and their allocation

An id is any text. Ids that read as unsigned 64-bit numbers count for allocation:
the allocator keeps the highest number issued or observed so far and issues the
next one in plain decimal digits.
-/

namespace SdfScene

open Number

/-- The identifier of a node of the shape tree. -/
structure NodeId where
  /-- The id as it is written. -/
  text : String
  deriving DecidableEq

namespace NodeId

/-- The number that an id denotes: digits after an optional plus, below `2 ^ 64`. -/
def number? (id : NodeId) : Option Nat :=
  let digits := match id.text.toList with
    | '+' :: rest => rest
    | cs => cs
  if digits ≠ [] ∧ digits.all Char.isDigit ∧ ofDigits digits < Nat.pow 2 64 then
    some (ofDigits digits)
  else none

/-- The id that denotes a number in plain decimal digits. -/
def ofNumber (n : Nat) : NodeId := ⟨String.ofList (digits n)⟩

/-- The largest number that a restored id may denote. -/
def maxRestored : Nat := Nat.pow 2 53 - 1

end NodeId

/-- Issues fresh ids for one editing session. -/
structure Allocator where
  /-- The highest number issued or observed so far. -/
  floor : Nat
  deriving DecidableEq

namespace Allocator

/-- An allocator that has issued and observed nothing. -/
def fresh : Allocator := ⟨0⟩

/-- The next id, above every number issued or observed. -/
def next (ids : Allocator) : NodeId × Allocator :=
  (NodeId.ofNumber (ids.floor + 1), ⟨ids.floor + 1⟩)

/-- Raise the floor past a restored id; `none` if its number is too large. -/
def past? (ids : Allocator) (id : NodeId) : Option Allocator :=
  match id.number? with
  | none => some ids
  | some n => if n ≤ NodeId.maxRestored then some ⟨max ids.floor n⟩ else none

end Allocator

end SdfScene
