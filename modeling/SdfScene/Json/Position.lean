import SdfScene.Number.Decimal

/-!
# Positions at the end of a text

The text of a fault may end in a position, a line and a column in decimal digits. Such an
end says where the fault was met, whoever wrote it, and is no part of what the text says.
-/

namespace SdfScene.Json

open Number

/-- A place in a text. Lines are counted from one, and line zero is nowhere. -/
structure Position where
  line : Nat
  column : Nat
  deriving DecidableEq

/-- The bound that a line or a column stays below. -/
def positionLimit : Nat := Nat.pow 2 64

/-- The words before the line of a position. -/
def lineLabel : List Char := " at line ".toList

/-- The words before the column of a position. -/
def columnLabel : List Char := " column ".toList

/-- A position as it is written. -/
def Position.written (position : Position) : List Char :=
  lineLabel ++ digits position.line ++ columnLabel ++ digits position.column

/-- A number after a label at the end of a text, and the text before them, all of it from
the last character back. -/
def splitNumber? (label reversed : List Char) : Option (Nat × List Char) :=
  let digits := (reversed.takeWhile Char.isDigit).reverse
  let rest := reversed.dropWhile Char.isDigit
  if digits ≠ [] ∧ ofDigits digits < positionLimit ∧ label.reverse.isPrefixOf rest then
    some (ofDigits digits, rest.drop label.length)
  else none

/-- A text and the position at its end. -/
def splitPosition? (text : List Char) : Option (List Char × Position) := do
  let (column, rest) ← splitNumber? columnLabel text.reverse
  let (line, rest) ← splitNumber? lineLabel rest
  pure (rest.reverse, ⟨line, column⟩)

/-- A text without a position at its end. A position that is nowhere is left out a second
time, where it stands in the same text once more as it is written. -/
def withoutPosition (text : String) : String :=
  match splitPosition? text.toList with
  | some (rest, position) =>
    String.ofList (
      if position.line = 0 ∧ position.written.isSuffixOf rest then
        rest.take (rest.length - position.written.length)
      else rest)
  | none => text

end SdfScene.Json
