import SdfScene.Json.Document
import SdfScene.Json.Text
import SdfScene.Number.Shortest

/-!
# Writing a document

A document is written without blanks. A number is written with the fewest digits that
read back as the same single-precision number: positional from a millionth up to ten
million million, with at least one decimal, and otherwise with one leading digit and
a signed exponent.
-/

namespace SdfScene.Json

open Number

namespace Numeral

/-- Lay out digits scaled by a power of ten as a numeral. -/
def layout (negative : Bool) (ds : List Char) (scale : Int) : Numeral :=
  let point := ds.length + scale
  if 0 ≤ scale ∧ point ≤ 13 then
    ⟨negative, ds ++ List.replicate scale.toNat '0', ['0'], none⟩
  else if 0 < point ∧ point ≤ 13 then
    ⟨negative, ds.take point.toNat, ds.drop point.toNat, none⟩
  else if -6 < point ∧ point ≤ 0 then
    ⟨negative, ['0'], List.replicate (-point).toNat '0' ++ ds, none⟩
  else ⟨negative, ds.take 1, ds.drop 1, some (point - 1)⟩

/-- The numeral of a finite number. -/
def ofSingle (x : Single) : Numeral :=
  if x.isZero then ⟨x.negative, ['0'], ['0'], none⟩
  else
    let (d, scale) := shortestDecimal x.index.val
    layout x.negative (digits d) scale

/-- The text of a numeral; the sign of its exponent is always written. -/
def text (x : Numeral) : List Char :=
  (if x.negative then ['-'] else []) ++ x.whole ++
    (if x.fraction = [] then [] else '.' :: x.fraction) ++
    match x.exponent with
    | none => []
    | some e => ['e', if e < 0 then '-' else '+'] ++ digits e.natAbs

end Numeral

namespace Doc

/-- The document of a number; an infinity or not-a-number has none and is `null`. -/
def ofSingle (x : Single) : Doc := if x.isFinite then .number (.ofSingle x) else .null

/-- The document of a text. -/
def ofString (text : String) : Doc := .string (some text)

/-- An object with the given members. -/
def ofMembers (members : List (String × Doc)) : Doc :=
  .object (members.map fun member => (some member.1, member.2)) .closed

/-- An array of the given items. -/
def ofItems (items : List Doc) : Doc := .array items .closed

mutual

/-- The text of a document; a flaw has none. -/
def render : Doc → List Char
  | .null => ['n', 'u', 'l', 'l']
  | .bool true => ['t', 'r', 'u', 'e']
  | .bool false => ['f', 'a', 'l', 's', 'e']
  | .number numeral => numeral.text
  | .string text => quote (text.getD "")
  | .array items _ => ['['] ++ renderItems items ++ [']']
  | .object members _ => ['\x7b'] ++ renderMembers members ++ ['\x7d']
  | .flawed _ => []

/-- The texts of items with commas between them. -/
def renderItems : List Doc → List Char
  | [] => []
  | [item] => render item
  | item :: items => render item ++ [','] ++ renderItems items

/-- The texts of members with commas between them. -/
def renderMembers : List (Option String × Doc) → List Char
  | [] => []
  | [(key, value)] => quote (key.getD "") ++ [':'] ++ render value
  | (key, value) :: members =>
    quote (key.getD "") ++ [':'] ++ render value ++ [','] ++ renderMembers members

end

/-- The text of a document, as a string. -/
def encoded (doc : Doc) : String := String.ofList doc.render

end Doc

end SdfScene.Json
