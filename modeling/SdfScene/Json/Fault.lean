import SdfScene.Json.Position

/-!
# Faults of a document

What can go wrong between the text of a document and the value it stands for: the
text is not JSON, it ends too early, or its content does not fit. Only the last
group carries a text of its own.
-/

namespace SdfScene.Json

/-- The three groups of faults. -/
inductive Category where
  /-- The text is not well-formed. -/
  | malformed
  /-- The text is well-formed but stands for no value of the wanted type. -/
  | unsuitable
  /-- The text ends before the document does. -/
  | truncated
  deriving DecidableEq

/-- The persistence tag of a wrapped value. -/
inductive Tag where
  | map
  | shapeVector
  | vector
  | scalar
  deriving DecidableEq

namespace Tag

/-- The tag as it is written. -/
def name : Tag → String
  | map => "Map"
  | shapeVector => "SVec"
  | vector => "Vec"
  | scalar => "S"

/-- Every tag, in declared order. -/
def all : List Tag := [map, shapeVector, vector, scalar]

/-- The tag written as a text. -/
def ofName? (text : String) : Option Tag := all.find? fun tag => tag.name = text

end Tag

/-- Why a document stands for no value. -/
inductive Fault where
  /-- A fault that is known by its category alone. -/
  | plain (category : Category)
  /-- A required member is absent. -/
  | missingField (name : String)
  /-- A known member occurs a second time. -/
  | duplicateField (name : String)
  /-- A name is none of the expected ones. -/
  | unknownVariant (name : String) (expected : List String)
  /-- A wrapper carries the wrong tag. -/
  | wrongTag (expected found : Tag)
  /-- An entry of a child map has a key that is not its shape's id. -/
  | wrongKey (key id : String)
  /-- A child map has two entries with one key. -/
  | duplicateChild (key : String)
  /-- A text in place of a number is not a numeral. -/
  | notANumber (text : String)
  /-- A number is infinite or not-a-number. -/
  | notFinite
  deriving DecidableEq

namespace Fault

/-- The group a fault belongs to. -/
def category : Fault → Category
  | plain category => category
  | _ => .unsuitable

/-- Names in quotes, as alternatives. -/
def alternatives (names : List String) : String :=
  let quoted := names.map fun name => s!"`{name}`"
  match quoted with
  | [one] => one
  | [one, two] => s!"{one} or {two}"
  | _ => "one of " ++ String.intercalate ", " quoted

/-- The words for a fault that has some. -/
def words? : Fault → Option String
  | plain _ => none
  | missingField name => some s!"missing field `{name}`"
  | duplicateField name => some s!"duplicate field `{name}`"
  | unknownVariant name expected =>
    some s!"unknown variant `{name}`, expected {alternatives expected}"
  | wrongTag expected found =>
    some ("expected dataType " ++ expected.name ++ ", found " ++ found.name)
  | wrongKey key id => some s!"child keyed as {key} has id {id}"
  | duplicateChild key => some s!"duplicate child {key}"
  | notANumber text => some s!"'{text}' is not a number"
  | notFinite => some "non-finite number"

/-- The text of a fault that has one: a position at the end of the words, which can only
come from the key or the id that they end with, is left out. -/
def text? (fault : Fault) : Option String := fault.words?.map withoutPosition

end Fault

end SdfScene.Json
