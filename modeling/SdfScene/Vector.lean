import SdfScene.Error
import SdfScene.Number.Tenths
import SdfScene.Text.Blank

/-!
# Vectors and editor text

Three single-precision components, and the texts in which an editor shows and changes
numbers and vectors. A text that changes a value denotes finite numbers only.
-/

namespace SdfScene

open Text

/-- A vector with single-precision components. -/
structure Vec3 where
  x : Single
  y : Single
  z : Single
  deriving DecidableEq

namespace Vec3

/-- The vector with one number in all its components. -/
def splat (a : Single) : Vec3 := ⟨a, a, a⟩

/-- The zero vector. -/
def zero : Vec3 := splat .zero

/-- Equality of values in every component. -/
def equal (v w : Vec3) : Bool := v.x.equal w.x && v.y.equal w.y && v.z.equal w.z

/-- The text of a vector, with one decimal place in each component. -/
def text (v : Vec3) : String :=
  "vec3(" ++ v.x.text ++ "," ++ v.y.text ++ "," ++ v.z.text ++ ")"

end Vec3

/-- The finite number that a text denotes between its outer blanks. -/
def Single.ofEditorText (text : List Char) : Except InvalidValue Single :=
  let trimmed := trim text
  match Single.ofText? trimmed with
  | none => .error (.notANumber (String.ofList trimmed))
  | some x => if x.isFinite then .ok x else .error (.notFinite (String.ofList trimmed))

/-- The vector that a text denotes by three numbers with commas between them. -/
def Vec3.ofEditorText (text : List Char) : Except InvalidValue Vec3 :=
  match pieces ',' text with
  | [x, y, z] => do
    let x ← Single.ofEditorText x
    let y ← Single.ofEditorText y
    let z ← Single.ofEditorText z
    pure ⟨x, y, z⟩
  | _ => .error (.notAVector (String.ofList text))

end SdfScene
