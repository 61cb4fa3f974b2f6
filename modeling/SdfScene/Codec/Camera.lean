import SdfScene.Camera
import SdfScene.Codec.Wrapper

/-!
# Camera documents

A camera is persisted with its derived directions for other readers of the file. They
may be absent; where they are present they must be vectors, but they never count.
-/

namespace SdfScene.Codec

open Json

/-- The document of a camera. -/
def cameraDoc (camera : Camera) : Doc :=
  .ofMembers [("loc", vectorDoc .vector camera.eye), ("at", vectorDoc .vector camera.target),
    ("up", vectorDoc .vector camera.up), ("dir", vectorDoc .vector camera.direction),
    ("right", vectorDoc .vector camera.right)]

/-- The fields of a camera document. -/
def cameraFields : List (RecordField Vec3) :=
  [.required "loc" (decodeVector .vector), .required "at" (decodeVector .vector),
    .required "up" (decodeVector .vector), .optional "dir" (decodeVector .vector) .zero,
    .optional "right" (decodeVector .vector) .zero]

/-- Decode a camera. -/
def decodeCamera : Decoder Camera := fun reading doc => do
  match ← decodeRecord cameraFields reading doc with
  | [eye, target, up, _, _] => .ok (.new eye target up)
  | _ => .error (.plain .unsuitable)

end SdfScene.Codec

namespace SdfScene.Camera

open Json Codec

/-- The document text of a camera. -/
def encoded (camera : Camera) : String := (cameraDoc camera).encoded

/-- The camera that a text is the document of. -/
def ofDocument (text : String) : Except Fault Camera := decodeAll decodeCamera text

end SdfScene.Camera
