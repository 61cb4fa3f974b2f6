import SdfScene.Codec.Camera
import SdfScene.Codec.Shape

/-!
# The built-in documents

The built-in scene and camera are kept in the form in which they would be saved, and they are
decoded like anything that was, so that the ids of the scene are observed as well.
-/

namespace SdfScene.Builtin

/-! The texts are irreducible, so that no proof decodes them unless it has to. -/

/-- The document of the scene. -/
@[irreducible] def rootText : String :=
  "\x7b
  \"kind\": \"Union\",
  \"shapes\": \x7b\"dataType\": \"Map\", \"value\": [
    [\"2\", \x7b
      \"kind\": \"Plane\",
      \"normal\": \x7b\"dataType\": \"SVec\", \"value\": \x7b\"x\": 0, \"y\": 1, \"z\": 0\x7d\x7d,
      \"height\": \x7b\"dataType\": \"S\", \"value\": \x7b\"s\": 1\x7d\x7d,
      \"transform\": \x7b
        \"position\": \x7b\"dataType\": \"SVec\", \"value\": \x7b\"x\": 0, \"y\": 0, \"z\": 0\x7d\x7d,
        \"rotation\": \x7b\"dataType\": \"SVec\", \"value\": \x7b\"x\": 0, \"y\": 0, \"z\": 0\x7d\x7d,
        \"scale\": \x7b\"dataType\": \"S\", \"value\": \x7b\"s\": 1\x7d\x7d
      \x7d,
      \"color\": \x7b\"dataType\": \"SVec\", \"value\": \x7b\"x\": 0.6, \"y\": 0.6, \"z\": 0.6\x7d\x7d,
      \"id\": \"2\"
    \x7d],
    [\"3\", \x7b
      \"kind\": \"Subtraction\",
      \"shapes\": \x7b\"dataType\": \"Map\", \"value\": [
        [\"4\", \x7b
          \"kind\": \"Box\",
          \"radius\": \x7b\"dataType\": \"S\", \"value\": \x7b\"s\": 0.1\x7d\x7d,
          \"sideLengths\": \x7b\"dataType\": \"SVec\", \"value\": \x7b\"x\": 1, \"y\": 1, \"z\": 1\x7d\x7d,
          \"transform\": \x7b
            \"position\": \x7b\"dataType\": \"SVec\", \"value\": \x7b\"x\": 0, \"y\": 0, \"z\": 0\x7d\x7d,
            \"rotation\": \x7b\"dataType\": \"SVec\", \"value\": \x7b\"x\": 0, \"y\": 30, \"z\": 0\x7d\x7d,
            \"scale\": \x7b\"dataType\": \"S\", \"value\": \x7b\"s\": 1\x7d\x7d
          \x7d,
          \"color\": \x7b\"dataType\": \"SVec\", \"value\": \x7b\"x\": 1, \"y\": 0, \"z\": 0\x7d\x7d,
          \"id\": \"4\"
        \x7d],
        [\"5\", \x7b
          \"kind\": \"Sphere\",
          \"position\": \x7b\"dataType\": \"SVec\", \"value\": \x7b\"x\": 0, \"y\": 0, \"z\": 0\x7d\x7d,
          \"radius\": \x7b\"dataType\": \"S\", \"value\": \x7b\"s\": 1.3\x7d\x7d,
          \"transform\": \x7b
            \"position\": \x7b\"dataType\": \"SVec\", \"value\": \x7b\"x\": 0, \"y\": 0.5, \"z\": 0\x7d\x7d,
            \"rotation\": \x7b\"dataType\": \"SVec\", \"value\": \x7b\"x\": 0, \"y\": 0, \"z\": 0\x7d\x7d,
            \"scale\": \x7b\"dataType\": \"S\", \"value\": \x7b\"s\": 1\x7d\x7d
          \x7d,
          \"color\": \x7b\"dataType\": \"SVec\", \"value\": \x7b\"x\": 0.8, \"y\": 0.8, \"z\": 0.8\x7d\x7d,
          \"id\": \"5\"
        \x7d]
      ]\x7d,
      \"smoothness\": \x7b\"dataType\": \"S\", \"value\": \x7b\"s\": 0.2\x7d\x7d,
      \"transform\": \x7b
        \"position\": \x7b\"dataType\": \"SVec\", \"value\": \x7b\"x\": 0, \"y\": 0, \"z\": 0\x7d\x7d,
        \"rotation\": \x7b\"dataType\": \"SVec\", \"value\": \x7b\"x\": 0, \"y\": 0, \"z\": 0\x7d\x7d,
        \"scale\": \x7b\"dataType\": \"S\", \"value\": \x7b\"s\": 1\x7d\x7d
      \x7d,
      \"id\": \"3\"
    \x7d]
  ]\x7d,
  \"smoothness\": \x7b\"dataType\": \"S\", \"value\": \x7b\"s\": 0\x7d\x7d,
  \"transform\": \x7b
    \"position\": \x7b\"dataType\": \"SVec\", \"value\": \x7b\"x\": 0, \"y\": 0, \"z\": 0\x7d\x7d,
    \"rotation\": \x7b\"dataType\": \"SVec\", \"value\": \x7b\"x\": 0, \"y\": 0, \"z\": 0\x7d\x7d,
    \"scale\": \x7b\"dataType\": \"S\", \"value\": \x7b\"s\": 1\x7d\x7d
  \x7d,
  \"id\": \"1\"
\x7d"

/-- The document of the camera, with the given vectors only. -/
@[irreducible] def cameraText : String :=
  "\x7b
  \"loc\": \x7b\"dataType\": \"Vec\", \"value\": \x7b\"x\": 6, \"y\": 4, \"z\": 6\x7d\x7d,
  \"at\": \x7b\"dataType\": \"Vec\", \"value\": \x7b\"x\": 0, \"y\": 0, \"z\": 0\x7d\x7d,
  \"up\": \x7b\"dataType\": \"Vec\", \"value\": \x7b\"x\": 0, \"y\": 1, \"z\": 0\x7d\x7d
\x7d"

/-- The scene, with the allocator after its ids were observed. -/
def restoreContent (ids : Allocator) : Shape × Allocator :=
  (Shape.restore rootText ids).toOption.getD (Shape.create (.combinator .union) ids)

/-- The camera. -/
def restoreCamera : Camera :=
  (Camera.ofDocument cameraText).toOption.getD .standard

end SdfScene.Builtin
