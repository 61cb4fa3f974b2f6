import SdfScene.Camera
import SdfScene.Shape.Basic

/-!
# The built-in scene

What the built-in documents stand for, which is shown where nothing was saved: a ground
plane, next to a box with a spherical bite taken out of it, and a camera that looks at them.
-/

namespace SdfScene.Builtin

/-- The ground plane. -/
def ground : Shape :=
  .primitive (.plane { normal := ⟨.zero, .one, .zero⟩, height := .one }) .identity
    (.splat (.ofRatio false 6 10)) (.ofNumber 2)

/-- The box, turned by thirty degrees. -/
def block : Shape :=
  .primitive (.box { radius := .ofRatio false 1 10, sideLengths := .splat .one })
    { Transform.identity with rotation := ⟨.zero, .ofNat 30, .zero⟩ }
    ⟨.one, .zero, .zero⟩ (.ofNumber 4)

/-- The sphere that is taken out of the box. -/
def bite : Shape :=
  .primitive (.sphere { position := .zero, radius := .ofRatio false 13 10 })
    { Transform.identity with position := ⟨.zero, .ofRatio false 1 2, .zero⟩ }
    (.splat (.ofRatio false 8 10)) (.ofNumber 5)

/-- The whole scene. -/
def content : Shape :=
  .combinator .union
    [ground,
      .combinator .subtraction [block, bite] (.ofRatio false 2 10) .identity (.ofNumber 3)]
    .zero .identity (.ofNumber 1)

/-- The highest number among the ids of the scene. -/
def highestId : Nat := 5

/-- The allocator after the ids of the scene were observed. -/
def observe (ids : Allocator) : Allocator := ⟨max ids.floor highestId⟩

/-- The camera of the scene. -/
def camera : Camera := .new ⟨.ofNat 6, .ofNat 4, .ofNat 6⟩ .zero ⟨.zero, .one, .zero⟩

end SdfScene.Builtin
