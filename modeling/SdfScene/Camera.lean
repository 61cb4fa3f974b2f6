import SdfScene.Number.Arithmetic
import SdfScene.Vector

/-!
# Cameras

A camera is given by where it stands, what it looks at and what is up. The directions of
view and to the right are kept with it, computed from these three, each operation rounded
to single precision.
-/

namespace SdfScene

namespace Vec3

/-- The difference of two vectors. -/
def sub (v w : Vec3) : Vec3 := ⟨v.x.sub w.x, v.y.sub w.y, v.z.sub w.z⟩

/-- A vector scaled by a number. -/
def scaleBy (v : Vec3) (a : Single) : Vec3 := ⟨v.x.mul a, v.y.mul a, v.z.mul a⟩

/-- The inner product, summed from the first component on. -/
def dot (v w : Vec3) : Single := ((v.x.mul w.x).add (v.y.mul w.y)).add (v.z.mul w.z)

/-- The outer product. -/
def cross (v w : Vec3) : Vec3 :=
  ⟨(v.y.mul w.z).sub (w.y.mul v.z), (v.z.mul w.x).sub (w.z.mul v.x),
    (v.x.mul w.y).sub (w.x.mul v.y)⟩

/-- The length of a vector. -/
def length (v : Vec3) : Single := (v.dot v).sqrt

/-- The vector of length one in the same direction, or zero where the reciprocal of the
length is no positive finite number. -/
def normalized (v : Vec3) : Vec3 :=
  let factor := v.length.recip
  if factor.isFinite ∧ factor.isPositive then v.scaleBy factor else zero

end Vec3

/-- A view into the scene. -/
structure Camera where
  /-- Where the camera stands. -/
  eye : Vec3
  /-- What it looks at. -/
  target : Vec3
  /-- The direction that is up. -/
  up : Vec3
  /-- The direction of view, zero if the camera stands at its target. -/
  direction : Vec3
  /-- The direction to the right, zero if the view is along `up`. -/
  right : Vec3
  direction_eq : direction = (target.sub eye).normalized
  right_eq : right = (direction.cross up).normalized
  deriving DecidableEq

namespace Camera

/-- The camera that stands at `eye` and looks at `target`. -/
def new (eye target up : Vec3) : Camera where
  eye := eye
  target := target
  up := up
  direction := (target.sub eye).normalized
  right := ((target.sub eye).normalized.cross up).normalized
  direction_eq := rfl
  right_eq := rfl

/-- There are no other cameras. -/
theorem new_given (camera : Camera) : new camera.eye camera.target camera.up = camera := by
  simp only [new, ← camera.direction_eq, ← camera.right_eq]

/-- The distance from the eye to the target. -/
def distance (camera : Camera) : Single := (camera.target.sub camera.eye).length

/-- The camera that stands for no particular scene. -/
def standard : Camera :=
  new ⟨.ofNat 2, .ofRatio false 3 2, .ofNat 2⟩ .zero ⟨.zero, .one, .zero⟩

end Camera

end SdfScene
