import SdfScene.Builtin
import SdfScene.Codec.Builtin
import SdfScene.Proofs.Codec.Restored

/-!
# What the built-in documents stand for

The built-in documents are decoded without a fault, whatever was issued before, and what they
stand for is known: nothing is ever shown in the place of the built-in scene and camera.
-/

namespace SdfScene.Builtin

open Codec Json

/-! The texts are read once each. Their characters are listed first, since the kernel is slow to
decode a literal. -/

set_option maxRecDepth 100000 in
unseal rootText in
theorem ofDocument_rootText : Shape.ofDocument rootText = .ok content := by
  have htext : rootText = String.ofList _ := rfl
  rw [Shape.ofDocument, decodeAll, htext, String.toList_ofList]
  decide +kernel

set_option maxRecDepth 100000 in
unseal cameraText in
theorem ofDocument_cameraText : Camera.ofDocument cameraText = .ok camera := by
  have htext : cameraText = String.ofList _ := rfl
  rw [Camera.ofDocument, decodeAll, htext, String.toList_ofList]
  decide +kernel

/-- The built-in scene is restored whatever was issued before. -/
theorem restore_rootText (ids : Allocator) :
    Shape.restore rootText ids = .ok (content, observe ids) := by
  refine Shape.restore_eq_ok.mpr ⟨ofDocument_rootText, by decide +kernel, by decide +kernel, ?_⟩
  have hhighest : NodeId.highest content.ids = highestId := by decide +kernel
  rw [observe, hhighest]

/-- So no empty union takes its place. -/
theorem restoreContent_eq (ids : Allocator) : restoreContent ids = (content, observe ids) := by
  rw [restoreContent, restore_rootText]
  rfl

/-- Nor does another camera take the place of the built-in one. -/
theorem restoreCamera_eq : restoreCamera = camera := by
  rw [restoreCamera, ofDocument_cameraText]
  rfl

end SdfScene.Builtin
