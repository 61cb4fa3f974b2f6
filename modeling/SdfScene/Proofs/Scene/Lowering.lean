import SdfScene.Proofs.Expression.Lowering
import SdfScene.Proofs.Scene.Preservation

/-!
# Lowering keeps scenes well-formed

Lowering for the moment changes nothing. Lowering in the tree adds combinators whose ids
lie above the floor and whose numbers are those of the combinators they split.
-/

namespace SdfScene

open Shape

namespace Shape

/-- The ids of a lowered tree are those of the tree and some that come next. -/
private theorem lower_inPlace_ids {ids : Allocator} {shape : Shape} {parent : Transform}
    (hcovers : ids.Covers shape.ids)
    (hroom : (shape.lower .inPlace parent ids).ids.floor < 2 ^ 64) :
    (shape.lower .inPlace parent ids).tree.ids.Perm
      (shape.ids ++ ids.upcoming shape.splits) := by
  rw [lower_inPlace shape parent ids hcovers hroom]
  exact ids_splitAbove ids.floor shape

/-- A sound tree is lowered to a sound one. -/
theorem Sound.lower {ids : Allocator} {shape : Shape} (hsound : shape.Sound ids)
    (mode : FlattenMode) (parent : Transform)
    (hroom : (shape.lower mode parent ids).ids.floor < 2 ^ 64) :
    (shape.lower mode parent ids).tree.Sound (shape.lower mode parent ids).ids := by
  cases mode with
  | transient =>
    obtain ⟨htree, hids⟩ := lower_transient_keeps shape parent ids
    rwa [htree, hids]
  | inPlace =>
    have hperm := lower_inPlace_ids hsound.covered hroom
    have heq := lower_inPlace shape parent ids hsound.covered hroom
    have hroom' : ids.floor + shape.splits < 2 ^ 64 := by rwa [heq] at hroom
    refine ⟨?_, ?_, ?_⟩
    · rw [hperm.nodup_iff]
      exact hsound.distinct.append (ids.nodup_upcoming _)
        (hsound.covered.disjoint_upcoming hroom')
    · refine Allocator.Covers.of_subset ?_ hperm.subset
      rw [heq, Allocator.covers_append]
      exact ⟨hsound.covered.mono (Nat.le_add_right _ _), Allocator.covers_upcoming hroom'⟩
    · rw [heq]
      exact fun x hx => hsound.finite x (mem_numbers_splitAbove.mp hx)

/-- Lowering takes no id that is in use outside the tree. -/
theorem mem_ids_of_lower {ids : Allocator} {shape : Shape} {used : List NodeId}
    (hsound : shape.Sound ids) (hused : ids.Covers used) (mode : FlattenMode)
    (parent : Transform) (hroom : (shape.lower mode parent ids).ids.floor < 2 ^ 64) :
    ∀ id ∈ (shape.lower mode parent ids).tree.ids, id ∈ used → id ∈ shape.ids := by
  intro id hid hmem
  cases mode with
  | transient =>
    rwa [(lower_transient_keeps shape parent ids).1] at hid
  | inPlace =>
    rw [(lower_inPlace_ids hsound.covered hroom).mem_iff, List.mem_append] at hid
    rw [lower_inPlace shape parent ids hsound.covered hroom] at hroom
    exact hid.resolve_right fun hnew => hused.disjoint_upcoming hroom hmem hnew

end Shape

namespace Scene.WellFormed

variable {scene : Scene} {ids : Allocator}

/-- Lowering the displayed shape keeps a scene well-formed. -/
theorem lowerContent (h : scene.WellFormed ids) (mode : FlattenMode)
    (hroom : (scene.lowerContent mode ids).ids.floor < 2 ^ 64) :
    (scene.lowerContent mode ids).tree.WellFormed (scene.lowerContent mode ids).ids := by
  rw [Scene.lowerContent] at hroom ⊢
  split at hroom
  · exact h
  · next shape hcontent =>
    have hshape := h.sound_of_content? hcontent
    refine h.withContent hcontent (lower_floor_bounds mode shape _ ids).1
      (hshape.lower mode _ hroom) ?_
    exact mem_ids_of_lower hshape (wellFormed_iff.mp h).covered mode _ hroom

/-- Lowering any node keeps a scene well-formed. -/
theorem lower (h : scene.WellFormed ids) {mode : FlattenMode} {id : Option NodeId}
    {lowered : Lowered Scene} (hlower : scene.lower mode id ids = .ok lowered)
    (hroom : lowered.ids.floor < 2 ^ 64) : lowered.tree.WellFormed lowered.ids := by
  rw [Scene.lower] at hlower
  split at hlower
  · cases hlower
    exact h.lowerContent mode hroom
  · split at hlower
    · cases hlower
    · next node hnode =>
      cases hlower
      have hsound := h.sound_of_find? hnode
      refine h.update hnode (lower_floor_bounds mode node _ ids).1 (hsound.lower mode _ hroom) ?_
      exact mem_ids_of_lower hsound (wellFormed_iff.mp h).covered mode _ hroom

end Scene.WellFormed

end SdfScene
