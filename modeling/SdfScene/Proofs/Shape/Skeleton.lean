import SdfScene.Proofs.Shape.Fields
import SdfScene.Proofs.Shape.Swapped

/-!
# Trees without their fields

The skeleton of a tree has its kinds, its ids, its nesting and the order of its children,
and defaults in the fields. Searches and changes of children see nothing else of a tree, so
they can be carried out on the skeleton instead, and setting a field does not change it.
-/

namespace SdfScene.Shape

mutual

/-- The tree with the defaults of its kinds in the fields. -/
def skeleton : Shape → Shape
  | .primitive body _ _ id => .ofKind id (.primitive body.kind)
  | .combinator kind children _ _ id =>
    .combinator kind (skeletonIn children) .zero .identity id
  | .custom _ _ id => .ofKind id .custom

/-- The trees of a list with defaults in the fields. -/
def skeletonIn : List Shape → List Shape
  | [] => []
  | shape :: shapes => skeleton shape :: skeletonIn shapes

end

theorem skeletonIn_eq_map (shapes : List Shape) : skeletonIn shapes = shapes.map skeleton := by
  induction shapes with
  | nil => rfl
  | cons shape shapes ih => rw [skeletonIn, ih, List.map_cons]

@[simp] theorem id_skeleton (shape : Shape) : shape.skeleton.id = shape.id := by
  cases shape <;> rfl

@[simp] theorem children?_skeleton (shape : Shape) :
    shape.skeleton.children? = shape.children?.map (List.map skeleton) := by
  cases shape with
  | primitive => rfl
  | custom => rfl
  | combinator kind children smoothness transform id =>
    rw [skeleton, skeletonIn_eq_map]
    rfl

/-- The skeleton of a node with other children has their skeletons. -/
theorem skeleton_withChildren (children : List Shape) (shape : Shape) :
    (shape.withChildren children).skeleton =
      shape.skeleton.withChildren (children.map skeleton) := by
  cases shape with
  | primitive => rfl
  | custom => rfl
  | combinator kind inner smoothness transform id =>
    simp only [withChildren, skeleton, skeletonIn_eq_map]

/-- A skeleton is determined by the kind, the id and the skeletons of the children. -/
theorem skeleton_eq (shape : Shape) :
    shape.skeleton =
      (ofKind shape.id shape.kind).withChildren ((shape.children?.getD []).map skeleton) := by
  cases shape with
  | primitive => rfl
  | custom => rfl
  | combinator kind children smoothness transform id =>
    rw [skeleton, skeletonIn_eq_map]
    rfl

@[simp] theorem hasChild_skeleton (id : NodeId) (children : List Shape) :
    hasChild id (children.map skeleton) = hasChild id children := by
  simp only [hasChild, List.any_map, Function.comp_def, id_skeleton]

theorem eraseChild_skeleton (id : NodeId) (children : List Shape) :
    eraseChild id (children.map skeleton) = (eraseChild id children).map skeleton := by
  simp only [eraseChild, List.eraseP_map, Function.comp_def, id_skeleton]

/-! Searches and changes. -/

private theorem findIn?_skeleton (wanted : NodeId) (shapes : List Shape)
    (hshapes : ∀ shape ∈ shapes,
      shape.skeleton.find? wanted = (shape.find? wanted).map skeleton) :
    findIn? wanted (shapes.map skeleton) = (findIn? wanted shapes).map skeleton := by
  induction shapes with
  | nil => rfl
  | cons shape shapes ih =>
    obtain ⟨hshape, hrest⟩ := List.forall_mem_cons.mp hshapes
    rw [List.map_cons, findIn?, findIn?, hshape, ih hrest]
    cases shape.find? wanted <;> rfl

/-- A search in a skeleton finds the skeleton of what is found. -/
theorem find?_skeleton (wanted : NodeId) (shape : Shape) :
    shape.skeleton.find? wanted = (shape.find? wanted).map skeleton := by
  induction shape with
  | primitive body transform color id =>
    by_cases hid : id = wanted <;> simp [skeleton, ofKind, find?, Shape.id, hid]
  | custom content transform id =>
    by_cases hid : id = wanted <;> simp [skeleton, ofKind, find?, Shape.id, hid]
  | combinator kind children smoothness transform id ih =>
    by_cases hid : id = wanted
    · simp only [skeleton, find?, hid, ite_true, Option.map_some]
    · simp only [skeleton, find?, hid, ite_false, skeletonIn_eq_map, findIn?_skeleton wanted _ ih]

private theorem updateIn?_skeleton {wanted : NodeId} {change inner : Shape → Shape}
    (shapes : List Shape)
    (hshapes : ∀ shape ∈ shapes,
      shape.skeleton.update? wanted inner = (shape.update? wanted change).map skeleton) :
    updateIn? wanted inner (shapes.map skeleton) =
      (updateIn? wanted change shapes).map (List.map skeleton) := by
  induction shapes with
  | nil => rfl
  | cons shape shapes ih =>
    obtain ⟨hshape, hrest⟩ := List.forall_mem_cons.mp hshapes
    rw [List.map_cons, updateIn?, updateIn?, hshape, ih hrest]
    cases shape.update? wanted change with
    | some changed => rfl
    | none =>
      cases updateIn? wanted change shapes <;> rfl

/-- A change that can be carried out on the skeleton of a node can be on that of the tree. -/
theorem update?_skeleton {wanted : NodeId} {change inner : Shape → Shape}
    (hchange : ∀ shape, (change shape).skeleton = inner shape.skeleton) (shape : Shape) :
    shape.skeleton.update? wanted inner = (shape.update? wanted change).map skeleton := by
  induction shape with
  | primitive body transform color id =>
    by_cases hid : id = wanted <;>
      simp [skeleton, ofKind, update?, Shape.id, hid, hchange]
  | custom content transform id =>
    by_cases hid : id = wanted <;>
      simp [skeleton, ofKind, update?, Shape.id, hid, hchange]
  | combinator kind children smoothness transform id ih =>
    by_cases hid : id = wanted
    · simp only [skeleton, update?, hid, ite_true, Option.map_some, hchange]
    · simp only [skeleton, update?, hid, ite_false, skeletonIn_eq_map,
        updateIn?_skeleton children ih, Option.map_map]
      cases updateIn? wanted change children with
      | none => rfl
      | some changed => simp [skeleton, skeletonIn_eq_map]

/-- Trees that differ in one place have one skeleton if the nodes at the place have. -/
theorem Swapped.skeleton_eq {wanted : NodeId} {old new before after : Shape}
    (h : Swapped wanted old new before after) (hsame : new.skeleton = old.skeleton) :
    after.skeleton = before.skeleton := by
  induction h with
  | root _ => exact hsame
  | inside _ _ _ ih =>
    simp only [skeleton, skeletonIn_eq_map, List.map_append, List.map_cons, ih]

/-- Setting a field keeps the skeleton. -/
theorem skeleton_setField {field text : String} {shape changed : Shape}
    (h : shape.setField field text = .ok changed) : changed.skeleton = shape.skeleton := by
  obtain ⟨hkind, hid, hchildren⟩ := setField_keeps h
  rw [skeleton_eq, skeleton_eq shape, hkind, hid, hchildren]

end SdfScene.Shape
