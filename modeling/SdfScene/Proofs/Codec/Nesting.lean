import SdfScene.Proofs.Codec.Reread

/-!
# How deep shape documents are nested

A number is two levels below its wrapper, a wrapper three below its transform's document,
and every generation of children takes four levels: the object of the shape, the wrapper
of its children, their array, and the array of an entry.
-/

namespace SdfScene

open Json Codec

/-- The numeral of a number, if it has one, stands for a quantity. -/
def Single.Legible (x : Single) : Prop := (Doc.ofSingle x).Fits 0

theorem Single.ReadsBack.legible {x : Single} (h : x.ReadsBack) : x.Legible := by
  obtain ⟨hfinite, hquantity⟩ := Single.readsBack_iff.mp h
  rw [Single.Legible, Doc.ofSingle, if_pos hfinite]
  refine ⟨Nat.le_refl 0, List.forall_mem_singleton.mpr ?_⟩
  rw [← Option.isSome_map, hquantity]
  rfl

namespace Codec

theorem fits_ofSingle {levels : Nat} {x : Single} :
    (Doc.ofSingle x).Fits levels ↔ x.Legible := by
  rw [Single.Legible, Doc.ofSingle]
  split <;> simp [Doc.Fits, Doc.depth]

theorem fits_scalarDoc {levels : Nat} {x : Single} :
    (scalarDoc x).Fits levels ↔ 2 ≤ levels ∧ x.Legible := by
  match levels with
  | 0 => simp [scalarDoc, wrap]
  | 1 => simp [scalarDoc, wrap]
  | levels + 2 => simp [scalarDoc, wrap, fits_ofSingle]

theorem fits_vectorDoc {levels : Nat} {tag : Tag} {v : Vec3} :
    (vectorDoc tag v).Fits levels ↔ 2 ≤ levels ∧ ∀ x ∈ v.numbers, x.Legible := by
  match levels with
  | 0 => simp [vectorDoc, wrap]
  | 1 => simp [vectorDoc, wrap]
  | levels + 2 => simp [vectorDoc, wrap, fits_ofSingle, Vec3.numbers]

theorem fits_paramDoc {levels : Nat} {value : Param} :
    (paramDoc value).Fits levels ↔ 2 ≤ levels ∧ ∀ x ∈ value.numbers, x.Legible := by
  cases value with
  | scalar x => simp [paramDoc, fits_scalarDoc, Param.numbers]
  | vector v => exact fits_vectorDoc

theorem fits_transformDoc {levels : Nat} {t : Transform} :
    (transformDoc t).Fits levels ↔ 3 ≤ levels ∧ ∀ x ∈ t.numbers, x.Legible := by
  cases levels with
  | zero => simp [transformDoc]
  | succ levels =>
    simp only [transformDoc, Doc.fits_ofMembers_succ, List.forall_mem_cons, fits_vectorDoc,
      fits_scalarDoc, Transform.numbers, List.forall_mem_append,
      List.not_mem_nil, false_imp_iff, implies_true, and_true, Nat.succ_le_succ_iff]
    tauto

private theorem fits_fields {levels : Nat} {fields : List (String × Param)} :
    (∀ row ∈ fields.map (fun (name, value) => (paramField name value.type, paramDoc value)),
        row.2.Fits (levels + 2)) ↔
      ∀ x ∈ (fields.map Prod.snd).flatMap Param.numbers, x.Legible := by
  have hfits : ∀ value : Param, (paramDoc value).Fits (levels + 2) ↔
      ∀ x ∈ value.numbers, x.Legible :=
    fun value => fits_paramDoc.trans (and_iff_right (Nat.le_add_left 2 levels))
  rw [List.forall_mem_map, List.forall_mem_flatMap, List.forall_mem_map]
  simp only [hfits]

/-- Three levels below a shape there is room for its own numbers and for its children. -/
private theorem fits_rowsOf {levels : Nat} {children : Decoder (List Shape)} {shape : Shape} :
    (∀ row ∈ rowsOf children shape, row.2.Fits (levels + 3)) ↔
      (∀ x ∈ shape.ownNumbers, x.Legible) ∧
        ∀ child ∈ shape.children?.getD [], (shapeDoc child).Fits levels := by
  cases shape with
  | primitive body transform color id =>
    rw [rowsOf, List.forall_mem_append, fits_fields, Primitive.persisted_eq_named,
      ← Primitive.params, Shape.ownNumbers, List.forall_mem_append, List.forall_mem_append,
      and_assoc, and_assoc]
    simp [fits_transformDoc, fits_vectorDoc, Shape.children?]
  | combinator kind shapes smoothness transform id =>
    simp [rowsOf, fits_paramDoc, fits_transformDoc, wrap, entryDocs_eq_map, Shape.ownNumbers,
      Shape.children?, Param.numbers, and_comm]
  | custom content transform id =>
    simp [rowsOf, fits_transformDoc, Shape.ownNumbers, Shape.children?]

/-- Every shape has a transform. -/
private theorem transform_mem_rowsOf (children : Decoder (List Shape)) (shape : Shape) :
    (transformField, transformDoc shape.transform) ∈ rowsOf children shape := by
  cases shape <;> simp [rowsOf, Shape.transform]

/-- Less than four levels are too few for any shape. -/
private theorem four_le_of_fits {levels : Nat} {shape : Shape}
    (h : (shapeDoc shape).Fits levels) : 4 ≤ levels := by
  rw [shapeDoc_eq (decodeChildren decodeShape)] at h
  cases levels with
  | zero => exact absurd h (Doc.not_fits_ofMembers_zero _)
  | succ levels =>
    rw [Doc.fits_ofMembers_succ, List.forall_mem_cons, List.forall_mem_map] at h
    have htransform := h.2 _ (transform_mem_rowsOf _ shape)
    exact Nat.succ_le_succ (fits_transformDoc.mp htransform).1

private theorem fits_shapeDoc_add_four {levels : Nat} {shape : Shape} :
    (shapeDoc shape).Fits (levels + 4) ↔
      (∀ x ∈ shape.ownNumbers, x.Legible) ∧
        ∀ child ∈ shape.children?.getD [], (shapeDoc child).Fits levels := by
  rw [shapeDoc_eq (decodeChildren decodeShape), Doc.fits_ofMembers_succ, List.forall_mem_cons,
    List.forall_mem_map, fits_rowsOf]
  exact and_iff_right (Doc.fits_ofString _ _)

/-- A reader goes through the document of a shape without a fault exactly if it has four
levels for every generation and the numerals are legible. -/
theorem fits_shapeDoc {levels : Nat} {shape : Shape} :
    (shapeDoc shape).Fits levels ↔
      4 * shape.height ≤ levels ∧ ∀ x ∈ shape.numbers, x.Legible := by
  induction shape using Shape.childInduction generalizing levels with
  | step shape ih =>
    by_cases hlevels : 4 ≤ levels
    · obtain ⟨levels, rfl⟩ := Nat.exists_eq_add_of_le' hlevels
      have hheight : 4 * shape.height ≤ levels + 4 ↔
          ∀ child ∈ shape.children?.getD [], 4 * child.height ≤ levels := by
        simp only [Nat.mul_comm 4, ← Nat.le_div_iff_mul_le (show 0 < 4 by decide),
          ← Shape.height_le_succ]
        omega
      have hchildren : (∀ child ∈ shape.children?.getD [], (shapeDoc child).Fits levels) ↔
          (∀ child ∈ shape.children?.getD [], 4 * child.height ≤ levels) ∧
            ∀ child ∈ shape.children?.getD [], ∀ x ∈ child.numbers, x.Legible := by
        rw [← forall₂_and]
        exact forall₂_congr fun child hchild => ih child hchild
      rw [fits_shapeDoc_add_four, hchildren, hheight, Shape.forall_mem_numbers]
      exact and_left_comm
    · have hpos := shape.height_pos
      refine ⟨fun h => absurd (four_le_of_fits h) hlevels, fun h => absurd ?_ hlevels⟩
      omega

/-- A wrapper can be written if its payload can. -/
theorem written_wrap {tag : Tag} {doc : Doc} (h : doc.Written) :
    (wrap tag doc).Written :=
  .object (List.forall_mem_cons.mpr ⟨.string _, List.forall_mem_singleton.mpr h⟩)

theorem written_vectorDoc (tag : Tag) (v : Vec3) : (vectorDoc tag v).Written :=
  written_wrap (.object (by simp [Doc.written_ofSingle]))

theorem written_paramDoc (value : Param) : (paramDoc value).Written := by
  cases value with
  | scalar x => exact written_wrap (.object (by simp [Doc.written_ofSingle]))
  | vector v => exact written_vectorDoc _ v

theorem written_transformDoc (t : Transform) : (transformDoc t).Written :=
  .object (by
    simpa using ⟨written_paramDoc (.vector t.position), written_paramDoc (.vector t.rotation),
      written_paramDoc (.scalar t.scale)⟩)

/-- The entries of a child map can be written if the documents of the children can. -/
theorem written_entryDocs {shapes : List Shape} (h : ∀ shape ∈ shapes, (shapeDoc shape).Written) :
    (Doc.ofItems (entryDocs shapes)).Written := by
  rw [entryDocs_eq_map]
  refine .array (List.forall_mem_map.mpr fun shape hshape => ?_)
  exact .array (List.forall_mem_cons.mpr
    ⟨.string _, List.forall_mem_singleton.mpr (h shape hshape)⟩)

/-- The rows of a shape can be written if the documents of its children can. -/
private theorem written_rowsOf {children : Decoder (List Shape)} {shape : Shape}
    (h : ∀ child ∈ shape.children?.getD [], (shapeDoc child).Written) :
    ∀ row ∈ rowsOf children shape, row.2.Written := by
  cases shape with
  | primitive body transform color id =>
    rw [rowsOf, List.forall_mem_append, List.forall_mem_map]
    refine ⟨fun field _ => written_paramDoc field.2, ?_⟩
    simp only [List.forall_mem_cons]
    exact ⟨written_transformDoc transform, written_paramDoc (.vector color), .string _,
      fun _ h => absurd h List.not_mem_nil⟩
  | combinator kind shapes smoothness transform id =>
    simp only [rowsOf, List.forall_mem_cons]
    exact ⟨written_wrap (written_entryDocs h), written_paramDoc (.scalar smoothness),
      written_transformDoc transform, .string _, fun _ h => absurd h List.not_mem_nil⟩
  | custom content transform id =>
    simp only [rowsOf, List.forall_mem_cons]
    exact ⟨.string _, written_transformDoc transform, .string _,
      fun _ h => absurd h List.not_mem_nil⟩

/-- The document of a shape can be written. -/
theorem written_shapeDoc (shape : Shape) : (shapeDoc shape).Written := by
  induction shape using Shape.childInduction with
  | step shape ih =>
    rw [shapeDoc_eq (decodeChildren decodeShape)]
    refine .object (List.forall_mem_cons.mpr ⟨.string _, ?_⟩)
    rw [List.forall_mem_map]
    exact written_rowsOf ih

end Codec

end SdfScene
