import SdfScene.Proofs.Codec.Restored
import SdfScene.Proofs.Codec.Wrapped
import SdfScene.Proofs.Shape.Height

/-!
# Shapes are decoded as themselves

A shape that was read whole is decoded as itself exactly if the decoder goes as deep as
the tree is high and every number in it reads back. The bound of the decoder falls by one
from a combinator to its children, as the height does.
-/

namespace SdfScene

open Json Codec

namespace Codec

theorem decodeEntry_ofItems {decodeShape : Decoder Shape} {shape decoded : Shape} {key : NodeId} :
    decodeEntry decodeShape .whole (.ofItems [.ofString shape.id.text, shapeDoc shape]) =
        .ok (key, decoded) ↔
      key = shape.id ∧ decodeShape .whole (shapeDoc shape) = .ok decoded := by
  simp only [decodeEntry, Doc.ofItems, entryFields, RecordField.required, decodeItems, decodeId,
    decodeText, Doc.ofString, Except.map, check, Ending.whenComplete?]
  cases decodeShape .whole (shapeDoc shape) with
  | error fault => simp [bind, Except.bind]
  | ok found => simp [bind, Except.bind, pure, Except.pure, eq_comm]

/-- Shapes with distinct ids can be put in order. -/
theorem childrenOf_self (shapes front : List Shape)
    (hdistinct : ((front ++ shapes).map Shape.id).Nodup) :
    childrenOf (shapes.map fun shape => (shape.id, shape)) front = .ok (front ++ shapes) := by
  induction shapes generalizing front with
  | nil =>
    rw [List.append_nil]
    rfl
  | cons shape shapes ih =>
    have hfresh : Shape.hasChild shape.id front = false := by
      rw [List.map_append, List.nodup_append'] at hdistinct
      simp only [Shape.hasChild, List.any_eq_false, decide_eq_true_eq]
      intro child hchild hid
      exact hdistinct.2.2 (List.mem_map_of_mem hchild) (by simp [hid])
    rw [List.map_cons, childrenOf, if_neg (not_not.mpr rfl), hfresh, if_neg Bool.false_ne_true,
      ih (front ++ [shape]) (by simpa using hdistinct), List.append_assoc, List.singleton_append]

theorem entryDocs_eq_map (shapes : List Shape) :
    entryDocs shapes =
      shapes.map fun shape => .ofItems [.ofString shape.id.text, shapeDoc shape] := by
  induction shapes with
  | nil => rfl
  | cons shape shapes ih => rw [entryDocs, ih, List.map_cons]

/-- Children with distinct ids are decoded as themselves exactly if each of them is. -/
theorem decodeChildren_entryDocs {decodeShape : Decoder Shape} {shapes : List Shape}
    (hdistinct : (shapes.map Shape.id).Nodup) :
    decodeChildren decodeShape .whole (wrap .map (.ofItems (entryDocs shapes))) = .ok shapes ↔
      ∀ shape ∈ shapes, decodeShape .whole (shapeDoc shape) = .ok shape := by
  rw [decodeChildren, Outcome.bind_eq_ok]
  simp only [decodeEnvelope_wrap, decodeEach, Doc.ofItems, Outcome.mapM_eq_ok, entryDocs_eq_map,
    List.forall₂_map_left_iff]
  constructor
  · rintro ⟨entries, hentries, h⟩
    have hshapes : shapes = entries.map Prod.snd := childrenOf_ok h
    have hdecoded : List.Forall₂
        (fun shape found => decodeShape .whole (shapeDoc shape) = .ok found) shapes
        (entries.map Prod.snd) :=
      List.forall₂_map_right_iff.mpr (hentries.imp fun shape entry hentry =>
        (decodeEntry_ofItems.mp hentry).2)
    rwa [← hshapes, List.forall₂_same] at hdecoded
  · intro h
    refine ⟨shapes.map fun shape => (shape.id, shape), ?_, childrenOf_self shapes [] hdistinct⟩
    rw [List.forall₂_map_right_iff, List.forall₂_same]
    exact fun shape hshape => decodeEntry_ofItems.mpr ⟨rfl, h shape hshape⟩

/-- A row of a shape document whose field is decoded as the value. -/
private def Rereads (row : RecordField FieldValue × Doc) (value : FieldValue) : Prop :=
  row.1.decode .whole row.2 = .ok value

private theorem rereads_param (name : String) (value : Param) :
    Rereads (paramField name value.type, paramDoc value) (.param value) ↔
      ∀ x ∈ value.numbers, x.ReadsBack := by
  simp only [Rereads, paramField, RecordField.required, Outcome.map_eq_ok, FieldValue.param.injEq,
    exists_eq_right, decodeParam_paramDoc]

private theorem rereads_transform {transform : Transform} :
    Rereads (transformField, transformDoc transform) (.transform transform) ↔
      ∀ x ∈ transform.numbers, x.ReadsBack := by
  simp only [Rereads, transformField, RecordField.required, Outcome.map_eq_ok,
    FieldValue.transform.injEq, exists_eq_right, decodeTransform_transformDoc]

private theorem rereads_color {color : Vec3} :
    Rereads (colorField, vectorDoc .shapeVector color) (.color color) ↔
      ∀ x ∈ color.numbers, x.ReadsBack := by
  simp only [Rereads, colorField, RecordField.required, Outcome.map_eq_ok, FieldValue.color.injEq,
    exists_eq_right, decodeVector_vectorDoc]

private theorem rereads_children {children : Decoder (List Shape)} {shapes : List Shape}
    {doc : Doc} :
    Rereads (childrenField children, doc) (.children shapes) ↔
      children .whole doc = .ok shapes := by
  simp only [Rereads, childrenField, RecordField.required, Outcome.map_eq_ok,
    FieldValue.children.injEq, exists_eq_right]

private theorem rereads_id (id : NodeId) : Rereads (idField, .ofString id.text) (.id id) := rfl

private theorem rereads_content (content : String) :
    Rereads (contentField, .ofString content) (.content content) := rfl

/-- The rows of a body's fields come before other rows. -/
private theorem rereads_fields {fields : List (String × Param)}
    {rows : List (RecordField FieldValue × Doc)} {values : List FieldValue} :
    List.Forall₂ Rereads
        (fields.map (fun (name, value) => (paramField name value.type, paramDoc value)) ++ rows)
        ((fields.map Prod.snd).map .param ++ values) ↔
      (∀ x ∈ (fields.map Prod.snd).flatMap Param.numbers, x.ReadsBack) ∧
        List.Forall₂ Rereads rows values := by
  induction fields with
  | nil => simp
  | cons field fields ih =>
    simp only [List.map_cons, List.cons_append, List.forall₂_cons, List.flatMap_cons,
      List.forall_mem_append, ih, rereads_param, and_assoc]

/-- The fields of a shape are decoded as its values exactly if its own numbers read back and
its children are decoded as themselves. -/
theorem rows_reread {children : Decoder (List Shape)} {shape : Shape} :
    List.Forall₂ (fun row value => row.1.decode .whole row.2 = .ok value) (rowsOf children shape)
        (valuesOf shape) ↔
      (∀ x ∈ shape.ownNumbers, x.ReadsBack) ∧ ∀ shapes, shape.children? = some shapes →
        children .whole (wrap .map (.ofItems (entryDocs shapes))) = .ok shapes := by
  change List.Forall₂ Rereads _ _ ↔ _
  cases shape with
  | primitive body transform color id =>
    rw [rowsOf, valuesOf, rereads_fields, Primitive.persisted_eq_named, ← Primitive.params]
    simp [rereads_transform, rereads_color, rereads_id, Shape.ownNumbers, Shape.children?,
      or_imp, forall_and]
  | combinator kind shapes smoothness transform id =>
    have hsmoothness := (rereads_param "smoothness" (.scalar smoothness)).trans
      List.forall_mem_singleton
    simp only [Param.type] at hsmoothness
    simp [rowsOf, valuesOf, rereads_children, hsmoothness, rereads_transform, rereads_id,
      Shape.ownNumbers, Shape.children?, and_comm]
  | custom content transform id =>
    simp [rowsOf, valuesOf, rereads_content, rereads_transform, rereads_id, Shape.ownNumbers,
      Shape.children?]

theorem decodeKind_ofString (kind : Kind) (reading : Reading) :
    decodeKind reading (.ofString kind.name) = .ok kind := by
  cases kind with
  | primitive kind => cases kind <;> cases reading <;> rfl
  | combinator kind => cases kind <;> cases reading <;> rfl
  | custom => cases reading <;> rfl

private theorem check_or (first second : Option Category) :
    check (first.or second) = check first >>= fun _ => check second := by
  cases first <;> rfl

/-- The members after the kind are read whole. -/
private theorem takeKind_members (reading : Reading) (kind : Kind) (members : List (String × Doc))
    (hmembers : ∀ member ∈ members, member.1 ≠ "kind") :
    takeKind reading (members.map fun member => (some member.1, member.2)) .closed (some kind) =
      (match reading with
        | .whole => .ok ()
        | .direct levels =>
          check (Doc.readFaultMembers? levels
            (members.map fun member => (some member.1, member.2)))) >>= fun _ =>
        .ok (kind, members.map fun member => (some member.1, member.2)) := by
  induction members with
  | nil => cases reading <;> rfl
  | cons member members ih =>
    obtain ⟨hname, hmembers⟩ := List.forall_mem_cons.mp hmembers
    rw [List.map_cons, takeKind, if_neg hname, ih hmembers]
    cases reading with
    | whole => rfl
    | direct levels =>
      simp only [Doc.readFaultMembers?, check_or, readWhole]
      cases check (Doc.readFault? levels member.2) with
      | error fault => rfl
      | ok done =>
        cases check (Doc.readFaultMembers? levels
          (members.map fun member => (some member.1, member.2))) <;> rfl

/-- The document of a shape is read whole and split into the kind and the other fields. -/
theorem splitKind_shapeDoc (children : Decoder (List Shape)) (reading : Reading) (shape : Shape) :
    splitKind reading (shapeDoc shape) = readWhole reading (shapeDoc shape) >>= fun _ =>
      .ok (shape.kind,
        .ofMembers ((rowsOf children shape).map fun row => (row.1.name, row.2))) := by
  generalize hmembers : ((rowsOf children shape).map fun row => (row.1.name, row.2)) = members
  have hnames : ∀ member ∈ members, member.1 ≠ "kind" := by
    have hnodup := nodup_names children shape.kind
    rw [← fields_rowsOf, List.nodup_cons, List.map_map] at hnodup
    rw [← hmembers, List.forall_mem_map]
    exact fun row hrow hname => hnodup.1 (List.mem_map.mpr ⟨row, hrow, hname⟩)
  rw [shapeDoc_eq children, hmembers, Doc.ofMembers, List.map_cons]
  cases reading with
  | whole =>
    rw [splitKind]
    simp only [Reading.enter, bind, Except.bind, takeKind, ite_true, decodeKind_ofString,
      Option.isSome_none, Bool.false_eq_true, ite_false,
      takeKind_members .whole shape.kind members hnames]
    rfl
  | direct levels =>
    cases levels with
    | zero => rfl
    | succ levels =>
      rw [splitKind]
      simp only [Reading.enter, bind, Except.bind, takeKind, ite_true, decodeKind_ofString,
        Option.isSome_none, Bool.false_eq_true, ite_false,
        takeKind_members (.direct levels) shape.kind members hnames]
      simp only [readWhole, Doc.readFault?, Doc.readFaultMembers?, Doc.ofString,
        Option.isSome_some, ite_true, Option.none_or, Ending.whenRead?, Option.or_none]
      cases check (Doc.readFaultMembers? levels
        (members.map fun member => (some member.1, member.2))) <;> rfl

/-- A shape is read whole before it is decoded. -/
theorem decodeShapeAt_shapeDoc_eq (bound : Nat) (reading : Reading) (shape : Shape) :
    decodeShapeAt (bound + 1) reading (shapeDoc shape) =
      readWhole reading (shapeDoc shape) >>= fun _ =>
        decodeShapeAt (bound + 1) .whole (shapeDoc shape) := by
  simp only [decodeShapeAt,
    splitKind_shapeDoc (decodeChildren (decodeShapeAt bound)) reading shape,
    splitKind_shapeDoc (decodeChildren (decodeShapeAt bound)) .whole shape, bind_assoc]
  rfl

/-- One level of decoding: the node's own numbers and its children. -/
private theorem decodeShapeAt_succ {bound : Nat} {shape : Shape} (hdistinct : shape.ids.Nodup) :
    decodeShapeAt (bound + 1) .whole (shapeDoc shape) = .ok shape ↔
      (∀ x ∈ shape.ownNumbers, x.ReadsBack) ∧
        ∀ child ∈ shape.children?.getD [],
          decodeShapeAt bound .whole (shapeDoc child) = .ok child := by
  let children := decodeChildren (decodeShapeAt bound)
  have hnames : ((rowsOf children shape).map fun row => row.1.name).Nodup := by
    have hnodup := (List.nodup_cons.mp (nodup_names children shape.kind)).2
    rwa [← fields_rowsOf, List.map_map] at hnodup
  have hrecord := decodeRecord_whole_eq_ok (rowsOf children shape) hnames (valuesOf shape)
  rw [fields_rowsOf, rows_reread] at hrecord
  have hsplit : splitKind .whole (shapeDoc shape) = .ok (shape.kind, _) :=
    splitKind_shapeDoc children .whole shape
  have hbelow : (∀ shapes, shape.children? = some shapes →
        children .whole (wrap .map (.ofItems (entryDocs shapes))) = .ok shapes) ↔
      ∀ child ∈ shape.children?.getD [],
        decodeShapeAt bound .whole (shapeDoc child) = .ok child := by
    rw [Shape.ids_eq_cons, List.nodup_cons] at hdistinct
    cases hshapes : shape.children? with
    | none => simp
    | some shapes =>
      rw [hshapes] at hdistinct
      simpa using decodeChildren_entryDocs (Shape.nodup_map_id hdistinct.2)
  rw [← hbelow, ← hrecord, decodeShapeAt, hsplit]
  simp only [Outcome.bind_eq_ok, Except.ok.injEq, exists_eq_left']
  constructor
  · rintro ⟨values, hvalues, h⟩
    split at h
    · next found hshape =>
      cases h
      rw [hvalues, (shapeOf?_eq_some.mp hshape).2]
    · cases h
  · intro h
    refine ⟨valuesOf shape, h, ?_⟩
    rw [shapeOf?_eq_some.mpr ⟨rfl, rfl⟩]

/-- A shape that was read whole is decoded as itself exactly if the bound is not exceeded and
its numbers read back. -/
theorem decodeShapeAt_shapeDoc {shape : Shape} (hdistinct : shape.ids.Nodup) {bound : Nat} :
    decodeShapeAt bound .whole (shapeDoc shape) = .ok shape ↔
      shape.height ≤ bound ∧ ∀ x ∈ shape.numbers, x.ReadsBack := by
  induction shape using Shape.childInduction generalizing bound with
  | step shape ih =>
    cases bound with
    | zero =>
      have hpos := shape.height_pos
      simp [decodeShapeAt, Nat.ne_of_gt hpos]
    | succ bound =>
      rw [decodeShapeAt_succ hdistinct, Shape.height_le_succ, Shape.forall_mem_numbers,
        and_left_comm, ← forall₂_and]
      rw [Shape.ids_eq_cons, List.nodup_cons] at hdistinct
      refine and_congr_right fun _ => forall₂_congr fun child hchild => ih child hchild ?_
      exact (List.nodup_flatMap.mp hdistinct.2).1 child hchild

end Codec

end SdfScene
