import SdfScene.Codec.Wrapper
import SdfScene.Proofs.Codec.Record
import SdfScene.Proofs.Codec.Rows
import SdfScene.Proofs.Json.Depth
import SdfScene.Proofs.Shape.Nodes

/-!
# Wrapped values are decoded as themselves

Whether a number is decoded as itself is a matter of its encoded text. A vector, a
parameter or a transform is decoded as itself exactly if all its numbers are.
-/

namespace SdfScene

open Json Codec

/-- The encoded text of a number reads back as the same number. -/
def Single.ReadsBack (x : Single) : Prop :=
  decodeAll decodeAmount (Doc.ofSingle x).encoded = .ok (.number x)

namespace Json.Doc

theorem written_ofSingle (x : Single) : (Doc.ofSingle x).Written := by
  rw [Doc.ofSingle]
  split
  · exact .number (Numeral.normal_ofSingle x)
  · exact .null

/-- A written text is that of its document, with nothing after it. -/
theorem Written.ofText_encoded {doc : Doc} (h : doc.Written) :
    Doc.ofText doc.encoded.toList = (doc, some []) := by
  rw [Doc.encoded, String.toList_ofList, h.ofText_render]

/-- A written text is decoded as its document is. -/
theorem Written.decodeAll_encoded {α : Type} {decode : Decoder α} {doc : Doc} (h : doc.Written) :
    decodeAll decode doc.encoded = decode (.direct depthLimit) doc := by
  simp only [decodeAll, h.ofText_encoded]
  cases decode (.direct depthLimit) doc <;> rfl

end Json.Doc

namespace Single

/-- A number reads back exactly if it is finite and its numeral stands for it. -/
theorem readsBack_iff {x : Single} :
    x.ReadsBack ↔ x.isFinite ∧ (Numeral.ofSingle x).quantity?.map Quantity.toSingle = some x := by
  rw [ReadsBack, (Doc.written_ofSingle x).decodeAll_encoded, Doc.ofSingle]
  cases hfinite : x.isFinite with
  | false => simp [decodeAmount, readWhole, Doc.readFault?, check, bind, Except.bind]
  | true =>
    cases hquantity : (Numeral.ofSingle x).quantity? with
    | none => simp [decodeAmount, readWhole, Doc.readFault?, check, hquantity, bind, Except.bind]
    | some quantity =>
      simp [decodeAmount, readWhole, Doc.readFault?, check, hquantity, bind, Except.bind]

/-- What comes back when a number is encoded and decoded. -/
def reread (x : Single) : Except Fault Single :=
  decodeAmount .whole (Doc.ofSingle x) >>= Amount.resolve

theorem reread_eq_ok {x : Single} : x.reread = .ok x ↔ x.ReadsBack := by
  rw [readsBack_iff, reread, Doc.ofSingle]
  cases hfinite : x.isFinite with
  | false => simp [decodeAmount, readWhole, bind, Except.bind]
  | true =>
    cases hquantity : (Numeral.ofSingle x).quantity? with
    | none => simp [decodeAmount, readWhole, hquantity, bind, Except.bind]
    | some quantity =>
      simp only [decodeAmount, readWhole, hquantity, bind, Except.bind, Amount.resolve, ite_true,
        Option.map_some, Option.some.injEq, true_and]
      constructor
      · intro h
        split at h
        · exact Except.ok.inj h
        · cases h
      · intro h
        rw [h, hfinite]
        rfl

end Single

namespace Codec

theorem decodeTag_ofString (tag : Tag) (reading : Reading) :
    decodeTag reading (.ofString tag.name) = .ok tag := by
  cases tag <;> cases reading <;> rfl

/-- A wrapper is decoded as its payload. -/
theorem decodeEnvelope_wrap {α : Type} (tag : Tag) (payload : Decoder α) (doc : Doc) :
    decodeEnvelope tag payload .whole (wrap tag doc) = payload .whole doc := by
  let rows : List (RecordField (EnvelopePart α) × Doc) :=
    [(.required "dataType" fun reading doc => (decodeTag reading doc).map .tag,
        .ofString tag.name),
      (.required "value" fun reading doc => (payload reading doc).map .payload, doc)]
  have hrows : decodeRecord (envelopeFields payload) .whole (wrap tag doc) = _ :=
    decodeRecord_whole rows (by simp [rows, RecordField.required])
  simp only [rows, List.mapM_cons, List.mapM_nil, RecordField.required,
    decodeTag_ofString] at hrows
  rw [decodeEnvelope, hrows]
  cases payload .whole doc with
  | error fault => rfl
  | ok value => exact if_pos rfl

/-- A payload of numbers is decoded number by number. -/
theorem decodeAmounts_ofMembers (members : List (String × Single))
    (hnames : (members.map Prod.fst).Nodup) :
    decodeAmounts (members.map Prod.fst) .whole
        (.ofMembers (members.map fun member => (member.1, .ofSingle member.2))) =
      members.mapM fun member => decodeAmount .whole (.ofSingle member.2) := by
  have hrows := decodeRecord_whole
    (members.map fun member => (RecordField.required member.1 decodeAmount, Doc.ofSingle member.2))
    (by simpa [Function.comp_def, RecordField.required] using hnames)
  simpa [decodeAmounts, Function.comp_def, RecordField.required] using hrows

theorem decodeScalar_scalarDoc (x : Single) : decodeScalar .whole (scalarDoc x) = x.reread := by
  rw [decodeScalar, scalarDoc, decodeEnvelope_wrap]
  have hrows := decodeAmounts_ofMembers [("s", x)] (List.nodup_singleton _)
  simp only [List.map_cons, List.map_nil, List.mapM_cons, List.mapM_nil] at hrows
  rw [hrows, Single.reread]
  cases decodeAmount .whole (Doc.ofSingle x) <;> rfl

/-- A vector is decoded as itself exactly if its components are. -/
theorem decodeVector_vectorDoc {tag : Tag} {v : Vec3} :
    decodeVector tag .whole (vectorDoc tag v) = .ok v ↔ ∀ x ∈ v.numbers, x.ReadsBack := by
  rw [decodeVector, vectorDoc, decodeEnvelope_wrap]
  have hrows := decodeAmounts_ofMembers [("x", v.x), ("y", v.y), ("z", v.z)] (by simp)
  simp only [List.map_cons, List.map_nil, List.mapM_cons, List.mapM_nil] at hrows
  rw [hrows]
  simp only [Vec3.numbers, List.forall_mem_cons, List.not_mem_nil, false_imp_iff, implies_true,
    and_true, ← Single.reread_eq_ok, Single.reread, Outcome.bind_eq_ok, pure, Except.pure,
    Except.ok.injEq, exists_eq_left']
  constructor
  · rintro ⟨_, ⟨a, ha, _, ⟨b, hb, _, ⟨c, hc, rfl⟩, rfl⟩, rfl⟩, h⟩
    obtain ⟨x, hx, h⟩ := Outcome.bind_eq_ok.mp h
    obtain ⟨y, hy, h⟩ := Outcome.bind_eq_ok.mp h
    obtain ⟨z, hz, h⟩ := Outcome.bind_eq_ok.mp h
    cases h
    exact ⟨⟨a, ha, hx⟩, ⟨b, hb, hy⟩, c, hc, hz⟩
  · rintro ⟨⟨a, ha, hx⟩, ⟨b, hb, hy⟩, c, hc, hz⟩
    refine ⟨[a, b, c], ⟨a, ha, _, ⟨b, hb, _, ⟨c, hc, rfl⟩, rfl⟩, rfl⟩, ?_⟩
    simp only [hx, hy, hz]
    rfl

/-- A parameter is decoded as itself exactly if its numbers are. -/
theorem decodeParam_paramDoc (value : Param) :
    decodeParam value.type .whole (paramDoc value) = .ok value ↔
      ∀ x ∈ value.numbers, x.ReadsBack := by
  cases value with
  | scalar x =>
    simp only [decodeParam, Param.type, paramDoc, Param.numbers, List.forall_mem_singleton,
      decodeScalar_scalarDoc, Outcome.map_eq_ok, ← Single.reread_eq_ok, Param.scalar.injEq,
      exists_eq_right]
  | vector v =>
    simp only [decodeParam, Param.type, paramDoc, Param.numbers, Outcome.map_eq_ok,
      Param.vector.injEq, exists_eq_right, decodeVector_vectorDoc]

/-- A transform is decoded as itself exactly if its numbers are. -/
theorem decodeTransform_transformDoc {t : Transform} :
    decodeTransform .whole (transformDoc t) = .ok t ↔ ∀ x ∈ t.numbers, x.ReadsBack := by
  let rows : List (RecordField Param × Doc) :=
    [(.required "position" (decodeParam .vector), paramDoc (.vector t.position)),
      (.required "rotation" (decodeParam .vector), paramDoc (.vector t.rotation)),
      (.required "scale" (decodeParam .scalar), paramDoc (.scalar t.scale))]
  let parts : List Param := [.vector t.position, .vector t.rotation, .scalar t.scale]
  have hrecord : decodeTransform .whole (transformDoc t) = .ok t ↔
      decodeRecord (rows.map Prod.fst) .whole (transformDoc t) = .ok parts := by
    rw [decodeTransform, Outcome.bind_eq_ok]
    constructor
    · rintro ⟨values, hvalues, h⟩
      split at h
      · cases h
        exact hvalues
      · cases h
    · exact fun h => ⟨parts, h, rfl⟩
  have hrows : decodeRecord (rows.map Prod.fst) .whole (transformDoc t) = .ok parts ↔ _ :=
    decodeRecord_whole_eq_ok rows (by simp [rows, RecordField.required]) parts
  rw [hrecord, hrows]
  simp only [rows, parts, List.forall₂_cons, List.Forall₂.nil, and_true, RecordField.required,
    Transform.numbers, List.forall_mem_append, List.forall_mem_singleton]
  rw [and_assoc]
  refine and_congr (decodeParam_paramDoc (.vector t.position))
    (and_congr (decodeParam_paramDoc (.vector t.rotation)) ?_)
  exact (decodeParam_paramDoc (.scalar t.scale)).trans List.forall_mem_singleton

end Codec

end SdfScene
