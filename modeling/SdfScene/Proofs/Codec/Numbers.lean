import SdfScene.Proofs.Codec.Nesting
import SdfScene.Proofs.Json.Numbers

/-!
# Encoded numbers read back exactly

The text of a finite number is decoded as the same number, bit for bit, and so are the
wrapped numbers and vectors that consist of finite numbers.
-/

namespace SdfScene

open Json Codec

namespace Codec

/-- The document of a finite number is decoded as that number, however it is read. -/
theorem decodeAmount_ofSingle {x : Single} (hx : x.isFinite) (reading : Reading) :
    decodeAmount reading (Doc.ofSingle x) = .ok (.number x) := by
  obtain ⟨quantity, hquantity, hsingle⟩ :=
    Option.map_eq_some_iff.mp (toSingle_quantity?_ofSingle hx)
  have hread : readWhole reading (.number (.ofSingle x)) = .ok () := by
    cases reading with
    | whole => rfl
    | direct levels => simp [readWhole, Doc.readFault?, hquantity, check]
  rw [Doc.ofSingle, if_pos hx, decodeAmount, hread]
  simp only [bind, Except.bind, hquantity, hsingle]

/-- A record that is read one level below its wrapper is decoded row by row. -/
private theorem decodeRecord_direct {α : Type} (rows : List (RecordField α × Doc))
    (hnames : (rows.map fun row => row.1.name).Nodup) (levels : ℕ) :
    decodeRecord (rows.map Prod.fst) (.direct (levels + 1))
        (.ofMembers (rows.map fun row => (row.1.name, row.2))) =
      rows.mapM fun row => row.1.decode (.direct levels) row.2 :=
  decodeRecord_rows rows hnames (.direct (levels + 1))

/-- A wrapper that is decoded while it is read is decoded as its payload. -/
theorem decodeEnvelope_wrap_direct {α : Type} (tag : Tag) (payload : Decoder α) (doc : Doc)
    (levels : ℕ) :
    decodeEnvelope tag payload (.direct (levels + 1)) (wrap tag doc) =
      payload (.direct levels) doc := by
  let rows : List (RecordField (EnvelopePart α) × Doc) :=
    [(.required "dataType" fun reading doc => (decodeTag reading doc).map .tag,
        .ofString tag.name),
      (.required "value" fun reading doc => (payload reading doc).map .payload, doc)]
  have hrows : decodeRecord (envelopeFields payload) (.direct (levels + 1)) (wrap tag doc) = _ :=
    decodeRecord_direct rows (by simp [rows, RecordField.required]) levels
  simp only [rows, List.mapM_cons, List.mapM_nil, RecordField.required,
    decodeTag_ofString] at hrows
  rw [decodeEnvelope, hrows]
  cases payload (.direct levels) doc with
  | error fault => rfl
  | ok value => exact if_pos rfl

/-- A payload of finite numbers is decoded as these numbers while it is read. -/
theorem decodeAmounts_direct (members : List (String × Single))
    (hnames : (members.map Prod.fst).Nodup) (hfinite : ∀ member ∈ members, member.2.isFinite)
    (levels : ℕ) :
    decodeAmounts (members.map Prod.fst) (.direct (levels + 1))
        (.ofMembers (members.map fun member => (member.1, .ofSingle member.2))) =
      .ok (members.map fun member => .number member.2) := by
  have hvalues : (members.mapM fun member => decodeAmount (.direct levels) (.ofSingle member.2)) =
      .ok (members.map fun member => .number member.2) := by
    rw [Outcome.mapM_eq_ok, List.forall₂_map_right_iff, List.forall₂_same]
    exact fun member hmember => decodeAmount_ofSingle (hfinite member hmember) _
  have hrows := decodeRecord_direct
    (members.map fun member => (RecordField.required member.1 decodeAmount, Doc.ofSingle member.2))
    (by simpa [Function.comp_def, RecordField.required] using hnames) levels
  rw [← hvalues]
  simpa [decodeAmounts, Function.comp_def, RecordField.required] using hrows

theorem resolve_number {x : Single} (hx : x.isFinite) : (Amount.number x).resolve = .ok x := by
  simp [Amount.resolve, hx, bind, Except.bind]

/-- The document of a finite number is decoded as that number while it is read. -/
theorem decodeScalar_direct {x : Single} (hx : x.isFinite) (levels : ℕ) :
    decodeScalar (.direct (levels + 2)) (scalarDoc x) = .ok x := by
  have hamounts := decodeAmounts_direct [("s", x)] (List.nodup_singleton _)
    (List.forall_mem_singleton.mpr hx) levels
  simp only [List.map_cons, List.map_nil] at hamounts
  rw [decodeScalar, scalarDoc, decodeEnvelope_wrap_direct, hamounts]
  exact resolve_number hx

/-- The document of a vector of finite numbers is decoded as that vector while it is read. -/
theorem decodeVector_direct (tag : Tag) {v : Vec3} (hv : ∀ x ∈ v.numbers, x.isFinite)
    (levels : ℕ) : decodeVector tag (.direct (levels + 2)) (vectorDoc tag v) = .ok v := by
  simp only [Vec3.numbers, List.forall_mem_cons] at hv
  obtain ⟨hx, hy, hz, -⟩ := hv
  have hamounts := decodeAmounts_direct [("x", v.x), ("y", v.y), ("z", v.z)] (by simp)
    (by simp [hx, hy, hz]) levels
  simp only [List.map_cons, List.map_nil] at hamounts
  rw [decodeVector, vectorDoc, decodeEnvelope_wrap_direct, hamounts]
  simp only [bind, Except.bind, resolve_number hx, resolve_number hy, resolve_number hz]
  rfl

end Codec

/-- The numeral of a finite number reads back. -/
theorem Single.readsBack_of_isFinite {x : Single} (hx : x.isFinite) : x.ReadsBack :=
  readsBack_iff.mpr ⟨hx, toSingle_quantity?_ofSingle hx⟩

/-- Finite numbers come back bit for bit from their encoded text: a number from its numeral and
from its wrapper, and a vector from its wrapper under any tag. -/
theorem Codec.decodeAll_encoded_finite {x : Single} {v : Vec3} (hx : x.isFinite)
    (hv : ∀ y ∈ v.numbers, y.isFinite) (tag : Tag) :
    decodeAll decodeAmount (Doc.ofSingle x).encoded = .ok (.number x) ∧
      decodeAll decodeScalar (scalarDoc x).encoded = .ok x ∧
      decodeAll (decodeVector tag) (vectorDoc tag v).encoded = .ok v := by
  have hscalar : (scalarDoc x).Written :=
    written_wrap (.object (by simp [Doc.written_ofSingle]))
  have hvector : (vectorDoc tag v).Written :=
    written_wrap (.object (by simp [Doc.written_ofSingle]))
  refine ⟨Single.readsBack_of_isFinite hx, ?_, ?_⟩
  · rw [hscalar.decodeAll_encoded]
    exact decodeScalar_direct hx 125
  · rw [hvector.decodeAll_encoded]
    exact decodeVector_direct tag hv 125

/-- The negative zero, the least positive number, the largest finite one, and the one whose
digits come nearest to a midpoint. -/
theorem Codec.decodeAll_encoded_finite_of_extremes :
    let x := Single.ofBits 0x80000000
    let v : Vec3 := ⟨.ofBits 1, .ofBits 0x7F7FFFFF, .ofBits 0x15AE43FD⟩
    x.isFinite ∧ (∀ y ∈ v.numbers, y.isFinite) ∧
      decodeAll decodeAmount (Doc.ofSingle x).encoded = .ok (.number x) ∧
      decodeAll decodeScalar (scalarDoc x).encoded = .ok x ∧
      decodeAll (decodeVector .vector) (vectorDoc .vector v).encoded = .ok v := by
  intro x v
  have hx : x.isFinite := by decide
  have hv : ∀ y ∈ v.numbers, y.isFinite := by decide
  exact ⟨hx, hv, decodeAll_encoded_finite hx hv .vector⟩

end SdfScene
