import SdfScene.Codec.Shape
import SdfScene.Proofs.Codec.Alike

/-!
# Decoders that do not heed the order of members

A decoder is free of the order of members if whatever it decodes it decodes to the same value
from the same document with the members of one object in another order. A document that is no
array or object has no members, and a record is free of the order if its fields are.
-/

namespace SdfScene.Codec

open Json

variable {α β : Type}

/-- What is decoded is decoded to the same value with members in another order. -/
def Decoder.OrderFree (decode : Decoder α) : Prop := decode.Follows Doc.Permuted id

/-- A document, or the same one with the members of one object in another order. -/
abbrev Near : Doc → Doc → Prop := Relation.ReflGen Doc.Permuted

namespace Decoder.OrderFree

theorem near {decode : Decoder α} (h : OrderFree decode) : decode.Follows Near id := by
  intro reading doc other value hdoc hvalue
  cases hdoc with
  | refl => exact hvalue
  | single hpermuted => exact h reading doc other value hpermuted hvalue

/-- A decoder that takes neither arrays nor objects is free of the order. -/
theorem of_scalar {decode : Decoder α}
    (harray : ∀ reading items ending value, decode reading (.array items ending) ≠ .ok value)
    (hobject : ∀ reading members ending value,
      decode reading (.object members ending) ≠ .ok value) : OrderFree decode := by
  intro reading doc other value hdoc hvalue
  cases hdoc with
  | here => exact absurd hvalue (hobject _ _ _ _)
  | item => exact absurd hvalue (harray _ _ _ _)
  | member => exact absurd hvalue (hobject _ _ _ _)

/-- What is made of a value does not depend on the document any more. -/
theorem bind {decode : Decoder β} (h : OrderFree decode) (next : β → Except Fault α) :
    OrderFree fun reading doc => decode reading doc >>= next := by
  intro reading doc other value hdoc hvalue
  obtain ⟨inner, hinner, hnext⟩ := Outcome.bind_eq_ok.mp hvalue
  exact Outcome.bind_eq_ok.mpr ⟨inner, h reading doc other inner hdoc hinner, hnext⟩

theorem map {decode : Decoder β} (h : OrderFree decode) (convert : β → α) :
    OrderFree fun reading doc => (decode reading doc).map convert :=
  Follows.map h fun _ => rfl

end Decoder.OrderFree

/-- With members in another order a document of a record has parts that are near. -/
theorem recordAlike_of_permuted {doc other : Doc} (h : doc.Permuted other)
    (names : List String) : RecordAlike (fun _ => Near) names doc other := by
  cases h with
  | here ending hperm => exact .object ending (.of_perm hperm fun _ _ => .refl)
  | item front back ending hpart =>
    exact .array ending (.middle hpart.intact (fun _ => .single hpart) (fun _ _ => .refl) names
      front back)
  | member front back key ending hpart =>
    refine .object ending ?_
    cases key with
    | some key =>
      exact .middle hpart.intact key (.single hpart) (fun _ _ _ => .refl) front back
    | none =>
      refine ⟨hpart.intact.exists_member none front back, fun name only honly => ⟨only, ?_, .refl⟩⟩
      rw [← honly]
      simp [valuesAt]

/-- A record is free of the order if its fields are. -/
theorem decodeRecord_orderFree {fields : List (RecordField α)}
    (hnames : (fields.map RecordField.name).Nodup)
    (hfields : ∀ field ∈ fields, field.decode.OrderFree) : (decodeRecord fields).OrderFree := by
  have hfollows : ∀ field ∈ fields, field.Follows (fun _ => Near) id := fun field hfield =>
    ⟨(hfields field hfield).near, fun _ _ => rfl⟩
  intro reading doc other values hdoc hvalues
  have hrecord := decodeRecord_follows hnames hfollows reading doc other values
    (recordAlike_of_permuted hdoc _) hvalues
  rwa [List.map_id] at hrecord

theorem decodeText_orderFree : decodeText.OrderFree :=
  .of_scalar (fun _ _ _ _ h => nomatch h) fun _ _ _ _ h => nomatch h

/-- A name in an object is its only key, with nothing beside it. -/
private theorem exists_of_decodeTag {reading : Reading} {members : List (Option String × Doc)}
    {ending : Ending} {tag : Tag} (h : decodeTag reading (.object members ending) = .ok tag) :
    ∃ key value, members = [(key, value)] ∧ (value = .null ∨ ∃ ending, value = .object [] ending) := by
  rcases members with - | ⟨⟨key, value⟩, - | ⟨second, members⟩⟩
  · rcases reading with - | - | levels <;> cases h
  · refine ⟨key, value, rfl, ?_⟩
    rcases reading with - | - | levels
    · obtain ⟨_, -, h⟩ := Outcome.bind_eq_ok.mp h
      split at h
      · next hunit =>
        rw [isUnit.eq_def] at hunit
        split at hunit
        · exact Or.inl rfl
        · exact Or.inr ⟨_, rfl⟩
        · cases hunit
      · cases h
    · cases h
    · obtain ⟨_, -, h⟩ := Outcome.bind_eq_ok.mp h
      cases value with
      | null => exact Or.inl rfl
      | _ => cases h
  · rcases reading with - | - | levels
    · cases h
    · cases h
    · obtain ⟨_, -, h⟩ := Outcome.bind_eq_ok.mp h
      cases value <;> cases h

/-- So its object has one order only. -/
theorem decodeTag_orderFree : decodeTag.OrderFree := by
  intro reading doc other value hdoc hvalue
  cases hdoc with
  | item => cases reading <;> cases hvalue
  | here ending hperm =>
    obtain ⟨key, beside, rfl, -⟩ := exists_of_decodeTag hvalue
    rw [List.singleton_perm] at hperm
    exact hperm ▸ hvalue
  | member front back key ending hpart =>
    obtain ⟨name, beside, hmembers, hbeside⟩ := exists_of_decodeTag hvalue
    obtain ⟨rfl, hsame⟩ | ⟨-, hnil⟩ := List.append_eq_singleton_iff.mp hmembers
    · obtain ⟨hfirst, rfl⟩ := List.cons.inj hsame
      cases hfirst
      -- Neither null nor an empty object has members to be put in order.
      rcases hbeside with rfl | ⟨inner, rfl⟩
      · cases hpart
      · generalize hempty : Doc.object [] inner = beside at hpart
        cases hpart with
        | here _ hperm =>
          cases hempty
          rw [List.nil_perm] at hperm
          exact hperm ▸ hvalue
        | item => cases hempty
        | member front => cases front <;> cases hempty
    · cases hnil

theorem decodeAmount_orderFree : decodeAmount.OrderFree := by
  refine .of_scalar (fun reading items ending value h => ?_) fun reading members ending value h => ?_
  · obtain ⟨_, -, h⟩ := Outcome.bind_eq_ok.mp h
    cases h
  · obtain ⟨_, -, h⟩ := Outcome.bind_eq_ok.mp h
    cases h

theorem decodeAmounts_orderFree {names : List String} (h : names.Nodup) :
    (decodeAmounts names).OrderFree := by
  refine decodeRecord_orderFree ?_ (List.forall_mem_map.mpr fun _ _ => decodeAmount_orderFree)
  simpa [RecordField.required, Function.comp_def] using h

/-- A change of the payload. -/
def EnvelopePart.mapPayload (f : α → α) : EnvelopePart α → EnvelopePart α
  | tag found => tag found
  | payload value => payload (f value)

/-- A wrapper follows the change of its payload. -/
theorem decodeEnvelope_follows {payload : Decoder α} {R : String → Doc → Doc → Prop} {f : α → α}
    (htag : decodeTag.Follows (R "dataType") id) (hpayload : payload.Follows (R "value") f)
    (expected : Tag) :
    (decodeEnvelope expected payload).Follows (RecordAlike R ["dataType", "value"]) f := by
  have hfields : ∀ field ∈ envelopeFields payload,
      field.Follows R (EnvelopePart.mapPayload f) := by
    rw [envelopeFields, List.forall_mem_cons, List.forall_mem_singleton]
    exact ⟨.required (htag.map fun _ => rfl), .required (hpayload.map fun _ => rfl)⟩
  have hnames : ((envelopeFields payload).map RecordField.name).Nodup := by
    simp [envelopeFields, RecordField.required]
  intro reading doc other value hdoc hvalue
  obtain ⟨parts, hparts, hvalue⟩ := Outcome.bind_eq_ok.mp hvalue
  refine Outcome.bind_eq_ok.mpr ⟨_, decodeRecord_follows hnames hfields _ _ _ _ hdoc hparts, ?_⟩
  split at hvalue
  · next found inner =>
    split at hvalue
    · next hfound =>
      cases hvalue
      exact if_pos hfound
    · cases hvalue
  · cases hvalue

theorem decodeEnvelope_orderFree {payload : Decoder α} (h : payload.OrderFree) (expected : Tag) :
    (decodeEnvelope expected payload).OrderFree :=
  fun reading doc other value hdoc hvalue =>
    decodeEnvelope_follows decodeTag_orderFree.near h.near expected reading doc other value
      (recordAlike_of_permuted hdoc _) hvalue

theorem decodeScalar_orderFree : decodeScalar.OrderFree :=
  (decodeEnvelope_orderFree (decodeAmounts_orderFree (by decide)) .scalar).bind _

theorem decodeVector_orderFree (tag : Tag) : (decodeVector tag).OrderFree :=
  (decodeEnvelope_orderFree (decodeAmounts_orderFree (by decide)) tag).bind _

theorem decodeParam_orderFree (type : ParamType) : (decodeParam type).OrderFree := by
  cases type with
  | scalar => exact decodeScalar_orderFree.map _
  | vector => exact (decodeVector_orderFree .shapeVector).map _

theorem decodeTransform_orderFree : decodeTransform.OrderFree := by
  refine Decoder.OrderFree.bind (decodeRecord_orderFree ?_ ?_) _
  · simp [RecordField.required]
  · simp [RecordField.required, decodeParam_orderFree]

theorem decodeKind_orderFree : decodeKind.OrderFree := by
  refine .of_scalar (fun reading _ _ _ h => ?_) fun reading _ _ _ h => ?_
  · cases reading <;> cases h
  · cases reading <;> cases h

end SdfScene.Codec
