import Mathlib.Logic.Relation
import SdfScene.Codec.Record
import SdfScene.Proofs.Outcome

/-!
# What records give

The values of a record were decoded by its fields from the parts of the document, or stand for
absent ones, in whichever form the record was written. So whatever every field gives for these
parts, all the values of the record have.
-/

namespace SdfScene

/-- The documents that stand in an array or an object. -/
def Json.Doc.parts : Json.Doc → List Json.Doc
  | .array items _ => items
  | .object members _ => members.map Prod.snd
  | _ => []

/-- A document is another one, or it stands in it at some depth. -/
def Json.Doc.Within : Json.Doc → Json.Doc → Prop :=
  Relation.ReflTransGen fun inner outer => inner ∈ outer.parts

namespace Codec

open Json

variable {α : Type} {P : α → Prop} {docs : List Doc}

/-- Every value that a field gives, absent or decoded from some documents, has a property. -/
structure RecordField.Gives (docs : List Doc) (P : α → Prop) (field : RecordField α) : Prop where
  decoded : ∀ reading, ∀ doc ∈ docs, ∀ value, field.decode reading doc = .ok value → P value
  absent : ∀ value, field.absent = some value → P value

/-- For fewer documents a field gives no more. -/
theorem RecordField.Gives.mono {field : RecordField α} {fewer : List Doc}
    (h : field.Gives docs P) (hsub : fewer ⊆ docs) : field.Gives fewer P :=
  ⟨fun reading doc hdoc => h.decoded reading doc (hsub hdoc), h.absent⟩

/-- A required field gives what its decoder gives. -/
theorem RecordField.Gives.required {name : String} {decode : Decoder α}
    (h : ∀ reading, ∀ doc ∈ docs, ∀ value, decode reading doc = .ok value → P value) :
    (RecordField.required name decode).Gives docs P :=
  ⟨h, fun _ hvalue => by cases hvalue⟩

/-- A required field of converted values gives what the values are converted to. -/
theorem RecordField.Gives.converted {β : Type} {name : String} {decode : Decoder β}
    {convert : β → α}
    (h : ∀ reading, ∀ doc ∈ docs, ∀ value, decode reading doc = .ok value → P (convert value)) :
    (RecordField.required name fun reading doc => (decode reading doc).map convert).Gives
      docs P := by
  refine .required fun reading doc hdoc value hvalue => ?_
  obtain ⟨inner, hinner, rfl⟩ := Outcome.map_eq_ok.mp hvalue
  exact h reading doc hdoc inner hinner

variable {fields : List (RecordField α)}

private theorem decodeMembers_forall (hfields : ∀ field ∈ fields, field.Gives docs P)
    {reading : Reading} {ending : Ending} (members : List (Option String × Doc))
    (hmembers : members.map Prod.snd ⊆ docs) {found result : List (String × α)}
    (hfound : ∀ entry ∈ found, P entry.2)
    (h : decodeMembers fields reading members ending found = .ok result) :
    ∀ entry ∈ result, P entry.2 := by
  induction members generalizing found with
  | nil =>
    obtain ⟨_, -, h⟩ := Outcome.bind_eq_ok.mp h
    exact Except.ok.inj h ▸ hfound
  | cons member members ih =>
    obtain ⟨key, doc⟩ := member
    obtain ⟨hdoc, hrest⟩ := List.cons_subset.mp hmembers
    cases key with
    | none => cases h
    | some key =>
      rw [decodeMembers] at h
      split at h
      · obtain ⟨_, -, h⟩ := Outcome.bind_eq_ok.mp h
        exact ih hrest hfound h
      · next field hfield =>
        split at h
        · cases h
        · obtain ⟨value, hvalue, h⟩ := Outcome.bind_eq_ok.mp h
          refine ih hrest ?_ h
          rw [List.forall_mem_append]
          refine ⟨hfound, List.forall_mem_singleton.mpr ?_⟩
          exact (hfields field (List.mem_of_find?_eq_some hfield)).decoded _ _ hdoc _ hvalue

private theorem collect_forall {found : List (String × α)} (hfound : ∀ entry ∈ found, P entry.2)
    (fields : List (RecordField α)) (hfields : ∀ field ∈ fields, field.Gives docs P)
    {values : List α} (h : collect found fields = .ok values) : ∀ value ∈ values, P value := by
  induction fields generalizing values with
  | nil =>
    cases h
    exact fun _ h => absurd h List.not_mem_nil
  | cons field fields ih =>
    obtain ⟨hfield, hrest⟩ := List.forall_mem_cons.mp hfields
    rw [collect] at h
    split at h
    · cases h
    · next value hvalue =>
      obtain ⟨rest, hcollect, rfl⟩ := Outcome.map_eq_ok.mp h
      refine List.forall_mem_cons.mpr ⟨?_, ih hrest hcollect⟩
      rcases Option.or_eq_some_iff.mp hvalue with hlookup | ⟨-, habsent⟩
      · obtain ⟨front, back, rfl, -⟩ := List.lookup_eq_some_iff.mp hlookup
        exact hfound (field.name, value) (List.mem_append_right _ List.mem_cons_self)
      · exact hfield.absent value habsent

/-- All items of an array that is decoded as a record have what its fields give. -/
theorem decodeItems_forall {outer inner : Reading} {ending : Ending}
    (fields : List (RecordField α)) (items : List Doc)
    (hfields : ∀ field ∈ fields, field.Gives items P) {values : List α}
    (h : decodeItems outer inner fields items ending = .ok values) :
    ∀ value ∈ values, P value := by
  induction fields generalizing items values with
  | nil =>
    cases items with
    | nil =>
      obtain ⟨_, -, h⟩ := Outcome.bind_eq_ok.mp h
      cases h
      exact fun _ h => absurd h List.not_mem_nil
    | cons item items => cases h
  | cons field fields ih =>
    obtain ⟨hfield, hrest⟩ := List.forall_mem_cons.mp hfields
    cases items with
    | nil =>
      obtain ⟨_, -, h⟩ := Outcome.bind_eq_ok.mp h
      split at h
      · cases h
      · next value habsent =>
        obtain ⟨rest, hitems, rfl⟩ := Outcome.map_eq_ok.mp h
        exact List.forall_mem_cons.mpr ⟨hfield.absent value habsent, ih _ hrest hitems⟩
    | cons item items =>
      obtain ⟨value, hvalue, h⟩ := Outcome.bind_eq_ok.mp h
      obtain ⟨rest, hitems, rfl⟩ := Outcome.map_eq_ok.mp h
      have hfewer : ∀ field ∈ fields, field.Gives items P := fun field hmem =>
        (hrest field hmem).mono (List.subset_cons_self _ _)
      exact List.forall_mem_cons.mpr
        ⟨hfield.decoded _ _ List.mem_cons_self _ hvalue, ih _ hfewer hitems⟩

/-- All values of a record have what its fields give for the parts of the document. -/
theorem decodeRecord_forall {reading : Reading} {doc : Doc}
    (hfields : ∀ field ∈ fields, field.Gives doc.parts P) {values : List α}
    (h : decodeRecord fields reading doc = .ok values) : ∀ value ∈ values, P value := by
  cases doc with
  | object members ending =>
    obtain ⟨inner, -, h⟩ := Outcome.bind_eq_ok.mp h
    obtain ⟨found, hfound, h⟩ := Outcome.bind_eq_ok.mp h
    refine collect_forall (decodeMembers_forall hfields members (List.Subset.refl _) ?_ hfound)
      fields hfields h
    exact fun _ h => absurd h List.not_mem_nil
  | array items ending =>
    obtain ⟨inner, -, h⟩ := Outcome.bind_eq_ok.mp h
    exact decodeItems_forall fields items hfields h
  | _ => cases h

/-- A whole text is decoded exactly if its document is and nothing but blanks follows. -/
theorem decodeAll_eq_ok {decode : Decoder α} {text : String} {value : α} :
    decodeAll decode text = .ok value ↔
      decode (.direct depthLimit) (Doc.ofText text.toList).1 = .ok value ∧
        hasMore (Doc.ofText text.toList).2 = false := by
  rw [decodeAll]
  generalize Doc.ofText text.toList = read
  rw [Outcome.bind_eq_ok]
  cases hasMore read.2 <;> simp

end Codec

end SdfScene
