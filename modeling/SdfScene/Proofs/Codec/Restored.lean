import SdfScene.Proofs.Codec.Members
import SdfScene.Proofs.Codec.Record
import SdfScene.Proofs.Shape.Sound

/-!
# Restored trees are sound

Every number of a decoded tree was resolved and is finite, wherever in the document it
stands. A tree is restored only if no id is repeated and every number among the ids could
be observed, so a restored tree is sound for the allocator that it leaves.
-/

namespace SdfScene

open Json Codec

namespace Codec

/-- A resolved number is finite. -/
theorem Amount.isFinite_of_resolve {amount : Amount} {x : Single}
    (h : amount.resolve = .ok x) : x.isFinite := by
  have hchecked : ∀ {y : Single},
      (if y.isFinite then .ok y else .error .notFinite : Except Fault Single) = .ok x →
        x.isFinite := by
    intro y h
    split at h
    · next hfinite => exact Except.ok.inj h ▸ hfinite
    · cases h
  cases amount with
  | number y => exact hchecked h
  | text written =>
    rw [resolve] at h
    split at h
    · exact hchecked h
    · cases h

/-- What a wrapper gives was decoded as its payload, which stands in it. -/
theorem exists_payload_of_decodeEnvelope {α : Type} {expected : Tag} {payload : Decoder α}
    {reading : Reading} {doc : Doc} {value : α}
    (h : decodeEnvelope expected payload reading doc = .ok value) :
    ∃ inner, ∃ part ∈ doc.parts, payload inner part = .ok value := by
  obtain ⟨parts, hparts, h⟩ := Outcome.bind_eq_ok.mp h
  have hgives := decodeRecord_forall (P := fun part => ∀ value, part = .payload value →
      ∃ inner, ∃ part ∈ doc.parts, payload inner part = .ok value) ?_ hparts
  · split at h
    · next found value =>
      split at h
      · exact hgives (.payload value) (by simp) _ (Except.ok.inj h ▸ rfl)
      · cases h
    · cases h
  · rw [envelopeFields, List.forall_mem_cons, List.forall_mem_singleton]
    refine ⟨.converted fun reading part _ tag _ value hvalue => ?_,
      .converted fun reading part hpart found hfound value hvalue => ?_⟩
    · cases hvalue
    · cases hvalue
      exact ⟨reading, part, hpart, hfound⟩

theorem isFinite_of_decodeScalar {reading : Reading} {doc : Doc} {x : Single}
    (h : decodeScalar reading doc = .ok x) : x.isFinite := by
  obtain ⟨amounts, -, h⟩ := Outcome.bind_eq_ok.mp h
  split at h
  · exact Amount.isFinite_of_resolve h
  · cases h

theorem isFinite_of_decodeVector {tag : Tag} {reading : Reading} {doc : Doc} {v : Vec3}
    (h : decodeVector tag reading doc = .ok v) : ∀ x ∈ v.numbers, x.isFinite := by
  obtain ⟨amounts, -, h⟩ := Outcome.bind_eq_ok.mp h
  split at h
  · obtain ⟨x, hx, h⟩ := Outcome.bind_eq_ok.mp h
    obtain ⟨y, hy, h⟩ := Outcome.bind_eq_ok.mp h
    obtain ⟨z, hz, h⟩ := Outcome.bind_eq_ok.mp h
    cases h
    simp only [Vec3.numbers, List.forall_mem_cons]
    exact ⟨Amount.isFinite_of_resolve hx, Amount.isFinite_of_resolve hy,
      Amount.isFinite_of_resolve hz, fun _ h => absurd h List.not_mem_nil⟩
  · cases h

theorem isFinite_of_decodeParam {type : ParamType} {reading : Reading} {doc : Doc}
    {value : Param} (h : decodeParam type reading doc = .ok value) :
    ∀ x ∈ value.numbers, x.isFinite := by
  cases type with
  | scalar =>
    obtain ⟨x, hx, rfl⟩ := Outcome.map_eq_ok.mp h
    exact List.forall_mem_singleton.mpr (isFinite_of_decodeScalar hx)
  | vector =>
    obtain ⟨v, hv, rfl⟩ := Outcome.map_eq_ok.mp h
    exact isFinite_of_decodeVector hv

theorem isFinite_of_decodeTransform {reading : Reading} {doc : Doc} {t : Transform}
    (h : decodeTransform reading doc = .ok t) : ∀ x ∈ t.numbers, x.isFinite := by
  obtain ⟨parts, hparts, h⟩ := Outcome.bind_eq_ok.mp h
  have hgives := decodeRecord_forall
    (P := fun part : Param => ∀ x ∈ part.numbers, x.isFinite) ?_ hparts
  · split at h
    · cases h
      obtain ⟨hposition, hrest⟩ := List.forall_mem_cons.mp hgives
      obtain ⟨hrotation, hrest⟩ := List.forall_mem_cons.mp hrest
      obtain ⟨hscale, -⟩ := List.forall_mem_cons.mp hrest
      simp only [Transform.numbers, List.forall_mem_append]
      exact ⟨⟨hposition, hrotation⟩, hscale⟩
    · cases h
  · simp only [List.forall_mem_cons]
    exact ⟨.required fun _ _ _ _ => isFinite_of_decodeParam,
      .required fun _ _ _ _ => isFinite_of_decodeParam,
      .required fun _ _ _ _ => isFinite_of_decodeParam, fun _ h => absurd h List.not_mem_nil⟩

/-- The numbers in the value of a field. -/
def FieldValue.numbers : FieldValue → List Single
  | param value => value.numbers
  | transform value => value.numbers
  | color value => value.numbers
  | id _ => []
  | content _ => []
  | children value => Shape.numbersIn value

/-- A shape has no numbers but those of its fields. -/
theorem numbers_subset_valuesOf (shape : Shape) :
    shape.numbers ⊆ (valuesOf shape).flatMap FieldValue.numbers := by
  intro x hx
  cases shape with
  | primitive body transform color id =>
    rw [valuesOf, Primitive.persisted_eq_named, ← Primitive.params, List.flatMap_append,
      List.flatMap_map]
    simp only [Shape.numbers, Shape.nodes, Shape.ownNumbers, List.flatMap_cons,
      List.flatMap_nil, List.append_nil, List.mem_append, FieldValue.numbers] at hx ⊢
    tauto
  | combinator kind children smoothness transform id =>
    simp only [valuesOf, Shape.numbers_combinator, List.flatMap_cons, List.flatMap_nil,
      List.append_nil, List.mem_append, List.mem_cons, FieldValue.numbers, Param.numbers] at hx ⊢
    tauto
  | custom content transform id =>
    simpa [valuesOf, Shape.numbers, Shape.nodes, Shape.ownNumbers, FieldValue.numbers] using hx

/-- The children are the shapes of the entries in their order. -/
theorem childrenOf_ok {entries : List (NodeId × Shape)} {children result : List Shape}
    (h : childrenOf entries children = .ok result) : result = children ++ entries.map Prod.snd := by
  induction entries generalizing children with
  | nil =>
    cases h
    exact (List.append_nil _).symm
  | cons entry entries ih =>
    obtain ⟨key, shape⟩ := entry
    rw [childrenOf] at h
    split at h
    · cases h
    · split at h
      · cases h
      · rw [ih h, List.append_assoc]
        rfl

/-- The keys are the ids of the shapes. -/
theorem keys_of_childrenOf {entries : List (NodeId × Shape)} {children result : List Shape}
    (h : childrenOf entries children = .ok result) : ∀ entry ∈ entries, entry.1 = entry.2.id := by
  induction entries generalizing children with
  | nil => exact fun _ h => absurd h List.not_mem_nil
  | cons entry entries ih =>
    obtain ⟨key, shape⟩ := entry
    rw [childrenOf] at h
    split at h
    · cases h
    · next hkey =>
      split at h
      · cases h
      · exact List.forall_mem_cons.mpr ⟨not_not.mp hkey, ih h⟩

/-- The shape of an entry was decoded as one. -/
theorem exists_of_decodeEntry {decodeShape : Decoder Shape} {reading : Reading}
    {doc : Doc} {entry : NodeId × Shape} (h : decodeEntry decodeShape reading doc = .ok entry) :
    ∃ inner, ∃ part ∈ doc.parts, decodeShape inner part = .ok entry.2 := by
  cases doc with
  | array items ending =>
    obtain ⟨parts, hparts, h⟩ := Outcome.bind_eq_ok.mp h
    have hgives := decodeItems_forall (P := fun part => ∀ shape, part = .shape shape →
        ∃ inner, ∃ part ∈ items, decodeShape inner part = .ok shape)
      (entryFields decodeShape) items ?_ hparts
    · split at h
      · next key shape =>
        cases h
        exact hgives (.shape shape) (by simp) shape rfl
      · cases h
    · rw [entryFields, List.forall_mem_cons, List.forall_mem_singleton]
      refine ⟨.converted fun reading part _ key _ shape hshape => ?_,
        .converted fun reading part hpart found hfound shape hshape => ?_⟩
      · cases hshape
      · cases hshape
        exact ⟨reading, part, hpart, hfound⟩
  | _ => cases h

/-- The entries of a child map. -/
def decodeEntries (decodeShape : Decoder Shape) : Decoder (List (NodeId × Shape)) :=
  decodeEnvelope .map (decodeEach (decodeEntry decodeShape))

/-- Every shape among the entries of a child map was decoded from a part of its document. -/
theorem exists_of_mem_decodeEntries {decodeShape : Decoder Shape} {reading : Reading} {doc : Doc}
    {entries : List (NodeId × Shape)} (h : decodeEntries decodeShape reading doc = .ok entries) :
    ∀ entry ∈ entries, ∃ inner part, part.Within doc ∧ decodeShape inner part = .ok entry.2 := by
  obtain ⟨inner, payload, hpayload, heach⟩ := exists_payload_of_decodeEnvelope h
  intro entry hentry
  cases payload with
  | array items ending =>
    obtain ⟨item, hitem, hdecode⟩ := Outcome.exists_of_mem_mapM heach entry hentry
    obtain ⟨inner, part, hpart, hshape⟩ := exists_of_decodeEntry hdecode
    exact ⟨inner, part, ((Relation.ReflTransGen.single hpart).tail hitem).tail hpayload, hshape⟩
  | _ => cases heach

/-- The children are those of the entries in their order, each under its own id. -/
theorem entries_of_decodeChildren {decodeShape : Decoder Shape} {reading : Reading} {doc : Doc}
    {children : List Shape} (h : decodeChildren decodeShape reading doc = .ok children) :
    decodeEntries decodeShape reading doc = .ok (children.map fun child => (child.id, child)) := by
  obtain ⟨entries, hentries, h⟩ := Outcome.bind_eq_ok.mp h
  have hkeys := keys_of_childrenOf h
  have hchildren := childrenOf_ok h
  have hsame : children.map (fun child => (child.id, child)) = entries := by
    rw [hchildren, List.nil_append, List.map_map]
    refine (List.map_congr_left fun entry hentry => ?_).trans (List.map_id entries)
    exact Prod.ext (hkeys entry hentry).symm rfl
  rw [hsame]
  exact hentries

/-- Every child of a decoded child map was decoded as a shape. -/
theorem exists_of_mem_decodeChildren {decodeShape : Decoder Shape} {reading : Reading} {doc : Doc}
    {children : List Shape} (h : decodeChildren decodeShape reading doc = .ok children) :
    ∀ child ∈ children, ∃ inner part, part.Within doc ∧ decodeShape inner part = .ok child := by
  intro child hchild
  exact exists_of_mem_decodeEntries (entries_of_decodeChildren h) (child.id, child)
    (List.mem_map_of_mem hchild)

/-- The fields of a shape give what the decoders of their values give, whatever the kind is. -/
theorem fieldsOf_gives {docs : List Doc} {children : Decoder (List Shape)} {P : FieldValue → Prop}
    (hparam : ∀ type reading, ∀ doc ∈ docs, ∀ value, decodeParam type reading doc = .ok value →
      P (.param value))
    (htransform : ∀ reading, ∀ doc ∈ docs, ∀ value, decodeTransform reading doc = .ok value →
      P (.transform value))
    (hcolor : ∀ reading, ∀ doc ∈ docs, ∀ value, decodeVector .shapeVector reading doc = .ok value →
      P (.color value))
    (hid : ∀ id, P (.id id)) (hcontent : ∀ text, P (.content text))
    (hchildren : ∀ reading, ∀ doc ∈ docs, ∀ value, children reading doc = .ok value →
      P (.children value)) (kind : Kind) :
    ∀ field ∈ fieldsOf children kind, field.Gives docs P := by
  have hdone : ∀ field ∈ ([] : List (RecordField FieldValue)), field.Gives docs P :=
    fun _ h => absurd h List.not_mem_nil
  cases kind with
  | primitive kind =>
    rw [fieldsOf, List.forall_mem_append]
    refine ⟨fun field hfield => ?_, ?_⟩
    · obtain ⟨⟨name, type⟩, -, rfl⟩ := List.mem_map.mp hfield
      exact .converted (hparam type)
    · simp only [List.forall_mem_cons]
      exact ⟨.converted htransform, .converted hcolor, .converted fun _ _ _ id _ => hid id, hdone⟩
  | combinator kind =>
    simp only [fieldsOf, List.forall_mem_cons]
    exact ⟨.converted hchildren, .converted (hparam .scalar), .converted htransform,
      .converted fun _ _ _ id _ => hid id, hdone⟩
  | custom =>
    simp only [fieldsOf, List.forall_mem_cons]
    exact ⟨.converted fun _ _ _ text _ => hcontent text, .converted htransform,
      .converted fun _ _ _ id _ => hid id, hdone⟩

private theorem fieldsOf_gives_finite {docs : List Doc} {children : Decoder (List Shape)}
    (hchildren : ∀ reading doc value, children reading doc = .ok value →
      ∀ x ∈ Shape.numbersIn value, x.isFinite) (kind : Kind) :
    ∀ field ∈ fieldsOf children kind,
      field.Gives docs fun value => ∀ x ∈ value.numbers, x.isFinite := by
  have hnone : ∀ x ∈ ([] : List Single), x.isFinite := fun _ h => absurd h List.not_mem_nil
  exact fieldsOf_gives (fun _ _ _ _ _ => isFinite_of_decodeParam)
    (fun _ _ _ _ => isFinite_of_decodeTransform) (fun _ _ _ _ => isFinite_of_decodeVector)
    (fun _ => hnone) (fun _ => hnone) (fun reading doc _ => hchildren reading doc) kind

/-- A decoded shape has finite numbers only, however deep it is nested. -/
theorem isFinite_of_decodeShapeAt (bound : Nat) {reading : Reading} {doc : Doc} {shape : Shape}
    (h : decodeShapeAt bound reading doc = .ok shape) : ∀ x ∈ shape.numbers, x.isFinite := by
  induction bound generalizing reading doc shape with
  | zero => cases h
  | succ bound ih =>
    obtain ⟨⟨kind, fields⟩, -, h⟩ := Outcome.bind_eq_ok.mp h
    obtain ⟨values, hvalues, h⟩ := Outcome.bind_eq_ok.mp h
    have hgives := decodeRecord_forall (fieldsOf_gives_finite ?_ kind) hvalues
    · split at h
      · next found hshape =>
        cases h
        obtain ⟨-, rfl⟩ := shapeOf?_eq_some.mp hshape
        intro x hx
        obtain ⟨value, hvalue, hmem⟩ := List.mem_flatMap.mp (numbers_subset_valuesOf shape hx)
        exact hgives value hvalue x hmem
      · cases h
    · intro reading doc children hchildren x hx
      obtain ⟨child, hchild, hmem⟩ := List.mem_flatMap.mp hx
      obtain ⟨inner, part, -, hpart⟩ := exists_of_mem_decodeChildren hchildren child hchild
      exact ih hpart x hmem

end Codec

/-- A shape that a text is the document of has finite numbers only. -/
theorem Shape.isFinite_of_ofDocument {text : String} {shape : Shape}
    (h : Shape.ofDocument text = .ok shape) : ∀ x ∈ shape.numbers, x.isFinite :=
  isFinite_of_decodeShapeAt depthLimit (decodeAll_eq_ok.mp h).1

/-- No id is repeated exactly if none of the ids was seen and they are distinct. -/
theorem NodeId.firstRepeated?_eq_none {seen ids : List NodeId} :
    firstRepeated? seen ids = none ↔ ids.Nodup ∧ seen.Disjoint ids := by
  induction ids generalizing seen with
  | nil => simp [firstRepeated?]
  | cons id ids ih =>
    rw [firstRepeated?]
    split
    · next hseen => simp [hseen]
    · next hseen =>
      rw [ih, List.nodup_cons, List.disjoint_cons_left, List.disjoint_cons_right]
      tauto

/-- The highest number among ids; zero if there is none. -/
def NodeId.highest (ids : List NodeId) : Nat := (ids.filterMap number?).foldr max 0

/-- A bound on the highest number is a bound on every number among the ids. -/
theorem NodeId.highest_le {ids : List NodeId} {bound : Nat} :
    highest ids ≤ bound ↔ Allocator.Covers ⟨bound⟩ ids := by
  induction ids with
  | nil => exact iff_of_true (Nat.zero_le bound) fun _ h => absurd h List.not_mem_nil
  | cons id ids ih =>
    have hcons : Allocator.Covers ⟨bound⟩ (id :: ids) ↔
        (∀ n, id.number? = some n → n ≤ bound) ∧ Allocator.Covers ⟨bound⟩ ids :=
      List.forall_mem_cons
    rw [hcons, ← ih, highest, highest]
    cases hnumber : id.number? with
    | none => simp [hnumber]
    | some n =>
      rw [List.filterMap_cons_some hnumber, List.foldr_cons, Nat.max_le]
      simp

/-- Observing ids succeeds exactly if no number among them is too large, and then it raises
the floor to the highest of them. -/
theorem Allocator.observeAll_eq_ok {ids after : Allocator} {seen : List NodeId} :
    ids.observeAll seen = .ok after ↔
      Allocator.Covers ⟨NodeId.maxRestored⟩ seen ∧
        after = ⟨max ids.floor (NodeId.highest seen)⟩ := by
  rw [Covers]
  induction seen generalizing ids with
  | nil => simp [observeAll, NodeId.highest, eq_comm]
  | cons id seen ih =>
    rw [List.forall_mem_cons, observeAll, past?]
    cases hnumber : id.number? with
    | none => simp [ih, NodeId.highest, hnumber]
    | some n =>
      by_cases hlarge : n ≤ NodeId.maxRestored
      · simp [ih, NodeId.highest, hnumber, hlarge, Nat.max_assoc]
      · simp [hlarge]

namespace Shape

/-- A text is restored exactly if it is the document of a tree without repeated ids and
without numbers too large to allocate past. -/
theorem restore_eq_ok {text : String} {ids after : Allocator} {shape : Shape} :
    Shape.restore text ids = .ok (shape, after) ↔
      Shape.ofDocument text = .ok shape ∧ shape.ids.Nodup ∧
        Allocator.Covers ⟨NodeId.maxRestored⟩ shape.ids ∧
          after = ⟨max ids.floor (NodeId.highest shape.ids)⟩ := by
  rw [restore]
  constructor
  · intro h
    split at h
    · cases h
    · next found hdocument =>
      split at h
      · cases h
      · next hrepeated =>
        split at h
        · cases h
        · next later hobserved =>
          cases h
          exact ⟨hdocument, (NodeId.firstRepeated?_eq_none.mp hrepeated).1,
            Allocator.observeAll_eq_ok.mp hobserved⟩
  · rintro ⟨hdocument, hdistinct, hobserved⟩
    have hrepeated : NodeId.firstRepeated? [] shape.ids = none :=
      NodeId.firstRepeated?_eq_none.mpr ⟨hdistinct, List.disjoint_nil_left _⟩
    simp only [hdocument, hrepeated, Allocator.observeAll_eq_ok.mpr hobserved]

/-- A restored tree is sound for the allocator that it leaves. -/
theorem sound_of_restore {text : String} {ids after : Allocator} {shape : Shape}
    (h : Shape.restore text ids = .ok (shape, after)) : shape.Sound after := by
  obtain ⟨hdocument, hdistinct, -, rfl⟩ := restore_eq_ok.mp h
  exact ⟨hdistinct, NodeId.highest_le.mp (Nat.le_max_right _ _), isFinite_of_ofDocument hdocument⟩

end Shape

end SdfScene
