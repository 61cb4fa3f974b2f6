import SdfScene.Proofs.Codec.Members
import SdfScene.Proofs.Codec.OrderFree
import SdfScene.Proofs.Codec.Restored

/-!
# Shape documents with their members in another order

The kind of a shape decides which of its other members are known, but it may stand anywhere
among them. A shape is decoded to the same tree from its document with the members of any
objects in another order, at any depth.
-/

namespace SdfScene

open Json

/-- A shape with its children, if it can have any, changed. -/
def Shape.mapChildren (g : List Shape → List Shape) : Shape → Shape
  | .combinator kind children smoothness transform id =>
    .combinator kind (g children) smoothness transform id
  | shape => shape

theorem Shape.mapChildren_same (shape : Shape) :
    (shape.mapChildren fun children => children) = shape := by
  cases shape <;> rfl

@[simp] theorem Shape.kind_mapChildren (g : List Shape → List Shape) (shape : Shape) :
    (shape.mapChildren g).kind = shape.kind := by
  cases shape <;> rfl

@[simp] theorem Shape.id_mapChildren (g : List Shape → List Shape) (shape : Shape) :
    (shape.mapChildren g).id = shape.id := by
  cases shape <;> rfl

namespace Codec

variable {α : Type} {R : String → Doc → Doc → Prop}

/-! The kind among the members. -/

/-- The members beside the kind. -/
def besideKind (members : List (Option String × Doc)) : List (Option String × Doc) :=
  members.filter fun member => member.1 ≠ some "kind"

theorem mem_besideKind {members : List (Option String × Doc)} {member : Option String × Doc} :
    member ∈ besideKind members ↔ member ∈ members ∧ member.1 ≠ some "kind" := by
  simp [besideKind]

theorem valuesAt_besideKind_self (members : List (Option String × Doc)) :
    valuesAt (besideKind members) "kind" = [] := by
  refine List.eq_nil_iff_forall_not_mem.mpr fun doc hdoc => ?_
  exact (mem_besideKind.mp (mem_valuesAt.mp hdoc)).2 rfl

theorem valuesAt_besideKind_of_ne {name : String} (h : name ≠ "kind")
    (members : List (Option String × Doc)) :
    valuesAt (besideKind members) name = valuesAt members name :=
  valuesAt_filter (fun _ => by simpa using h) members

/-- The kind is taken out of the members if one of them has its name, unless it was found before,
and the others can be read whole. -/
theorem takeKind_eq_ok {reading : Reading} {ending : Ending} {kind : Kind}
    (members : List (Option String × Doc)) {found : Option Kind}
    {others : List (Option String × Doc)} :
    takeKind reading members ending found = .ok (kind, others) ↔
      ending = .closed ∧ (∀ member ∈ members, member.1.isSome) ∧
        ((found = some kind ∧ valuesAt members "kind" = []) ∨
          (found = none ∧ ∃ doc, valuesAt members "kind" = [doc] ∧
            decodeKind reading doc = .ok kind)) ∧
        (∀ member ∈ members, member.1 ≠ some "kind" → readWhole reading member.2 = .ok ()) ∧
        others = besideKind members := by
  induction members generalizing found others with
  | nil =>
    constructor
    · intro h
      obtain ⟨_, hending, h⟩ := Outcome.bind_eq_ok.mp h
      cases found with
      | none => cases h
      | some found =>
        cases h
        exact ⟨whenRead?_eq_none.mp (check_eq_ok.mp hending), by simp, Or.inl ⟨rfl, rfl⟩, by simp,
          rfl⟩
    · rintro ⟨rfl, -, ⟨rfl, -⟩ | ⟨-, _, hnone, -⟩, -, rfl⟩
      · rfl
      · cases hnone
  | cons member members ih =>
    obtain ⟨key, value⟩ := member
    cases key with
    | none => exact iff_of_false (fun h => nomatch h) fun h => by simpa using h.2.1
    | some key =>
      rw [takeKind]
      by_cases hkey : key = "kind"
      · subst hkey
        rw [if_pos rfl, valuesAt_cons_self]
        cases found with
        | some before =>
          refine iff_of_false (fun h => nomatch h) ?_
          rintro ⟨-, -, ⟨-, hnone⟩ | ⟨hnone, -⟩, -⟩
          · cases hnone
          · cases hnone
        | none =>
          rw [Option.isSome_none, if_neg Bool.false_ne_true, Outcome.bind_eq_ok]
          constructor
          · rintro ⟨taken, htaken, h⟩
            obtain ⟨hclosed, hnamed, hkind, hwhole, rfl⟩ := ih.mp h
            rcases hkind with ⟨hsame, hnone⟩ | ⟨hnone, -⟩
            · cases hsame
              refine ⟨hclosed, by simpa using hnamed, Or.inr ⟨rfl, value, by rw [hnone], htaken⟩,
                by simpa using hwhole, by simp [besideKind]⟩
            · cases hnone
          · rintro ⟨hclosed, hnamed, hkind, hwhole, rfl⟩
            rcases hkind with ⟨hnone, -⟩ | ⟨-, doc, honly, hdecode⟩
            · cases hnone
            · obtain ⟨rfl, hnone⟩ := List.cons.inj honly
              refine ⟨kind, hdecode, ih.mpr ⟨hclosed, by simpa using hnamed, Or.inl ⟨rfl, hnone⟩,
                by simpa using hwhole, by simp [besideKind]⟩⟩
      · rw [if_neg hkey, valuesAt_cons_of_ne hkey, Outcome.bind_eq_ok]
        have hbeside : besideKind ((some key, value) :: members) =
            (some key, value) :: besideKind members := by
          simp [besideKind, hkey]
        constructor
        · rintro ⟨_, hread, h⟩
          obtain ⟨⟨_, rest⟩, hrest, h⟩ := Outcome.map_eq_ok.mp h
          cases h
          obtain ⟨hclosed, hnamed, hkind, hwhole, rfl⟩ := ih.mp hrest
          exact ⟨hclosed, List.forall_mem_cons.mpr ⟨rfl, hnamed⟩, hkind,
            List.forall_mem_cons.mpr ⟨fun _ => hread, hwhole⟩, hbeside.symm⟩
        · rintro ⟨hclosed, hnamed, hkind, hwhole, rfl⟩
          obtain ⟨hread, hwhole⟩ := List.forall_mem_cons.mp hwhole
          refine ⟨(), hread (by simpa using hkey), Outcome.map_eq_ok.mpr
            ⟨(kind, besideKind members), ih.mpr ⟨hclosed, (List.forall_mem_cons.mp hnamed).2, hkind,
              hwhole, rfl⟩, by rw [hbeside]⟩⟩

/-- Objects that are alike are so beside their kinds. -/
theorem MembersAlike.besideKind {members others : List (Option String × Doc)}
    (h : MembersAlike R members others) : MembersAlike R (besideKind members) (besideKind others) := by
  refine ⟨fun other hother => ?_, fun name doc honly => ?_⟩
  · obtain ⟨hother, hname⟩ := mem_besideKind.mp hother
    obtain ⟨member, hmember, hkey, hintact⟩ := h.each other hother
    exact ⟨member, mem_besideKind.mpr ⟨hmember, hkey ▸ hname⟩, hkey, hintact⟩
  · by_cases hname : name = "kind"
    · subst hname
      rw [valuesAt_besideKind_self] at honly
      cases honly
    · rw [valuesAt_besideKind_of_ne hname] at honly ⊢
      exact h.only name doc honly

/-- Items that are alike can both be read whole or not. -/
theorem ItemsAlike.readRest {names : List String} {items others : List Doc}
    (h : ItemsAlike R names items others) {reading : Reading} {ending : Ending}
    (hread : readRest reading items ending = .ok ()) : readRest reading others ending = .ok () := by
  induction h with
  | nil => exact hread
  | cons hintact _ _ ih =>
    obtain ⟨_, hfirst, hread⟩ := Outcome.bind_eq_ok.mp hread
    exact Outcome.bind_eq_ok.mpr ⟨(), readWhole_of_intact hintact hfirst, ih hread⟩
  | beyond hintact _ ih =>
    obtain ⟨_, hfirst, hread⟩ := Outcome.bind_eq_ok.mp hread
    exact Outcome.bind_eq_ok.mpr ⟨(), readWhole_of_intact hintact hfirst, ih hread⟩

/-- A document that is alike has the same kind, and its other fields are alike. -/
theorem splitKind_follows (hkind : decodeKind.Follows (R "kind") id) {names : List String}
    {reading : Reading} {doc other fields : Doc} {kind : Kind}
    (hdoc : RecordAlike R ("kind" :: names) doc other)
    (h : splitKind reading doc = .ok (kind, fields)) :
    ∃ changed, splitKind reading other = .ok (kind, changed) ∧
      RecordAlike R names fields changed := by
  cases hdoc with
  | object ending halike =>
    obtain ⟨inner, hinner, h⟩ := Outcome.bind_eq_ok.mp h
    obtain ⟨⟨_, beside⟩, htake, h⟩ := Outcome.bind_eq_ok.mp h
    cases h
    obtain ⟨rfl, hnamed, hfound, hwhole, rfl⟩ := (takeKind_eq_ok _).mp htake
    rcases hfound with ⟨hnone, -⟩ | ⟨-, kindDoc, honly, hdecode⟩
    · cases hnone
    obtain ⟨changed, hchanged, hR⟩ := halike.only _ _ honly
    refine ⟨_, Outcome.bind_eq_ok.mpr ⟨inner, hinner, Outcome.bind_eq_ok.mpr
      ⟨_, (takeKind_eq_ok _).mpr ⟨rfl, fun other hother => ?_,
        Or.inr ⟨rfl, changed, hchanged, hkind _ _ _ _ hR hdecode⟩, fun other hother hname => ?_,
        rfl⟩, rfl⟩⟩, .object .closed halike.besideKind⟩
    · obtain ⟨member, hmember, hkey, -⟩ := halike.each other hother
      exact hkey ▸ hnamed member hmember
    · obtain ⟨member, hmember, hkey, hintact⟩ := halike.each other hother
      exact readWhole_of_intact hintact (hwhole member hmember (hkey ▸ hname))
  | array ending halike =>
    cases halike with
    | nil =>
      obtain ⟨_, -, h⟩ := Outcome.bind_eq_ok.mp h
      cases h
    | cons hintact hhead htail =>
      obtain ⟨inner, hinner, h⟩ := Outcome.bind_eq_ok.mp h
      obtain ⟨_, hdecode, h⟩ := Outcome.bind_eq_ok.mp h
      obtain ⟨_, hrest, h⟩ := Outcome.bind_eq_ok.mp h
      cases h
      refine ⟨_, Outcome.bind_eq_ok.mpr ⟨inner, hinner, Outcome.bind_eq_ok.mpr
        ⟨kind, hkind _ _ _ _ hhead hdecode, Outcome.bind_eq_ok.mpr
          ⟨(), htail.readRest hrest, rfl⟩⟩⟩, .array .closed htail⟩

/-! Child maps. -/

theorem decodeEach_orderFree {decode : Decoder α} (h : decode.OrderFree) :
    (decodeEach decode).OrderFree := by
  intro reading doc other values hdoc hvalues
  cases hdoc with
  | here => cases hvalues
  | member => cases hvalues
  | item front back ending hpart =>
    obtain ⟨before, value, behind, rfl, hfront, hitem, hback⟩ :=
      Outcome.mapM_middle_eq_ok.mp hvalues
    exact Outcome.mapM_middle_eq_ok.mpr
      ⟨before, value, behind, rfl, hfront, h _ _ _ _ hpart hitem, hback⟩

/-- A change of the shape in an entry. -/
def EntryPart.mapShape (g : Shape → Shape) : EntryPart → EntryPart
  | key id => key id
  | shape found => shape (g found)

/-- An entry of a child map follows the change of its shape. -/
theorem decodeEntry_follows {decodeShape : Decoder Shape} {g : Shape → Shape}
    (hkey : decodeId.Follows (R "id") id) (hshape : decodeShape.Follows (R "shape") g) :
    (decodeEntry decodeShape).Follows (RecordAlike R ["id", "shape"])
      fun entry => (entry.1, g entry.2) := by
  have hfields : ∀ field ∈ entryFields decodeShape, field.Follows R (EntryPart.mapShape g) := by
    rw [entryFields, List.forall_mem_cons, List.forall_mem_singleton]
    exact ⟨.required (hkey.map fun _ => rfl), .required (hshape.map fun _ => rfl)⟩
  intro reading doc other entry hdoc hentry
  cases hdoc with
  | object => cases hentry
  | array ending halike =>
    obtain ⟨parts, hparts, hentry⟩ := Outcome.bind_eq_ok.mp hentry
    refine Outcome.bind_eq_ok.mpr
      ⟨_, decodeItems_follows (entryFields decodeShape) hfields halike hparts, ?_⟩
    split at hentry
    · cases hentry
      rfl
    · cases hentry

theorem decodeId_orderFree : decodeId.OrderFree := decodeText_orderFree.map NodeId.mk

theorem decodeChildren_orderFree {decodeShape : Decoder Shape} (h : decodeShape.OrderFree) :
    (decodeChildren decodeShape).OrderFree := by
  have hentry : (decodeEntry decodeShape).OrderFree :=
    fun reading doc other entry hdoc hentry =>
      decodeEntry_follows (g := id) decodeId_orderFree.near h.near reading doc other entry
        (recordAlike_of_permuted hdoc _) hentry
  exact (decodeEnvelope_orderFree (decodeEach_orderFree hentry) .map).bind _

/-! Shapes. -/

/-- A change of the children among the values of a shape. -/
def FieldValue.mapChildren (g : List Shape → List Shape) : FieldValue → FieldValue
  | children found => children (g found)
  | value => value

theorem valuesOf_mapChildren (g : List Shape → List Shape) (shape : Shape) :
    valuesOf (shape.mapChildren g) = (valuesOf shape).map (FieldValue.mapChildren g) := by
  cases shape with
  | primitive body transform color id =>
    rw [Shape.mapChildren, valuesOf, List.map_append, List.map_map (l := body.persisted.map _)]
    · rfl
    · intro _ _ _ _ _ h
      cases h
  | combinator => rfl
  | custom => rfl

/-- The fields of a shape follow the change of its children if the other parts are near. -/
theorem fieldsOf_follows {children : Decoder (List Shape)} {g : List Shape → List Shape}
    (hchildren : children.Follows (R "shapes") g)
    (hnear : ∀ name, name ≠ "shapes" → ∀ doc other, R name doc other → Near doc other)
    (kind : Kind) :
    ∀ field ∈ fieldsOf children kind, field.Follows R (FieldValue.mapChildren g) := by
  have hothers : ∀ {β : Type} {decode : Decoder β} (name : String) (convert : β → FieldValue),
      decode.OrderFree → name ≠ "shapes" →
      (∀ value, (convert value).mapChildren g = convert value) →
      (RecordField.required name fun reading doc => (decode reading doc).map convert).Follows R
        (FieldValue.mapChildren g) := by
    intro β decode name convert hdecode hname hconvert
    refine .required (Decoder.Follows.map (g := id) ?_ hconvert)
    exact fun reading doc other value hdoc =>
      hdecode.near reading doc other value (hnear name hname doc other hdoc)
  have htransform := hothers "transform" .transform decodeTransform_orderFree (by decide)
    fun _ => rfl
  have hid := hothers "id" .id decodeId_orderFree (by decide) fun _ => rfl
  have hdone : ∀ field ∈ ([] : List (RecordField FieldValue)),
      field.Follows R (FieldValue.mapChildren g) := fun _ h => absurd h List.not_mem_nil
  cases kind with
  | primitive kind =>
    rw [fieldsOf, List.forall_mem_append]
    refine ⟨fun field hfield => ?_, ?_⟩
    · obtain ⟨⟨name, type⟩, hmem, rfl⟩ := List.mem_map.mp hfield
      refine hothers _ _ (decodeParam_orderFree type) ?_ fun _ => rfl
      rintro rfl
      revert hmem
      cases kind <;> cases type <;> decide
    · simp only [List.forall_mem_cons]
      exact ⟨htransform, hothers _ _ (decodeVector_orderFree .shapeVector) (by decide) fun _ => rfl,
        hid, hdone⟩
  | combinator kind =>
    simp only [fieldsOf, List.forall_mem_cons]
    exact ⟨.required (hchildren.map fun _ => rfl),
      hothers _ _ (decodeParam_orderFree .scalar) (by decide) fun _ => rfl, htransform, hid, hdone⟩
  | custom =>
    simp only [fieldsOf, List.forall_mem_cons]
    exact ⟨hothers _ _ decodeText_orderFree (by decide) fun _ => rfl, htransform, hid, hdone⟩

/-- The names of the parts of a shape document, its kind first. -/
def partNames (kind : Kind) : List String :=
  "kind" :: (fieldsOf (fun _ _ => .ok []) kind).map RecordField.name

theorem names_fieldsOf (children : Decoder (List Shape)) (kind : Kind) :
    (fieldsOf children kind).map RecordField.name =
      (fieldsOf (fun _ _ => .ok []) kind).map RecordField.name := by
  cases kind <;> rfl

/-- A shape follows the change of its children if the other parts of its document are near. -/
theorem decodeShapeAt_follows {bound : Nat} {g : List Shape → List Shape}
    (hchildren : (decodeChildren (decodeShapeAt bound)).Follows (R "shapes") g)
    (hnear : ∀ name, name ≠ "shapes" → ∀ doc other, R name doc other → Near doc other)
    {reading : Reading} {doc other : Doc} {shape : Shape}
    (hdoc : ∀ kind fields, splitKind reading doc = .ok (kind, fields) →
      RecordAlike R (partNames kind) doc other)
    (h : decodeShapeAt (bound + 1) reading doc = .ok shape) :
    decodeShapeAt (bound + 1) reading other = .ok (shape.mapChildren g) := by
  have hkind : decodeKind.Follows (R "kind") id := fun reading doc other kind hR =>
    decodeKind_orderFree.near reading doc other kind (hnear "kind" (by decide) doc other hR)
  obtain ⟨⟨kind, fields⟩, hsplit, h⟩ := Outcome.bind_eq_ok.mp h
  obtain ⟨values, hvalues, h⟩ := Outcome.bind_eq_ok.mp h
  obtain ⟨changed, hchanged, halike⟩ := splitKind_follows hkind (hdoc kind fields hsplit) hsplit
  rw [← names_fieldsOf (decodeChildren (decodeShapeAt bound))] at halike
  have hnames := (List.nodup_cons.mp (nodup_names (decodeChildren (decodeShapeAt bound)) kind)).2
  have hrecord := decodeRecord_follows hnames (fieldsOf_follows hchildren hnear kind) .whole
    fields changed values halike hvalues
  refine Outcome.bind_eq_ok.mpr ⟨_, hchanged, Outcome.bind_eq_ok.mpr ⟨_, hrecord, ?_⟩⟩
  split at h
  · next found hfound =>
    cases h
    obtain ⟨rfl, rfl⟩ := shapeOf?_eq_some.mp hfound
    have hshape := shapeOf?_eq_some.mpr
      ⟨(Shape.kind_mapChildren g shape).symm, (valuesOf_mapChildren g shape).symm⟩
    rw [hshape]
  · cases h

/-- However deep shapes are nested, they do not heed the order of members. -/
theorem decodeShapeAt_orderFree (bound : Nat) : (decodeShapeAt bound).OrderFree := by
  induction bound with
  | zero => exact fun _ _ _ _ _ h => nomatch h
  | succ bound ih =>
    intro reading doc other shape hdoc hshape
    have hsame := decodeShapeAt_follows (R := fun _ => Near) (decodeChildren_orderFree ih).near
      (fun _ _ _ _ h => h) (fun _ _ _ => recordAlike_of_permuted hdoc _) hshape
    exact hsame.trans (congrArg Except.ok shape.mapChildren_same)

end Codec

end SdfScene
