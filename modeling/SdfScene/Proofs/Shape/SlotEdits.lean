import SdfScene.Proofs.Shape.Fields
import SdfScene.Session.Basic

/-!
# A field edit puts one slot

The persisted fields have the names of the slots, so what an edit puts in the slot of a node it
puts in the place of that name in the document of the node, and it keeps all else. Edits of
different slots can be made in either order.
-/

namespace SdfScene

open Json Codec

/-! Documents. -/

/-- The document of what a slot holds. -/
def SlotValue.doc : SlotValue → Doc
  | param value => paramDoc value
  | code text => .ofString text

/-- Two documents that differ at most at a path of member names, where one holds `old` and the other
`new`. -/
inductive ReplacedAt (old new : Doc) : List String → Doc → Doc → Prop
  | here : ReplacedAt old new [] old new
  | member {path : List String} {before after : Doc} (key : String)
    (front back : List (String × Doc))
    (hnodup : ((front ++ (key, before) :: back).map Prod.fst).Nodup)
    (h : ReplacedAt old new path before after) :
    ReplacedAt old new (key :: path) (.ofMembers (front ++ (key, before) :: back))
      (.ofMembers (front ++ (key, after) :: back))

/-- A value put in the place of a member is all that changes of an object. -/
theorem ReplacedAt.of_mem {old new before after : Doc} {path : List String} {key : String}
    {members : List (String × Doc)} (hnodup : (members.map Prod.fst).Nodup)
    (hmember : (key, before) ∈ members) (h : ReplacedAt old new path before after) :
    ReplacedAt old new (key :: path) (.ofMembers members)
      (.ofMembers (members.map (putSlot key after))) := by
  obtain ⟨front, back, rfl⟩ := List.append_of_mem hmember
  rw [map_putSlot_append hnodup after]
  exact .member key front back hnodup h

/-- The members of a shape document have different names. -/
theorem nodup_of_shapeDoc {shape : Shape} {members : List (String × Doc)}
    (h : shapeDoc shape = .ofMembers members) : (members.map Prod.fst).Nodup := by
  let children : Decoder (List Shape) := fun _ _ => .ok []
  have hnames := nodup_names children shape.kind
  rw [← fields_rowsOf, List.map_map] at hnames
  rw [shapeDoc_eq children] at h
  have hmembers := (Doc.object.inj h).1
  have hkeys := congrArg (List.map fun member => member.1.getD "") hmembers
  simp only [List.map_map, List.map_cons] at hkeys
  exact hkeys ▸ hnames

namespace Shape

/-- Where the document of a node has a slot. -/
def persistedPath (field : String) : List String :=
  match transformField? field with
  | some part => ["transform", part]
  | none => [field]

/-- The transform is a member of the document, and the others do not depend on it. -/
theorem exists_transform_member (shape : Shape) :
    ∃ front back, ∀ t, shapeDoc (shape.withTransform t) =
      .ofMembers (front ++ ("transform", transformDoc t) :: back) := by
  cases shape with
  | primitive body transform color id =>
    refine ⟨("kind", .ofString (Kind.primitive body.kind).name) ::
      body.persisted.map (fun field => (field.1, paramDoc field.2)),
      [("color", vectorDoc .shapeVector color), ("id", .ofString id.text)], fun t => ?_⟩
    rw [withTransform, shapeDoc, shapeMembers]
    simp
  | combinator kind children smoothness transform id =>
    refine ⟨[("kind", .ofString (Kind.combinator kind).name),
      ("shapes", wrap .map (.ofItems (entryDocs children))), ("smoothness", scalarDoc smoothness)],
      [("id", .ofString id.text)], fun t => ?_⟩
    rw [withTransform, shapeDoc, shapeMembers]
    simp
  | custom content transform id =>
    refine ⟨[("kind", .ofString Kind.custom.name), ("content", .ofString content)],
      [("id", .ofString id.text)], fun t => ?_⟩
    rw [withTransform, shapeDoc, shapeMembers]
    simp

@[simp] theorem withTransform_transform (shape : Shape) :
    shape.withTransform shape.transform = shape := by
  cases shape <;> rfl

theorem transform_withTransform (t : Transform) (shape : Shape) :
    (shape.withTransform t).transform = t := by
  cases shape <;> rfl

theorem ownSlots_withTransform (t : Transform) (shape : Shape) :
    (shape.withTransform t).ownSlots = shape.ownSlots := by
  cases shape <;> rfl

/-- Transforms that differ in a slot have documents that differ in the member of its name. -/
theorem replacedAt_transformDoc {t changed : Transform} {field : String} {old value : SlotValue}
    (hslot : (field, old) ∈ t.slots) (hput : changed.slots = t.slots.map (putSlot field value)) :
    ∃ part, transformField? field = some part ∧
      ReplacedAt old.doc value.doc [part] (transformDoc t) (transformDoc changed) := by
  obtain ⟨position, rotation, scale⟩ := t
  obtain ⟨position', rotation', scale'⟩ := changed
  simp only [Transform.slots, List.mem_cons, List.not_mem_nil, or_false, Prod.mk.injEq] at hslot
  rcases hslot with ⟨rfl, rfl⟩ | ⟨rfl, rfl⟩ | ⟨rfl, rfl⟩ <;> cases hput
  · exact ⟨"position", by decide +kernel, .member "position" [] _ (by simp) .here⟩
  · exact ⟨"rotation", by decide +kernel, .member "rotation" [_] _ (by simp) .here⟩
  · exact ⟨"scale", by decide +kernel, .member "scale" [_, _] [] (by simp) .here⟩

/-- The kind, the transform and the id are not among the other members of a shape document. -/
theorem ne_of_mem_members {kind transform id field : String} {own color : List String}
    (hnodup : ([kind] ++ own ++ [transform] ++ color ++ [id]).Nodup) (h : field ∈ own ++ color) :
    kind ≠ field ∧ transform ≠ field ∧ id ≠ field := by
  grind

/-- A value put in the place of an own member or of the colour is all that changes of a shape
document. -/
theorem replacedAt_shapeMembers {shape changed : Shape} {kind : Kind} {transform : Transform}
    {id : NodeId} {own color : List (String × Doc)} {field : String} {before after : Doc}
    (hmember : (field, before) ∈ own ++ color)
    (hshape : shapeDoc shape = shapeMembers kind own transform color id)
    (hchanged : shapeDoc changed = shapeMembers kind (own.map (putSlot field after)) transform
      (color.map (putSlot field after)) id) :
    ReplacedAt before after [field] (shapeDoc shape) (shapeDoc changed) := by
  have hnodup := nodup_of_shapeDoc hshape
  have hname : field ∈ own.map Prod.fst ++ color.map Prod.fst := by
    rw [← List.map_append]
    exact List.mem_map_of_mem hmember
  obtain ⟨hkind, htransform, hid⟩ : "kind" ≠ field ∧ "transform" ≠ field ∧ "id" ≠ field := by
    simp only [List.map_append] at hnodup
    exact ne_of_mem_members hnodup hname
  rw [hshape, hchanged, shapeMembers, shapeMembers]
  have hplace : (field, before) ∈ [("kind", Doc.ofString kind.name)] ++ own ++
      [("transform", transformDoc transform)] ++ color ++ [("id", .ofString id.text)] := by
    simp only [List.mem_append] at hmember ⊢
    tauto
  have hreplaced : ReplacedAt before after [field] _ _ := .of_mem hnodup hplace .here
  simpa only [List.map_append, List.map_cons, List.map_nil, putSlot, if_neg hkind,
    if_neg htransform, if_neg hid] using hreplaced

/-- The document of a body's slots. -/
theorem map_doc_slots (body : Primitive) (color : Vec3) :
    (body.slots color).map (fun slot => (slot.1, slot.2.doc)) =
      body.persisted.map (fun (name, value) => (name, paramDoc value)) ++
        [("color", vectorDoc .shapeVector color)] := by
  rw [Primitive.slots, Primitive.persisted_eq_named, List.map_append, List.map_map]
  rfl

/-- Nodes that differ in a slot that is not of the transform have documents that differ in the
member of its name. -/
theorem replacedAt_shapeDoc {shape changed : Shape} {field : String} {old value : SlotValue}
    (hslot : (field, old) ∈ shape.ownSlots)
    (hown : changed.ownSlots = shape.ownSlots.map (putSlot field value))
    (htransform : changed.transform = shape.transform) (hkind : changed.kind = shape.kind)
    (hid : changed.id = shape.id) (hchildren : changed.children? = shape.children?) :
    ReplacedAt old.doc value.doc [field] (shapeDoc shape) (shapeDoc changed) := by
  cases shape with
  | primitive body transform color id =>
    cases changed with
    | primitive body' transform' color' id' =>
      cases htransform
      cases hid
      have hdocs := congrArg (List.map fun slot => (slot.1, slot.2.doc)) hown
      rw [ownSlots, ownSlots, map_map_putSlot, map_doc_slots, map_doc_slots, List.map_append] at hdocs
      obtain ⟨hfields, hcolor⟩ := List.append_inj' hdocs rfl
      refine replacedAt_shapeMembers ?_ (by rw [shapeDoc]) ?_
      · rw [← map_doc_slots]
        exact List.mem_map_of_mem hslot
      · rw [shapeDoc, ← hfields, ← hcolor, Kind.primitive.inj hkind]
    | _ => cases hkind
  | combinator kind children smoothness transform id =>
    cases changed with
    | combinator =>
      cases htransform
      cases hid
      cases hkind
      cases hchildren
      cases List.mem_singleton.mp hslot
      cases hown
      refine replacedAt_shapeMembers (.tail _ (.head _)) (by rw [shapeDoc]) ?_
      rw [shapeDoc]
      rfl
    | _ => cases hkind
  | custom content transform id =>
    cases changed with
    | custom =>
      cases htransform
      cases hid
      cases List.mem_singleton.mp hslot
      cases hown
      refine replacedAt_shapeMembers (.head _) (by rw [shapeDoc]) ?_
      rw [shapeDoc]
      rfl
    | _ => cases hkind

/-- Nodes that differ in a slot have documents that differ at the place of its name. -/
theorem Put.document {shape changed : Shape} {field : String} {old value : SlotValue}
    (hslot : (field, old) ∈ shape.slots) (hput : Put field value shape changed) :
    ReplacedAt old.doc value.doc (persistedPath field) (shapeDoc shape) (shapeDoc changed) := by
  have hslots := hput.slots
  rw [Shape.slots, Shape.slots, List.map_append] at hslots
  obtain ⟨htransform, hown⟩ := List.append_inj hslots rfl
  have hdisjoint := disjoint_slots shape
  rw [Shape.slots, List.mem_append] at hslot
  rcases hslot with hslot | hslot
  · obtain ⟨part, hpart, hdocument⟩ := replacedAt_transformDoc hslot htransform
    have hsame : changed = shape.withTransform changed.transform := by
      rw [map_putSlot_of_notMem (hdisjoint (List.mem_map_of_mem hslot))] at hown
      refine eq_of_slots (hput.kind.trans ?_) (hput.id.trans ?_) (hput.children.trans ?_) ?_
      · cases shape <;> rfl
      · cases shape <;> rfl
      · cases shape <;> rfl
      · rw [Shape.slots, Shape.slots, transform_withTransform, ownSlots_withTransform, hown]
    obtain ⟨before, after, hdoc⟩ := exists_transform_member shape
    have hshape := hdoc shape.transform
    rw [withTransform_transform] at hshape
    rw [persistedPath, hpart, hsame, hshape, hdoc changed.transform]
    exact .member "transform" before after (nodup_of_shapeDoc hshape) hdocument
  · have htransform' : changed.transform = shape.transform := by
      rw [map_putSlot_of_notMem fun h => hdisjoint h (List.mem_map_of_mem hslot)] at htransform
      exact Transform.eq_of_slots htransform
    rw [persistedPath, transformField?_of_mem_ownSlots hslot]
    exact replacedAt_shapeDoc hslot hown htransform' hput.kind hput.id hput.children

/-- A slot of a node, its kind, id and children apart, is the only part that is put anew, and it is
put in the place of its name in the document. -/
structure SlotEdit (field : String) (old value : SlotValue) (shape changed : Shape) : Prop where
  slots : ∃ front back, shape.slots = front ++ (field, old) :: back ∧
    changed.slots = front ++ (field, value) :: back
  document : ReplacedAt old.doc value.doc (persistedPath field) (shapeDoc shape) (shapeDoc changed)
  kind : changed.kind = shape.kind
  id : changed.id = shape.id
  children : changed.children? = shape.children?

/-- A slot is edited exactly if a value is put in it. -/
theorem slotEdit_iff {field : String} {old value : SlotValue} {shape changed : Shape} :
    SlotEdit field old value shape changed ↔
      (field, old) ∈ shape.slots ∧ Put field value shape changed := by
  constructor
  · intro h
    obtain ⟨front, back, hold, hnew⟩ := h.slots
    have hslot : (field, old) ∈ shape.slots := hold ▸ List.mem_append_right front List.mem_cons_self
    have hnodup := nodup_slots shape
    rw [hold] at hnodup
    refine ⟨hslot, ⟨?_, h.kind, h.id, h.children⟩⟩
    rw [hnew, hold, map_putSlot_append hnodup]
  · rintro ⟨hslot, hput⟩
    obtain ⟨front, back, hold⟩ := List.append_of_mem hslot
    have hnodup := nodup_slots shape
    have hnew := hput.slots
    rw [hold] at hnodup hnew
    exact ⟨⟨front, back, hold, hnew.trans (map_putSlot_append hnodup value)⟩,
      hput.document hslot, hput.kind, hput.id, hput.children⟩

/-- A slot that takes a text as a value is set to it. -/
theorem exists_put {field text : String} {old value : SlotValue} {shape : Shape}
    (hslot : (field, old) ∈ shape.slots) (htakes : SlotValue.Takes text old value) :
    ∃ changed, shape.setField field text = .ok changed ∧ Put field value shape changed := by
  obtain ⟨changed, hset⟩ := exists_setField hslot htakes
  obtain ⟨old', value', hslot', htakes', hput⟩ := exists_put_of_setField hset
  -- The names differ, so the slot that the edit puts is this one.
  obtain ⟨-, rfl⟩ := Prod.mk.inj (List.inj_on_of_nodup_map (nodup_slots shape) hslot' hslot rfl)
  exact ⟨changed, hset, htakes.unique htakes' ▸ hput⟩

/-- A value is put in one way. -/
theorem Put.unique {field : String} {value : SlotValue} {shape changed other : Shape}
    (h : Put field value shape changed) (hother : Put field value shape other) : changed = other :=
  eq_of_slots (h.kind.trans hother.kind.symm) (h.id.trans hother.id.symm)
    (h.children.trans hother.children.symm) (h.slots.trans hother.slots.symm)

/-- Values that are put in two slots can be put in either order. -/
theorem Put.comm {field other : String} (hne : other ≠ field) {value otherValue : SlotValue}
    {shape first second both : Shape} (hfirst : Put field value shape first)
    (hboth : Put other otherValue first both) (hsecond : Put other otherValue shape second) :
    Put field value second both where
  slots := by
    rw [hboth.slots, hfirst.slots, hsecond.slots, List.map_map, List.map_map]
    exact List.map_congr_left fun slot _ => putSlot_comm hne _ _ slot
  kind := hboth.kind.trans (hfirst.kind.trans hsecond.kind.symm)
  id := hboth.id.trans (hfirst.id.trans hsecond.id.symm)
  children := hboth.children.trans (hfirst.children.trans hsecond.children.symm)

/-- Field edits are exactly the edits of a slot to a value that it takes from the text. -/
theorem setField_eq_ok {field text : String} {shape changed : Shape} :
    shape.setField field text = .ok changed ↔
      ∃ old value, SlotValue.Takes text old value ∧ SlotEdit field old value shape changed := by
  constructor
  · intro h
    obtain ⟨old, value, hslot, htakes, hput⟩ := exists_put_of_setField h
    exact ⟨old, value, htakes, slotEdit_iff.mpr ⟨hslot, hput⟩⟩
  · rintro ⟨old, value, htakes, hedit⟩
    obtain ⟨hslot, hput⟩ := slotEdit_iff.mp hedit
    obtain ⟨result, hset, hresult⟩ := exists_put hslot htakes
    rw [hset, hresult.unique hput]

/-- Edits of two slots lead to the same node in either order. -/
theorem setField_comm {field other text otherText : String} (hne : other ≠ field)
    {shape first both : Shape} (hfirst : shape.setField field text = .ok first)
    (hboth : first.setField other otherText = .ok both) :
    ∃ second, shape.setField other otherText = .ok second ∧
      second.setField field text = .ok both := by
  obtain ⟨old, value, hslot, htakes, hput⟩ := exists_put_of_setField hfirst
  obtain ⟨otherOld, otherValue, hotherSlot, hotherTakes, hotherPut⟩ := exists_put_of_setField hboth
  rw [hput.slots, mem_map_putSlot hne] at hotherSlot
  obtain ⟨second, hsecond, hsecondPut⟩ := exists_put hotherSlot hotherTakes
  rw [← mem_map_putSlot (Ne.symm hne), ← hsecondPut.slots] at hslot
  obtain ⟨last, hlast, hlastPut⟩ := exists_put hslot htakes
  obtain rfl := hlastPut.unique (hput.comm hne hotherPut hsecondPut)
  exact ⟨second, hsecond, hlast⟩

/-- A field edit succeeds exactly for a slot that takes the text, and then puts the value in that
slot of the node and of its document and keeps all else. If it fails, the session that holds the
node is as it was. Edits of two slots can be made in either order. -/
theorem setField_edits_one_slot (shape : Shape) (field text : String) :
    ((∃ changed, shape.setField field text = .ok changed) ↔
      ∃ old value, (field, old) ∈ shape.slots ∧ SlotValue.Takes text old value) ∧
    (∀ changed, shape.setField field text = .ok changed ↔
      ∃ old value, SlotValue.Takes text old value ∧ SlotEdit field old value shape changed) ∧
    (∀ e, shape.setField field text = .error e → ∀ (session : Session) (id : NodeId),
      session.desk.scene.find? id = some shape →
        session.setField id field text = (.error (.invalidValue e), session)) ∧
    (∀ other otherText both, other ≠ field →
      ((∃ first, shape.setField field text = .ok first ∧
          first.setField other otherText = .ok both) ↔
        ∃ second, shape.setField other otherText = .ok second ∧
          second.setField field text = .ok both)) := by
  refine ⟨⟨?_, ?_⟩, fun changed => setField_eq_ok, ?_, ?_⟩
  · rintro ⟨changed, hset⟩
    obtain ⟨old, value, hslot, htakes, -⟩ := exists_put_of_setField hset
    exact ⟨old, value, hslot, htakes⟩
  · rintro ⟨old, value, hslot, htakes⟩
    exact exists_setField hslot htakes
  · intro e herror session id hnode
    simp only [Session.setField, Desk.setField, hnode, herror, Session.edit]
  · intro other otherText both hne
    constructor
    · rintro ⟨first, hfirst, hboth⟩
      exact setField_comm hne hfirst hboth
    · rintro ⟨second, hsecond, hboth⟩
      exact setField_comm (Ne.symm hne) hsecond hboth

end Shape

end SdfScene
