import Mathlib.Data.List.Nodup
import SdfScene.Proofs.Codec.Members
import SdfScene.Proofs.Shape.EditorText
import SdfScene.Proofs.Shape.Nodes
import SdfScene.Shape.Field

/-!
# The slots of a node

The editable values of a node are those of its transform and those that are its own: the parameters
and the colour of a primitive, the smoothness of a combinator, the code of a custom node. Their
names differ, and with its kind, its id and its children they are all of the node.
-/

namespace SdfScene

open Codec

/-! Values. -/

/-- What a slot holds: a number or a vector, or code. -/
inductive SlotValue where
  | param (value : Param)
  | code (text : String)

namespace SlotValue

/-- A slot takes a text as a value: a number in the place of a number, a vector in that of a vector,
and any text as code. -/
inductive Takes (text : String) : SlotValue → SlotValue → Prop
  | param {old value : Param} (htype : value.type = old.type)
    (hdenoted : value.DenotedBy text.toList) : Takes text (.param old) (.param value)
  | code (old : String) : Takes text (.code old) (.code text)

/-- A text that is taken in the place of a vector is accepted as one. -/
theorem Takes.exists_vector {text : String} {old : Vec3} {value : SlotValue}
    (h : Takes text (.param (.vector old)) value) :
    ∃ v, Vec3.ofEditorText text.toList = .ok v ∧ value = .param (.vector v) := by
  cases h with
  | @param _ taken htype hdenoted =>
    cases taken with
    | scalar x => cases htype
    | vector v => exact ⟨v, Vec3.ofEditorText_eq_ok.mpr hdenoted, rfl⟩

/-- A text that is taken in the place of a number is accepted as one. -/
theorem Takes.exists_scalar {text : String} {old : Single} {value : SlotValue}
    (h : Takes text (.param (.scalar old)) value) :
    ∃ x, Single.ofEditorText text.toList = .ok x ∧ value = .param (.scalar x) := by
  cases h with
  | @param _ taken htype hdenoted =>
    cases taken with
    | scalar x => exact ⟨x, Single.ofEditorText_eq_ok.mpr hdenoted, rfl⟩
    | vector v => cases htype

theorem takes_vector {text : String} {old v : Vec3} (h : Vec3.ofEditorText text.toList = .ok v) :
    Takes text (.param (.vector old)) (.param (.vector v)) :=
  .param rfl (Vec3.ofEditorText_eq_ok.mp h)

theorem takes_scalar {text : String} {old x : Single} (h : Single.ofEditorText text.toList = .ok x) :
    Takes text (.param (.scalar old)) (.param (.scalar x)) :=
  .param rfl (Single.ofEditorText_eq_ok.mp h)

/-- A slot takes a text as one value at most. -/
theorem Takes.unique {text : String} {old value other : SlotValue} (h : Takes text old value)
    (hother : Takes text old other) : value = other := by
  cases old with
  | code old =>
    cases h
    cases hother
    rfl
  | param old =>
    cases old with
    | scalar old =>
      obtain ⟨x, hx, rfl⟩ := h.exists_scalar
      obtain ⟨y, hy, rfl⟩ := hother.exists_scalar
      cases hx.symm.trans hy
      rfl
    | vector old =>
      obtain ⟨v, hv, rfl⟩ := h.exists_vector
      obtain ⟨w, hw, rfl⟩ := hother.exists_vector
      cases hv.symm.trans hw
      rfl

/-- The numbers that a slot holds. -/
def numbers : SlotValue → List Single
  | param value => value.numbers
  | code _ => []

/-- A value that is taken from a text is finite. -/
theorem Takes.isFinite {text : String} {old value : SlotValue} (h : Takes text old value) :
    ∀ x ∈ value.numbers, x.isFinite := by
  cases h with
  | @param _ value htype hdenoted =>
    cases value with
    | scalar x => exact List.forall_mem_singleton.mpr hdenoted.2
    | vector v =>
      obtain ⟨a, b, c, -, -, -, -, hx, hy, hz⟩ := hdenoted
      simpa [numbers, Param.numbers, Vec3.numbers] using ⟨hx.2, hy.2, hz.2⟩
  | code => exact fun _ h => absurd h List.not_mem_nil

end SlotValue

/-! Slots. -/

/-- The slots of a transform. -/
def Transform.slots (t : Transform) : List (String × SlotValue) :=
  [("transform.position", .param (.vector t.position)),
    ("transform.rotation", .param (.vector t.rotation)),
    ("transform.scale", .param (.scalar t.scale))]

/-- The slots of a body: its parameters and the colour. -/
def Primitive.slots (body : Primitive) (color : Vec3) : List (String × SlotValue) :=
  (body.named.map fun (name, value) => (name, .param value)) ++ [("color", .param (.vector color))]

namespace Shape

/-- The slots of a node that are not of its transform. -/
def ownSlots : Shape → List (String × SlotValue)
  | primitive body _ color _ => body.slots color
  | combinator _ _ smoothness _ _ => [("smoothness", .param (.scalar smoothness))]
  | custom content _ _ => [("content", .code content)]

/-- The slots of a node. -/
def slots (shape : Shape) : List (String × SlotValue) :=
  shape.transform.slots ++ shape.ownSlots

end Shape

/-! One slot and another. -/

variable {α : Type} {field other : String}

/-- A value in the place of the one of a name. -/
def putSlot (field : String) (value : α) (slot : String × α) : String × α :=
  if slot.1 = field then (field, value) else slot

/-- Values are put like those into which they are converted. -/
theorem map_map_putSlot {β : Type} (convert : α → β) (value : α) (slots : List (String × α)) :
    (slots.map (putSlot field value)).map (fun slot => (slot.1, convert slot.2)) =
      (slots.map fun slot => (slot.1, convert slot.2)).map (putSlot field (convert value)) := by
  rw [List.map_map, List.map_map]
  refine List.map_congr_left fun slot _ => ?_
  by_cases hname : slot.1 = field
  · simp [putSlot, hname]
  · simp [putSlot, hname]

theorem map_putSlot_of_notMem {value : α} {slots : List (String × α)}
    (hfree : field ∉ slots.map Prod.fst) : slots.map (putSlot field value) = slots := by
  induction slots with
  | nil => rfl
  | cons slot slots ih =>
    rw [List.map_cons, List.mem_cons, not_or] at hfree
    rw [List.map_cons, putSlot, if_neg (Ne.symm hfree.1), ih hfree.2]

/-- Among slots of different names a value is put in one place. -/
theorem map_putSlot_append {old : α} {front back : List (String × α)}
    (hnodup : ((front ++ (field, old) :: back).map Prod.fst).Nodup) (value : α) :
    (front ++ (field, old) :: back).map (putSlot field value) =
      front ++ (field, value) :: back := by
  rw [List.map_append, List.map_cons, List.nodup_middle, List.nodup_cons, List.mem_append,
    not_or] at hnodup
  rw [List.map_append, List.map_cons, map_putSlot_of_notMem hnodup.1.1,
    map_putSlot_of_notMem hnodup.1.2, putSlot, if_pos rfl]

/-- Values put under different names do not meet. -/
theorem putSlot_comm (hne : other ≠ field) (value otherValue : α) (slot : String × α) :
    putSlot other otherValue (putSlot field value slot) =
      putSlot field value (putSlot other otherValue slot) := by
  by_cases hfield : slot.1 = field
  · simp [putSlot, hfield, Ne.symm hne]
  · by_cases hother : slot.1 = other
    · simp [putSlot, hother, hne]
    · simp [putSlot, hfield, hother]

theorem mem_map_putSlot (hne : other ≠ field) {value old : α} {slots : List (String × α)} :
    (other, old) ∈ slots.map (putSlot field value) ↔ (other, old) ∈ slots := by
  rw [List.mem_map]
  constructor
  · rintro ⟨slot, hslot, hput⟩
    by_cases hname : slot.1 = field
    · rw [putSlot, if_pos hname] at hput
      exact absurd (Prod.mk.inj hput).1.symm hne
    · rw [putSlot, if_neg hname] at hput
      exact hput ▸ hslot
  · intro hslot
    exact ⟨_, hslot, if_neg hne⟩

/-! Names. -/

namespace Primitive

/-- The names of the parameters are those under which the fields of the kind are persisted. -/
theorem map_fst_named (body : Primitive) :
    body.named.map Prod.fst = body.kind.signature.map Prod.fst := by
  rw [← persisted_eq_named, ← map_type_persisted, List.map_map]
  rfl

theorem map_fst_slots (body : Primitive) (color : Vec3) :
    (body.slots color).map Prod.fst = body.kind.signature.map Prod.fst ++ ["color"] := by
  rw [slots, List.map_append, List.map_map, ← map_fst_named]
  rfl

/-- The fields of a kind have different names, none of which names the colour or a part of the
transform. -/
theorem signature_names (kind : PrimitiveKind) :
    (kind.signature.map Prod.fst).Nodup ∧
      ∀ name ∈ kind.signature.map Prod.fst,
        name ≠ "color" ∧ Shape.transformField? name = none := by
  cases kind <;> decide +kernel

/-- Slots and kind make up a body and its colour. -/
theorem eq_of_slots {body other : Primitive} {color otherColor : Vec3}
    (hkind : body.kind = other.kind) (hslots : body.slots color = other.slots otherColor) :
    body = other ∧ color = otherColor := by
  obtain ⟨hmapped, hcolor⟩ := List.append_inj' hslots rfl
  have hinjective : Function.Injective fun (field : String × Param) =>
      (field.1, SlotValue.param field.2) := by
    rintro ⟨name, value⟩ ⟨name', value'⟩ heq
    cases heq
    rfl
  have hnamed := List.map_injective_iff.mpr hinjective hmapped
  rw [← persisted_eq_named, ← persisted_eq_named] at hnamed
  have hother := ofValues?_eq_some.mpr ⟨hkind, congrArg (List.map Prod.snd) hnamed⟩
  rw [ofValues?_eq_some.mpr ⟨rfl, rfl⟩] at hother
  cases hother
  cases hcolor
  exact ⟨rfl, rfl⟩

end Primitive

/-- Slots make up a transform. -/
theorem Transform.eq_of_slots {t other : Transform} (hslots : t.slots = other.slots) :
    t = other := by
  obtain ⟨position, rotation, scale⟩ := t
  obtain ⟨position', rotation', scale'⟩ := other
  cases hslots
  rfl

namespace Shape

/-- The slots of a node have different names. -/
theorem nodup_slots (shape : Shape) : (shape.slots.map Prod.fst).Nodup := by
  cases shape with
  | primitive body transform color id =>
    have hnames : (Shape.primitive body transform color id).slots.map Prod.fst =
        ["transform.position", "transform.rotation", "transform.scale"] ++
          (body.kind.signature.map Prod.fst ++ ["color"]) := by
      rw [slots, List.map_append, ownSlots, Primitive.map_fst_slots]
      rfl
    rw [hnames]
    cases body.kind <;> decide +kernel
  | combinator kind children smoothness transform id =>
    change ["transform.position", "transform.rotation", "transform.scale", "smoothness"].Nodup
    decide +kernel
  | custom content transform id =>
    change ["transform.position", "transform.rotation", "transform.scale", "content"].Nodup
    decide +kernel

/-- No slot of the transform is named like one of the others. -/
theorem disjoint_slots (shape : Shape) :
    (shape.transform.slots.map Prod.fst).Disjoint (shape.ownSlots.map Prod.fst) := by
  have hnodup := nodup_slots shape
  rw [slots, List.map_append] at hnodup
  exact List.disjoint_of_nodup_append hnodup

/-- A node is its kind, its id, its children and its slots. -/
theorem eq_of_slots {shape other : Shape} (hkind : shape.kind = other.kind)
    (hid : shape.id = other.id) (hchildren : shape.children? = other.children?)
    (hslots : shape.slots = other.slots) : shape = other := by
  obtain ⟨htransform, hown⟩ := List.append_inj hslots rfl
  have hsame := Transform.eq_of_slots htransform
  cases shape with
  | primitive body transform color id =>
    cases other with
    | primitive otherBody otherTransform otherColor otherId =>
      obtain ⟨rfl, rfl⟩ := Primitive.eq_of_slots (Kind.primitive.inj hkind) hown
      cases hid
      cases hsame
      rfl
    | _ => cases hkind
  | combinator kind children smoothness transform id =>
    cases other with
    | combinator otherKind otherChildren otherSmoothness otherTransform otherId =>
      cases hkind
      cases hid
      cases hchildren
      cases hsame
      cases hown
      rfl
    | _ => cases hkind
  | custom content transform id =>
    cases other with
    | custom otherContent otherTransform otherId =>
      cases hid
      cases hsame
      cases hown
      rfl
    | _ => cases hkind

end Shape

end SdfScene
