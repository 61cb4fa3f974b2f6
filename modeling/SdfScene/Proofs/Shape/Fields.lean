import SdfScene.Proofs.Shape.Slots
import SdfScene.Proofs.Shape.Sound
import SdfScene.Shape.Field

/-!
# What a field edit puts and keeps

A field that is set is a slot that takes the text, and only this slot is put anew: the editor
knows the slots of every kind of node by the same names as the view of its parameters. So the id
and the children of a node stay, every number that is new is one from the text, and a sound tree
stays sound.
-/

namespace SdfScene

variable {field text : String}

/-! Bodies. -/

/-- A body and its colour with a value in the slot of a name. -/
structure Primitive.Put (field : String) (value : SlotValue) (body : Primitive) (color : Vec3)
    (changed : Primitive × Vec3) : Prop where
  kind : changed.1.kind = body.kind
  slots : changed.1.slots changed.2 = (body.slots color).map (putSlot field value)

/-- A vector from a text is put in the slot of a vector. -/
private theorem exists_put_of_vector {body : Primitive} {color v : Vec3}
    {changed : Primitive × Vec3} (hv : Vec3.ofEditorText text.toList = .ok v)
    (hslot : ∃ old, (field, .param (.vector old)) ∈ body.slots color)
    (hput : body.Put field (.param (.vector v)) color changed) :
    ∃ old value, (field, old) ∈ body.slots color ∧ SlotValue.Takes text old value ∧
      body.Put field value color changed :=
  hslot.elim fun _ hold => ⟨_, _, hold, SlotValue.takes_vector hv, hput⟩

/-- A number from a text is put in the slot of a number. -/
private theorem exists_put_of_scalar {body : Primitive} {color : Vec3} {x : Single}
    {changed : Primitive × Vec3} (hx : Single.ofEditorText text.toList = .ok x)
    (hslot : ∃ old, (field, .param (.scalar old)) ∈ body.slots color)
    (hput : body.Put field (.param (.scalar x)) color changed) :
    ∃ old value, (field, old) ∈ body.slots color ∧ SlotValue.Takes text old value ∧
      body.Put field value color changed :=
  hslot.elim fun _ hold => ⟨_, _, hold, SlotValue.takes_scalar hx, hput⟩

/-- What the editor sets of a body is the slot of that name. -/
theorem Primitive.exists_put_of_setField {body : Primitive} {color : Vec3}
    {changed : Primitive × Vec3} (h : body.setField field text color = .ok changed) :
    ∃ old value, (field, old) ∈ body.slots color ∧ SlotValue.Takes text old value ∧
      body.Put field value color changed := by
  rw [setField.eq_def] at h
  -- One case for every kind and name, and the case of all other names, which fails.
  split at h
  all_goals simp only [setVector, setScalar, Outcome.map_eq_ok, reduceCtorEq] at h
  all_goals obtain ⟨x, hx, rfl⟩ := h
  all_goals first
    | exact exists_put_of_vector hx (by simp [slots, named])
        ⟨rfl, by simp [slots, named, putSlot]⟩
    | exact exists_put_of_scalar hx (by simp [slots, named])
        ⟨rfl, by simp [slots, named, putSlot]⟩

/-- A vector is set from a text that is taken in the place of one. -/
theorem exists_setVector {α : Type} {old : Vec3} {value : SlotValue}
    (htakes : SlotValue.Takes text (.param (.vector old)) value) (put : Vec3 → α) :
    ∃ changed, setVector text put = .ok changed := by
  obtain ⟨v, hv, -⟩ := htakes.exists_vector
  exact ⟨put v, Outcome.map_eq_ok.mpr ⟨v, hv, rfl⟩⟩

/-- A number is set from a text that is taken in the place of one. -/
theorem exists_setScalar {α : Type} {old : Single} {value : SlotValue}
    (htakes : SlotValue.Takes text (.param (.scalar old)) value) (put : Single → α) :
    ∃ changed, setScalar text put = .ok changed := by
  obtain ⟨x, hx, -⟩ := htakes.exists_scalar
  exact ⟨put x, Outcome.map_eq_ok.mpr ⟨x, hx, rfl⟩⟩

/-- How a slot of a body is set: from a number where it holds one, from a vector where it holds
one. -/
inductive Primitive.SetFrom (text : String) :
    SlotValue → Except InvalidValue (Primitive × Vec3) → Prop
  | scalar (old : Single) (put : Single → Primitive × Vec3) :
    SetFrom text (.param (.scalar old)) (setScalar text put)
  | vector (old : Vec3) (put : Vec3 → Primitive × Vec3) :
    SetFrom text (.param (.vector old)) (setVector text put)

/-- The editor knows every slot of a body by its name, as a number or a vector as it is. -/
theorem Primitive.setFrom_setField {body : Primitive} {color : Vec3} {old : SlotValue}
    (hslot : (field, old) ∈ body.slots color) :
    SetFrom text old (body.setField field text color) := by
  have hall : ∀ slot ∈ body.slots color, SetFrom text slot.2 (body.setField slot.1 text color) := by
    cases body <;>
      simp only [slots, named, List.map_cons, List.map_nil, List.cons_append, List.nil_append,
        List.forall_mem_cons, setField]
    all_goals and_intros
    all_goals first
      | exact .vector _ _
      | exact .scalar _ _
      | exact fun _ h => absurd h List.not_mem_nil
  exact hall _ hslot

/-- A slot of a body that takes a text is set from it. -/
theorem Primitive.exists_setField {body : Primitive} {color : Vec3} {old value : SlotValue}
    (hslot : (field, old) ∈ body.slots color) (htakes : SlotValue.Takes text old value) :
    ∃ changed, body.setField field text color = .ok changed := by
  have hset : SetFrom text _ (body.setField field text color) := setFrom_setField hslot
  generalize body.setField field text color = outcome at hset
  cases hset with
  | scalar old put => exact exists_setScalar htakes put
  | vector old put => exact exists_setVector htakes put

/-- A text that is no vector is not put in the slot of a vector. -/
theorem Primitive.setField_vector_error {body : Primitive} {color old : Vec3} {e : InvalidValue}
    (hslot : (field, .param (.vector old)) ∈ body.slots color)
    (h : Vec3.ofEditorText text.toList = .error e) : body.setField field text color = .error e := by
  have hset : SetFrom text _ (body.setField field text color) := setFrom_setField hslot
  generalize body.setField field text color = outcome at hset ⊢
  cases hset with
  | vector old put => rw [setVector, h, Except.map]

/-! Transforms. -/

/-- The field of a part of the transform. -/
theorem Shape.eq_of_transformField? {name : String} {part : TransformPart}
    (hfield : transformField? field = some name) (hpart : TransformPart.ofName? name = some part) :
    field = "transform." ++ part.name := by
  have hname : part.name = name := by simpa using List.find?_some hpart
  dsimp only [transformField?] at hfield
  split at hfield
  · next hprefix =>
    obtain ⟨rest, hrest⟩ := List.isPrefixOf_iff_prefix.mp hprefix
    have hdrop : field.toList.drop "transform.".toList.length = rest := by
      rw [← hrest, List.drop_left]
    rw [hdrop] at hfield
    cases hfield
    apply String.toList_inj.mp
    rw [hname, String.toList_append, ← hrest]
    exact congrArg ("transform.".toList ++ ·) String.toList_ofList.symm
  · cases hfield

/-- A part of a transform that is set from a text is put in its slot. -/
theorem Transform.exists_putSlot_of_setPart {t changed : Transform} {part : TransformPart}
    (h : t.setPart part text.toList = .ok changed) :
    ∃ old value, ("transform." ++ part.name, old) ∈ t.slots ∧ SlotValue.Takes text old value ∧
      changed.slots = t.slots.map (putSlot ("transform." ++ part.name) value) := by
  cases part with
  | position =>
    obtain ⟨v, hv, rfl⟩ := Outcome.map_eq_ok.mp h
    exact ⟨_, _, .head _, SlotValue.takes_vector hv, rfl⟩
  | rotation =>
    obtain ⟨v, hv, rfl⟩ := Outcome.map_eq_ok.mp h
    exact ⟨_, _, .tail _ (.head _), SlotValue.takes_vector hv, rfl⟩
  | scale =>
    obtain ⟨x, hx, rfl⟩ := Outcome.map_eq_ok.mp h
    exact ⟨_, _, .tail _ (.tail _ (.head _)), SlotValue.takes_scalar hx, rfl⟩

/-- A slot of the transform that takes a text is set from it. -/
theorem Transform.exists_setPart {t : Transform} {old value : SlotValue}
    (hslot : (field, old) ∈ t.slots) (htakes : SlotValue.Takes text old value) :
    ∃ name part changed, Shape.transformField? field = some name ∧
      TransformPart.ofName? name = some part ∧ t.setPart part text.toList = .ok changed := by
  simp only [slots, List.mem_cons, List.not_mem_nil, or_false, Prod.mk.injEq] at hslot
  rcases hslot with ⟨rfl, rfl⟩ | ⟨rfl, rfl⟩ | ⟨rfl, rfl⟩
  · obtain ⟨changed, hset⟩ := exists_setVector htakes fun v => { t with position := v }
    exact ⟨"position", .position, changed, by decide +kernel, by decide +kernel, hset⟩
  · obtain ⟨changed, hset⟩ := exists_setVector htakes fun v => { t with rotation := v }
    exact ⟨"rotation", .rotation, changed, by decide +kernel, by decide +kernel, hset⟩
  · obtain ⟨changed, hset⟩ := exists_setScalar htakes fun x => { t with scale := x }
    exact ⟨"scale", .scale, changed, by decide +kernel, by decide +kernel, hset⟩

namespace Shape

/-! Nodes. -/

/-- A node with a value in the slot of a name; its kind, id and children are as they were. -/
structure Put (field : String) (value : SlotValue) (shape changed : Shape) : Prop where
  slots : changed.slots = shape.slots.map (putSlot field value)
  kind : changed.kind = shape.kind
  id : changed.id = shape.id
  children : changed.children? = shape.children?

/-- A value is put among the slots of the transform alone. -/
theorem Put.of_transform {shape : Shape} {t : Transform} {value : SlotValue}
    (hfield : field ∈ shape.transform.slots.map Prod.fst)
    (hput : t.slots = shape.transform.slots.map (putSlot field value)) :
    Put field value shape (shape.withTransform t) := by
  have hfree : field ∉ shape.ownSlots.map Prod.fst := disjoint_slots shape hfield
  refine ⟨?_, ?_, ?_, ?_⟩
  · rw [Shape.slots, Shape.slots, List.map_append, map_putSlot_of_notMem hfree, ← hput]
    cases shape <;> rfl
  all_goals cases shape <;> rfl

/-- A value is put among the slots that are not of the transform. -/
theorem Put.of_own {shape changed : Shape} {value : SlotValue}
    (hfield : field ∈ shape.ownSlots.map Prod.fst) (htransform : changed.transform = shape.transform)
    (hput : changed.ownSlots = shape.ownSlots.map (putSlot field value))
    (hkind : changed.kind = shape.kind) (hid : changed.id = shape.id)
    (hchildren : changed.children? = shape.children?) : Put field value shape changed := by
  have hfree : field ∉ shape.transform.slots.map Prod.fst :=
    fun h => disjoint_slots shape h hfield
  refine ⟨?_, hkind, hid, hchildren⟩
  rw [Shape.slots, Shape.slots, List.map_append, map_putSlot_of_notMem hfree, htransform, hput]

/-- A field that is not of the transform is set by putting its slot. -/
theorem exists_put_of_setOwnField {shape changed : Shape}
    (h : shape.setOwnField field text = .ok changed) :
    ∃ old value, (field, old) ∈ shape.ownSlots ∧ SlotValue.Takes text old value ∧
      changed.ownSlots = shape.ownSlots.map (putSlot field value) ∧
      Put field value shape changed := by
  cases shape with
  | primitive body transform color id =>
    obtain ⟨result, hresult, rfl⟩ := Outcome.map_eq_ok.mp h
    obtain ⟨old, value, hslot, htakes, hput⟩ := Primitive.exists_put_of_setField hresult
    refine ⟨old, value, hslot, htakes, hput.slots, .of_own ?_ rfl hput.slots ?_ rfl rfl⟩
    · exact List.mem_map_of_mem hslot
    · exact congrArg Kind.primitive hput.kind
  | combinator kind children smoothness transform id =>
    rw [setOwnField] at h
    split at h
    · next hname =>
      subst hname
      obtain ⟨x, hx, rfl⟩ := Outcome.map_eq_ok.mp h
      refine ⟨_, _, .head _, SlotValue.takes_scalar hx, rfl, .of_own ?_ rfl rfl rfl rfl rfl⟩
      exact List.mem_singleton_self _
    · cases h
  | custom content transform id =>
    rw [setOwnField] at h
    split at h
    · next hname =>
      subst hname
      cases h
      refine ⟨_, _, .head _, .code content, rfl, .of_own ?_ rfl rfl rfl rfl rfl⟩
      exact List.mem_singleton_self _
    · cases h

/-- A field that is set is a slot that takes the text, and this slot is put. -/
theorem exists_put_of_setField {shape changed : Shape}
    (h : shape.setField field text = .ok changed) :
    ∃ old value, (field, old) ∈ shape.slots ∧ SlotValue.Takes text old value ∧
      Put field value shape changed := by
  rw [setField] at h
  split at h
  · next name hfield =>
    split at h
    · next part hpart =>
      obtain ⟨t, ht, rfl⟩ := Outcome.map_eq_ok.mp h
      obtain ⟨old, value, hslot, htakes, hput⟩ := Transform.exists_putSlot_of_setPart ht
      obtain rfl := eq_of_transformField? hfield hpart
      exact ⟨old, value, List.mem_append_left _ hslot, htakes,
        .of_transform (List.mem_map_of_mem hslot) hput⟩
    · cases h
  · obtain ⟨old, value, hslot, htakes, -, hput⟩ := exists_put_of_setOwnField h
    exact ⟨old, value, List.mem_append_right _ hslot, htakes, hput⟩

/-- No other slot is named like a part of the transform. -/
theorem transformField?_of_mem_ownSlots {shape : Shape} {old : SlotValue}
    (hslot : (field, old) ∈ shape.ownSlots) : transformField? field = none := by
  cases shape with
  | primitive body transform color id =>
    have hname : field ∈ (body.slots color).map Prod.fst := List.mem_map_of_mem hslot
    rw [Primitive.map_fst_slots, List.mem_append, List.mem_singleton] at hname
    rcases hname with hname | rfl
    · exact ((Primitive.signature_names body.kind).2 field hname).2
    · decide +kernel
  | combinator kind children smoothness transform id =>
    cases List.mem_singleton.mp hslot
    decide +kernel
  | custom content transform id =>
    cases List.mem_singleton.mp hslot
    decide +kernel

/-- A slot that is not of the transform and takes a text is set from it. -/
theorem exists_setOwnField {shape : Shape} {old value : SlotValue}
    (hslot : (field, old) ∈ shape.ownSlots) (htakes : SlotValue.Takes text old value) :
    ∃ changed, shape.setOwnField field text = .ok changed := by
  cases shape with
  | primitive body transform color id =>
    obtain ⟨changed, hset⟩ := Primitive.exists_setField hslot htakes
    exact ⟨_, Outcome.map_eq_ok.mpr ⟨changed, hset, rfl⟩⟩
  | combinator kind children smoothness transform id =>
    cases List.mem_singleton.mp hslot
    rw [setOwnField, if_pos rfl]
    exact exists_setScalar htakes _
  | custom content transform id =>
    cases List.mem_singleton.mp hslot
    exact ⟨custom text transform id, by rw [setOwnField, if_pos rfl]⟩

/-- A slot that takes a text is set from it. -/
theorem exists_setField {shape : Shape} {old value : SlotValue}
    (hslot : (field, old) ∈ shape.slots) (htakes : SlotValue.Takes text old value) :
    ∃ changed, shape.setField field text = .ok changed := by
  rw [slots, List.mem_append] at hslot
  rcases hslot with htransform | hown
  · obtain ⟨name, part, t, hfield, hpart, hset⟩ := Transform.exists_setPart htransform htakes
    refine ⟨shape.withTransform t, ?_⟩
    rw [setField]
    simp only [hfield, hpart, hset]
    rfl
  · obtain ⟨changed, hset⟩ := exists_setOwnField hown htakes
    refine ⟨changed, ?_⟩
    rw [setField]
    simp only [transformField?_of_mem_ownSlots hown, hset]

/-! Numbers and ids. -/

/-- The numbers of a node are those in its slots. -/
theorem mem_ownNumbers {shape : Shape} {x : Single} :
    x ∈ shape.ownNumbers ↔ x ∈ shape.slots.flatMap fun slot => slot.2.numbers := by
  have htransform : (shape.transform.slots.flatMap fun slot => slot.2.numbers) =
      shape.transform.numbers := by
    simp [Transform.slots, Transform.numbers, SlotValue.numbers, Param.numbers]
  rw [slots, List.flatMap_append, htransform]
  cases shape with
  | primitive body transform color id =>
    have hbody : ((body.slots color).flatMap fun slot => slot.2.numbers) =
        body.params.flatMap Param.numbers ++ color.numbers := by
      simp only [Primitive.slots, Primitive.params, List.flatMap_append, List.flatMap_map,
        List.flatMap_singleton]
      rfl
    rw [ownSlots, hbody, ownNumbers, List.append_assoc, List.mem_append, List.mem_append,
      List.mem_append, List.mem_append]
    exact or_left_comm
  | combinator kind children smoothness transform id =>
    rw [ownSlots, List.flatMap_singleton, ownNumbers, List.mem_cons, List.mem_append]
    exact or_comm.trans (or_congr_right List.mem_singleton.symm)
  | custom content transform id =>
    rw [ownSlots, List.flatMap_singleton, ownNumbers, List.mem_append]
    exact (or_iff_left List.not_mem_nil).symm

/-- Every number of a node with a changed field is an old one or finite. -/
theorem mem_setField {shape changed : Shape} (h : shape.setField field text = .ok changed)
    {x : Single} (hx : x ∈ changed.ownNumbers) : x ∈ shape.ownNumbers ∨ x.isFinite := by
  obtain ⟨old, value, -, htakes, hput⟩ := exists_put_of_setField h
  rw [mem_ownNumbers, hput.slots, List.flatMap_map] at hx
  obtain ⟨slot, hslot, hx⟩ := List.mem_flatMap.mp hx
  by_cases hname : slot.1 = field
  · rw [putSlot, if_pos hname] at hx
    exact Or.inr (htakes.isFinite x hx)
  · rw [putSlot, if_neg hname] at hx
    exact Or.inl (mem_ownNumbers.mpr (List.mem_flatMap.mpr ⟨slot, hslot, hx⟩))

/-- A changed field is not the kind, not the id and not the children. -/
theorem setField_keeps {shape changed : Shape} (h : shape.setField field text = .ok changed) :
    changed.kind = shape.kind ∧ changed.id = shape.id ∧ changed.children? = shape.children? := by
  obtain ⟨_, _, -, -, hput⟩ := exists_put_of_setField h
  exact ⟨hput.kind, hput.id, hput.children⟩

/-- Setting a field keeps the ids of a tree. -/
theorem ids_setField {shape changed : Shape}
    (h : shape.setField field text = .ok changed) : changed.ids = shape.ids := by
  obtain ⟨-, hid, hchildren⟩ := setField_keeps h
  rw [ids_eq_cons, ids_eq_cons shape, hid, hchildren]

/-- Setting a field keeps a tree sound. -/
theorem Sound.setField {ids : Allocator} {shape changed : Shape}
    (hsound : shape.Sound ids) (h : shape.setField field text = .ok changed) :
    changed.Sound ids := by
  have hids := ids_setField h
  refine ⟨hids ▸ hsound.distinct, hids ▸ hsound.covered, fun x hx => ?_⟩
  have hfinite := hsound.finite x
  rw [numbers_eq_append, (setField_keeps h).2.2, List.mem_append] at hx
  rw [numbers_eq_append, List.mem_append] at hfinite
  rcases hx with hx | hx
  · exact (mem_setField h hx).elim (fun hold => hfinite (Or.inl hold)) fun hnew => hnew
  · exact hfinite (Or.inr hx)

/-- A tree after edits of the fields of any of its nodes. -/
inductive Revised (shape : Shape) : Shape → Prop
  | same : Revised shape shape
  | setField {later node changed : Shape} {id : NodeId} {field text : String}
      (hlater : Revised shape later) (hnode : later.find? id = some node)
      (hset : node.setField field text = .ok changed) :
      Revised shape ((later.update? id fun _ => changed).getD later)

/-- Edits of fields keep a tree sound. -/
theorem Sound.revised {ids : Allocator} {shape later : Shape} (hsound : shape.Sound ids)
    (h : shape.Revised later) : later.Sound ids := by
  induction h with
  | same => exact hsound
  | setField hlater hnode hset ih =>
    refine ih.update hnode (Nat.le_refl _) ((ih.of_find? hnode).setField hset) fun id hid _ => ?_
    exact ids_setField hset ▸ hid

end Shape

end SdfScene
