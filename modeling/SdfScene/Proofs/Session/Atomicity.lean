import SdfScene.Proofs.Scene.Steps
import SdfScene.Proofs.Session.Compiling
import SdfScene.Proofs.Shape.Fields

/-!
# Failed edits change nothing

An edit of a session is all or nothing, although it is several steps on the desk: if it fails,
the scene and the history are what they were. The allocator is as well, unless an id that it
issues is taken, which it is not where the floor covers the ids of the scene.
-/

namespace SdfScene

open Shape

/-! Vectors from text. -/

/-- A text with a component that is no number is no vector. -/
theorem Vec3.ofEditorText_error {text part : List Char} (hpart : part ∈ Text.pieces ',' text)
    (hbad : ∀ x, Single.ofEditorText part ≠ .ok x) : ∃ e, ofEditorText text = .error e := by
  cases h : ofEditorText text with
  | error e => exact ⟨e, rfl⟩
  | ok v =>
    rw [ofEditorText] at h
    split at h
    · next hpieces =>
      obtain ⟨x, hx, h⟩ := Outcome.bind_eq_ok.mp h
      obtain ⟨y, hy, h⟩ := Outcome.bind_eq_ok.mp h
      obtain ⟨z, hz, -⟩ := Outcome.bind_eq_ok.mp h
      rw [hpieces] at hpart
      simp only [List.mem_cons, List.not_mem_nil, or_false] at hpart
      rcases hpart with rfl | rfl | rfl
      · exact absurd hx (hbad x)
      · exact absurd hy (hbad y)
      · exact absurd hz (hbad z)
    · cases h

namespace Shape

/-- A field of a node that holds a vector. -/
def TakesVector (field : String) (shape : Shape) : Prop :=
  field = "transform.position" ∨ field = "transform.rotation" ∨
    match shape with
    | .primitive body _ _ _ => field = "color" ∨ body.kind.signature.lookup field = some .vector
    | _ => False

/-- The persisted fields of the type of vectors are slots that hold vectors. -/
private theorem exists_slot_of_lookup {body : Primitive} {color : Vec3} {field : String}
    (h : body.kind.signature.lookup field = some .vector) :
    ∃ old, (field, .param (.vector old)) ∈ body.slots color := by
  obtain ⟨front, back, hfields, -⟩ := List.lookup_eq_some_iff.mp h
  have hfield : (field, ParamType.vector) ∈ body.kind.signature := by simp [hfields]
  rw [← Primitive.map_type_persisted, Primitive.persisted_eq_named] at hfield
  obtain ⟨⟨name, value⟩, hnamed, hsame⟩ := List.mem_map.mp hfield
  cases value with
  | scalar x => cases hsame
  | vector v =>
    cases hsame
    exact ⟨v, List.mem_append_left _ (List.mem_map_of_mem hnamed)⟩

/-- A vector that is no vector as text is set nowhere. -/
theorem setField_vector_error {field text : String} {shape : Shape} {e : InvalidValue}
    (hfield : shape.TakesVector field) (h : Vec3.ofEditorText text.toList = .error e) :
    shape.setField field text = .error e := by
  rcases hfield with rfl | rfl | hfield
  · have hpart : transformField? "transform.position" = some "position" := by decide +kernel
    have hname : TransformPart.ofName? "position" = some .position := by decide +kernel
    simp only [setField, hpart, hname, Transform.setPart, h, Except.map]
  · have hpart : transformField? "transform.rotation" = some "rotation" := by decide +kernel
    have hname : TransformPart.ofName? "rotation" = some .rotation := by decide +kernel
    simp only [setField, hpart, hname, Transform.setPart, h, Except.map]
  · cases shape with
    | combinator => exact hfield.elim
    | custom => exact hfield.elim
    | primitive body transform color id =>
      have hslot : ∃ old, (field, .param (.vector old)) ∈ body.slots color := by
        rcases hfield with rfl | hparam
        · exact ⟨color, List.mem_append_right _ (List.mem_singleton_self _)⟩
        · exact exists_slot_of_lookup hparam
      obtain ⟨old, hslot⟩ := hslot
      have hown : (primitive body transform color id).ownSlots = body.slots color := rfl
      rw [← hown] at hslot
      simp only [setField, transformField?_of_mem_ownSlots hslot, setOwnField,
        Primitive.setField_vector_error hslot h, Except.map]

end Shape

/-! The allocator. -/

/-- A change of kind that fails has not issued an id, if the next one is not taken. -/
theorem Desk.eq_of_changeKind_error {desk after : Desk} {child parent : NodeId} {kind : Kind}
    {e : SceneError} (hscene : desk.scene.Numbered desk.ids) (hroom : desk.ids.floor + 1 < 2 ^ 64)
    (h : desk.changeKind child kind parent = (.error e, after)) : after = desk := by
  rw [changeKind] at h
  split at h
  · exact (Prod.mk.inj h).2.symm
  · next group hgroup =>
    split at h
    · exact (Prod.mk.inj h).2.symm
    · next hold =>
      rw [Bool.not_eq_true', Bool.not_eq_false] at hold
      have hnext := hscene.covered.next_notMem hroom
      obtain ⟨hid, node, hnode, -⟩ := Scene.exists_combinator_of_group hgroup
      have hparent : parent ∈ desk.scene.tree.ids :=
        isSome_find?.mp (Option.isSome_of_eq_some hnode)
      have hfree : ¬((ofKind desk.ids.next.1 kind).id = group.id ∨
          ((ofKind desk.ids.next.1 kind).id ≠ child ∧
            hasChild (ofKind desk.ids.next.1 kind).id group.children)) := by
        rw [id_ofKind, Scene.hasChild_eq_false hgroup hnext, hid]
        rintro (hsame | ⟨-, hfalse⟩)
        · exact hnext (hsame ▸ hparent)
        · cases hfalse
      obtain ⟨removal, insertion, -, -, -, -, hreplace⟩ :=
        Group.exists_replaced (hscene.keyed parent group hgroup) hold hfree
      simp only [Shape.create, hreplace, Prod.mk.injEq, reduceCtorEq, false_and] at h

namespace Session

/-- The outcome of some steps on the desk of a session, and the session that they leave. -/
def carryOut {α : Type} (session : Session) (steps : Desk.Steps α) :
    Except SceneError α × Session :=
  ((session.desk.carryOut steps).1, { session with desk := (session.desk.carryOut steps).2 })

/-- A call is some steps on the desk of a session, and if it fails it has changed neither the
scene nor the history, and no allocator that has a fresh id. -/
structure AllOrNothing {α : Type} (session : Session) (steps : Desk.Steps α)
    (call : Except SceneError α × Session) : Prop where
  stepwise : session.desk.scene.Keyed → session.carryOut steps = call
  unchanged : ∀ e, call.1 = .error e →
    call.2.desk.scene = session.desk.scene ∧ call.2.desk.history = session.desk.history
  allocator : ∀ e, call.1 = .error e → session.desk.scene.Numbered session.desk.ids →
    session.desk.ids.floor + 1 < 2 ^ 64 → call.2.desk.ids = session.desk.ids

/-- An edit that leaves everything to its success is all or nothing. -/
theorem allOrNothing_edit {α : Type} {session : Session} {steps : Desk.Steps α}
    {outcome : Except SceneError (α × Desk)}
    (hsteps : session.desk.scene.Keyed →
      session.desk.carryOut steps = session.desk.settle outcome) :
    session.AllOrNothing steps (session.edit outcome) := by
  cases outcome with
  | error e =>
    refine ⟨fun hkeyed => ?_, fun _ _ => ⟨rfl, rfl⟩, fun _ _ _ _ => rfl⟩
    simp only [carryOut, hsteps hkeyed]
    rfl
  | ok success =>
    refine ⟨fun hkeyed => ?_, fun e h => ?_, fun e h => ?_⟩
    · simp only [carryOut, hsteps hkeyed]
      rfl
    · cases h
    · cases h

theorem allOrNothing_changeKind (session : Session) (child : NodeId) (kind : Kind)
    (parent : NodeId) :
    session.AllOrNothing (.changeKind child kind parent) (session.changeKind child kind parent) := by
  refine ⟨fun hkeyed => ?_, fun e herror => ?_, fun e herror hscene hroom => ?_⟩
  · rw [carryOut, session.desk.carryOut_changeKind child kind parent hkeyed]
    rfl
  · rcases hchange : session.desk.changeKind child kind parent with ⟨result, after⟩
    simp only [changeKind, hchange] at herror ⊢
    subst herror
    rcases Desk.changeKind_error hchange with rfl | rfl
    · exact ⟨rfl, rfl⟩
    · exact ⟨rfl, rfl⟩
  · rcases hchange : session.desk.changeKind child kind parent with ⟨result, after⟩
    simp only [changeKind, hchange] at herror ⊢
    subst herror
    rw [Desk.eq_of_changeKind_error hscene hroom hchange]

/-- Failed edits change nothing: every edit of a session is all or nothing, a compilation that
fails leaves the session, a replacement that fails in steps has not taken out anything, and a
vector of which one component is no number leaves the whole vector. -/
theorem edits_allOrNothing (session : Session) :
    ((∀ kind parent, session.AllOrNothing (.add kind parent) (session.add kind parent)) ∧
      (∀ shape parent, session.AllOrNothing (.insert shape parent) (session.insert shape parent)) ∧
      (∀ child parent, session.AllOrNothing (.delete child parent) (session.delete child parent)) ∧
      (∀ id, session.AllOrNothing (.remove id) (session.remove id)) ∧
      (∀ old new parent,
        session.AllOrNothing (.replace old new parent) (session.replace old new parent)) ∧
      (∀ child kind parent,
        session.AllOrNothing (.changeKind child kind parent)
          (session.changeKind child kind parent)) ∧
      ∀ id field text,
        session.AllOrNothing (.setField id field text) (session.setField id field text)) ∧
    (∀ id e, (session.compile id).1 = .error e → (session.compile id).2 = session) ∧
    (∀ old new parent e, session.desk.scene.Keyed →
      (session.carryOut (.replace old new parent)).1 = .error e →
        (session.carryOut (.replace old new parent)).2 = session) ∧
    ∀ id node field text part, session.desk.scene.find? id = some node → node.TakesVector field →
      part ∈ Text.pieces ',' text.toList → (∀ x, Single.ofEditorText part ≠ .ok x) →
        ∃ e, session.setField id field text = (.error e, session) := by
  have hreplace : ∀ old new parent,
      session.AllOrNothing (.replace old new parent) (session.replace old new parent) :=
    fun old new parent => allOrNothing_edit (session.desk.carryOut_replace old new parent)
  refine ⟨⟨?_, ?_, ?_, ?_, hreplace, ?_, ?_⟩, ?_, ?_, ?_⟩
  · exact fun kind parent => allOrNothing_edit fun _ => session.desk.carryOut_add kind parent
  · exact fun shape parent => allOrNothing_edit fun _ => session.desk.carryOut_insert shape parent
  · exact fun child parent => allOrNothing_edit fun _ => session.desk.carryOut_delete child parent
  · exact fun id => allOrNothing_edit fun _ => session.desk.carryOut_remove id
  · exact session.allOrNothing_changeKind
  · exact fun id field text =>
      allOrNothing_edit fun _ => session.desk.carryOut_setField id field text
  · intro id e h
    simp only [compile] at h ⊢
    split at h
    · rfl
    · cases h
  · intro old new parent e hkeyed h
    rw [(hreplace old new parent).stepwise hkeyed, replace] at h ⊢
    cases hedit : session.desk.replace old new parent with
    | error e => rfl
    | ok success =>
      rw [hedit] at h
      cases h
  · intro id node field text part hnode hfield hpart hbad
    obtain ⟨e, hvector⟩ := Vec3.ofEditorText_error hpart hbad
    refine ⟨.invalidValue e, ?_⟩
    simp only [setField, Desk.setField, hnode, setField_vector_error hfield hvector, edit]

/-- A piece of code cannot be replaced by one with the id of its sibling. -/
theorem edits_allOrNothing_of_nested :
    let call := nested.replace ⟨"2"⟩ (.custom "z" .identity ⟨"3"⟩) ⟨"1"⟩
    call.1 = .error (.duplicateId ⟨"3"⟩) ∧ call.2.desk.scene = nested.desk.scene ∧
      call.2.desk.history = nested.desk.history := by
  intro call
  have hfails : call.1 = .error (.duplicateId ⟨"3"⟩) := rfl
  exact ⟨hfails, ((edits_allOrNothing nested).1.2.2.2.2.1 _ _ _).unchanged _ hfails⟩

end Session

end SdfScene
