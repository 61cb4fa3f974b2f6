import SdfScene.Proofs.Codec.Restored
import SdfScene.Proofs.Scene.Lowering
import SdfScene.Proofs.Session.Loading
import SdfScene.Proofs.Session.Run

/-!
# Sessions stay well-formed

Whatever is done with a session, its scene stays well-formed, as long as the allocator has
ids left, the subtrees that are put in were taken out before or are sound, and no stored
shape uses the id of the root. Every operation keeps one invariant: the scene is
well-formed, and all that was taken out of it is sound for the floor that is reached.
-/

namespace SdfScene

open Shape Event

/-- The scene of a session is well-formed for its allocator. -/
def Session.WellFormed (session : Session) : Prop :=
  session.desk.scene.WellFormed session.desk.ids

/-! One step of a desk. -/

namespace Desk

/-- One desk comes after another: its scene is well-formed, and what the new events took out
was sound. -/
structure Follows (before after : Desk) : Prop where
  wellFormed : after.scene.WellFormed after.ids
  departed : ∀ shape ∈ departed (since before.history after.history), shape.Sound before.ids

/-- With the same history nothing was taken out. -/
theorem Follows.of_history {before after : Desk} (hscene : after.scene.WellFormed after.ids)
    (hhistory : after.history = before.history) : Follows before after := by
  refine ⟨hscene, ?_⟩
  rw [hhistory, since, List.drop_length]
  exact fun _ h => absurd h List.not_mem_nil

/-- What an edit takes out was sound. -/
theorem Edits.follows {before after : Desk} {events : List Event} (h : Edits before after events)
    (hbefore : before.scene.WellFormed before.ids) (hafter : after.scene.WellFormed after.ids) :
    Follows before after := by
  refine ⟨hafter, ?_⟩
  rw [h.history, since, List.drop_left]
  exact h.sound_departed hbefore

end Desk

/-- An edit that fails leaves a session as it is. -/
theorem Session.follows_edit {α : Type} {session : Session} {outcome : Except SceneError (α × Desk)}
    (hsession : session.WellFormed)
    (hok : ∀ result desk, outcome = .ok (result, desk) → session.desk.Follows desk) :
    session.desk.Follows (session.edit outcome).2.desk := by
  cases outcome with
  | error e => exact .of_history hsession rfl
  | ok success => exact hok success.1 success.2 rfl

/-! The floor never falls. -/

/-- Lowering a scene raises the floor or leaves it. -/
theorem Scene.floor_le_lowerContent (scene : Scene) (mode : FlattenMode) (ids : Allocator) :
    ids.floor ≤ (scene.lowerContent mode ids).ids.floor := by
  rw [lowerContent]
  split
  · exact Nat.le_refl _
  · exact (lower_floor_bounds mode _ _ ids).1

theorem Scene.floor_le_lower {scene : Scene} {mode : FlattenMode} {id : Option NodeId}
    {ids : Allocator} {lowered : Lowered Scene} (h : scene.lower mode id ids = .ok lowered) :
    ids.floor ≤ lowered.ids.floor := by
  rw [lower] at h
  split at h
  · exact Except.ok.inj h ▸ scene.floor_le_lowerContent mode ids
  · split at h
    · cases h
    · exact Except.ok.inj h ▸ (lower_floor_bounds mode _ _ ids).1

/-- Loading raises the floor or leaves it. -/
theorem Store.floor_le_contentOf (ids : Allocator) (found : Except IoError (Option String)) :
    ids.floor ≤ (contentOf ids found).2.floor := by
  have hcases := contentOf_cases ids found
  generalize contentOf ids found = loaded at hcases ⊢
  rcases hcases with ⟨text, -, hrestore⟩ | rfl
  · obtain ⟨-, -, -, hids⟩ := restore_eq_ok.mp hrestore
    rw [hids]
    exact Nat.le_max_left _ _
  · exact Nat.le_max_left _ _

/-! Loading. -/

namespace Builtin

/-- The built-in shape is sound, whatever was issued before. -/
theorem sound_content (ids : Allocator) : content.Sound (observe ids) := by
  have hsound : content.Sound ⟨highestId⟩ := by decide +kernel
  exact hsound.mono (Nat.le_max_right _ _)

theorem rootId_notMem_content : Scene.rootId ∉ content.ids := by decide +kernel

/-- The built-in scene is well-formed, whatever was issued before. -/
theorem wellFormed_content (ids : Allocator) :
    (Scene.ofContent content).WellFormed (observe ids) :=
  Scene.wellFormed_ofContent (sound_content ids) rootId_notMem_content

end Builtin

/-- What is loaded is sound in any case: a stored shape was checked when it was restored. -/
theorem Store.sound_contentOf (ids : Allocator) (found : Except IoError (Option String)) :
    (contentOf ids found).1.Sound (contentOf ids found).2 := by
  have hcases := contentOf_cases ids found
  generalize contentOf ids found = loaded at hcases ⊢
  rcases hcases with ⟨text, -, hrestore⟩ | rfl
  · exact sound_of_restore hrestore
  · exact Builtin.sound_content ids

/-- A loaded scene is well-formed if no stored shape uses the id of the root. -/
theorem Store.wellFormed_contentOf (ids : Allocator) (found : Except IoError (Option String))
    (hfree : ∀ text shape, found = .ok (some text) → Shape.ofDocument text = .ok shape →
      Scene.rootId ∉ shape.ids) :
    (Scene.ofContent (contentOf ids found).1).WellFormed (contentOf ids found).2 := by
  refine Scene.wellFormed_ofContent (sound_contentOf ids found) ?_
  rcases contentOf_cases ids found with ⟨text, hfound, hrestore⟩ | hbuiltin
  · exact hfree text _ hfound (restore_eq_ok.mp hrestore).1
  · rw [hbuiltin]
    exact Builtin.rootId_notMem_content

private theorem floor_le_edit {α : Type} {session : Session}
    {outcome : Except SceneError (α × Desk)}
    (hok : ∀ result desk, outcome = .ok (result, desk) → session.desk.ids.floor ≤ desk.ids.floor) :
    session.desk.ids.floor ≤ (session.edit outcome).2.desk.ids.floor := by
  cases outcome with
  | error e => exact Nat.le_refl _
  | ok success => exact hok success.1 success.2 rfl

/-- No operation takes back an id. -/
theorem Operation.floor_le_apply {σ : Type} (store : Store (StateM σ)) (session : Session)
    (storage : σ) (operation : Operation) :
    session.desk.ids.floor ≤ (operation.apply store session storage).1.desk.ids.floor := by
  cases operation with
  | add kind parent =>
    exact floor_le_edit fun id desk h => (Desk.add_ok h).1 ▸ Nat.le_succ _
  | insert shape parent =>
    exact floor_le_edit fun id desk h => (Desk.insert_ok h).2.1 ▸ Nat.le_refl _
  | delete child parent =>
    exact floor_le_edit fun id desk h => (Desk.delete_ok h).2.1 ▸ Nat.le_refl _
  | remove id =>
    refine floor_le_edit fun child desk h => ?_
    obtain ⟨parent, h⟩ := Desk.remove_ok h
    exact (Desk.delete_ok h).2.1 ▸ Nat.le_refl _
  | replace old new parent =>
    exact floor_le_edit fun id desk h => (Desk.replace_ok h).2.2.1 ▸ Nat.le_refl _
  | changeKind child kind parent =>
    simp only [apply, Session.changeKind]
    cases h : session.desk.changeKind child kind parent with
    | mk result desk =>
      cases result with
      | error e =>
        rcases Desk.changeKind_error h with rfl | rfl
        · exact Nat.le_refl _
        · exact Nat.le_succ _
      | ok id =>
        obtain ⟨old, -, hids, -⟩ := Desk.changeKind_ok h
        exact hids ▸ Nat.le_succ _
  | setField id field text =>
    exact floor_le_edit fun changed desk h => (Desk.setField_ok h).2.1 ▸ Nat.le_refl _
  | compile mode id =>
    simp only [apply, Session.compile]
    split
    · exact Nat.le_refl _
    · next lowered h => exact Scene.floor_le_lower h
  | save => exact Nat.le_refl _
  | load =>
    have hdesk := session.desk_load store storage
    simp only [apply, hdesk]
    exact Store.floor_le_contentOf _ _
  | reset =>
    rw [apply, Session.reset_eq]
    exact Nat.le_trans (Nat.le_max_left _ Builtin.highestId)
      (Scene.floor_le_lowerContent _ _ (Builtin.observe session.desk.ids))
  | takeHistory => exact Nat.le_refl _

namespace Workspace

variable {σ : Type} (store : Store (StateM σ))

/-- A subtree that may be put into the scene: one that was taken out of it before, its
fields edited or not, or any that is sound. -/
def Offers (work : Workspace σ) (shape : Shape) : Prop :=
  (∃ old ∈ work.detached, old.Revised shape) ∨ shape.Sound work.session.desk.ids

/-- An operation that is within the rules: subtrees that are put in are on offer, and a
stored shape that is loaded has no node under the id of the root. -/
def Admits (work : Workspace σ) : Operation → Prop
  | .insert shape _ => work.Offers shape
  | .replace _ new _ => work.Offers new
  | .load => ∀ text shape, (store.answer Store.rootKey work.storage).1 = .ok (some text) →
      Shape.ofDocument text = .ok shape → Scene.rootId ∉ shape.ids
  | _ => True

/-- A run all of whose operations are within the rules. -/
def Allows : Workspace σ → List Operation → Prop
  | _, [] => True
  | work, operation :: operations =>
    work.Admits store operation ∧ Allows (work.perform store operation) operations

/-- The invariant of a run. -/
structure Sound (work : Workspace σ) : Prop where
  wellFormed : work.session.WellFormed
  detached : ∀ shape ∈ work.detached, shape.Sound work.session.desk.ids

/-- What is on offer is sound. -/
theorem Sound.of_offers {work : Workspace σ} (h : work.Sound) {shape : Shape}
    (hoffer : work.Offers shape) : shape.Sound work.session.desk.ids := by
  rcases hoffer with ⟨old, hold, hrevised⟩ | hsound
  · exact (h.detached old hold).revised hrevised
  · exact hsound

/-- What is done within the rules is followed by a well-formed scene. -/
theorem Sound.follows_apply {work : Workspace σ} (h : work.Sound) {operation : Operation}
    (hadmits : work.Admits store operation)
    (hroom : (operation.apply store work.session work.storage).1.desk.ids.floor < 2 ^ 64) :
    work.session.desk.Follows (operation.apply store work.session work.storage).1.desk := by
  have hscene := h.wellFormed
  cases operation with
  | add kind parent =>
    refine Session.follows_edit hscene fun id desk hadd => ?_
    obtain ⟨hids, hedits⟩ := Desk.add_ok hadd
    have hnext : work.session.desk.ids.floor + 1 < 2 ^ 64 := by
      simp only [Operation.apply, Session.add, hadd, Session.edit, hids] at hroom
      exact hroom
    exact (hedits (Desk.next_notMem hscene hnext)).follows hscene
      (Desk.wellFormed_add hscene hnext hadd)
  | insert shape parent =>
    refine Session.follows_edit hscene fun id desk hinsert => ?_
    exact (Desk.insert_ok hinsert).2.2.follows hscene
      (Desk.wellFormed_insert hscene (h.of_offers hadmits) hinsert)
  | delete child parent =>
    refine Session.follows_edit hscene fun out desk hdelete => ?_
    exact (Desk.delete_ok hdelete).2.2.follows hscene (Desk.wellFormed_delete hscene hdelete)
  | remove id =>
    refine Session.follows_edit hscene fun out desk hremove => ?_
    obtain ⟨parent, hdelete⟩ := Desk.remove_ok hremove
    exact (Desk.delete_ok hdelete).2.2.follows hscene (Desk.wellFormed_delete hscene hdelete)
  | replace old new parent =>
    refine Session.follows_edit hscene fun out desk hreplace => ?_
    exact (Desk.replace_ok hreplace).2.2.2.follows hscene
      (Desk.wellFormed_replace hscene (h.of_offers hadmits) hreplace)
  | changeKind child kind parent =>
    simp only [Operation.apply, Session.changeKind] at hroom ⊢
    cases hchange : work.session.desk.changeKind child kind parent with
    | mk result desk =>
      rw [hchange] at hroom
      cases result with
      | error e =>
        rcases Desk.changeKind_error hchange with rfl | rfl
        · exact .of_history hscene rfl
        · exact .of_history (hscene.mono (Nat.le_succ _)) rfl
      | ok id =>
        obtain ⟨old, -, hids, hedits⟩ := Desk.changeKind_ok hchange
        simp only [hids] at hroom
        exact hedits.follows hscene (Desk.wellFormed_changeKind hscene hroom hchange)
  | setField id field text =>
    refine Session.follows_edit hscene fun changed desk hset => ?_
    exact .of_history (Desk.wellFormed_setField hscene hset) (Desk.setField_ok hset).2.2.1
  | compile mode id =>
    simp only [Operation.apply, Session.compile] at hroom ⊢
    split at hroom
    · exact .of_history hscene rfl
    · next lowered hlower =>
      exact .of_history (hscene.lower hlower hroom) rfl
  | save => exact .of_history hscene rfl
  | load =>
    have hdesk := work.session.desk_load store work.storage
    simp only [Operation.apply, hdesk] at hroom ⊢
    exact .of_history (Store.wellFormed_contentOf _ _ hadmits) rfl
  | reset =>
    have hbuiltin := Builtin.wellFormed_content work.session.desk.ids
    rw [Operation.apply, Session.reset_eq] at hroom ⊢
    exact .of_history (hbuiltin.lowerContent _ hroom) rfl
  | takeHistory =>
    refine ⟨hscene, ?_⟩
    simp only [Operation.apply, Session.takeHistory, since, List.drop_nil]
    exact fun _ h => absurd h List.not_mem_nil

/-- Every operation within the rules keeps the invariant. -/
theorem Sound.perform {work : Workspace σ} (h : work.Sound) {operation : Operation}
    (hadmits : work.Admits store operation)
    (hroom : (work.perform store operation).session.desk.ids.floor < 2 ^ 64) :
    (work.perform store operation).Sound := by
  obtain ⟨hscene, hdeparted⟩ := h.follows_apply store hadmits hroom
  have hle := operation.floor_le_apply store work.session work.storage
  refine ⟨hscene, ?_⟩
  rw [Workspace.perform, List.forall_mem_append]
  exact ⟨fun shape hshape => (h.detached shape hshape).mono hle,
    fun shape hshape => (hdeparted shape hshape).mono hle⟩

/-- A run never takes back an id. -/
theorem floor_le_run (work : Workspace σ) (operations : List Operation) :
    work.session.desk.ids.floor ≤ (work.run store operations).session.desk.ids.floor := by
  induction operations generalizing work with
  | nil => exact Nat.le_refl _
  | cons operation operations ih =>
    exact Nat.le_trans (operation.floor_le_apply store work.session work.storage)
      (ih (work.perform store operation))

/-- A run within the rules keeps the invariant. -/
theorem Sound.run {work : Workspace σ} (h : work.Sound) {operations : List Operation}
    (hallowed : work.Allows store operations)
    (hroom : (work.run store operations).session.desk.ids.floor < 2 ^ 64) :
    (work.run store operations).Sound := by
  induction operations generalizing work with
  | nil => exact h
  | cons operation operations ih =>
    obtain ⟨hadmits, hrest⟩ := hallowed
    have hmono := floor_le_run store (work.perform store operation) operations
    exact ih (h.perform store hadmits (Nat.lt_of_le_of_lt hmono hroom)) hrest hroom

/-- Every state that a session reaches within the rules is well-formed, if the state that it
started from was. -/
theorem wellFormed_run (session : Session) (storage : σ) (operations : List Operation)
    (hsession : session.WellFormed) (hallowed : (start session storage).Allows store operations)
    (hroom : ((start session storage).run store operations).session.desk.ids.floor < 2 ^ 64) :
    ((start session storage).run store operations).session.WellFormed := by
  have hstart : (start session storage).Sound :=
    ⟨hsession, fun _ h => absurd h List.not_mem_nil⟩
  exact (hstart.run store hallowed hroom).wellFormed

/-- A session on an empty store: the box is taken out and put back behind a new node, and
after one more node the scene is split and saved. -/
theorem wellFormed_run_of_opened :
    let session := ((Session.ofStore Memory.store .standard).run Memory.empty).1
    let box : Shape := .combinator .subtraction [Builtin.block, Builtin.bite]
      (.ofRatio false 2 10) .identity (.ofNumber 3)
    let operations : List Operation :=
      [.load, .delete ⟨"3"⟩ ⟨"1"⟩, .add .custom ⟨"1"⟩, .insert box ⟨"1"⟩,
        .add (.primitive .box) ⟨"1"⟩, .compile .inPlace none, .save]
    session.WellFormed ∧ (start session Memory.empty).Allows Memory.store operations ∧
      ((start session Memory.empty).run Memory.store operations).session.desk.ids.floor = 9 ∧
        ((start session Memory.empty).run Memory.store operations).session.WellFormed := by
  rw [Session.ofStore_empty]
  intro session box operations
  have hsession : session.WellFormed := Builtin.wellFormed_content .fresh
  have hload : (start session Memory.empty).perform Memory.store .load =
      start session Memory.empty := by
    rw [perform, Operation.apply, start, Session.load_empty]
    rfl
  have hdetached :
      ((start session Memory.empty).run Memory.store (operations.take 3)).detached = [box] := by
    change (((start session Memory.empty).perform Memory.store .load).run Memory.store
      [.delete ⟨"3"⟩ ⟨"1"⟩, .add .custom ⟨"1"⟩]).detached = [box]
    rw [hload]
    rfl
  have hallowed : (start session Memory.empty).Allows Memory.store operations := by
    refine ⟨fun text shape h => ?_, trivial, trivial, ?_, trivial, trivial, trivial, trivial⟩
    · cases h
    · exact Or.inl ⟨box, hdetached ▸ List.mem_singleton_self box, .same⟩
  have hfloor : ((start session Memory.empty).run Memory.store
      operations).session.desk.ids.floor = 9 := by
    change (((start session Memory.empty).perform Memory.store .load).run Memory.store
      operations.tail).session.desk.ids.floor = 9
    rw [hload]
    decide +kernel
  exact ⟨hsession, hallowed, hfloor, wellFormed_run Memory.store session Memory.empty operations
    hsession hallowed (Nat.lt_of_le_of_lt (Nat.le_of_eq hfloor) (by decide))⟩

end Workspace

end SdfScene
