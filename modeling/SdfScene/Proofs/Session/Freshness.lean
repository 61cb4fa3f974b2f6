import SdfScene.Proofs.Scene.Origins
import SdfScene.Proofs.Session.Invariant

/-!
# Which ids a session can meet again

Loading observes the ids of a scene, so that no id is issued that a loaded node has. Putting
in a subtree observes nothing. If a subtree comes from outside with numbers that the allocator
has not come to, one of them may be issued later, and a new node under it takes the place of
the one that was put in. These are the only ids that can come twice: along any run, every id
of the scene was reached by the allocator or brought in from outside before it was.
-/

namespace SdfScene

open Shape Event

namespace Operation

variable {σ : Type}

/-- The ids of the subtree that an operation puts into the scene of a session. There are none
if it is refused or puts in no subtree. -/
def incoming (session : Session) : Operation → List NodeId
  | insert shape parent =>
    match session.desk.insert shape parent with
    | .error _ => []
    | .ok _ => shape.ids
  | replace old new parent =>
    match session.desk.replace old new parent with
    | .error _ => []
    | .ok _ => new.ids
  | _ => []

/-- Those of them that the allocator has not come to. -/
def foreign (session : Session) (operation : Operation) : List NodeId :=
  (operation.incoming session).filter fun id => ¬ session.desk.ids.Reached id

end Operation

/-! One step. -/

namespace Desk

/-- Every id after a step was there before, was put in, or was reached by the allocator. -/
def StemsFrom (after before : Desk) (incoming : List NodeId) : Prop :=
  ∀ id ∈ after.scene.tree.ids,
    id ∈ before.scene.tree.ids ∨ id ∈ incoming ∨ after.ids.Reached id

/-- With the same scene nothing came in. -/
theorem StemsFrom.of_scene {before after : Desk} {incoming : List NodeId}
    (h : after.scene = before.scene) : after.StemsFrom before incoming := by
  intro id hid
  rw [h] at hid
  exact Or.inl hid

/-- An edit brings in what it adds. -/
theorem Edits.stemsFrom {before after : Desk} {events : List Event} {incoming : List NodeId}
    (h : Edits before after events)
    (hincoming : ∀ id ∈ idsIn (arrived events), id ∈ incoming ∨ after.ids.Reached id) :
    after.StemsFrom before incoming :=
  fun id hid => (h.mem_ids hid).imp_right (hincoming id)

end Desk

/-- An edit that fails brings in nothing. -/
theorem Session.stemsFrom_edit {α : Type} {session : Session}
    {outcome : Except SceneError (α × Desk)} {incoming : List NodeId}
    (hok : ∀ result desk, outcome = .ok (result, desk) → desk.StemsFrom session.desk incoming) :
    (session.edit outcome).2.desk.StemsFrom session.desk incoming := by
  cases outcome with
  | error e => exact .of_scene rfl
  | ok success => exact hok success.1 success.2 rfl

/-- A new node under an issued id brings in nothing that was not reached. -/
private theorem reached_of_mem_ofKind {ids later : Allocator} {kind : Kind}
    (hlater : later = ids.next.2) :
    ∀ id ∈ (ofKind ids.next.1 kind).ids, later.Reached id := by
  intro id hid
  rw [ids_ofKind, List.mem_singleton] at hid
  rw [hid, hlater]
  exact ids.reached_next

/-- No operation brings in other ids than those of its subtree and those that are issued or
observed. -/
theorem Operation.stemsFrom_apply {σ : Type} (store : Store (StateM σ)) (session : Session)
    (storage : σ) (operation : Operation) :
    (operation.apply store session storage).1.desk.StemsFrom session.desk
      (operation.incoming session) := by
  cases operation with
  | add kind parent =>
    refine Session.stemsFrom_edit fun id desk h => ?_
    intro other hother
    rcases Desk.mem_ids_add h hother with hold | rfl
    · exact Or.inl hold
    · rw [Desk.add_id h, (Desk.add_ok h).1]
      exact Or.inr (Or.inr session.desk.ids.reached_next)
  | insert shape parent =>
    refine Session.stemsFrom_edit fun id desk h => ?_
    obtain ⟨-, -, hedits⟩ := Desk.insert_ok h
    refine hedits.stemsFrom fun other hother => Or.inl ?_
    simpa [incoming, h] using hother
  | delete child parent =>
    refine Session.stemsFrom_edit fun out desk h => ?_
    obtain ⟨-, -, hedits⟩ := Desk.delete_ok h
    exact hedits.stemsFrom fun other hother => absurd hother List.not_mem_nil
  | remove id =>
    refine Session.stemsFrom_edit fun out desk h => ?_
    obtain ⟨parent, hdelete⟩ := Desk.remove_ok h
    obtain ⟨-, -, hedits⟩ := Desk.delete_ok hdelete
    exact hedits.stemsFrom fun other hother => absurd hother List.not_mem_nil
  | replace old new parent =>
    refine Session.stemsFrom_edit fun out desk h => ?_
    obtain ⟨-, -, -, hedits⟩ := Desk.replace_ok h
    refine hedits.stemsFrom fun other hother => Or.inl ?_
    simpa [incoming, h] using hother
  | changeKind child kind parent =>
    simp only [apply, Session.changeKind]
    cases h : session.desk.changeKind child kind parent with
    | mk result desk =>
      cases result with
      | error e =>
        rcases Desk.changeKind_error h with rfl | rfl
        · exact .of_scene rfl
        · exact .of_scene rfl
      | ok id =>
        obtain ⟨old, -, hids, hedits⟩ := Desk.changeKind_ok h
        refine hedits.stemsFrom fun other hother => Or.inr ?_
        simp only [arrived_deleted, arrived_added, arrived_nil, idsIn_cons, idsIn_nil,
          List.append_nil] at hother
        exact reached_of_mem_ofKind hids other hother
  | setField id field text =>
    refine Session.stemsFrom_edit fun changed desk h => ?_
    obtain ⟨⟨node, hnode, hset⟩, -, -, hscene⟩ := Desk.setField_ok h
    intro other hother
    rw [hscene] at hother
    rcases Scene.mem_ids_update hother with hold | hchanged
    · exact Or.inl hold
    · rw [ids_setField hset] at hchanged
      exact Or.inl (Scene.ids_subset_of_find? hnode hchanged)
  | compile mode id =>
    simp only [apply, Session.compile]
    split
    · exact .of_scene rfl
    · next lowered h =>
      exact fun other hother => (Scene.origin_lower h other hother).imp_right Or.inr
  | save => exact .of_scene rfl
  | load =>
    have hdesk := session.desk_load store storage
    simp only [apply, hdesk]
    have hcovers := (Store.sound_contentOf session.desk.ids
      (store.answer Store.rootKey storage).1).covered
    exact fun id hid => Or.inr (Or.inr (Scene.covers_tree_ofContent hcovers id hid))
  | reset =>
    rw [apply, Session.reset_eq]
    intro id hid
    rcases Scene.origin_lowerContent session.flatten id hid with hold | hissued
    · have hcovers := (Builtin.sound_content session.desk.ids).covered
      have hreached := Scene.covers_tree_ofContent hcovers id hold
      have hle := Scene.floor_le_lowerContent (.ofContent Builtin.content) session.flatten
        (Builtin.observe session.desk.ids)
      exact Or.inr (Or.inr (Allocator.Reached.mono hreached hle))
    · exact Or.inr (Or.inr hissued)
  | takeHistory => exact .of_scene rfl

/-! Runs. -/

namespace Workspace

variable {σ : Type} (store : Store (StateM σ))

/-- The ids that the operations of a run bring in before the allocator comes to them. -/
def foreign : Workspace σ → List Operation → List NodeId
  | _, [] => []
  | work, operation :: operations =>
    operation.foreign work.session ++ foreign (work.perform store operation) operations

/-- Every id of the scene was reached by the allocator or is one of some that are known. -/
def ReachedBut (work : Workspace σ) (known : List NodeId) : Prop :=
  ∀ id ∈ work.session.desk.scene.tree.ids, id ∈ known ∨ work.session.desk.ids.Reached id

/-- After an operation, what it brings in unreached has to be known as well. -/
theorem ReachedBut.perform {work : Workspace σ} {known : List NodeId} (h : work.ReachedBut known)
    (operation : Operation) :
    (work.perform store operation).ReachedBut (known ++ operation.foreign work.session) := by
  have hle := operation.floor_le_apply store work.session work.storage
  intro id hid
  rw [List.mem_append]
  rcases operation.stemsFrom_apply store work.session work.storage id hid with
    hold | hincoming | hreached
  · exact (h id hold).imp Or.inl fun hreached => hreached.mono hle
  · by_cases hreached : work.session.desk.ids.Reached id
    · exact Or.inr (hreached.mono hle)
    · exact Or.inl (Or.inr (List.mem_filter.mpr ⟨hincoming, by simpa using hreached⟩))
  · exact Or.inr hreached

/-- After a run, so has all that the run brings in unreached. -/
theorem ReachedBut.run {work : Workspace σ} {known : List NodeId} (h : work.ReachedBut known)
    (operations : List Operation) :
    (work.run store operations).ReachedBut (known ++ work.foreign store operations) := by
  induction operations generalizing work known with
  | nil =>
    rw [foreign, List.append_nil]
    exact h
  | cons operation operations ih =>
    have hrest := ih (h.perform store operation)
    rw [List.append_assoc] at hrest
    exact hrest

/-- In a session that was just opened, the allocator has come to every id. -/
theorem reachedBut_ofStore (settings : Settings) (storage later : σ) :
    (start ((Session.ofStore store settings).run storage).1 later).ReachedBut [] := by
  have hdesk := Session.desk_ofStore store settings storage
  have hcovers := (Store.sound_contentOf .fresh (store.answer Store.rootKey storage).1).covered
  intro id hid
  simp only [start, hdesk] at hid ⊢
  exact Or.inr (Scene.covers_tree_ofContent hcovers id hid)

/-- After any run of a session that was opened on a store, the next id is new unless it was
brought in from outside before the allocator came to it. A node that is added under a new id
comes to the others, and one that is added under the id of a child of the same combinator
takes the place of this child and of everything below it. -/
theorem fresh_of_notMem_foreign (settings : Settings) (storage : σ) (operations : List Operation) :
    let opened := (Session.ofStore store settings).run storage
    let work := (start opened.1 opened.2).run store operations
    let foreign := (start opened.1 opened.2).foreign store operations
    let tree := work.session.desk.scene.tree
    work.session.desk.ids.floor + 1 < 2 ^ 64 →
    (∀ kind parent id later, work.session.add kind parent = (.ok id, later) →
      (id ∉ foreign → id ∉ tree.ids ∧
        later.desk.scene.tree.trace.Perm (tree.trace ++ [.ofKind id kind])) ∧
      ∀ group old, work.session.desk.scene.group parent = .ok group →
        group.child? id = some old →
          (later.desk.scene.tree.trace ++ old.trace).Perm (tree.trace ++ [.ofKind id kind])) ∧
    (∀ child kind parent id later,
      work.session.changeKind child kind parent = (.ok id, later) →
        id ∉ foreign → id ∉ tree.ids) := by
  intro opened work foreign tree hroom
  have hreached : work.ReachedBut foreign :=
    (reachedBut_ofStore store settings storage opened.2).run store operations
  have hnew : ∀ id, id = work.session.desk.ids.next.1 → id ∉ foreign → id ∉ tree.ids := by
    rintro id rfl hforeign hmem
    rcases hreached _ hmem with hknown | hnext
    · exact hforeign hknown
    · exact Allocator.not_reached_next hroom hnext
  constructor
  · intro kind parent id later hadd
    obtain ⟨desk, hok, rfl⟩ := Session.edit_eq_ok.mp hadd
    obtain ⟨group, hgroup, hexchanged⟩ := Desk.exchanged_add hok
    have hperm := hexchanged.perm_append
    refine ⟨fun hforeign => ?_, fun other old hother hold => ?_⟩
    · have hfresh := hnew id (Desk.add_id hok) hforeign
      have hfree : group.child? id = none := by
        have hnone := Scene.hasChild_eq_false hgroup hfresh
        simpa [hasChild, Group.child?] using hnone
      rw [hfree, Option.toList_none, traceIn_nil, List.append_nil] at hperm
      exact ⟨hfresh, hperm⟩
    · rw [hgroup, Except.ok.injEq] at hother
      rw [hother, hold, Option.toList_some, traceIn_cons, traceIn_nil, List.append_nil] at hperm
      exact hperm
  · intro child kind parent id later hchange hforeign
    have hok : (work.session.desk.changeKind child kind parent).1 = .ok id :=
      congrArg Prod.fst hchange
    exact hnew id (Desk.changeKind_id (Prod.ext hok rfl)) hforeign

/-- A node that another session called "6" is put into the built-in scene, whose ids go up to
five. The next node to be added is called "6" as well and takes its place. -/
theorem fresh_of_notMem_foreign_of_inserted :
    let opened := (Session.ofStore Memory.store .standard).run Memory.empty
    let inserted : Shape := .custom "y" .identity ⟨"6"⟩
    let operations : List Operation := [.insert inserted ⟨"1"⟩]
    let work := (start opened.1 opened.2).run Memory.store operations
    let tree := work.session.desk.scene.tree
    work.session.desk.ids.floor + 1 < 2 ^ 64 ∧ ⟨"6"⟩ ∈ tree.ids ∧
      ⟨"6"⟩ ∈ (start opened.1 opened.2).foreign Memory.store operations ∧
        ∃ later, work.session.add .custom ⟨"1"⟩ = (.ok ⟨"6"⟩, later) ∧
          (later.desk.scene.tree.trace ++ inserted.trace).Perm
            (tree.trace ++ [.ofKind ⟨"6"⟩ .custom]) := by
  have hopened := fresh_of_notMem_foreign Memory.store .standard Memory.empty
    [.insert (.custom "y" .identity ⟨"6"⟩) ⟨"1"⟩]
  rw [Session.ofStore_empty] at hopened ⊢
  intro opened inserted operations work tree
  have hroom : work.session.desk.ids.floor + 1 < 2 ^ 64 := by decide +kernel
  have htaken : ⟨"6"⟩ ∈ tree.ids := by decide +kernel
  obtain ⟨later, hadd⟩ :
      ∃ later, work.session.add .custom ⟨"1"⟩ = (.ok ⟨"6"⟩, later) := ⟨_, rfl⟩
  obtain ⟨group, hgroup, hchild⟩ :
      ∃ group, work.session.desk.scene.group ⟨"1"⟩ = .ok group ∧
        group.child? ⟨"6"⟩ = some inserted := ⟨_, rfl, rfl⟩
  obtain ⟨hfresh, hlost⟩ := (hopened hroom).1 .custom ⟨"1"⟩ ⟨"6"⟩ later hadd
  refine ⟨hroom, htaken, ?_, later, hadd, hlost group inserted hgroup hchild⟩
  exact not_not.mp fun hforeign => (hfresh hforeign).1 htaken

end Workspace

end SdfScene
