import SdfScene.Proofs.Scene.Replay
import SdfScene.Proofs.Session.Compiling
import SdfScene.Proofs.Session.Invariant

/-!
# The history is complete

Whatever is done with a session short of loading another scene or splitting one in the tree,
its history tells the whole story: the events that were handed out and those still kept,
replayed from the scene at the start, lead to the nesting of the scene at the end, and to
this very scene if no field was set on the way. Writing a document out changes nothing and
is no operation here.
-/

namespace SdfScene

open Event

namespace Operation

/-- An operation all of whose changes of the nesting are recorded: it takes over no other
scene, and what it compiles is split for the moment. -/
def IsRecorded : Operation → Prop
  | .load => False
  | .reset => False
  | .compile mode _ => mode = .transient
  | _ => True

/-- The events that an operation hands out. -/
def handsOut (session : Session) : Operation → List Event
  | .takeHistory => session.takeHistory.1
  | _ => []

/-- An operation that does not set a field of a session, be it that it fails to. -/
def SetsNoField (session : Session) : Operation → Prop
  | .setField id field text => ∀ changed, (session.setField id field text).1 ≠ .ok changed
  | _ => True

end Operation

namespace Desk

/-- All that happened between two desks is known: what was kept at first and some events are
what was handed out and what is kept now; a replay of these events leads to the nesting, and
to the scene itself if all of it is `exact`; and what they deleted was there. -/
structure Accounted (before after : Desk) (handedOut events : List Event) (exact : Prop) :
    Prop where
  balance : before.history ++ events = handedOut ++ after.history
  appended : ∀ event ∈ events, event ∈ since before.history after.history
  replayed : ∃ scene, before.scene.replayAll? events = some scene ∧
    scene.skeleton = after.scene.skeleton ∧ (exact → scene = after.scene)
  snapshot : ∀ event ∈ events, event.change = .deleted →
    ∃ group, before.scene.group event.parent = .ok group ∧
      group.child? event.child.id = some event.child

variable {before after : Desk} {exact : Prop}

/-- What an edit records is known. -/
theorem Records.accounted {events : List Event} (h : Records before after events) :
    Accounted before after [] events exact := by
  refine ⟨h.history.symm, ?_, ⟨after.scene, h.replayed, rfl, fun _ => rfl⟩, h.snapshot⟩
  rw [h.history, since, List.drop_left]
  exact fun event hevent => hevent

/-- Where only fields are different, there is nothing to know. -/
theorem Accounted.of_skeleton {handedOut : List Event}
    (hhistory : before.history = handedOut ++ after.history)
    (hskeleton : before.scene.skeleton = after.scene.skeleton)
    (hexact : exact → before.scene = after.scene) : Accounted before after handedOut [] exact :=
  ⟨by rw [List.append_nil, hhistory], fun _ h => absurd h List.not_mem_nil,
    ⟨before.scene, rfl, hskeleton, hexact⟩, fun _ h => absurd h List.not_mem_nil⟩

/-- Where the scene and the history are the same, nothing happened. -/
theorem Accounted.of_same (hscene : after.scene = before.scene)
    (hhistory : after.history = before.history) : Accounted before after [] [] exact :=
  .of_skeleton hhistory.symm (hscene ▸ rfl) fun _ => hscene.symm

end Desk

/-- What an edit of a session does is known if it is known of its success. -/
theorem Session.accounted_edit {α : Type} {session : Session}
    {outcome : Except SceneError (α × Desk)} {exact : Prop}
    (hok : ∀ result desk, outcome = .ok (result, desk) →
      ∃ events, session.desk.Accounted desk [] events exact) :
    ∃ events, session.desk.Accounted (session.edit outcome).2.desk [] events exact := by
  cases outcome with
  | error e => exact ⟨[], .of_same rfl rfl⟩
  | ok success => exact hok success.1 success.2 rfl

namespace Workspace

variable {σ : Type} (store : Store (StateM σ))

/-- What an operation does to a sound workspace is known. -/
theorem Sound.accounted_apply {work : Workspace σ} (h : work.Sound) {operation : Operation}
    (hrecorded : operation.IsRecorded)
    (hroom : (operation.apply store work.session work.storage).1.desk.ids.floor < 2 ^ 64) :
    ∃ events, work.session.desk.Accounted
      (operation.apply store work.session work.storage).1.desk (operation.handsOut work.session)
      events (operation.SetsNoField work.session) := by
  cases operation with
  | add kind parent =>
    refine Session.accounted_edit fun id desk hadd => ?_
    have hnext : work.session.desk.ids.floor + 1 < 2 ^ 64 := by
      simp only [Operation.apply, Session.add, hadd, Session.edit, (Desk.add_ok hadd).1] at hroom
      exact hroom
    obtain ⟨events, hrecords⟩ :=
      Desk.records_add (Desk.next_notMem h.wellFormed hnext) hadd
    exact ⟨events, hrecords.accounted⟩
  | insert shape parent =>
    refine Session.accounted_edit fun id desk hinsert => ?_
    obtain ⟨events, hrecords⟩ := Desk.records_insert hinsert
    exact ⟨events, hrecords.accounted⟩
  | delete child parent =>
    refine Session.accounted_edit fun out desk hdelete => ?_
    obtain ⟨events, hrecords⟩ := Desk.records_delete hdelete
    exact ⟨events, hrecords.accounted⟩
  | remove id =>
    refine Session.accounted_edit fun out desk hremove => ?_
    obtain ⟨parent, hdelete⟩ := Desk.remove_ok hremove
    obtain ⟨events, hrecords⟩ := Desk.records_delete hdelete
    exact ⟨events, hrecords.accounted⟩
  | replace old new parent =>
    refine Session.accounted_edit fun out desk hreplace => ?_
    obtain ⟨events, hrecords⟩ := Desk.records_replace hreplace
    exact ⟨events, hrecords.accounted⟩
  | changeKind child kind parent =>
    simp only [Operation.apply, Session.changeKind]
    cases hchange : work.session.desk.changeKind child kind parent with
    | mk result desk =>
      cases result with
      | error e =>
        rcases Desk.changeKind_error hchange with rfl | rfl
        · exact ⟨[], .of_same rfl rfl⟩
        · exact ⟨[], .of_same rfl rfl⟩
      | ok id =>
        obtain ⟨events, hrecords⟩ := Desk.records_changeKind hchange
        exact ⟨events, hrecords.accounted⟩
  | setField id field text =>
    refine Session.accounted_edit fun changed desk hset => ?_
    obtain ⟨⟨node, hnode, hfield⟩, -, hhistory, hscene⟩ := Desk.setField_ok hset
    obtain ⟨hne, hfound⟩ := h.wellFormed.find?_tree hnode
    have hsame := Scene.skeleton_update hne hfound (Shape.skeleton_setField hfield)
    refine ⟨[], .of_skeleton hhistory.symm (hscene ▸ hsame.symm) fun hquiet => ?_⟩
    refine absurd ?_ (hquiet changed)
    simp only [Session.setField, hset, Session.edit]
  | compile mode id =>
    cases hrecorded
    have hdesk : (Operation.apply store work.session work.storage (.compile .transient id)).1.desk =
        work.session.desk := work.session.desk_compileAs_transient id
    rw [hdesk]
    exact ⟨[], .of_same rfl rfl⟩
  | save => exact ⟨[], .of_same rfl rfl⟩
  | load => exact hrecorded.elim
  | reset => exact hrecorded.elim
  | takeHistory =>
    exact ⟨[], .of_skeleton (List.append_nil _).symm rfl fun _ => rfl⟩

/-- The events that a run hands out, and those that are kept at its end. -/
def recorded : Workspace σ → List Operation → List Event
  | work, [] => work.session.desk.history
  | work, operation :: operations =>
    operation.handsOut work.session ++ recorded (work.perform store operation) operations

/-- A run in which no operation sets a field. -/
def SetsNoField : Workspace σ → List Operation → Prop
  | _, [] => True
  | work, operation :: operations =>
    operation.SetsNoField work.session ∧ SetsNoField (work.perform store operation) operations

/-- An event is one of an operation of a run that took out what its group had, as it was. -/
def TakenOut (work : Workspace σ) (operations : List Operation) (event : Event) : Prop :=
  ∃ front operation back, operations = front ++ operation :: back ∧
    event ∈ since (work.run store front).session.desk.history
      ((work.run store front).perform store operation).session.desk.history ∧
    ∃ group, (work.run store front).session.desk.scene.group event.parent = .ok group ∧
      group.child? event.child.id = some event.child

theorem TakenOut.cons {work : Workspace σ} {operation : Operation} {operations : List Operation}
    {event : Event} (h : TakenOut store (work.perform store operation) operations event) :
    TakenOut store work (operation :: operations) event := by
  obtain ⟨front, last, back, rfl, htaken⟩ := h
  exact ⟨operation :: front, last, back, rfl, htaken⟩

/-- What a run of recorded operations does to a sound workspace is known. -/
theorem Sound.accounted_run {work : Workspace σ} (h : work.Sound) {operations : List Operation}
    (hallowed : work.Allows store operations)
    (hrecorded : ∀ operation ∈ operations, operation.IsRecorded)
    (hroom : (work.run store operations).session.desk.ids.floor < 2 ^ 64) :
    ∃ events, work.recorded store operations = work.session.desk.history ++ events ∧
      (∃ scene, work.session.desk.scene.replayAll? events = some scene ∧
        scene.skeleton = (work.run store operations).session.desk.scene.skeleton ∧
        (work.SetsNoField store operations →
          scene = (work.run store operations).session.desk.scene)) ∧
      ∀ event ∈ events, event.change = .deleted → work.TakenOut store operations event := by
  induction operations generalizing work with
  | nil =>
    exact ⟨[], (List.append_nil _).symm, ⟨_, rfl, rfl, fun _ => rfl⟩,
      fun _ h => absurd h List.not_mem_nil⟩
  | cons operation operations ih =>
    obtain ⟨hadmits, hrest⟩ := hallowed
    obtain ⟨hone, hothers⟩ := List.forall_mem_cons.mp hrecorded
    have hmono := floor_le_run store (work.perform store operation) operations
    have hnext := Nat.lt_of_le_of_lt hmono hroom
    obtain ⟨events, hstep⟩ := h.accounted_apply store hone hnext
    obtain ⟨later, hkept, ⟨last, hreplay, hlast, hexact⟩, htaken⟩ :=
      ih (h.perform store hadmits hnext) hrest hothers hroom
    obtain ⟨between, hfirst, hbetween, hsame⟩ := hstep.replayed
    -- The later events are replayed from a scene with the fields that were there at first.
    obtain ⟨scene, hscene, hskeleton⟩ := Scene.exists_replayAll? hbetween hreplay
    refine ⟨events ++ later, ?_, ⟨scene, ?_, hskeleton.trans hlast, fun hquiet => ?_⟩,
      fun event hevent hdeleted => ?_⟩
    · rw [recorded, hkept, ← List.append_assoc, ← List.append_assoc]
      exact congrArg (· ++ later) hstep.balance.symm
    · rw [Scene.replayAll?_append, hfirst]
      exact hscene
    · have hthere : between = (work.perform store operation).session.desk.scene := hsame hquiet.1
      rw [hthere, hreplay, Option.some.injEq] at hscene
      exact hscene.symm.trans (hexact hquiet.2)
    · rcases List.mem_append.mp hevent with hevent | hevent
      · exact ⟨[], operation, operations, rfl, hstep.appended event hevent,
          hstep.snapshot event hevent hdeleted⟩
      · exact (htaken event hevent hdeleted).cons store

/-- The history of a session is complete. From a session with an empty history, the events
that were handed out and those that are kept at the end are replayed from the scene at the
start: the replay is never stuck and leads to the nesting of the scene at the end, and to this
very scene if no field was set. What was deleted was recorded as it was just before. -/
theorem replayAll?_recorded (session : Session) (storage : σ) (operations : List Operation)
    (hsession : session.WellFormed) (hhistory : session.desk.history = [])
    (hallowed : (start session storage).Allows store operations)
    (hrecorded : ∀ operation ∈ operations, operation.IsRecorded)
    (hroom : ((start session storage).run store operations).session.desk.ids.floor < 2 ^ 64) :
    (∃ scene, session.desk.scene.replayAll? ((start session storage).recorded store operations) =
          some scene ∧
        scene.skeleton =
          ((start session storage).run store operations).session.desk.scene.skeleton ∧
        ((start session storage).SetsNoField store operations →
          scene = ((start session storage).run store operations).session.desk.scene)) ∧
      ∀ event ∈ (start session storage).recorded store operations, event.change = .deleted →
        (start session storage).TakenOut store operations event := by
  have hstart : (start session storage).Sound :=
    ⟨hsession, fun _ h => absurd h List.not_mem_nil⟩
  obtain ⟨events, hevents, hreplayed, htaken⟩ :=
    hstart.accounted_run store hallowed hrecorded hroom
  have hall : (start session storage).recorded store operations = events := by
    rw [hevents, start, hhistory, List.nil_append]
  rw [hall]
  exact ⟨hreplayed, htaken⟩

/-- A session on an empty store: the box is taken out, its event is handed out, and after a
field was set a new node comes and another one changes its kind. -/
theorem replayAll?_recorded_of_opened :
    let session := ((Session.ofStore Memory.store .standard).run Memory.empty).1
    let operations : List Operation :=
      [.delete ⟨"3"⟩ ⟨"1"⟩, .takeHistory, .setField ⟨"1"⟩ "smoothness" "0.5", .add .custom ⟨"1"⟩,
        .changeKind ⟨"2"⟩ (.primitive .box) ⟨"1"⟩, .compile .transient none, .remove ⟨"3"⟩]
    session.WellFormed ∧ session.desk.history = [] ∧
      (start session Memory.empty).Allows Memory.store operations ∧
      (∀ operation ∈ operations, operation.IsRecorded) ∧
      ((start session Memory.empty).run Memory.store operations).session.desk.ids.floor = 7 ∧
      ((start session Memory.empty).recorded Memory.store operations).length = 4 ∧
      ∃ scene, session.desk.scene.replayAll?
          ((start session Memory.empty).recorded Memory.store operations) = some scene ∧
        scene.skeleton =
          ((start session Memory.empty).run Memory.store operations).session.desk.scene.skeleton := by
  rw [Session.ofStore_empty]
  intro session operations
  have hsession : session.WellFormed := Builtin.wellFormed_content .fresh
  have hallowed : (start session Memory.empty).Allows Memory.store operations :=
    ⟨trivial, trivial, trivial, trivial, trivial, trivial, trivial, trivial⟩
  have hrecorded : ∀ operation ∈ operations, operation.IsRecorded := by
    simp [operations, Operation.IsRecorded]
  have hfloor : ((start session Memory.empty).run Memory.store
      operations).session.desk.ids.floor = 7 := by decide +kernel
  have hlength : ((start session Memory.empty).recorded Memory.store operations).length = 4 := by
    decide +kernel
  obtain ⟨⟨scene, hscene, hskeleton, -⟩, -⟩ := replayAll?_recorded Memory.store session Memory.empty
    operations hsession rfl hallowed hrecorded (Nat.lt_of_le_of_lt (Nat.le_of_eq hfloor) (by decide))
  exact ⟨hsession, rfl, hallowed, hrecorded, hfloor, hlength, scene, hscene, hskeleton⟩

end Workspace

end SdfScene
