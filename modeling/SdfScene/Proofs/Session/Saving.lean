import SdfScene.Builtin
import SdfScene.Proofs.Session.Run
import SdfScene.Proofs.Storage.Atomic

/-!
# Saving when calls fail

A save is two calls, one for each entry, and the call for the camera is made only after the one
for the shape went well. Whichever of them fails, no entry is left with anything but what it had
or the document of the session, and a save that is told to have gone well did write both. It
can be told to have failed with both documents in place, but only if the call that failed had
nothing to change.
-/

namespace SdfScene

variable {σ : Type}

/-- The documents are what is under the keys of a session. -/
structure Documents.StandIn (documents : Documents) (kept : String → Option String) : Prop where
  root : kept Store.rootKey = documents.root
  camera : kept Store.cameraKey = some documents.camera

namespace Session

variable (session : Session) (store : Store (StateM σ)) (kept? : σ → String → Option String)

/-- The call for the shape: its document, or no entry if the scene is empty. -/
def saveRoot : ExceptT IoError (StateM σ) Unit := store.write Store.rootKey session.documents.root

/-- The call for the camera. -/
def saveCamera : ExceptT IoError (StateM σ) Unit :=
  store.write Store.cameraKey (some session.documents.camera)

/-- A call of a save fails whose entry is already what the call would have made of it. -/
inductive FailsIdly (storage : σ) : Prop
  | root {e : IoError} {later : σ}
      (hcall : (session.saveRoot store).run.run storage = (.error e, later))
      (hsame : kept? storage Store.rootKey = session.documents.root)
  | camera {e : IoError} {between later : σ}
      (hroot : (session.saveRoot store).run.run storage = (.ok (), between))
      (hcall : (session.saveCamera store).run.run between = (.error e, later))
      (hsame : kept? storage Store.cameraKey = some session.documents.camera)

/-- A document of the shape is there unless the scene is empty. -/
theorem documents_root_eq_none :
    session.documents.root = none ↔ session.desk.scene.shapes = [] := by
  rw [documents, Scene.content?]
  cases session.desk.scene.shapes with
  | nil => exact iff_of_true rfl rfl
  | cons shape shapes => exact iff_of_false (Option.some_ne_none _) (List.cons_ne_nil _ _)

/-- A save encodes the shape and the camera by itself, and brings the entries to the same
documents: it is its two calls, with their failures as errors of the scene. -/
theorem save_eq :
    session.save store = (do
      ExceptT.adapt SceneError.io (session.saveRoot store)
      ExceptT.adapt SceneError.io (session.saveCamera store)) := by
  rw [save, saveRoot, saveCamera, documents]
  cases session.desk.scene.content? with
  | none => rfl
  | some content => rfl

variable {session store kept?} {storage later : σ}

/-- A save ends with the first call that fails, or with both gone well. -/
theorem save_cases {outcome : Except SceneError Unit}
    (h : (session.save store).run.run storage = (outcome, later)) :
    (∃ e, (session.saveRoot store).run.run storage = (.error e, later) ∧
      outcome = .error (.io e)) ∨
    ∃ between, (session.saveRoot store).run.run storage = (.ok (), between) ∧
      ((∃ e, (session.saveCamera store).run.run between = (.error e, later) ∧
        outcome = .error (.io e)) ∨
      ((session.saveCamera store).run.run between = (.ok (), later) ∧ outcome = .ok ())) := by
  rw [save_eq, Outcome.run_bind, Outcome.run_adapt] at h
  rcases hroot : (session.saveRoot store).run.run storage with ⟨e | done, between⟩
  · rw [hroot] at h
    obtain ⟨rfl, rfl⟩ := Prod.mk.inj h
    exact Or.inl ⟨e, rfl, rfl⟩
  · rw [hroot] at h
    dsimp only at h
    rw [Outcome.run_adapt] at h
    refine Or.inr ⟨between, rfl, ?_⟩
    rcases hcamera : (session.saveCamera store).run.run between with ⟨e | done, last⟩
    · rw [hcamera] at h
      obtain ⟨rfl, rfl⟩ := Prod.mk.inj h
      exact Or.inl ⟨e, rfl, rfl⟩
    · rw [hcamera] at h
      obtain ⟨rfl, rfl⟩ := Prod.mk.inj h
      exact Or.inr ⟨rfl, rfl⟩

section Entries

variable (hstore : store.Atomic Store.sessionKeys kept?)

include hstore

/-- What the call for the shape leaves under both keys. -/
theorem kept_saveRoot {outcome : Except IoError Unit}
    (h : (session.saveRoot store).run.run storage = (outcome, later)) :
    kept? later Store.rootKey =
        Store.settled (kept? storage Store.rootKey) session.documents.root outcome ∧
      kept? later Store.cameraKey = kept? storage Store.cameraKey := by
  have hkey : Store.rootKey ∈ Store.sessionKeys := by decide
  obtain ⟨hown, hothers⟩ := hstore.write hkey h
  exact ⟨hown, hothers _ (by decide) (by decide)⟩

/-- What the call for the camera leaves under both keys. -/
theorem kept_saveCamera {outcome : Except IoError Unit}
    (h : (session.saveCamera store).run.run storage = (outcome, later)) :
    kept? later Store.rootKey = kept? storage Store.rootKey ∧
      kept? later Store.cameraKey =
        Store.settled (kept? storage Store.cameraKey) (some session.documents.camera) outcome := by
  have hkey : Store.cameraKey ∈ Store.sessionKeys := by decide
  obtain ⟨hown, hothers⟩ := hstore.write hkey h
  exact ⟨hothers _ (by decide) (by decide), hown⟩

/-- A save that went well has brought both entries to the documents. -/
theorem standIn_of_save (h : (session.save store).run.run storage = (.ok (), later)) :
    session.documents.StandIn (kept? later) := by
  rcases save_cases h with ⟨e, -, herror⟩ | ⟨between, hroot, ⟨e, -, herror⟩ | ⟨hcamera, -⟩⟩
  · cases herror
  · cases herror
  · obtain ⟨hkept, hwritten⟩ := kept_saveCamera hstore hcamera
    exact ⟨hkept.trans (kept_saveRoot hstore hroot).1, hwritten⟩

end Entries

/-- Where calls succeed, a save does. -/
theorem exists_save {works : σ → Prop} (hready : store.Ready Store.sessionKeys works)
    (hworks : works storage) :
    ∃ saved, (session.save store).run.run storage = (.ok (), saved) := by
  have hroot : Store.rootKey ∈ Store.sessionKeys := by decide
  have hcamera : Store.cameraKey ∈ Store.sessionKeys := by decide
  obtain ⟨between, hfirst, hbetween⟩ := hready.write hroot session.documents.root hworks
  obtain ⟨saved, hsecond, -⟩ := hready.write hcamera (some session.documents.camera) hbetween
  refine ⟨saved, ?_⟩
  rw [save_eq, Outcome.run_bind, Outcome.run_adapt, saveRoot, hfirst]
  dsimp only
  rw [Outcome.run_adapt, saveCamera, hsecond]

/-- Whichever calls fail, if a call that fails leaves its entry as it was: after a save each entry
is what it was or the document of the session, and that of the camera has changed only if the one
of the shape was brought to its document first. The save went well exactly if both documents are
in place and no call has failed that had nothing to change. The document of the shape is absent
exactly in an empty scene. The session stays as it is, and a later save puts both documents in
place if its calls succeed. -/
theorem save_settles (hstore : store.Atomic Store.sessionKeys kept?)
    {outcome : Except SceneError Unit}
    (hsave : (session.save store).run.run storage = (outcome, later)) :
    (kept? later Store.rootKey = kept? storage Store.rootKey ∨
      kept? later Store.rootKey = session.documents.root) ∧
    (kept? later Store.cameraKey = kept? storage Store.cameraKey ∨
      kept? later Store.cameraKey = some session.documents.camera) ∧
    (kept? later Store.cameraKey ≠ kept? storage Store.cameraKey →
      (∃ between, (session.saveRoot store).run.run storage = (.ok (), between)) ∧
        kept? later Store.rootKey = session.documents.root) ∧
    (outcome = .ok () ↔
      session.documents.StandIn (kept? later) ∧ ¬ session.FailsIdly store kept? storage) ∧
    (session.documents.root = none ↔ session.desk.scene.shapes = []) ∧
    Operation.save.apply store session storage = (session, later) ∧
    (∀ works, store.Ready Store.sessionKeys works → ∀ again, works again →
      ∃ saved, (session.save store).run.run again = (.ok (), saved) ∧
        session.documents.StandIn (kept? saved)) := by
  have happly : Operation.save.apply store session storage = (session, later) := by
    rw [Operation.apply, hsave]
  have hagain : ∀ works, store.Ready Store.sessionKeys works → ∀ again, works again →
      ∃ saved, (session.save store).run.run again = (.ok (), saved) ∧
        session.documents.StandIn (kept? saved) := by
    intro works hready again hworks
    obtain ⟨saved, hsaved⟩ := exists_save hready hworks
    exact ⟨saved, hsaved, standIn_of_save hstore hsaved⟩
  rcases save_cases hsave with
    ⟨e, hroot, rfl⟩ | ⟨between, hroot, ⟨e, hcamera, rfl⟩ | ⟨hcamera, rfl⟩⟩
  · obtain ⟨hshape, hview⟩ := kept_saveRoot hstore hroot
    refine ⟨Or.inl hshape, Or.inl hview, fun hchanged => absurd hview hchanged, ?_,
      session.documents_root_eq_none, happly, hagain⟩
    refine iff_of_false (fun h => nomatch h) fun ⟨hplace, hidle⟩ => hidle ?_
    exact .root hroot (hshape.symm.trans hplace.root)
  · obtain ⟨hshape, hview⟩ := kept_saveRoot hstore hroot
    obtain ⟨hshape', hview'⟩ := kept_saveCamera hstore hcamera
    refine ⟨Or.inr (hshape'.trans hshape), Or.inl (hview'.trans hview),
      fun hchanged => absurd (hview'.trans hview) hchanged, ?_,
      session.documents_root_eq_none, happly, hagain⟩
    refine iff_of_false (fun h => nomatch h) fun ⟨hplace, hidle⟩ => hidle ?_
    exact .camera hroot hcamera ((hview'.trans hview).symm.trans hplace.camera)
  · have hplace := standIn_of_save hstore hsave
    refine ⟨Or.inr hplace.root, Or.inr hplace.camera, fun _ => ⟨⟨between, hroot⟩, hplace.root⟩, ?_,
      session.documents_root_eq_none, happly, hagain⟩
    refine iff_of_true rfl ⟨hplace, fun hidle => ?_⟩
    rcases hidle with ⟨hcall, -⟩ | ⟨hroot', hcall, -⟩
    · cases hroot.symm.trans hcall
    · cases hroot.symm.trans hroot'
      cases hcamera.symm.trans hcall

/-- The built-in scene is saved while the camera cannot be written: the shape is in place, the
camera is what it was. An empty scene is saved there while nothing can be removed, and no entry
changes. A save of either in a sound memory catches up on it. -/
theorem save_settles_of_failing :
    let session : Session :=
      ⟨⟨.ofContent Builtin.content, .fresh, []⟩, Builtin.camera, .inPlace, false, none⟩
    let emptied : Session := { session with desk := { session.desk with scene := .empty } }
    let failing : Memory := ⟨[(Store.rootKey, "shape"), (Store.cameraKey, "camera")],
      [(.set, Store.cameraKey), (.remove, Store.rootKey)]⟩
    let later := failing.put Store.rootKey Builtin.content.encoded
    let sound : Memory := { later with failing := [] }
    ∃ (e e' : SceneError) (saved saved' : Memory),
      ((session.save Memory.store).run.run failing = (.error e, later) ∧
        later.get? Store.rootKey = session.documents.root ∧
        later.get? Store.cameraKey = failing.get? Store.cameraKey ∧
        (session.save Memory.store).run.run sound = (.ok (), saved) ∧
        session.documents.StandIn saved.get?) ∧
      (emptied.save Memory.store).run.run later = (.error e', later) ∧
        (emptied.save Memory.store).run.run sound = (.ok (), saved') ∧
        emptied.documents.StandIn saved'.get? := by
  intro session emptied failing later sound
  have hsave : (session.save Memory.store).run.run failing =
      (.error (.io (.other "store is broken")), later) := rfl
  have hempty : (emptied.save Memory.store).run.run later =
      (.error (.io (.other "store is broken")), later) := rfl
  have hwritten : later.get? Store.rootKey = session.documents.root := List.lookup_cons_self
  have hkept : later.get? Store.cameraKey = failing.get? Store.cameraKey := by
    rw [Memory.get?_put, Function.update_of_ne (by decide)]
  have hstore := Memory.atomic_store Store.sessionKeys
  obtain ⟨-, -, -, -, -, -, hagain⟩ := save_settles hstore hsave
  obtain ⟨-, -, -, -, -, -, hagain'⟩ := save_settles hstore hempty
  obtain ⟨saved, hsaved, hplace⟩ := hagain Memory.IsSound (Memory.ready_store _) sound rfl
  obtain ⟨saved', hsaved', hplace'⟩ := hagain' Memory.IsSound (Memory.ready_store _) sound rfl
  exact ⟨_, _, saved, saved', ⟨hsave, hwritten, hkept, hsaved, hplace⟩, hempty, hsaved', hplace'⟩

end Session

end SdfScene
