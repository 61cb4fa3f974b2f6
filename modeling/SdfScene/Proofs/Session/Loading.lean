import SdfScene.Proofs.Codec.Builtin
import SdfScene.Proofs.Storage.Working
import SdfScene.Session.Basic

/-!
# What loading makes of a store

Loading asks the store once for the displayed shape and once for the camera. What it makes
of an answer is a function of the answer and, for the shape, of the allocator.
-/

namespace SdfScene

variable {σ : Type} (store : Store (StateM σ))

namespace Store

/-- The answer of a store to a question for an entry, and the state afterwards. -/
def answer (key : String) (storage : σ) : Except IoError (Option String) × σ :=
  (store.get key).run.run storage

/-- As long as a store works, it answers with the entry under the key. -/
theorem WorksWith.answer {store : Store (StateM σ)} {works : σ → Prop}
    {kept? : σ → String → Option String} {keys : List String}
    (hstore : store.WorksWith keys works kept?) {storage : σ} (hworks : works storage)
    {key : String} (hkey : key ∈ keys) :
    (store.answer key storage).1 = .ok (kept? storage key) ∧
      works (store.answer key storage).2 ∧
      ∀ other ∈ keys, kept? (store.answer key storage).2 other = kept? storage other := by
  obtain ⟨later, hget, hlater, hkept⟩ := hstore.get key hkey storage hworks
  rw [Store.answer, hget]
  exact ⟨rfl, hlater, hkept⟩

/-- The shape that an answer stands for, with the allocator after its ids were observed, or
the built-in one. -/
def contentOf (ids : Allocator) : Except IoError (Option String) → Shape × Allocator
  | .ok (some text) =>
    match Shape.restore text ids with
    | .ok restored => restored
    | .error _ => (Builtin.content, Builtin.observe ids)
  | _ => (Builtin.content, Builtin.observe ids)

theorem run_loadContentOrBuiltin (ids : Allocator) (storage : σ) :
    (store.loadContentOrBuiltin ids).run storage =
      (contentOf ids (store.answer rootKey storage).1, (store.answer rootKey storage).2) := by
  simp only [loadContentOrBuiltin, loadContent, Builtin.restoreContent_eq, answer, bind,
    ExceptT.bind, ExceptT.run, StateT.bind, StateT.run, ExceptT.mk, ExceptT.bindCont, liftM,
    monadLift, MonadLift.monadLift, ExceptT.lift, Functor.map, StateT.map]
  generalize store.get rootKey storage = found
  obtain ⟨found, later⟩ := found
  cases found with
  | error e => rfl
  | ok entry =>
    cases entry with
    | none => rfl
    | some text =>
      simp only [contentOf, pure]
      cases Shape.restore text ids <;> rfl

/-- The shape that is loaded was restored from the answer, or is the built-in one. -/
theorem contentOf_cases (ids : Allocator) (found : Except IoError (Option String)) :
    (∃ text, found = .ok (some text) ∧ Shape.restore text ids = .ok (contentOf ids found)) ∨
      contentOf ids found = (Builtin.content, Builtin.observe ids) := by
  cases found with
  | error e => exact Or.inr rfl
  | ok entry =>
    cases entry with
    | none => exact Or.inr rfl
    | some text =>
      simp only [contentOf]
      cases hrestore : Shape.restore text ids with
      | error e => exact Or.inr rfl
      | ok restored => exact Or.inl ⟨text, rfl, hrestore⟩

/-- The camera that an answer stands for, or the built-in one. -/
def cameraOf : Except IoError (Option String) → Camera
  | .ok (some text) =>
    match Camera.ofDocument text with
    | .ok camera => camera
    | .error _ => Builtin.camera
  | _ => Builtin.camera

theorem run_loadCameraOrBuiltin (storage : σ) :
    store.loadCameraOrBuiltin.run storage =
      (cameraOf (store.answer cameraKey storage).1, (store.answer cameraKey storage).2) := by
  simp only [loadCameraOrBuiltin, loadCamera, Builtin.restoreCamera_eq, answer, bind,
    ExceptT.bind, ExceptT.run, StateT.bind, StateT.run, ExceptT.mk, ExceptT.bindCont, liftM,
    monadLift, MonadLift.monadLift, ExceptT.lift, Functor.map, StateT.map]
  generalize store.get cameraKey storage = found
  obtain ⟨found, later⟩ := found
  cases found with
  | error e => rfl
  | ok entry =>
    cases entry with
    | none => rfl
    | some text =>
      simp only [cameraOf, pure]
      cases Camera.ofDocument text <;> rfl

end Store

/-- A session is reset to the built-in scene and camera. -/
theorem Session.reset_eq (session : Session) :
    session.reset = { session with camera := Builtin.camera }.adopt
      ((Scene.ofContent Builtin.content).lowerContent session.flatten
        (Builtin.observe session.desk.ids)) := by
  rw [reset, Builtin.restoreContent_eq, Builtin.restoreCamera_eq]

/-- Loading puts the shape of the first answer in the place of the scene and the camera of the
second in the place of the session's, and keeps the history. -/
theorem Session.run_load (session : Session) (storage : σ) :
    (session.load store).run storage =
      ({ session with
          desk := ⟨.ofContent
              (Store.contentOf session.desk.ids (store.answer Store.rootKey storage).1).1,
            (Store.contentOf session.desk.ids (store.answer Store.rootKey storage).1).2,
            session.desk.history⟩
          camera := Store.cameraOf
            (store.answer Store.cameraKey (store.answer Store.rootKey storage).2).1 },
        (store.answer Store.cameraKey (store.answer Store.rootKey storage).2).2) := by
  simp only [load, StateT.run_bind, store.run_loadContentOrBuiltin,
    store.run_loadCameraOrBuiltin]
  rfl

theorem Session.desk_load (session : Session) (storage : σ) :
    ((session.load store).run storage).1.desk =
      ⟨.ofContent (Store.contentOf session.desk.ids (store.answer Store.rootKey storage).1).1,
        (Store.contentOf session.desk.ids (store.answer Store.rootKey storage).1).2,
        session.desk.history⟩ := by
  rw [run_load]

theorem Session.camera_load (session : Session) (storage : σ) :
    ((session.load store).run storage).1.camera =
      Store.cameraOf (store.answer Store.cameraKey (store.answer Store.rootKey storage).2).1 := by
  rw [run_load]

/-- A session is opened on the shape of the first answer and with the camera of the second, with
nothing in its history. -/
theorem Session.run_ofStore (settings : Settings) (storage : σ) :
    (ofStore store settings).run storage =
      (⟨⟨.ofContent (Store.contentOf .fresh (store.answer Store.rootKey storage).1).1,
          (Store.contentOf .fresh (store.answer Store.rootKey storage).1).2, []⟩,
        Store.cameraOf (store.answer Store.cameraKey (store.answer Store.rootKey storage).2).1,
        settings.flatten, settings.publishPreview, none⟩,
        (store.answer Store.cameraKey (store.answer Store.rootKey storage).2).2) := by
  simp only [ofStore, StateT.run_bind, store.run_loadContentOrBuiltin,
    store.run_loadCameraOrBuiltin]
  rfl

theorem Session.desk_ofStore (settings : Settings) (storage : σ) :
    ((ofStore store settings).run storage).1.desk =
      ⟨.ofContent (Store.contentOf .fresh (store.answer Store.rootKey storage).1).1,
        (Store.contentOf .fresh (store.answer Store.rootKey storage).1).2, []⟩ := by
  rw [run_ofStore]

theorem Session.camera_ofStore (settings : Settings) (storage : σ) :
    ((ofStore store settings).run storage).1.camera =
      Store.cameraOf (store.answer Store.cameraKey (store.answer Store.rootKey storage).2).1 := by
  rw [run_ofStore]

theorem Session.flatten_ofStore (settings : Settings) (storage : σ) :
    ((ofStore store settings).run storage).1.flatten = settings.flatten := by
  rw [run_ofStore]

theorem Session.run_ofStore_snd (settings : Settings) (storage : σ) :
    ((ofStore store settings).run storage).2 =
      (store.answer Store.cameraKey (store.answer Store.rootKey storage).2).2 := by
  rw [run_ofStore]

/-! Nothing is saved in an empty memory, so the built-in scene and camera are loaded. -/

theorem Session.load_empty (session : Session) :
    (session.load Memory.store).run Memory.empty =
      ({ session with
          desk := ⟨.ofContent Builtin.content, Builtin.observe session.desk.ids,
            session.desk.history⟩
          camera := Builtin.camera }, Memory.empty) := by
  rw [run_load]
  rfl

theorem Session.ofStore_empty (settings : Settings) :
    (ofStore Memory.store settings).run Memory.empty =
      (⟨⟨.ofContent Builtin.content, Builtin.observe .fresh, []⟩, Builtin.camera,
        settings.flatten, settings.publishPreview, none⟩, Memory.empty) := by
  rw [run_ofStore]
  rfl

end SdfScene
