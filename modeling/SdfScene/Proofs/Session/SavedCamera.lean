import SdfScene.Proofs.Codec.Cameras
import SdfScene.Proofs.Session.Reopening
import SdfScene.Proofs.Session.Saving

/-!
# Saved cameras

A camera comes back from a store as it was saved, because its document gives back the vectors
that count and the others are computed from these.
-/

namespace SdfScene

open Json Codec

variable {σ : Type} {store : Store (StateM σ)} {works : σ → Prop}
  {kept? : σ → String → Option String}

namespace Store

/-- The camera whose document stands under the camera key is loaded, into the session that is
opened on the store and into any other one. -/
theorem camera_loaded (hstore : store.WorksWith sessionKeys works kept?) {storage : σ}
    (hworks : works storage) {text : String} {camera : Camera}
    (hentry : kept? storage cameraKey = some text)
    (hdocument : Camera.ofDocument text = .ok camera) :
    (store.loadCameraOrBuiltin.run storage).1 = camera ∧
      (∀ settings, ((Session.ofStore store settings).run storage).1.camera = camera) ∧
      ∀ session : Session, ((session.load store).run storage).1.camera = camera := by
  have hroot : rootKey ∈ sessionKeys := by decide
  have hcamera : cameraKey ∈ sessionKeys := by decide
  have hloaded : cameraOf (.ok (some text)) = camera := by rw [cameraOf, hdocument]
  obtain ⟨-, hbetween, hkept⟩ := hstore.answer hworks hroot
  have hfirst := (hstore.answer hworks hcamera).1
  have hsecond := (hstore.answer hbetween hcamera).1
  rw [hentry] at hfirst
  rw [hkept cameraKey hcamera, hentry] at hsecond
  refine ⟨?_, fun settings => ?_, fun session => ?_⟩
  · rw [run_loadCameraOrBuiltin, hfirst, hloaded]
  · rw [Session.camera_ofStore, hsecond, hloaded]
  · rw [Session.camera_load, hsecond, hloaded]

/-- After a successful save of a camera its document stands under the camera key. -/
theorem entry_of_saveCamera (hstore : store.WorksWith sessionKeys works kept?)
    {storage later : σ} (hworks : works storage) {camera : Camera}
    (hsave : (store.saveCamera camera).run.run storage = (.ok (), later)) :
    works later ∧ kept? later cameraKey = some camera.encoded := by
  have hcamera : cameraKey ∈ sessionKeys := by decide
  obtain ⟨hlater, hkept⟩ :=
    hstore.set _ hcamera _ storage later hworks (Outcome.run_adapt_eq_ok.mp hsave)
  rw [hkept cameraKey hcamera, Function.update_self]
  exact ⟨hlater, rfl⟩

end Store

namespace Camera

/-- Only `loc`, `at` and `up` of a camera document count. What is decoded from an object is the new
camera of these three vectors, and any object that differs in `dir` and `right` alone, each absent
or a vector, is decoded to the same camera. Anything else under one of these names, a vector under
another tag included, is refused. A new camera is decoded from its document as itself, with all
five vectors, if all its numbers are finite, and it is decoded as itself however the derived
vectors of the document are computed. So a camera that was saved, alone or with its session, is
loaded as it was. -/
theorem given_vectors_count :
    (∀ (text : String) (members : List (Option String × Doc)) (ending : Ending) (camera : Camera),
      (Doc.ofText text.toList).1 = .object members ending → ofDocument text = .ok camera →
        (∃ eye target up, camera = new eye target up ∧ GivesVector members "loc" eye ∧
          GivesVector members "at" target ∧ GivesVector members "up" up) ∧
        ∀ other others, Doc.IsObject other others →
          (besideDerived others).Perm (besideDerived members) →
          (∀ name ∈ derivedNames,
            valuesAt others name = [] ∨ ∃ v, GivesVector others name v) →
          ofDocument other = .ok camera) ∧
    (∀ (text : String) (members : List (Option String × Doc)) (ending : Ending),
      (Doc.ofText text.toList).1 = .object members ending →
        ∀ name ∈ derivedNames, ∀ doc ∈ valuesAt members name,
          (∀ v, decodeVector .vector reading doc ≠ .ok v) ∨
            (∃ tag v, tag ≠ .vector ∧ decodeVector tag reading doc = .ok v) →
          ∃ fault, ofDocument text = .error fault) ∧
    (∀ eye target up : Vec3, (∀ x ∈ numbersWith direction right (new eye target up), x.isFinite) →
      ofDocument (new eye target up).encoded = .ok (new eye target up)) ∧
    (∀ (direction right : Camera → Vec3) (camera : Camera),
      (∀ x ∈ numbersWith direction right camera, x.isFinite) →
        ofDocument (documentWith direction right camera).encoded = .ok camera) ∧
    (∀ (store : Store (StateM σ)) (works : σ → Prop) (kept? : σ → String → Option String),
      store.WorksWith Store.sessionKeys works kept? → ∀ camera : Camera,
        (∀ x ∈ numbersWith direction right camera, x.isFinite) → ∀ storage later, works storage →
        (store.saveCamera camera).run.run storage = (.ok (), later) ∨
          (store.Atomic Store.sessionKeys kept? ∧ works later ∧ ∃ session : Session,
            session.camera = camera ∧ (session.save store).run.run storage = (.ok (), later)) →
        (store.loadCameraOrBuiltin.run later).1 = camera ∧
          (∀ settings, ((Session.ofStore store settings).run later).1.camera = camera) ∧
          ∀ session : Session, ((session.load store).run later).1.camera = camera) := by
  refine ⟨fun text members ending camera hdoc hcamera => ?_,
    fun text members ending hdoc name hname doc hmem hwrong => ?_,
    fun eye target up hfinite => ofDocument_documentWith direction right _ hfinite,
    fun direction right camera hfinite => ofDocument_documentWith direction right camera hfinite,
    fun store works kept? hstore camera hfinite storage later hworks hsaved => ?_⟩
  · obtain ⟨-, hdocument⟩ := (ofDocument_object_eq_ok hdoc).mp hcamera
    refine ⟨⟨camera.eye, camera.target, camera.up, camera.new_given.symm, hdocument.eye,
      hdocument.target, hdocument.up⟩, fun other others hobject hsame hderived => ?_⟩
    exact (ofDocument_object_eq_ok hobject.fst_ofText).mpr
      ⟨hobject, hdocument.of_besideDerived hsame hderived⟩
  · cases hresult : ofDocument text with
    | error fault => exact ⟨fault, rfl⟩
    | ok camera =>
      obtain ⟨-, hdocument⟩ := (ofDocument_object_eq_ok hdoc).mp hresult
      exfalso
      -- What stands there was accepted, which leaves room for no other tag.
      rcases hdocument.derived name hname with hnone | ⟨v, only, honly, hvector⟩
      · rw [hnone] at hmem
        cases hmem
      · rw [honly, List.mem_singleton] at hmem
        subst hmem
        rcases hwrong with hwrong | ⟨tag, w, htag, hother⟩
        · exact hwrong v hvector
        · exact htag (decodeVector_tag_eq hother hvector)
  · have hdocument : ofDocument camera.encoded = .ok camera :=
      ofDocument_documentWith direction right camera hfinite
    rcases hsaved with hwrite | ⟨hatomic, hlater, session, rfl, hsave⟩
    · obtain ⟨hlater, hentry⟩ := Store.entry_of_saveCamera hstore hworks hwrite
      exact Store.camera_loaded hstore hlater hentry hdocument
    · exact Store.camera_loaded hstore hlater (Session.standIn_of_save hatomic hsave).camera
        hdocument

/-- The camera of the built-in scene: with a stale vector to the right and without a direction,
the other members the other way round, it is the same camera; with a direction that is tagged as
one of a shape it is none. -/
theorem given_vectors_count_of_stale :
    let camera := Builtin.camera
    let stale : Vec3 := ⟨.ofNat 9, .ofNat 9, .ofNat 9⟩
    let given : List (String × Doc) := [("up", vectorDoc .vector camera.up),
      ("at", vectorDoc .vector camera.target), ("loc", vectorDoc .vector camera.eye)]
    ofDocument (Doc.ofMembers (("right", vectorDoc .vector stale) :: given)).encoded = .ok camera ∧
      (∃ fault, ofDocument
        (Doc.ofMembers (("dir", vectorDoc .shapeVector stale) :: given)).encoded = .error fault) ∧
      ∃ later, (Memory.store.saveCamera camera).run.run .empty = (.ok (), later) ∧
        (Memory.store.loadCameraOrBuiltin.run later).1 = camera := by
  intro camera stale given
  have hright : (Doc.ofMembers (("right", vectorDoc .vector stale) :: given)).Written :=
    .object (by simp [given, written_vectorDoc])
  have hdir : (Doc.ofMembers (("dir", vectorDoc .shapeVector stale) :: given)).Written :=
    .object (by simp [given, written_vectorDoc])
  have hfinite : ∀ x ∈ numbersWith direction right camera, x.isFinite := by decide +kernel
  have hstale : ∀ tag, decodeVector tag reading (vectorDoc tag stale) = .ok stale :=
    fun tag => decodeVector_direct tag (by decide) 124
  obtain ⟨hcounts, hrefused, hnew, -, hsaves⟩ := given_vectors_count (σ := Memory)
  have hwhole := (written_documentWith direction right camera).isObject
  have hcamera : ofDocument camera.encoded = .ok camera := hnew _ _ _ hfinite
  refine ⟨?_, ?_, Memory.empty.put Store.cameraKey camera.encoded, ?_, ?_⟩
  · refine (hcounts _ _ _ camera hwhole.fst_ofText hcamera).2 _ _ hright.isObject ?_ ?_
    · simpa [besideDerived, derivedNames, given] using
        List.reverse_perm [(some "loc", vectorDoc .vector camera.eye),
          (some "at", vectorDoc .vector camera.target), (some "up", vectorDoc .vector camera.up)]
    · refine List.forall_mem_cons.mpr ⟨Or.inl ?_, List.forall_mem_singleton.mpr
        (Or.inr ⟨stale, vectorDoc .vector stale, ?_, hstale .vector⟩)⟩
      · simp [valuesAt, given]
      · simp [valuesAt, given]
  · refine hrefused _ _ _ hdir.isObject.fst_ofText "dir" (by decide)
      (vectorDoc .shapeVector stale) ?_ ?_
    · exact mem_valuesAt.mpr List.mem_cons_self
    · exact Or.inr ⟨.shapeVector, stale, by decide, hstale .shapeVector⟩
  · rfl
  · exact (hsaves _ _ _ (Memory.works_store.worksWith _) camera hfinite .empty _ rfl
      (Or.inl rfl)).1

end Camera

end SdfScene
