import SdfScene.Proofs.Codec.Generations
import SdfScene.Proofs.Scene.Lowering
import SdfScene.Proofs.Session.Loading
import SdfScene.Proofs.Storage.Working

/-!
# Saving and opening again

A session that splits in the tree saves what it has split. Opened again, it shows the split
shape exactly if that can be restored from its document: if the shape was split into at most
thirty-one generations and no id issued for a split is too large. Otherwise the built-in scene is
shown in its place.
-/

namespace SdfScene

open Shape

variable {σ : Type}

/-! What is lowered in the tree. -/

namespace Shape

/-- A sound tree that is lowered in the tree can be restored exactly if its split form is low
enough and there are ids for its splits: its numbers are finite, so they read back. -/
theorem restorable_lowered {shape : Shape} {ids : Allocator} (hsound : shape.Sound ids)
    (hfloor : ids.floor ≤ NodeId.maxRestored) (parent : Transform) :
    (shape.lower .inPlace parent ids).tree.Restorable ↔
      (shape.splitAbove ids.floor).height ≤ 31 ∧
        ids.floor + shape.splits ≤ NodeId.maxRestored := by
  have hmax : NodeId.maxRestored + 1 < 2 ^ 64 := by decide
  constructor
  · intro h
    have hissued := lower_inPlace_floor_le hmax shape parent ids hsound.covered hfloor h.small
    have hroom := Nat.lt_of_le_of_lt hissued (by omega : NodeId.maxRestored < 2 ^ 64)
    have heq := lower_inPlace shape parent ids hsound.covered hroom
    rw [heq] at h hissued
    exact ⟨h.low, hissued⟩
  · intro ⟨hlow, hissued⟩
    have hbound := (lower_floor_bounds .inPlace shape parent ids).2
    have hroom : (shape.lower .inPlace parent ids).ids.floor < 2 ^ 64 := by omega
    have hlowered := hsound.lower .inPlace parent hroom
    have heq := lower_inPlace shape parent ids hsound.covered hroom
    rw [heq] at hlowered ⊢
    exact .of_isFinite hlowered.distinct (hlowered.covered.mono hissued) hlow hlowered.finite

/-- A tree that was split and restored draws in either mode what the tree before it drew, since
nothing is left to split. -/
theorem lower_restored {shape : Shape} {floor : Nat} {ids : Allocator}
    (hrestore : Shape.restore (shape.splitAbove floor).encoded .fresh =
      .ok (shape.splitAbove floor, ids)) (mode : FlattenMode) (parent : Transform) :
    ((shape.splitAbove floor).lower mode parent ids).expression = shape.drawn? parent := by
  obtain ⟨hrestorable, hids⟩ := restore_encoded_eq_ok.mp hrestore
  have hissued : mode.issued (shape.splitAbove floor).splits = 0 := by
    rw [splits_splitAbove]
    cases mode <;> rfl
  have hhighest := NodeId.highest_le.mpr hrestorable.small
  have hroom : ids.floor + mode.issued (shape.splitAbove floor).splits < 2 ^ 64 := by
    rw [hissued, hids, Allocator.fresh, Nat.zero_max]
    exact Nat.lt_of_le_of_lt hhighest (by decide)
  rw [lower_expression mode _ parent ids (sound_of_restore hrestore).covered hroom,
    drawn?_splitAbove]

end Shape

/-! What is saved and loaded. -/

namespace Store

/-- The built-in scene can be saved and loaded like any other. -/
theorem restorable_builtin : Builtin.content.Restorable := by decide +kernel

/-- A shape is loaded from its own document exactly if it is restorable. -/
theorem contentOf_encoded {shape : Shape} {ids : Allocator} :
    (contentOf ids (.ok (some shape.encoded))).1 = shape ↔ shape.Restorable := by
  constructor
  · intro h
    rcases contentOf_cases ids (.ok (some shape.encoded)) with ⟨text, htext, hrestore⟩ | hbuiltin
    · cases htext
      have hrestored : contentOf ids (.ok (some shape.encoded)) = (shape, _) := Prod.ext h rfl
      rw [hrestored] at hrestore
      exact (restore_encoded_eq_ok.mp hrestore).1
    · rw [hbuiltin] at h
      exact h ▸ restorable_builtin
  · intro h
    rw [contentOf, restore_encoded_eq_ok.mpr ⟨h, rfl⟩]

end Store

namespace Session

/-- A successful save has written the displayed shape and then the camera. -/
theorem save_ok {store : Store (StateM σ)} {session : Session} {storage saved : σ}
    {shape : Shape} (hcontent : session.desk.scene.content? = some shape) :
    (session.save store).run.run storage = (.ok (), saved) ↔
      ∃ between, (store.set Store.rootKey shape.encoded).run.run storage = (.ok (), between) ∧
        (store.set Store.cameraKey session.camera.encoded).run.run between = (.ok (), saved) := by
  rw [save, hcontent, Outcome.run_bind_eq_ok]
  simp only [Store.saveContent, Store.saveCamera, Outcome.run_adapt_eq_ok]
  constructor
  · rintro ⟨⟨⟩, between, hfirst, hsecond⟩
    exact ⟨between, hfirst, hsecond⟩
  · rintro ⟨between, hfirst, hsecond⟩
    exact ⟨(), between, hfirst, hsecond⟩

/-- Compiling the whole gives the text of the displayed shape and displays what was lowered. -/
theorem compile_content {session : Session} {shape : Shape}
    (hcontent : session.desk.scene.content? = some shape) :
    let lowered := shape.lower session.flatten .identity session.desk.ids
    (session.compile none).1 = .ok lowered.text ∧
      (session.compile none).2.desk.scene.content? = some lowered.tree := by
  have hlower : session.desk.scene.lower session.flatten none session.desk.ids =
      .ok (session.desk.scene.lowerContent session.flatten session.desk.ids) := rfl
  rw [compile, hlower, Scene.lowerContent, hcontent]
  exact ⟨rfl, rfl⟩

variable {store : Store (StateM σ)} {works : σ → Prop} {kept? : σ → String → Option String}

/-- A session is opened on the entry under the root key, and the store goes on to work. -/
theorem ofStore_works (hstore : store.WorksWith Store.sessionKeys works kept?)
    {storage : σ} (hworks : works storage) (settings : Settings) :
    ((ofStore store settings).run storage).1.desk =
        ⟨.ofContent (Store.contentOf .fresh (.ok (kept? storage Store.rootKey))).1,
          (Store.contentOf .fresh (.ok (kept? storage Store.rootKey))).2, []⟩ ∧
      works ((ofStore store settings).run storage).2 := by
  have hroot : Store.rootKey ∈ Store.sessionKeys := by decide
  have hcamera : Store.cameraKey ∈ Store.sessionKeys := by decide
  obtain ⟨hanswer, hafter, -⟩ := hstore.answer hworks hroot
  rw [desk_ofStore, run_ofStore_snd, hanswer]
  exact ⟨rfl, (hstore.answer hafter hcamera).2.1⟩

/-- After a successful save the document of the displayed shape stands under the root key. -/
theorem entry_of_save (hstore : store.WorksWith Store.sessionKeys works kept?)
    {session : Session} {storage saved : σ} (hworks : works storage) {shape : Shape}
    (hcontent : session.desk.scene.content? = some shape)
    (hsave : (session.save store).run.run storage = (.ok (), saved)) :
    works saved ∧ kept? saved Store.rootKey = some shape.encoded := by
  obtain ⟨between, hroot, hcamera⟩ := (save_ok hcontent).mp hsave
  obtain ⟨hbetween, hentries⟩ := hstore.set _ (by decide) _ _ _ hworks hroot
  obtain ⟨hsaved, hentries'⟩ := hstore.set _ (by decide) _ _ _ hbetween hcamera
  refine ⟨hsaved, ?_⟩
  rw [hentries' _ (by decide), Function.update_of_ne (by decide), hentries _ (by decide),
    Function.update_self]

/-- A session that splits in the tree is compiled, saved and opened again. It shows the split
shape that was saved exactly if the shape was split into at most thirty-one generations and there
are small enough ids for all splits; then it compiles to the same code. A split shape of
thirty-two generations is lost: the built-in scene is shown. -/
theorem reopened_iff (hstore : store.Works works kept?) {settings later : Settings}
    (hmode : settings.flatten = .inPlace) {storage between saved afterwards : σ}
    (hworks : works storage) {text : String} {shape : Shape} {ids : Allocator}
    (hentry : kept? storage Store.rootKey = some text)
    (hrestore : Shape.restore text .fresh = .ok (shape, ids))
    {opened compiled reopened : Session} {code : Except SceneError String}
    (hopen : (ofStore store settings).run storage = (opened, between))
    (hcompile : opened.compile none = (code, compiled))
    (hsave : (compiled.save store).run.run between = (.ok (), saved))
    (hreopen : (ofStore store later).run saved = (reopened, afterwards)) :
    (reopened.desk.scene.content? = compiled.desk.scene.content? ↔
      (shape.splitAbove ids.floor).height ≤ 31 ∧
        ids.floor + shape.splits ≤ NodeId.maxRestored) ∧
    (reopened.desk.scene.content? = compiled.desk.scene.content? →
      (reopened.compile none).1 = code) ∧
    (∀ split, compiled.desk.scene.content? = some split → 32 ≤ split.height →
      reopened.desk.scene.content? = some Builtin.content) := by
  -- The session that is opened displays the restored shape.
  obtain ⟨hopened, hbetween⟩ := ofStore_works (hstore.worksWith _) hworks settings
  have hflatten := flatten_ofStore store settings storage
  have hloaded : Store.contentOf .fresh (.ok (some text)) = (shape, ids) := by
    rw [Store.contentOf, hrestore]
  rw [hopen, hentry, hloaded] at hopened
  rw [hopen] at hbetween hflatten
  dsimp only at hopened hbetween hflatten
  -- Compiling it displays what was lowered, and saving writes the document of that.
  obtain ⟨hcode, hsplit⟩ := compile_content
    (congrArg (fun desk : Desk => desk.scene.content?) hopened)
  rw [hcompile, hflatten, hmode, hopened] at hcode hsplit
  dsimp only at hcode hsplit
  obtain ⟨hsaved, hwritten⟩ := entry_of_save (hstore.worksWith _) hbetween hsplit hsave
  -- So the other session is opened on what this document stands for.
  obtain ⟨hreopened, -⟩ := ofStore_works (hstore.worksWith _) hsaved later
  rw [hreopen, hwritten] at hreopened
  have hshown := congrArg (fun desk : Desk => desk.scene.content?) hreopened
  dsimp only [Scene.ofContent, Scene.content?, List.head?_cons] at hshown
  have hshows : reopened.desk.scene.content? = compiled.desk.scene.content? ↔
      (shape.lower .inPlace .identity ids).tree.Restorable := by
    rw [Scene.content?, hshown, hsplit, Option.some.injEq, Store.contentOf_encoded]
  have hsound := sound_of_restore hrestore
  have hfloor : ids.floor ≤ NodeId.maxRestored := by
    obtain ⟨-, -, hsmall, hids⟩ := restore_eq_ok.mp hrestore
    rw [hids, Allocator.fresh, Nat.zero_max]
    exact NodeId.highest_le.mpr hsmall
  refine ⟨hshows.trans (restorable_lowered hsound hfloor .identity), fun hsame => ?_,
    fun split hcompiled hhigh => ?_⟩
  · obtain ⟨-, hissued⟩ :=
      (restorable_lowered hsound hfloor .identity).mp (hshows.mp hsame)
    have hbound := (lower_floor_bounds .inPlace shape .identity ids).2
    have heq := lower_inPlace shape .identity ids hsound.covered
      (Nat.lt_of_le_of_lt (Nat.le_trans hbound hissued) (by decide))
    have hrestorable := hshows.mp hsame
    rw [heq] at hreopened hcode hrestorable
    have hrestored : Shape.restore (shape.splitAbove ids.floor).encoded .fresh =
        .ok (shape.splitAbove ids.floor, _) := restore_encoded_eq_ok.mpr ⟨hrestorable, rfl⟩
    rw [Store.contentOf, hrestored] at hreopened
    have hagain : (reopened.compile none).1 = .ok _ :=
      (compile_content (congrArg (fun desk : Desk => desk.scene.content?) hreopened)).1
    rw [hagain, hcode, hreopened]
    simp only [Lowered.text, lower_restored hrestored]
  · rw [hsplit] at hcompiled
    cases hcompiled
    rw [Scene.content?, hshown, Store.contentOf, restore_encoded_of_high hhigh]

/-- In a sound memory every save succeeds. -/
private theorem save_memory {memory : Memory} (h : memory.IsSound) {session : Session}
    {shape : Shape} (hcontent : session.desk.scene.content? = some shape) :
    ∃ saved, (session.save Memory.store).run.run memory = (.ok (), saved) := by
  have hput : (memory.put Store.rootKey shape.encoded).IsSound := h
  exact ⟨_, (save_ok hcontent).mpr ⟨_, Memory.run_set h _ _, Memory.run_set hput _ _⟩⟩

/-- A union of thirty-two pieces of code. -/
def wide : Shape :=
  .combinator .union ((List.range' 1 32).map fun n => .custom "c" .identity (.ofNumber n)) .zero
    .identity ⟨"u"⟩

/-- A union of thirty-two children does not come back. -/
theorem reopened_iff_of_wide :
    ∃ (opened compiled reopened : Session) (code : Except SceneError String)
      (between saved afterwards : Memory),
      (ofStore Memory.store .standard).run ⟨[(Store.rootKey, wide.encoded)], []⟩ =
          (opened, between) ∧
        opened.compile none = (code, compiled) ∧
        (compiled.save Memory.store).run.run between = (.ok (), saved) ∧
        (ofStore Memory.store .standard).run saved = (reopened, afterwards) ∧
        reopened.desk.scene.content? ≠ compiled.desk.scene.content? := by
  generalize hmemory : (⟨[(Store.rootKey, wide.encoded)], []⟩ : Memory) = memory
  have hsound : memory.IsSound := hmemory ▸ rfl
  have hentry : memory.get? Store.rootKey = some wide.encoded := hmemory ▸ List.lookup_cons_self
  have hrestore : Shape.restore wide.encoded .fresh =
      .ok (wide, ⟨max 0 (NodeId.highest wide.ids)⟩) :=
    restore_encoded_eq_ok.mpr ⟨by decide +kernel, rfl⟩
  have hopened := ofStore_works (Memory.works_store.worksWith _) hsound .standard
  rw [hentry, Store.contentOf, hrestore] at hopened
  rcases hopen : (ofStore Memory.store .standard).run memory with ⟨opened, between⟩
  rw [hopen] at hopened
  rcases hcompile : opened.compile none with ⟨code, compiled⟩
  have hsplit := (compile_content (congrArg (fun desk : Desk => desk.scene.content?) hopened.1)).2
  rw [hcompile] at hsplit
  obtain ⟨saved, hsave⟩ := save_memory hopened.2 hsplit
  rcases hreopen : (ofStore Memory.store .standard).run saved with ⟨reopened, afterwards⟩
  have hiff := (reopened_iff Memory.works_store rfl hsound hentry hrestore hopen hcompile hsave
    hreopen).1
  refine ⟨opened, compiled, reopened, code, between, saved, afterwards, rfl, hcompile, hsave,
    hreopen, fun hsame => ?_⟩
  have hhigh : 32 ≤ (wide.splitAbove (max 0 (NodeId.highest wide.ids))).height := by
    refine Nat.le_trans ?_ (length_le_height_splitAbove _ _ _ _ _ _)
    simp
  exact absurd (hiff.mp hsame).1 (Nat.not_le.mpr hhigh)

end Session

end SdfScene
