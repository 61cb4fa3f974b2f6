import Mathlib.Logic.Function.Basic
import SdfScene.Storage.Store

/-!
# Stores that work

A store works in some of its states if every question there is answered by the entry under
the key, and a write that succeeds replaces that entry and no other. Writes may still fail.
The store in memory works as long as it was told of no failing calls.
-/

namespace SdfScene

variable {σ : Type}

/-- A store that works in the states of `works`, with the entries that it keeps there. -/
structure Store.Works (store : Store (StateM σ)) (works : σ → Prop)
    (kept? : σ → String → Option String) : Prop where
  get : ∀ key storage, works storage → ∃ later,
    (store.get key).run.run storage = (.ok (kept? storage key), later) ∧ works later ∧
      kept? later = kept? storage
  set : ∀ key text storage later, works storage →
    (store.set key text).run.run storage = (.ok (), later) → works later ∧
      kept? later = Function.update (kept? storage) key (some text)

/-- A store works with some keys in the states of `works`. What it does with other keys is left
open: a folder may refuse them as names of files. -/
structure Store.WorksWith (store : Store (StateM σ)) (keys : List String) (works : σ → Prop)
    (kept? : σ → String → Option String) : Prop where
  get : ∀ key ∈ keys, ∀ storage, works storage → ∃ later,
    (store.get key).run.run storage = (.ok (kept? storage key), later) ∧ works later ∧
      ∀ other ∈ keys, kept? later other = kept? storage other
  set : ∀ key ∈ keys, ∀ text storage later, works storage →
    (store.set key text).run.run storage = (.ok (), later) → works later ∧
      ∀ other ∈ keys, kept? later other = Function.update (kept? storage) key (some text) other

/-- The keys that a session is saved under. -/
def Store.sessionKeys : List String := [rootKey, cameraKey]

/-- A store that works does so with any keys. -/
theorem Store.Works.worksWith {store : Store (StateM σ)} {works : σ → Prop}
    {kept? : σ → String → Option String} (h : store.Works works kept?) (keys : List String) :
    store.WorksWith keys works kept? where
  get key _ storage hworks := by
    obtain ⟨later, hget, hlater, hkept⟩ := h.get key storage hworks
    exact ⟨later, hget, hlater, fun other _ => congrFun hkept other⟩
  set key _ text storage later hworks hset := by
    obtain ⟨hlater, hkept⟩ := h.set key text storage later hworks hset
    exact ⟨hlater, fun other _ => congrFun hkept other⟩

namespace Memory

/-- No calls fail. -/
def IsSound (memory : Memory) : Prop := memory.failing = []

/-- A call that fails does nothing, and any other one does what it is for. -/
theorem run_checked {α : Type} (memory : Memory) (call : StoreCall) (key : String)
    (action : ExceptT IoError (StateM Memory) α) :
    (check call key >>= fun _ => action).run.run memory =
      if (call, key) ∈ memory.failing then (.error (.other "store is broken"), memory)
      else action.run.run memory := by
  have hcheck : (check call key).run.run memory =
      (if (call, key) ∈ memory.failing then throw (.other "store is broken") else pure () :
        ExceptT IoError (StateM Memory) Unit).run.run memory := rfl
  simp only [bind, ExceptT.bind, ExceptT.run, ExceptT.mk, StateT.bind, StateT.run] at hcheck ⊢
  rw [hcheck]
  by_cases hfails : (call, key) ∈ memory.failing
  · rw [if_pos hfails, if_pos hfails]
    rfl
  · rw [if_neg hfails, if_neg hfails]
    rfl

theorem run_get_eq (memory : Memory) (key : String) :
    (store.get key).run.run memory =
      if (.get, key) ∈ memory.failing then (.error (.other "store is broken"), memory)
      else (.ok (memory.get? key), memory) :=
  run_checked memory .get key _

theorem run_set_eq (memory : Memory) (key text : String) :
    (store.set key text).run.run memory =
      if (.set, key) ∈ memory.failing then (.error (.other "store is broken"), memory)
      else (.ok (), memory.put key text) :=
  run_checked memory .set key _

theorem run_remove_eq (memory : Memory) (key : String) :
    (store.remove key).run.run memory =
      if (.remove, key) ∈ memory.failing then (.error (.other "store is broken"), memory)
      else (.ok (), memory.erase key) :=
  run_checked memory .remove key _

/-! In a sound memory every call goes through. -/

theorem IsSound.notMem {memory : Memory} (h : memory.IsSound) (call : StoreCall × String) :
    call ∉ memory.failing := by
  rw [h]
  exact List.not_mem_nil

theorem run_get {memory : Memory} (h : memory.IsSound) (key : String) :
    (store.get key).run.run memory = (.ok (memory.get? key), memory) := by
  rw [run_get_eq, if_neg (h.notMem _)]

theorem run_set {memory : Memory} (h : memory.IsSound) (key text : String) :
    (store.set key text).run.run memory = (.ok (), memory.put key text) := by
  rw [run_set_eq, if_neg (h.notMem _)]

theorem run_remove {memory : Memory} (h : memory.IsSound) (key : String) :
    (store.remove key).run.run memory = (.ok (), memory.erase key) := by
  rw [run_remove_eq, if_neg (h.notMem _)]

/-- Erasing one key leaves the entries under the others. -/
theorem get?_erase_of_ne (memory : Memory) {key other : String} (h : other ≠ key) :
    (memory.erase key).get? other = memory.get? other := by
  rw [get?, get?, erase]
  induction memory.entries with
  | nil => rfl
  | cons entry entries ih =>
    obtain ⟨name, text⟩ := entry
    rw [List.filter_cons]
    by_cases hname : name = key
    · have hother : (other == name) = false := beq_eq_false_iff_ne.mpr (hname ▸ h)
      rw [if_neg (by simpa using hname), List.lookup_cons, hother, ih]
    · rw [if_pos (by simpa using hname), List.lookup_cons, List.lookup_cons, ih]

/-- What stands under a key after a text was put there or elsewhere. -/
theorem get?_put (memory : Memory) (key text : String) :
    (memory.put key text).get? = Function.update memory.get? key (some text) := by
  funext other
  by_cases h : other = key
  · subst h
    simp [get?, put]
  · rw [Function.update_of_ne h, ← get?_erase_of_ne memory h, get?, put, List.lookup_cons,
      beq_eq_false_iff_ne.mpr h]
    rfl

/-- What stands under a key after an entry was erased there or elsewhere. -/
theorem get?_erase (memory : Memory) (key : String) :
    (memory.erase key).get? = Function.update memory.get? key none := by
  funext other
  by_cases h : other = key
  · subst h
    rw [Function.update_self, get?, erase, List.lookup_eq_none_iff]
    intro entry hentry
    have hname := of_decide_eq_true (List.mem_filter.mp hentry).2
    simpa using hname.symm
  · rw [Function.update_of_ne h, get?_erase_of_ne memory h]

theorem works_store : store.Works IsSound get? where
  get key memory h := ⟨memory, run_get h key, h, rfl⟩
  set key text memory later h hset := by
    rw [run_set h key text] at hset
    cases hset
    exact ⟨h, get?_put memory key text⟩

end Memory

end SdfScene
