import SdfScene.Proofs.Storage.Working

/-!
# Stores whose calls can fail

A call that fails is supposed to leave the entry as it was, and one that succeeds changes the
entry under its own key only. That is all that is asked of a store here: which calls fail may
depend on its state in any way. A store that is ready carries out what it is asked for. The
store in memory keeps to this with any failing calls, and is ready without them.
-/

namespace SdfScene

variable {σ : Type}

namespace Store

/-- Bring an entry to what it should be: a text under the key, or nothing. -/
def write {m : Type → Type} (store : Store m) (key : String) :
    Option String → ExceptT IoError m Unit
  | some text => store.set key text
  | none => store.remove key

/-- What an entry is after a call that was to make another one of it. -/
def settled (old entry : Option String) : Except IoError Unit → Option String
  | .ok () => entry
  | .error _ => old

/-- Calls with some of the keys change their own entry, and that as a whole or not at all. -/
structure Atomic (store : Store (StateM σ)) (keys : List String)
    (kept? : σ → String → Option String) : Prop where
  set : ∀ key ∈ keys, ∀ text storage outcome later,
    (store.set key text).run.run storage = (outcome, later) →
      kept? later key = settled (kept? storage key) (some text) outcome ∧
        ∀ other ∈ keys, other ≠ key → kept? later other = kept? storage other
  remove : ∀ key ∈ keys, ∀ storage outcome later,
    (store.remove key).run.run storage = (outcome, later) →
      kept? later key = settled (kept? storage key) none outcome ∧
        ∀ other ∈ keys, other ≠ key → kept? later other = kept? storage other

/-- In the states of `works` calls with some of the keys succeed, and the store stays there. -/
structure Ready (store : Store (StateM σ)) (keys : List String) (works : σ → Prop) : Prop where
  set : ∀ key ∈ keys, ∀ text storage, works storage → ∃ later,
    (store.set key text).run.run storage = (.ok (), later) ∧ works later
  remove : ∀ key ∈ keys, ∀ storage, works storage → ∃ later,
    (store.remove key).run.run storage = (.ok (), later) ∧ works later

variable {store : Store (StateM σ)} {keys : List String} {kept? : σ → String → Option String}
  {works : σ → Prop}

theorem Atomic.write (h : store.Atomic keys kept?) {key : String} (hkey : key ∈ keys)
    {entry : Option String} {storage later : σ} {outcome : Except IoError Unit}
    (hwrite : (store.write key entry).run.run storage = (outcome, later)) :
    kept? later key = settled (kept? storage key) entry outcome ∧
      ∀ other ∈ keys, other ≠ key → kept? later other = kept? storage other := by
  cases entry with
  | none => exact h.remove key hkey storage outcome later hwrite
  | some text => exact h.set key hkey text storage outcome later hwrite

theorem Ready.write (h : store.Ready keys works) {key : String} (hkey : key ∈ keys)
    (entry : Option String) {storage : σ} (hworks : works storage) :
    ∃ later, (store.write key entry).run.run storage = (.ok (), later) ∧ works later := by
  cases entry with
  | none => exact h.remove key hkey storage hworks
  | some text => exact h.set key hkey text storage hworks

end Store

namespace Memory

/-- Whatever calls fail, a call changes its own entry or none. -/
theorem atomic_store (keys : List String) : store.Atomic keys get? where
  set key _ text memory outcome later hset := by
    rw [run_set_eq] at hset
    by_cases hfails : (StoreCall.set, key) ∈ memory.failing
    · rw [if_pos hfails] at hset
      obtain ⟨rfl, rfl⟩ := Prod.mk.inj hset
      exact ⟨rfl, fun _ _ _ => rfl⟩
    · rw [if_neg hfails] at hset
      obtain ⟨rfl, rfl⟩ := Prod.mk.inj hset
      rw [get?_put]
      exact ⟨Function.update_self .., fun other _ hne => Function.update_of_ne hne ..⟩
  remove key _ memory outcome later hremove := by
    rw [run_remove_eq] at hremove
    by_cases hfails : (StoreCall.remove, key) ∈ memory.failing
    · rw [if_pos hfails] at hremove
      obtain ⟨rfl, rfl⟩ := Prod.mk.inj hremove
      exact ⟨rfl, fun _ _ _ => rfl⟩
    · rw [if_neg hfails] at hremove
      obtain ⟨rfl, rfl⟩ := Prod.mk.inj hremove
      rw [get?_erase]
      exact ⟨Function.update_self .., fun other _ hne => Function.update_of_ne hne ..⟩

theorem ready_store (keys : List String) : store.Ready keys IsSound where
  set key _ text _ h := ⟨_, run_set h key text, h⟩
  remove key _ _ h := ⟨_, run_remove h key, h⟩

end Memory

end SdfScene
