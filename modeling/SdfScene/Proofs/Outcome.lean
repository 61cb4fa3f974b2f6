import Mathlib.Data.List.Forall2

/-!
# Successful outcomes

A computation that can fail succeeds exactly if each of its steps does. Proofs about
decoders and edits take their success apart by these facts.
-/

namespace SdfScene.Outcome

variable {ε α β : Type}

instance decidableEqOk [DecidableEq α] (outcome : Except ε α) (a : α) :
    Decidable (outcome = .ok a) :=
  match outcome with
  | .error _ => isFalse (by simp)
  | .ok b => decidable_of_iff (b = a) (by rw [Except.ok.injEq])

/-- A step and what follows it succeed exactly if both do. -/
theorem bind_eq_ok {outcome : Except ε α} {next : α → Except ε β} {b : β} :
    outcome >>= next = .ok b ↔ ∃ a, outcome = .ok a ∧ next a = .ok b := by
  cases outcome with
  | error e => simp [bind, Except.bind]
  | ok a => simp [bind, Except.bind]

/-- A value that is converted was there before. -/
theorem map_eq_ok {outcome : Except ε α} {f : α → β} {b : β} :
    outcome.map f = .ok b ↔ ∃ a, outcome = .ok a ∧ f a = b := by
  cases outcome with
  | error e => simp [Except.map]
  | ok a => simp [Except.map]

/-- A list of steps succeeds exactly if each of them does. -/
theorem mapM_eq_ok {f : α → Except ε β} {as : List α} {bs : List β} :
    as.mapM f = .ok bs ↔ List.Forall₂ (fun a b => f a = .ok b) as bs := by
  induction as generalizing bs with
  | nil =>
    rw [List.mapM_nil, List.forall₂_nil_left_iff]
    exact ⟨fun h => (Except.ok.inj h).symm, fun h => h ▸ rfl⟩
  | cons a as ih =>
    rw [List.mapM_cons, List.forall₂_cons_left_iff, bind_eq_ok]
    constructor
    · rintro ⟨b, hb, h⟩
      obtain ⟨rest, hrest, h⟩ := bind_eq_ok.mp h
      exact ⟨b, rest, hb, ih.mp hrest, (Except.ok.inj h).symm⟩
    · rintro ⟨b, rest, hb, hrest, rfl⟩
      exact ⟨b, hb, bind_eq_ok.mpr ⟨rest, ih.mpr hrest, rfl⟩⟩

/-- A list of steps succeeds exactly if those before some place, the one there, and those after
it do. -/
theorem mapM_middle_eq_ok {f : α → Except ε β} {front back : List α} {a : α} {bs : List β} :
    (front ++ a :: back).mapM f = .ok bs ↔
      ∃ before b behind, bs = before ++ b :: behind ∧ front.mapM f = .ok before ∧
        f a = .ok b ∧ back.mapM f = .ok behind := by
  simp only [mapM_eq_ok]
  constructor
  · intro h
    induction front generalizing bs with
    | nil =>
      obtain ⟨b, behind, ha, hback, rfl⟩ := List.forall₂_cons_left_iff.mp h
      exact ⟨[], b, behind, rfl, .nil, ha, hback⟩
    | cons first front ih =>
      obtain ⟨value, rest, hvalue, hrest, rfl⟩ := List.forall₂_cons_left_iff.mp h
      obtain ⟨before, b, behind, rfl, hfront, ha, hback⟩ := ih hrest
      exact ⟨value :: before, b, behind, rfl, .cons hvalue hfront, ha, hback⟩
  · rintro ⟨before, b, behind, rfl, hfront, ha, hback⟩
    exact List.rel_append hfront (.cons ha hback)

/-- Every value that a list of steps gives was given by one of them. -/
theorem exists_of_mem_mapM {f : α → Except ε β} {as : List α} {bs : List β}
    (h : as.mapM f = .ok bs) : ∀ b ∈ bs, ∃ a ∈ as, f a = .ok b := by
  have hsteps := mapM_eq_ok.mp h
  clear h
  induction hsteps with
  | nil => exact fun b hb => absurd hb List.not_mem_nil
  | cons hstep _ ih =>
    intro b hb
    rcases List.mem_cons.mp hb with rfl | hb
    · exact ⟨_, List.mem_cons_self, hstep⟩
    · obtain ⟨a, ha, hstep⟩ := ih b hb
      exact ⟨a, List.mem_cons_of_mem _ ha, hstep⟩

/-- With a state beside it, the second step starts where the first one has ended, unless that
has failed. -/
theorem run_bind {σ : Type} (first : ExceptT ε (StateM σ) α) (next : α → ExceptT ε (StateM σ) β)
    (storage : σ) :
    (first >>= next).run.run storage =
      match first.run.run storage with
      | (.ok a, between) => (next a).run.run between
      | (.error e, between) => (.error e, between) := by
  simp only [bind, ExceptT.bind, ExceptT.run, ExceptT.mk, StateT.bind, StateT.run]
  rcases first storage with ⟨outcome, between⟩
  cases outcome <;> rfl

/-- So both succeed if both do. -/
theorem run_bind_eq_ok {σ : Type} {first : ExceptT ε (StateM σ) α}
    {next : α → ExceptT ε (StateM σ) β} {storage later : σ} {b : β} :
    (first >>= next).run.run storage = (.ok b, later) ↔
      ∃ a between, first.run.run storage = (.ok a, between) ∧
        (next a).run.run between = (.ok b, later) := by
  rw [run_bind]
  rcases first.run.run storage with ⟨outcome, between⟩
  cases outcome with
  | error e =>
    refine iff_of_false (fun h => ?_) (fun ⟨_, _, h, _⟩ => ?_)
    · cases h
    · cases h
  | ok a =>
    constructor
    · exact fun h => ⟨a, between, rfl, h⟩
    · rintro ⟨_, _, h, hnext⟩
      cases h
      exact hnext

/-- An error that is converted is one in the same state. -/
theorem run_adapt {σ ε' : Type} (f : ε → ε') (call : ExceptT ε (StateM σ) α) (storage : σ) :
    (ExceptT.adapt f call).run.run storage =
      match call.run.run storage with
      | (.ok a, later) => (.ok a, later)
      | (.error e, later) => (.error (f e), later) := by
  rw [ExceptT.run_adapt, StateT.run_map]
  rcases call.run.run storage with ⟨outcome, later⟩
  cases outcome <;> rfl

/-- Success is not touched by that. -/
theorem run_adapt_eq_ok {σ ε' : Type} {f : ε → ε'} {call : ExceptT ε (StateM σ) α}
    {storage later : σ} {a : α} :
    (ExceptT.adapt f call).run.run storage = (.ok a, later) ↔
      call.run.run storage = (.ok a, later) := by
  rw [run_adapt]
  rcases call.run.run storage with ⟨outcome, between⟩
  cases outcome with
  | error e =>
    refine iff_of_false (fun h => ?_) (fun h => ?_)
    · cases h
    · cases h
  | ok b =>
    constructor
    · intro h
      cases h
      rfl
    · intro h
      cases h
      rfl

/-- A failure is handed to its handler in the state that it has left. -/
theorem run_tryCatch {σ : Type} (call : ExceptT ε (StateM σ) α)
    (handler : ε → ExceptT ε (StateM σ) α) (storage : σ) :
    (tryCatch call handler).run.run storage =
      match call.run.run storage with
      | (.ok a, later) => (.ok a, later)
      | (.error e, later) => (handler e).run.run later := by
  simp only [tryCatch, tryCatchThe, MonadExceptOf.tryCatch, ExceptT.tryCatch, ExceptT.run,
    ExceptT.mk, bind, StateT.bind, StateT.run]
  rcases call storage with ⟨result, later⟩
  cases result <;> rfl

end SdfScene.Outcome
