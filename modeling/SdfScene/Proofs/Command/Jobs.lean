import SdfScene.Command.Run

/-!
# Jobs that succeed

A job that succeeds has gone through each of its steps. What it has printed and how it leaves
the disk is told step by step: a call that does not print leaves what was printed, and a step
that makes no call leaves the disk.
-/

namespace SdfScene.Command

variable {σ α β : Type}

namespace Job

/-- What a job gives: its result, all that is printed then, and the state of the disk. -/
def outcome (job : Job (StateM σ) α) (printed : String) (storage : σ) :
    (Except Failure α × String) × σ :=
  (job.run.run printed).run storage

/-- A job and what follows it succeed exactly if both do. -/
theorem bind_eq_ok {first : Job (StateM σ) α} {next : α → Job (StateM σ) β}
    {printed output : String} {storage later : σ} {b : β} :
    (first >>= next).outcome printed storage = ((.ok b, output), later) ↔
      ∃ a text between, first.outcome printed storage = ((.ok a, text), between) ∧
        (next a).outcome text between = ((.ok b, output), later) := by
  simp only [outcome, bind, ExceptT.bind, ExceptT.run, ExceptT.mk, StateT.bind, StateT.run]
  rcases first printed storage with ⟨⟨result, text⟩, between⟩
  cases result with
  | error e =>
    refine iff_of_false (fun h => ?_) (fun ⟨_, _, _, h, _⟩ => ?_)
    · cases h
    · cases h
  | ok a =>
    constructor
    · exact fun h => ⟨a, text, between, rfl, h⟩
    · rintro ⟨_, _, _, h, hnext⟩
      cases h
      exact hnext

/-- A call that cannot fail hands on its value and the disk. -/
theorem outcome_bind_lift (call : StateM σ α) (next : α → Job (StateM σ) β) (printed : String)
    (storage : σ) :
    (liftM call >>= next : Job (StateM σ) β).outcome printed storage =
      (next (call.run storage).1).outcome printed (call.run storage).2 := rfl

theorem outcome_pure (a : α) (printed : String) (storage : σ) :
    (pure a : Job (StateM σ) α).outcome printed storage = ((.ok a, printed), storage) := rfl

theorem outcome_throw (failure : Failure) (printed : String) (storage : σ) :
    (throw failure : Job (StateM σ) α).outcome printed storage =
      ((.error failure, printed), storage) := rfl

/-- A line that is printed stands behind what was printed before. -/
theorem outcome_printLine (text printed : String) (storage : σ) :
    (printLine text : Job (StateM σ) Unit).outcome printed storage =
      ((.ok (), printed ++ (text ++ "\n")), storage) := rfl

/-- A call succeeds as a step of a job exactly if it does by itself. -/
theorem attempt_eq_ok {call : ExceptT SceneError (StateM σ) α} {printed output : String}
    {storage later : σ} {a : α} :
    (attempt call).outcome printed storage = ((.ok a, output), later) ↔
      call.run.run storage = (.ok a, later) ∧ output = printed := by
  rw [attempt, outcome_bind_lift]
  rcases call.run.run storage with ⟨result, between⟩
  cases result with
  | error e =>
    refine iff_of_false (fun h => ?_) (fun h => ?_)
    · cases h
    · cases h.1
  | ok value =>
    constructor
    · intro h
      cases h
      exact ⟨rfl, rfl⟩
    · rintro ⟨h, rfl⟩
      cases h
      rfl

/-- An edit goes on if it has succeeded. -/
theorem edited_eq_ok {edit : Except SceneError α × Session} {printed output : String}
    {storage later : σ} {a : α} {session : Session} :
    (edited edit : Job (StateM σ) (α × Session)).outcome printed storage =
        ((.ok (a, session), output), later) ↔
      edit = (.ok a, session) ∧ output = printed ∧ later = storage := by
  rcases edit with ⟨result, between⟩
  cases result with
  | error e => simp [edited, outcome_throw]
  | ok value => simp [edited, outcome_pure, eq_comm, and_assoc]

end Job

end SdfScene.Command
