import SdfScene.Proofs.Scene.Edits
import SdfScene.Session.Basic

/-!
# Runs of a session

A session together with the state of the store that it is opened on and saved to. An
operation takes one such pair to the next, whether it succeeds or fails; along a run it is
kept which subtrees the operations have taken out of the scene.
-/

namespace SdfScene

/-- An edit of a session succeeds as far as that of the desk does. -/
theorem Session.edit_eq_ok {α : Type} {session later : Session}
    {outcome : Except SceneError (α × Desk)} {result : α} :
    session.edit outcome = (.ok result, later) ↔
      ∃ desk, outcome = .ok (result, desk) ∧ later = { session with desk } := by
  cases outcome with
  | error e => simp [edit]
  | ok success =>
    obtain ⟨value, desk⟩ := success
    simp [edit, eq_comm]

/-- What can be done with a session. -/
inductive Operation where
  | add (kind : Kind) (parent : NodeId)
  | insert (shape : Shape) (parent : NodeId)
  | delete (child parent : NodeId)
  | remove (id : NodeId)
  | replace (old : NodeId) (new : Shape) (parent : NodeId)
  | changeKind (child : NodeId) (kind : Kind) (parent : NodeId)
  | setField (id : NodeId) (field text : String)
  /-- Compile in a mode, which is the mode of the session from then on. -/
  | compile (mode : FlattenMode) (id : Option NodeId)
  | save
  | load
  | reset
  | takeHistory

namespace Operation

variable {σ : Type}

/-- The session and the state of the store after an operation. -/
def apply (store : Store (StateM σ)) (session : Session) (storage : σ) :
    Operation → Session × σ
  | add kind parent => ((session.add kind parent).2, storage)
  | insert shape parent => ((session.insert shape parent).2, storage)
  | delete child parent => ((session.delete child parent).2, storage)
  | remove id => ((session.remove id).2, storage)
  | replace old new parent => ((session.replace old new parent).2, storage)
  | changeKind child kind parent => ((session.changeKind child kind parent).2, storage)
  | setField id field text => ((session.setField id field text).2, storage)
  | compile mode id => (({ session with flatten := mode }.compile id).2, storage)
  | save => (session, ((session.save store).run.run storage).2)
  | load => (session.load store).run storage
  | reset => (session.reset.2, storage)
  | takeHistory => (session.takeHistory.2, storage)

end Operation

/-- The events that came to a history. -/
def Event.since (before after : List Event) : List Event := after.drop before.length

/-- A session at work. -/
structure Workspace (σ : Type) where
  /-- The session. -/
  session : Session
  /-- The state of the store. -/
  storage : σ
  /-- The subtrees that were taken out of the scene, oldest first. -/
  detached : List Shape

namespace Workspace

variable {σ : Type} (store : Store (StateM σ))

/-- A session that starts to work. -/
def start (session : Session) (storage : σ) : Workspace σ := ⟨session, storage, []⟩

/-- Perform an operation. -/
def perform (work : Workspace σ) (operation : Operation) : Workspace σ :=
  let next := operation.apply store work.session work.storage
  ⟨next.1, next.2, work.detached ++
    Event.departed (Event.since work.session.desk.history next.1.desk.history)⟩

/-- Perform operations one after the other. -/
def run : Workspace σ → List Operation → Workspace σ
  | work, [] => work
  | work, operation :: operations => run (work.perform store operation) operations

end Workspace

end SdfScene
