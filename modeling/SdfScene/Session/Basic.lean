import SdfScene.Codec.Builtin
import SdfScene.Scene.Desk
import SdfScene.Session.Settings

/-!
# Sessions

A session is everything that one editor works on: the scene with its ids and its
history, the camera, and the latest expression. It is opened from a store and saved to
it; the store itself stays outside.

Loading never fails: an entry that is absent, unreadable or wrong stands for the built-in
scene or camera. Saving writes the scene first and the camera only after that went well.
-/

namespace SdfScene

/-- One editor's state. -/
structure Session where
  /-- The scene under edit. -/
  desk : Desk
  /-- The camera. -/
  camera : Camera
  /-- How wide combinators are split. -/
  flatten : FlattenMode
  /-- Whether expressions are kept for display. -/
  publishPreview : Bool
  /-- The latest expression that draws something. -/
  preview : Option String

/-- The two documents of a session. -/
structure Documents where
  /-- The displayed shape; none in an empty scene. -/
  root : Option String
  /-- The camera. -/
  camera : String
  deriving DecidableEq

/-- The shape in a store, and the allocator after its ids were observed. -/
def Store.loadContent {m : Type → Type} [Monad m] (store : Store m) (ids : Allocator) :
    ExceptT SceneError m (Option (Shape × Allocator)) := do
  match ← (store.get Store.rootKey).run with
  | .error e => throw (.io e)
  | .ok none => pure none
  | .ok (some text) =>
    match Shape.restore text ids with
    | .error e => throw e
    | .ok restored => pure (some restored)

/-- The camera in a store. -/
def Store.loadCamera {m : Type → Type} [Monad m] (store : Store m) :
    ExceptT SceneError m (Option Camera) := do
  match ← (store.get Store.cameraKey).run with
  | .error e => throw (.io e)
  | .ok none => pure none
  | .ok (some text) =>
    match Camera.ofDocument text with
    | .error fault => throw (.document fault)
    | .ok camera => pure (some camera)

/-- The shape in a store or the built-in one. -/
def Store.loadContentOrBuiltin {m : Type → Type} [Monad m] (store : Store m)
    (ids : Allocator) : m (Shape × Allocator) := do
  match ← (store.loadContent ids).run with
  | .ok (some restored) => return restored
  | _ => return Builtin.restoreContent ids

/-- The camera in a store or the built-in one. -/
def Store.loadCameraOrBuiltin {m : Type → Type} [Monad m] (store : Store m) :
    m Camera := do
  match ← store.loadCamera.run with
  | .ok (some camera) => return camera
  | _ => return Builtin.restoreCamera

/-- Write the document of a shape. -/
def Store.saveContent {m : Type → Type} [Monad m] (store : Store m) (content : Shape) :
    ExceptT SceneError m Unit :=
  ExceptT.adapt SceneError.io (store.set Store.rootKey content.encoded)

/-- Write the document of a camera. -/
def Store.saveCamera {m : Type → Type} [Monad m] (store : Store m) (camera : Camera) :
    ExceptT SceneError m Unit :=
  ExceptT.adapt SceneError.io (store.set Store.cameraKey camera.encoded)

namespace Session

/-- The documents as they would be written. -/
def documents (session : Session) : Documents :=
  ⟨session.desk.scene.content?.map Shape.encoded, session.camera.encoded⟩

/-- The session after an edit, or its error. -/
def edit {α : Type} (session : Session) (outcome : Except SceneError (α × Desk)) :
    Except SceneError α × Session :=
  match outcome with
  | .error e => (.error e, session)
  | .ok (result, desk) => (.ok result, { session with desk })

/-- Append a new node of a kind. -/
def add (session : Session) (kind : Kind) (parent : NodeId) :
    Except SceneError NodeId × Session :=
  session.edit (session.desk.add kind parent)

/-- Append a detached subtree. -/
def insert (session : Session) (shape : Shape) (parent : NodeId) :
    Except SceneError NodeId × Session :=
  session.edit (session.desk.insert shape parent)

/-- Take out a child of a combinator. -/
def delete (session : Session) (child parent : NodeId) :
    Except SceneError Shape × Session :=
  session.edit (session.desk.delete child parent)

/-- Take out a child of a combinator and append a detached subtree in its stead. -/
def replace (session : Session) (old : NodeId) (new : Shape) (parent : NodeId) :
    Except SceneError Shape × Session :=
  session.edit (session.desk.replace old new parent)

/-- Take out a node wherever it is. -/
def remove (session : Session) (id : NodeId) : Except SceneError Shape × Session :=
  session.edit (session.desk.remove id)

/-- Set a field of a node from text. -/
def setField (session : Session) (id : NodeId) (field text : String) :
    Except SceneError Shape × Session :=
  session.edit (session.desk.setField id field text)

/-- Put a new node of another kind in the stead of a child. -/
def changeKind (session : Session) (child : NodeId) (kind : Kind) (parent : NodeId) :
    Except SceneError NodeId × Session :=
  let (result, desk) := session.desk.changeKind child kind parent
  (result, { session with desk })

/-- Whether a node can hold children. -/
def isCombinator (session : Session) (id : NodeId) : Except SceneError Bool :=
  if id = Scene.rootId then .ok true
  else match session.desk.scene.find? id with
    | none => .error (.shapeNotFound id)
    | some shape => .ok shape.isCombinator

/-- Hand out the history and start a new one. -/
def takeHistory (session : Session) : List Event × Session :=
  (session.desk.history, { session with desk := { session.desk with history := [] } })

/-- Take over what lowering made of the scene: the code, which is shown if anything is
drawn and previews are wanted. -/
def adopt (session : Session) (lowered : Lowered Scene) : String × Session :=
  (lowered.text,
    { session with
      desk := { session.desk with scene := lowered.tree, ids := lowered.ids },
      preview :=
        if session.publishPreview ∧ lowered.expression.isSome then some lowered.text
        else session.preview })

/-- Compile the node that an id addresses, or the displayed shape. -/
def compile (session : Session) (id : Option NodeId) : Except SceneError String × Session :=
  match session.desk.scene.lower session.flatten id session.desk.ids with
  | .error e => (.error e, session)
  | .ok lowered =>
    let (text, session) := session.adopt lowered
    (.ok text, session)

/-- Go back to the built-in scene and camera and compile; the store is left alone. -/
def reset (session : Session) : String × Session :=
  let restored := Builtin.restoreContent session.desk.ids
  let fresh := { session with camera := Builtin.restoreCamera }
  fresh.adopt ((Scene.ofContent restored.1).lowerContent session.flatten restored.2)

variable {m : Type → Type} [Monad m]

/-- Open a session on a store. -/
def ofStore (store : Store m) (settings : Settings) : m Session := do
  let (content, ids) ← store.loadContentOrBuiltin .fresh
  let camera ← store.loadCameraOrBuiltin
  return ⟨⟨.ofContent content, ids, []⟩, camera, settings.flatten, settings.publishPreview,
    none⟩

/-- Take the scene and the camera from the store; issued ids stay issued. -/
def load (session : Session) (store : Store m) : m Session := do
  let (content, ids) ← store.loadContentOrBuiltin session.desk.ids
  let camera ← store.loadCameraOrBuiltin
  return { session with
    desk := { session.desk with scene := .ofContent content, ids }, camera }

/-- Write the displayed shape, or remove what is saved of an empty scene, and then the
camera. -/
def save (session : Session) (store : Store m) : ExceptT SceneError m Unit := do
  match session.desk.scene.content? with
  | some content => store.saveContent content
  | none => ExceptT.adapt SceneError.io (store.remove Store.rootKey)
  store.saveCamera session.camera

end Session

end SdfScene
