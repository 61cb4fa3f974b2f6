import SdfScene.Command.Arguments
import SdfScene.Command.Outline
import SdfScene.Session.Basic
import SdfScene.Shader

/-!
# Carrying out a command

A command opens a session on the folder of the scene, does one thing and saves. What it
prints before it fails stays printed. It ends with code 0, with code 1 and the cause on
the error output, or with code 2 where the command line is wrong.
-/

namespace SdfScene.Command

/-- The folders for a user's files. -/
structure Environment where
  /-- The folder for settings, if there is one. -/
  configFolder : Option String
  /-- The folder for data, if there is one. -/
  dataFolder : Option String

/-- What a command leaves behind for the one who called it. -/
structure Outcome where
  code : Nat
  output : String
  errors : String
  deriving DecidableEq

/-- Why a command failed. -/
structure Failure where
  /-- What failed. -/
  summary : String
  /-- What it came from, where that says more. -/
  cause : Option String
  deriving DecidableEq

namespace Failure

/-- The failure that an error of the scene is. -/
def ofError (e : SceneError) : Failure := ⟨e.message, e.cause?⟩

/-- A failure on a file that the command line names. -/
def ofFile (doing path : String) (e : IoError) : Failure :=
  ⟨"Failed to " ++ doing ++ " " ++ path, some e.text⟩

/-- The report of a failure. -/
def text (failure : Failure) : String :=
  "Error: " ++ failure.summary ++ "\n" ++
    match failure.cause with
    | none => ""
    | some cause => "\nCaused by:\n    " ++ cause ++ "\n"

end Failure

/-- The parent of a new node where none is named: the displayed shape if it can hold
children, and otherwise the root. -/
def defaultParent (scene : Scene) : NodeId :=
  match scene.content? with
  | some content => if content.isCombinator then content.id else Scene.rootId
  | none => Scene.rootId

/-- The outline of the displayed shape. -/
def outlineOf (scene : Scene) : String :=
  match scene.content? with
  | some content => content.outline 0
  | none => "(empty)\n"

variable {m : Type → Type} [Monad m]

/-- A command under way: it may fail, and what it has printed is kept. -/
abbrev Job (m : Type → Type) := ExceptT Failure (StateT String m)

namespace Job

/-- Print a text. -/
def print (text : String) : Job m Unit := modify fun printed => printed ++ text

/-- Print a line. -/
def printLine (text : String) : Job m Unit := print (text ++ "\n")

/-- Make a call that may fail as an operation on a scene does. -/
def attempt {α : Type} (call : ExceptT SceneError m α) : Job m α := do
  match ← (call.run : m (Except SceneError α)) with
  | .ok value => pure value
  | .error e => throw (.ofError e)

/-- Make a call on a file that the command line names. -/
def attemptFile {α : Type} (doing path : String) (call : ExceptT IoError m α) :
    Job m α := do
  match ← (call.run : m (Except IoError α)) with
  | .ok value => pure value
  | .error e => throw (.ofFile doing path e)

/-- Go on with the session after an edit, or fail. -/
def edited {α : Type} (outcome : Except SceneError α × Session) : Job m (α × Session) :=
  match outcome with
  | (.ok value, session) => pure (value, session)
  | (.error e, _) => throw (.ofError e)

end Job

open Job

/-- The name of the program's own folder in a user's folders. -/
def ownFolder : String := "marcher"

/-- The folder that holds the scene. -/
def sceneFolder? (environment : Environment) (folder : Option String) : Option String :=
  folder.or (environment.dataFolder.map fun data =>
    joinPath (joinPath data ownFolder) "scene")

/-- The file of the settings. -/
def settingsPath? (environment : Environment) : Option String :=
  environment.configFolder.map fun config =>
    joinPath (joinPath config ownFolder) "settings.json"

/-- The settings of the user. -/
def loadSettings (disk : Disk m) (environment : Environment) : m Settings :=
  match settingsPath? environment with
  | some path => Settings.load disk path
  | none => pure .standard

/-- Carry out an action in a session on a store. -/
def perform (disk : Disk m) (store : Store m) (session : Session) : Action → Job m Unit
  | .compile id => do
    let (text, session) ← edited (session.compile (id.map NodeId.mk))
    printLine text
    attempt (session.save store)
  | .tree => print (outlineOf session.desk.scene)
  | .add kind parent => do
    let parent := (parent.map NodeId.mk).getD (defaultParent session.desk.scene)
    let (id, session) ← edited (session.add kind parent)
    attempt (session.save store)
    printLine id.text
  | .delete id parent => do
    let (_, session) ← edited (match parent with
      | some parent => session.delete ⟨id⟩ ⟨parent⟩
      | none => session.remove ⟨id⟩)
    attempt (session.save store)
  | .changeKind id kind parent => do
    match (parent.map NodeId.mk).or (session.desk.scene.parent? ⟨id⟩) with
    | none => throw (.ofError (.shapeNotFound ⟨id⟩))
    | some parent => do
      let (id, session) ← edited (session.changeKind ⟨id⟩ kind parent)
      attempt (session.save store)
      printLine id.text
  | .set id field value => do
    let (_, session) ← edited (session.setField ⟨id⟩ field value)
    attempt (session.save store)
  | .reset => do
    let (text, session) := session.reset
    printLine text
    attempt (session.save store)
  | .documents => do
    let documents := session.documents
    printLine ("root: " ++ documents.root.getD "null")
    printLine ("camera: " ++ documents.camera)
  | .shader template output => do
    let base ← attemptFile "read" template (disk.readText template)
    let (text, session) ← edited (session.compile none)
    attempt (session.save store)
    let shader := Shader.inject base text
    match output with
    | none => print shader
    | some path => do
      attemptFile "write" path (disk.writeText path shader)
      printLine ("Wrote " ++ path)

/-- Carry out a request. -/
def Request.run (request : Request) (disk : Disk m) (environment : Environment) :
    Job m Unit := do
  let saved ← (loadSettings disk environment : m Settings)
  let flatten := if request.transient then .transient else saved.flatten
  match sceneFolder? environment (request.folder.or saved.folder) with
  | none => throw ⟨"Could not determine a scene directory, pass --store", none⟩
  | some folder => do
    let store := disk.store folder
    let session ← (Session.ofStore store { saved with flatten } : m Session)
    perform disk store session request.action

/-- How the program is called. -/
def usage : String := "Usage: [OPTIONS] <COMMAND>\n"

/-- Carry out a command line. -/
def run (disk : Disk m) (environment : Environment) (arguments : List String) :
    m Outcome := do
  match Request.ofArguments arguments with
  | .error .usage => return ⟨2, "", usage⟩
  | .error .help => return ⟨0, usage, ""⟩
  | .ok request =>
    let (result, printed) ← ((request.run disk environment).run).run ""
    match result with
    | .ok () => return ⟨0, printed, ""⟩
    | .error failure => return ⟨1, printed, failure.text⟩

end SdfScene.Command
