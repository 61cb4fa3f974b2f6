import SdfScene.Storage.Disk
import SdfScene.Text.Blank

/-!
# Volumes

A volume is a file system as a value: folders and files under absolute paths, and the
folder that relative paths start from. Its calls succeed and fail as those of a Unix
system do.
-/

namespace SdfScene

/-- What stands under a name. -/
inductive Entry where
  | folder
  | file (content : ByteArray)

/-- The names on the way from the topmost folder. -/
abbrev Place := List String

/-- Folders and files as a value. -/
structure Volume where
  /-- What stands at each place; the topmost folder is always there. -/
  entries : List (Place × Entry)
  /-- The folder that relative paths start from. -/
  workingFolder : Place

namespace Volume

/-- The longest name in bytes. -/
def nameLimit : Nat := 255

/-- The length in bytes that a path stays below. -/
def pathLimit : Nat := 4096

/-- What stands at a place. -/
def entry? (volume : Volume) (place : Place) : Option Entry :=
  if place = [] then some .folder else volume.entries.lookup place

/-- Put something at a place. -/
def put (volume : Volume) (place : Place) (entry : Entry) : Volume :=
  { volume with
    entries := volume.entries.filter (fun other => other.1 ≠ place) ++ [(place, entry)] }

/-- Take away what stands at a place. -/
def erase (volume : Volume) (place : Place) : Volume :=
  { volume with entries := volume.entries.filter fun other => other.1 ≠ place }

/-- The folder that a step by a name from a folder leads to. -/
def step (volume : Volume) (place : Place) (name : String) : Except IoError Place :=
  if name = "." then .ok place
  else if name = ".." then .ok place.dropLast
  else if nameLimit < name.utf8ByteSize then .error .nameTooLong
  else match volume.entry? (place ++ [name]) with
    | none => .error .notFound
    | some (.file _) => .error .notAFolder
    | some .folder => .ok (place ++ [name])

/-- The folder that holds the last name of a path, and that name. -/
def walk (volume : Volume) : Place → List String → Except IoError (Place × String)
  | place, [] => .ok (place, ".")
  | place, [name] => .ok (place, name)
  | place, name :: names => do
    let next ← volume.step place name
    volume.walk next names

/-- Where a path leads. -/
structure Target where
  /-- The place that it names. -/
  place : Place
  /-- What stands there. -/
  entry : Option Entry
  /-- Whether a slash follows the last name. -/
  slash : Bool

/-- Whether the last name is longer than a name can be. -/
def Target.isTooLong (target : Target) : Bool :=
  target.place.getLast?.any fun name => nameLimit < name.utf8ByteSize

/-- Follow a path up to its last name, which need not exist and is not looked up. -/
def locate (volume : Volume) (path : String) : Except IoError Target :=
  if path.contains '\x00' then .error .nulInPath
  else if path = "" then .error .notFound
  else if pathLimit ≤ path.utf8ByteSize then .error .nameTooLong
  else do
    let names :=
      ((Text.pieces '/' path.toList).filter fun name => name ≠ []).map String.ofList
    let start := if path.toList.head? = some '/' then [] else volume.workingFolder
    let (place, name) ← volume.walk start names
    if name = "." ∨ name = ".." then
      let place ← volume.step place name
      pure ⟨place, some .folder, false⟩
    else
      let place := place ++ [name]
      pure ⟨place, volume.entry? place, path.toList.getLast? = some '/'⟩

/-- Follow a path and look its last name up. -/
def lookUp (volume : Volume) (path : String) : Except IoError Target := do
  let target ← volume.locate path
  if target.isTooLong then throw .nameTooLong else pure target

/-- The bytes of a file. -/
def read (volume : Volume) (path : String) : Except IoError ByteArray := do
  let target ← volume.lookUp path
  match target.entry with
  | none => throw .notFound
  | some .folder => throw .isAFolder
  | some (.file content) => if target.slash then throw .notAFolder else pure content

/-- Replace the bytes of a file. A slash after the last name asks for a folder, which is
refused before the name is looked up. -/
def write (volume : Volume) (path : String) (content : ByteArray) :
    Except IoError Volume := do
  let target ← volume.locate path
  if target.slash then throw .isAFolder
  else if target.isTooLong then throw .nameTooLong
  else match target.entry with
    | some .folder => throw .isAFolder
    | _ => pure (volume.put target.place (.file content))

/-- Make a folder. -/
def makeFolder (volume : Volume) (path : String) : Except IoError Volume := do
  let target ← volume.lookUp path
  match target.entry with
  | none => pure (volume.put target.place .folder)
  | some _ => throw .alreadyExists

/-- Whether a path leads to a folder. -/
def isFolder (volume : Volume) (path : String) : Bool :=
  match volume.lookUp path with
  | .ok ⟨_, some .folder, _⟩ => true
  | _ => false

/-- Give a file another path. -/
def move (volume : Volume) (source target : String) : Except IoError Volume := do
  let source ← volume.lookUp source
  let target ← volume.lookUp target
  match source.entry, target.entry with
  | none, _ => throw .notFound
  | some .folder, _ => throw .isAFolder
  | some (.file _), some .folder => throw .isAFolder
  | some (.file content), _ =>
    if source.slash || target.slash then throw .notAFolder
    else pure ((volume.erase source.place).put target.place (.file content))

/-- Delete a file. -/
def delete (volume : Volume) (path : String) : Except IoError Volume := do
  let target ← volume.lookUp path
  match target.entry with
  | none => throw .notFound
  | some .folder => throw .isAFolder
  | some (.file _) =>
    if target.slash then throw .notAFolder else pure (volume.erase target.place)

/-- Make a call that reads a volume. -/
def inspect {α : Type} (call : Volume → Except IoError α) :
    ExceptT IoError (StateM Volume) α := do
  match call (← MonadState.get) with
  | .ok value => pure value
  | .error e => throw e

/-- Make a call that changes a volume. -/
def change (call : Volume → Except IoError Volume) : ExceptT IoError (StateM Volume) Unit := do
  match call (← MonadState.get) with
  | .ok volume => MonadState.set volume
  | .error e => throw e

/-- A volume as a disk. -/
def disk : Disk (StateM Volume) where
  read path := inspect fun volume => volume.read path
  write path content := change fun volume => volume.write path content
  makeFolder path := change fun volume => volume.makeFolder path
  isFolder path := do return (← MonadState.get).isFolder path
  move source target := change fun volume => volume.move source target
  delete path := change fun volume => volume.delete path

end Volume

end SdfScene
