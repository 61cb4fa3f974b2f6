import SdfScene.Storage.Store

/-!
# Stores on a disk

A disk is given by the calls on files that the library makes. A folder on a disk is a
store with one file per entry: a write goes to a temporary file beside the entry, which
is then moved into its place, so no reader sees half an entry.
-/

namespace SdfScene

/-- The calls on files, in a monad of effects. -/
structure Disk (m : Type → Type) where
  /-- The bytes of a file. -/
  read : String → ExceptT IoError m ByteArray
  /-- Replace the bytes of a file, which is made if it does not exist. -/
  write : String → ByteArray → ExceptT IoError m Unit
  /-- Make one folder. -/
  makeFolder : String → ExceptT IoError m Unit
  /-- Whether a path leads to a folder. -/
  isFolder : String → m Bool
  /-- Give a file another path, in the place of a file that is there. -/
  move : String → String → ExceptT IoError m Unit
  /-- Delete a file. -/
  delete : String → ExceptT IoError m Unit

/-- Drop slashes and single dots from the end of a path that is given back to front;
the path of the topmost folder keeps its slash. -/
def trimPath : List Char → List Char
  | ['/'] => ['/']
  | '/' :: rest => trimPath rest
  | '.' :: '/' :: rest => trimPath ('/' :: rest)
  | cs => cs

/-- What is left of a path without its last component: a single dot is no component,
except at the start. -/
def parentFolder? (path : List Char) : Option (List Char) :=
  let trimmed := trimPath path.reverse
  if trimmed = [] ∨ trimmed = ['/'] then none
  else some (trimPath (trimmed.dropWhile fun c => c ≠ '/')).reverse

/-- A path below a folder; an absolute path stands for itself. -/
def joinPath (folder name : String) : String :=
  if name.toList.head? = some '/' ∨ folder = "" then name
  else if folder.toList.getLast? = some '/' then folder ++ name
  else folder ++ "/" ++ name

namespace Disk

variable {m : Type → Type} [Monad m]

/-- The text of a file. -/
def readText (disk : Disk m) (path : String) : ExceptT IoError m String := do
  match String.fromUTF8? (← disk.read path) with
  | some text => pure text
  | none => throw .notText

/-- Replace the text of a file. -/
def writeText (disk : Disk m) (path text : String) : ExceptT IoError m Unit :=
  disk.write path text.toUTF8

/-- Make a folder that may be there already. -/
def ensureFolder (disk : Disk m) (path : String) : ExceptT IoError m Unit :=
  tryCatch (disk.makeFolder path) fun e => do
    let present ← disk.isFolder path
    if e ≠ .alreadyExists ∨ !present then throw e

/-- Make a folder and those above it that are missing, `levels` at most. -/
def ensureFoldersBelow (disk : Disk m) : Nat → List Char → ExceptT IoError m Unit
  | 0, _ => throw .notFound
  | levels + 1, path =>
    if path = [] then pure ()
    else
      tryCatch (disk.ensureFolder (String.ofList path)) fun e =>
        match e, parentFolder? path with
        | .notFound, some parent => do
          disk.ensureFoldersBelow levels parent
          disk.ensureFolder (String.ofList path)
        | e, _ => throw e

/-- Make a folder and all missing ones above it. -/
def ensureFolders (disk : Disk m) (path : String) : ExceptT IoError m Unit :=
  disk.ensureFoldersBelow (path.length + 1) path.toList

/-- Read nothing where there is nothing. -/
def orAbsent {α : Type} (absent : α) (call : ExceptT IoError m α) : ExceptT IoError m α :=
  tryCatch call fun e => if e = .notFound then pure absent else throw e

/-- A folder as a store. -/
def store (disk : Disk m) (folder : String) : Store m where
  get key := orAbsent none (some <$> disk.readText (joinPath folder (key ++ ".json")))
  set key text := do
    disk.ensureFolders folder
    let temporary := joinPath folder ("." ++ key ++ ".json.tmp")
    disk.writeText temporary text
    disk.move temporary (joinPath folder (key ++ ".json"))
  remove key := orAbsent () (disk.delete (joinPath folder (key ++ ".json")))

end Disk

end SdfScene
