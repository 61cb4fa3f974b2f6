import SdfScene.Command.Run

/-!
# The program

The command line on the real disk. Nothing is decided here: calls on files are passed on,
and their failures are named.
-/

namespace SdfScene

/-- A failure by the number that the system gives it, which some calls negate, and by
its text. -/
def IoError.ofNumber (number : UInt32) (details : String) : IoError :=
  let number := if number < 0x80000000 then number else 0 - number
  if number = 2 then .notFound
  else if number = 17 then .alreadyExists
  else if number = 20 then .notAFolder
  else if number = 21 then .isAFolder
  else if number = 36 then .nameTooLong
  else .other (details ++ " (os error " ++ toString number ++ ")")

/-- The name of a failure of the system. -/
def IoError.ofSystem (e : IO.Error) : IoError :=
  match e with
  | .alreadyExists _ number details | .noFileOrDirectory _ number details
  | .permissionDenied _ number details | .resourceExhausted _ number details
  | .inappropriateType _ number details | .noSuchThing _ number details
  | .invalidArgument _ number details | .otherError number details
  | .resourceBusy number details | .hardwareFault number details
  | .unsatisfiedConstraints number details | .illegalOperation number details =>
    .ofNumber number details
  | e => .other (toString e)

/-- Make a call on the real disk. -/
def systemCall {α : Type} (path : String) (call : IO α) : ExceptT IoError IO α :=
  ExceptT.mk <| do
    if path.contains '\x00' then return .error .nulInPath
    try return .ok (← call)
    catch e => return .error (.ofSystem e)

/-- The real disk. A path leads to a folder if its single dot is already there. -/
def systemDisk : Disk IO where
  read path := systemCall path (IO.FS.readBinFile path)
  write path content := systemCall path (IO.FS.writeBinFile path content)
  makeFolder path := systemCall path (IO.FS.createDir path)
  isFolder path := do
    match ← (systemCall path (IO.FS.createDir (path ++ "/."))).run with
    | .error .alreadyExists => return true
    | _ => return false
  move source target := systemCall (source ++ target) (IO.FS.rename source target)
  delete path := systemCall path (IO.FS.removeFile path)

/-- A folder from the environment, or one below the home folder. -/
def folderOf (name fallback : String) : IO (Option String) := do
  match ← IO.getEnv name with
  | some folder => if folder.startsWith "/" then return some folder
  | none => pure ()
  return (← IO.getEnv "HOME").map fun home => joinPath home fallback

end SdfScene

open SdfScene in
/-- Run the program on its arguments. -/
def main (arguments : List String) : IO UInt32 := do
  let environment : Command.Environment :=
    { configFolder := ← folderOf "XDG_CONFIG_HOME" ".config",
      dataFolder := ← folderOf "XDG_DATA_HOME" ".local/share" }
  let outcome ← Command.run systemDisk environment arguments
  IO.print outcome.output
  IO.eprint outcome.errors
  return UInt32.ofNat outcome.code
