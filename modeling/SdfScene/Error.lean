import SdfScene.Json.Fault
import SdfScene.Node.Id

/-!
# Errors

Every way in which an operation on a scene can fail, as its cause. The wording is in
the `message` functions alone.
-/

namespace SdfScene

/-- Why an editor's text stands for no value. -/
inductive InvalidValue where
  /-- The trimmed text is not a numeral. -/
  | notANumber (text : String)
  /-- The trimmed text denotes an infinity or not-a-number. -/
  | notFinite (text : String)
  /-- The text has other than three components. -/
  | notAVector (text : String)
  /-- The node has no field of this name. -/
  | unknownField (name : String)
  /-- No kind has this name. -/
  | unknownKind (text : String)
  deriving DecidableEq

/-- The text of an invalid value. -/
def InvalidValue.text : InvalidValue → String
  | notANumber text => s!"'{text}' is not a number"
  | notFinite text => s!"'{text}' is not finite"
  | notAVector text => s!"'{text}' is not a vector, expected x,y,z"
  | unknownField name => s!"no editable field '{name}'"
  | unknownKind text => s!"unknown shape kind '{text}'"

/-- Why a call on files failed. -/
inductive IoError where
  /-- The file or a folder on its path does not exist. -/
  | notFound
  /-- Something that must not exist does. -/
  | alreadyExists
  /-- A file stands where a folder is needed. -/
  | notAFolder
  /-- A folder stands where a file is needed. -/
  | isAFolder
  /-- A name on the path is too long. -/
  | nameTooLong
  /-- A path holds a NUL character. -/
  | nulInPath
  /-- The content is not text. -/
  | notText
  /-- Any other reason, by its text. -/
  | other (text : String)
  deriving DecidableEq

/-- The text of an error on files. -/
def IoError.text : IoError → String
  | notFound => "No such file or directory (os error 2)"
  | alreadyExists => "File exists (os error 17)"
  | notAFolder => "Not a directory (os error 20)"
  | isAFolder => "Is a directory (os error 21)"
  | nameTooLong => "File name too long (os error 36)"
  | nulInPath => "file name contained an unexpected NUL byte"
  | notText => "stream did not contain valid UTF-8"
  | other text => text

/-- Why an operation on a scene failed. -/
inductive SceneError where
  /-- A document stands for no value. -/
  | document (fault : Json.Fault)
  /-- Storage failed. -/
  | io (cause : IoError)
  /-- A text of the editor stands for no value. -/
  | invalidValue (cause : InvalidValue)
  /-- The wanted parent is not in the scene. -/
  | parentNotFound (id : NodeId)
  /-- The wanted parent cannot hold children. -/
  | notACombinator (id : NodeId)
  /-- The node is not a direct child of the parent. -/
  | childNotFound (parent child : NodeId)
  /-- A restored id is too large to allocate past. -/
  | idOutOfRange (id : NodeId)
  /-- The same id would be in the tree twice. -/
  | duplicateId (id : NodeId)
  /-- No node of the scene has this id. -/
  | shapeNotFound (id : NodeId)
  deriving DecidableEq

/-- The text of an error. -/
def SceneError.message : SceneError → String
  | document fault => "Malformed scene data: " ++ fault.text?.getD ""
  | io cause => "IO error: " ++ cause.text
  | invalidValue cause => "Invalid value: " ++ cause.text
  | parentNotFound id => "Parent " ++ id.text ++ " not found"
  | notACombinator id => "Shape " ++ id.text ++ " is not a combinator"
  | childNotFound parent child =>
    "Shape " ++ child.text ++ " is not a child of " ++ parent.text
  | idOutOfRange id => "Shape id " ++ id.text ++ " is out of range"
  | duplicateId id => "Shape " ++ id.text ++ " is already in the tree"
  | shapeNotFound id => "Shape " ++ id.text ++ " not found"

/-- The text of the cause below an error, where there is one. -/
def SceneError.cause? : SceneError → Option String
  | document fault => some (fault.text?.getD "")
  | io cause => some cause.text
  | _ => none

end SdfScene
