import SdfScene.Codec.Wrapper
import SdfScene.Expression.Lowering
import SdfScene.Storage.Disk

/-!
# Settings

Settings are kept in a file of their own. Each of them may be absent; a file that is
missing, unreadable or wrong in any way stands for the standard settings.
-/

namespace SdfScene

open Json Codec

namespace FlattenMode

/-- The name of a mode in a settings file. -/
def settingName : FlattenMode → String
  | inPlace => "in_place"
  | transient => "transient"

/-- The mode with a name. -/
def ofSettingName? (text : String) : Option FlattenMode :=
  [inPlace, transient].find? fun mode => mode.settingName = text

end FlattenMode

/-- The settings of a session. -/
structure Settings where
  /-- The folder of the saved scene; none for the usual one. -/
  folder : Option String
  /-- How wide combinators are split. -/
  flatten : FlattenMode
  /-- Whether the latest expression is kept for display. -/
  publishPreview : Bool
  deriving DecidableEq

namespace Settings

/-- What holds where nothing else is said. -/
def standard : Settings := ⟨none, .inPlace, true⟩

/-- The value of one setting. -/
inductive Part where
  | folder (value : Option String)
  | flatten (value : FlattenMode)
  | publishPreview (value : Bool)

/-- Decode the folder: null or a text. -/
def decodeFolder : Decoder (Option String) := fun reading doc =>
  match doc with
  | .null => .ok none
  | doc => (decodeText reading doc).map some

/-- Decode a truth value. -/
def decodeBool : Decoder Bool := fun _ doc =>
  match doc with
  | .bool value => .ok value
  | doc => .error (.plain doc.whenUnsuited)

/-- Decode a mode. -/
def decodeFlatten : Decoder FlattenMode :=
  decodeEnum FlattenMode.ofSettingName? ["in_place", "transient"]

/-- The fields of a settings document. -/
def fields : List (RecordField Part) :=
  [.optional "store_dir" (fun reading doc => (decodeFolder reading doc).map .folder)
      (.folder standard.folder),
    .optional "flatten" (fun reading doc => (decodeFlatten reading doc).map .flatten)
      (.flatten standard.flatten),
    .optional "publish_preview"
      (fun reading doc => (decodeBool reading doc).map .publishPreview)
      (.publishPreview standard.publishPreview)]

/-- Decode settings. -/
def decode : Decoder Settings := fun reading doc => do
  match ← decodeRecord fields reading doc with
  | [.folder folder, .flatten flatten, .publishPreview publishPreview] =>
    .ok ⟨folder, flatten, publishPreview⟩
  | _ => .error (.plain .unsuitable)

/-- The settings that a text is the document of. -/
def ofDocument (text : String) : Except Fault Settings := decodeAll decode text

/-- The document text of settings, one to a line. -/
def text (settings : Settings) : String :=
  let folder := match settings.folder with
    | none => "null"
    | some folder => String.ofList (quote folder)
  "\x7b\n  \"store_dir\": " ++ folder ++ ",\n  \"flatten\": \"" ++
    settings.flatten.settingName ++ "\",\n  \"publish_preview\": " ++
    (if settings.publishPreview then "true" else "false") ++ "\n\x7d"

/-- The settings in a file. -/
def load {m : Type → Type} [Monad m] (disk : Disk m) (path : String) : m Settings := do
  match ← (disk.readText path).run with
  | .ok text =>
    match ofDocument text with
    | .ok settings => return settings
    | .error _ => return standard
  | .error _ => return standard

end Settings

end SdfScene
