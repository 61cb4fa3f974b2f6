import SdfScene.Shape.Kind

/-!
# Command lines

A command line holds a subcommand with its words and options, and two options that may
stand before or after the name of the subcommand. An option is written `--name value`,
`--name=value` or, if it has a letter, `-l value`, `-lvalue` or `-l=value`. A word or a
separate value starts with a hyphen only if it is a lone hyphen or, for a word, stands
after a lone `--`. At each of the two places an option may be given once. What is wrong
before a request for help is refused all the same; what is missing then is not.
-/

namespace SdfScene.Command

/-- Why a command line is not carried out. -/
inductive Refusal where
  /-- It is wrong. -/
  | usage
  /-- It asks for help or for the version. -/
  | help
  deriving DecidableEq

/-- What an option takes. -/
inductive ValueKind where
  /-- Nothing. -/
  | flag
  /-- Any text. -/
  | text
  /-- A path, which is not empty. -/
  | path
  deriving DecidableEq

/-- An option. -/
structure Switch where
  /-- The name after two hyphens. -/
  name : String
  /-- The letter after one hyphen. -/
  letter : Option Char
  /-- What it takes. -/
  value : ValueKind

/-- What a word stands for. -/
inductive WordKind where
  /-- Any text. -/
  | text
  /-- The kind of a node. -/
  | kind
  deriving DecidableEq

/-- Whether a word can stand for this. -/
def WordKind.accepts (word : String) : WordKind → Bool
  | .text => true
  | .kind => (Kind.ofText word).isOk

/-- What may stand after the name of a subcommand. -/
structure Form where
  switches : List Switch
  words : List WordKind

/-- What was found on a command line: options with their values, and words. -/
structure Found where
  options : List (Switch × String)
  words : List String

namespace Found

/-- Nothing found. -/
def empty : Found := ⟨[], []⟩

/-- The value of an option. -/
def option? (found : Found) (name : String) : Option String :=
  (found.options.find? fun given => given.1.name = name).map Prod.snd

/-- Whether an option is given. -/
def has (found : Found) (name : String) : Bool := (found.option? name).isSome

/-- Add the value of an option. -/
def put (found : Found) (switch : Switch) (value : String) : Found :=
  { found with options := found.options ++ [(switch, value)] }

/-- Refuse an option that is given twice, and an empty path. -/
def check (found : Found) : Except Refusal Unit :=
  if (found.options.map fun given => given.1.name).Nodup ∧
      ∀ given ∈ found.options, given.1.value = .path → given.2 ≠ "" then .ok ()
  else .error .usage

/-- Add the next of the words that a form has. -/
def addWord (found : Found) (form : Form) (word : String) : Except Refusal Found :=
  match form.words[found.words.length]? with
  | some wanted =>
    if wanted.accepts word then .ok { found with words := found.words ++ [word] }
    else .error .usage
  | none => .error .usage

end Found

/-- Whether a word can only be an option: it starts with a hyphen and is longer. -/
def isOption (word : String) : Bool :=
  match word.toList with
  | '-' :: _ :: _ => true
  | _ => false

/-- The name and the letter of an option that asks for help or for the version. -/
abbrev Help := String × Char

/-- The option that asks for help. -/
def askHelp : Help := ("help", 'h')

/-- The option that asks for the version. -/
def askVersion : Help := ("version", 'V')

/-- One use of an option: the option, and the value that is attached to it. -/
structure Use where
  switch : Switch
  attached : Option String

/-- The use of an option by its name. -/
def useOfName (switches : List Switch) (helps : List Help) (text : List Char) :
    Except Refusal Use :=
  let name := String.ofList (text.takeWhile fun c => c ≠ '=')
  let attached := match text.dropWhile fun c => c ≠ '=' with
    | [] => none
    | _ :: value => some (String.ofList value)
  match switches.find? fun switch => switch.name = name with
  | some switch =>
    if switch.value = .flag ∧ attached.isSome then .error .usage else .ok ⟨switch, attached⟩
  | none => .error (if name ∈ helps.map Prod.fst ∧ attached = none then .help else .usage)

/-- The use of an option by its letter. -/
def useOfLetter (switches : List Switch) (helps : List Help) (letter : Char)
    (text : List Char) : Except Refusal Use :=
  match switches.find? fun switch => switch.letter = some letter with
  | some switch =>
    .ok ⟨switch, match text with
      | [] => none
      | '=' :: value => some (String.ofList value)
      | value => some (String.ofList value)⟩
  | none => .error (if letter ∈ helps.map Prod.snd then .help else .usage)

/-- Scan a command line. With `untilWord` the scan ends before the first word. A separate
value is checked where the next option stands, and so not yet at the end of the scan. -/
def scan (form : Form) (helps : List Help) (untilWord : Bool) :
    List String → Found → Except Refusal (Found × List String)
  | [], found => .ok (found, [])
  | word :: rest, found =>
    if word = "--" then
      if untilWord then .error .usage
      else do
        let found ← rest.foldlM (fun found word => found.addWord form word) found
        pure (found, [])
    else if isOption word then do
      found.check
      let use ← match word.toList with
        | '-' :: '-' :: text => useOfName form.switches helps text
        | '-' :: letter :: text => useOfLetter form.switches helps letter text
        | _ => .error .usage
      match use.switch.value, use.attached, rest with
      | .flag, _, rest => do
        let found := found.put use.switch ""
        found.check
        scan form helps untilWord rest found
      | _, some value, rest => do
        let found := found.put use.switch value
        found.check
        scan form helps untilWord rest found
      | _, none, [] => .error .usage
      | _, none, value :: rest =>
        if isOption value then .error .usage
        else scan form helps untilWord rest (found.put use.switch value)
    else if untilWord then .ok (found, word :: rest)
    else do
      let found ← found.addWord form word
      scan form helps untilWord rest found

/-- The options that may stand before and after the name of a subcommand. -/
def globals : List Switch := [⟨"store", none, .path⟩, ⟨"no-flatten", none, .flag⟩]

/-- The option that names a parent. -/
def parentSwitch : Switch := ⟨"parent", some 'p', .text⟩

/-- What a command does. -/
inductive Action where
  /-- Print the expression of a node or of the displayed shape. -/
  | compile (id : Option String)
  /-- Print the tree. -/
  | tree
  /-- Append a new node. -/
  | add (kind : Kind) (parent : Option String)
  /-- Delete a node. -/
  | delete (id : String) (parent : Option String)
  /-- Give a node another kind. -/
  | changeKind (id : String) (kind : Kind) (parent : Option String)
  /-- Set a field of a node. -/
  | set (id field value : String)
  /-- Go back to the built-in scene. -/
  | reset
  /-- Print the two documents. -/
  | documents
  /-- Make a shader from a template. -/
  | shader (template : String) (output : Option String)
  deriving DecidableEq

/-- A command line that can be carried out. -/
structure Request where
  /-- The folder of the scene, if it is given. -/
  folder : Option String
  /-- Whether wide combinators are split for the moment only. -/
  transient : Bool
  /-- What is to be done. -/
  action : Action
  deriving DecidableEq

/-- The form of a subcommand; none if there is no such subcommand. -/
def formOf? : String → Option Form
  | "compile" => some ⟨globals ++ [⟨"id", none, .text⟩], []⟩
  | "add" => some ⟨globals ++ [parentSwitch], [.kind]⟩
  | "delete" => some ⟨globals ++ [parentSwitch], [.text]⟩
  | "kind" => some ⟨globals ++ [parentSwitch], [.text, .kind]⟩
  | "set" => some ⟨globals, [.text, .text, .text]⟩
  | "shader" =>
    some ⟨globals ++ [⟨"template", some 't', .path⟩, ⟨"output", some 'o', .path⟩], []⟩
  | "tree" | "reset" | "export" => some ⟨globals, []⟩
  | _ => none

/-- A kind among the words. -/
def kindOf (word : String) : Except Refusal Kind :=
  match Kind.ofText word with
  | .ok kind => .ok kind
  | .error _ => .error .usage

/-- The action of a subcommand with what was found after its name. -/
def actionOf (name : String) (found : Found) : Except Refusal Action :=
  match name, found.words with
  | "compile", [] => .ok (.compile (found.option? "id"))
  | "tree", [] => .ok .tree
  | "add", [kind] => (kindOf kind).map fun kind => .add kind (found.option? "parent")
  | "delete", [id] => .ok (.delete id (found.option? "parent"))
  | "kind", [id, kind] =>
    (kindOf kind).map fun kind => .changeKind id kind (found.option? "parent")
  | "set", [id, field, value] => .ok (.set id field value)
  | "reset", [] => .ok .reset
  | "export", [] => .ok .documents
  | "shader", [] =>
    match found.option? "template" with
    | some template => .ok (.shader template (found.option? "output"))
    | none => .error .usage
  | _, _ => .error .usage

/-- Whether words after `help` name a subcommand or nothing. -/
def isHelpTopic : List String → Bool
  | [] => true
  | [name] => name = "help" || (formOf? name).isSome
  | _ => false

/-- Read a command line. -/
def Request.ofArguments (arguments : List String) : Except Refusal Request := do
  let (outer, rest) ← scan ⟨globals, []⟩ [askHelp, askVersion] true arguments .empty
  match rest with
  | [] => .error .usage
  | name :: rest =>
    match formOf? name with
    | none =>
      .error (if name = "help" ∧ isHelpTopic rest then .help else .usage)
    | some form => do
      let (inner, _) ← scan form [askHelp] false rest .empty
      inner.check
      outer.check
      let action ← actionOf name inner
      pure ⟨(inner.option? "store").or (outer.option? "store"),
        outer.has "no-flatten" || inner.has "no-flatten", action⟩

end SdfScene.Command
