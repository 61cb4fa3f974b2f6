import SdfScene.Text.Blank

/-!
# Shader templates

A template holds a marker and, somewhere after it, a default definition of the function
`worldMap`. The generated function takes the place of everything from the marker to the
end of that definition; a template without both gets it appended.
-/

namespace SdfScene.Shader

/-- The marker that precedes the default definition. -/
def marker : List Char := "// WORLD_MAP_PLACEHOLDER".toList

/-- The name of the function. -/
def functionName : List Char := "worldMap".toList

/-- The definition of the function that gives an expression. -/
def worldMap (expression : String) : String :=
  "Col worldMap(vec3 p) \x7b\n    return " ++ expression ++ ";\n\x7d"

/-- Split a text before the first occurrence of a word. -/
def splitBefore? (word : List Char) : List Char → Option (List Char × List Char)
  | [] => if word = [] then some ([], []) else none
  | c :: cs =>
    if word.isPrefixOf (c :: cs) then some ([], c :: cs)
    else (splitBefore? word cs).map fun (before, found) => (c :: before, found)

/-- The text after the brace that closes the first opened one. Closing braces before it
do not count; `depth` is the number of open braces. -/
def afterBody? (depth : Nat) : List Char → Option (List Char)
  | [] => none
  | c :: cs =>
    if c = '\x7b' then afterBody? (depth + 1) cs
    else if c = '\x7d' then
      match depth with
      | 0 => afterBody? 0 cs
      | 1 => some cs
      | depth + 2 => afterBody? (depth + 1) cs
    else afterBody? depth cs

/-- The parts of a template before the marker and after the default definition. -/
def aroundDefinition? (template : List Char) : Option (List Char × List Char) := do
  let (before, marked) ← splitBefore? marker template
  let (_, definition) ← splitBefore? functionName marked
  let after ← afterBody? 0 definition
  pure (before, after)

/-- The shader that a template becomes with a given expression. -/
def inject (template expression : String) : String :=
  match aroundDefinition? template.toList with
  | some (before, after) => String.ofList before ++ worldMap expression ++ String.ofList after
  | none =>
    String.ofList (Text.trimEnd template.toList) ++ "\n" ++ worldMap expression ++ "\n"

end SdfScene.Shader
