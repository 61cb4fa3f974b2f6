import SdfScene.Text.Printable

/-!
# Quoted texts

A text in double quotes on one line of printable characters: quotes, backslashes and the
common controls have short escapes, every other character that prints nothing of its own
is written as its code.
-/

namespace SdfScene.Text

/-- The hexadecimal digits of a number from the last one back, `fuel` bounding their
count. -/
def hexBack : Nat → Nat → List Char
  | 0, _ => []
  | fuel + 1, n =>
    let digit := Nat.digitChar (n % 16)
    if n < 16 then [digit] else digit :: hexBack fuel (n / 16)

/-- A character as it is written in a quoted text. -/
def quoteChar (c : Char) : List Char :=
  if c = '\x00' then ['\\', '0']
  else if c = '\t' then ['\\', 't']
  else if c = '\r' then ['\\', 'r']
  else if c = '\n' then ['\\', 'n']
  else if c = '\\' ∨ c = '"' then ['\\', c]
  else if isPrintable c then [c]
  else ['\\', 'u', '\x7b'] ++ (hexBack 6 c.toNat).reverse ++ ['\x7d']

/-- A text in quotes. -/
def quoted (text : String) : String :=
  String.ofList (['"'] ++ text.toList.flatMap quoteChar ++ ['"'])

end SdfScene.Text
