import SdfScene.Number.Decimal

/-!
# Strings of a document

A quoted string is scanned into characters and 16-bit units before the units are
paired, because one who skips a string does not pair them. Writing escapes the
quote, the backslash and the control characters and nothing else.
-/

namespace SdfScene.Json

/-- One piece of a quoted string: a character or an escaped 16-bit unit. -/
inductive Piece where
  | char (c : Char)
  | unit (n : Nat)
  deriving DecidableEq

/-- How a quoted string comes to an end. -/
inductive Closing where
  /-- By its closing quote. -/
  | quoted
  /-- By the end of the text. -/
  | cut
  /-- By a control character or a wrong escape. -/
  | wrong
  deriving DecidableEq

/-- The value of a hexadecimal digit. -/
def hexValue? (c : Char) : Option Nat :=
  if c.isDigit then some (c.toNat - '0'.toNat)
  else if 'a' ≤ c ∧ c ≤ 'f' then some (c.toNat - 'a'.toNat + 10)
  else if 'A' ≤ c ∧ c ≤ 'F' then some (c.toNat - 'A'.toNat + 10)
  else none

/-- The 16-bit unit that four hexadecimal digits denote. -/
def hexUnit? (a b c d : Char) : Option Nat := do
  let a ← hexValue? a
  let b ← hexValue? b
  let c ← hexValue? c
  let d ← hexValue? d
  pure (((a * 16 + b) * 16 + c) * 16 + d)

/-- The character that a one-letter escape denotes. -/
def shortEscape? : Char → Option Char
  | '"' => some '"'
  | '\\' => some '\\'
  | '/' => some '/'
  | 'b' => some '\x08'
  | 'f' => some '\x0c'
  | 'n' => some '\n'
  | 'r' => some '\r'
  | 't' => some '\t'
  | _ => none

/-- Put a piece in front of a scan. -/
def pushPiece (piece : Piece) (scan : List Piece × Closing × List Char) :
    List Piece × Closing × List Char :=
  (piece :: scan.1, scan.2)

/-- Scan a string after its opening quote: its pieces, how it ends and the text after
it. An escape with fewer than four bytes left of the text is cut, not wrong. -/
def scanString : List Char → List Piece × Closing × List Char
  | [] => ([], .cut, [])
  | '"' :: rest => ([], .quoted, rest)
  | '\\' :: 'u' :: a :: b :: c :: d :: rest =>
    match hexUnit? a b c d with
    | some n => pushPiece (.unit n) (scanString rest)
    | none => ([], .wrong, [])
  | '\\' :: 'u' :: rest =>
    ([], if 4 ≤ (String.ofList rest).utf8ByteSize then .wrong else .cut, [])
  | ['\\'] => ([], .cut, [])
  | '\\' :: c :: rest =>
    match shortEscape? c with
    | some c => pushPiece (.char c) (scanString rest)
    | none => ([], .wrong, [])
  | c :: rest =>
    if c < ' ' then ([], .wrong, []) else pushPiece (.char c) (scanString rest)

/-- The first half of a surrogate pair. -/
def isLeading (n : Nat) : Bool := 0xD800 ≤ n && n ≤ 0xDBFF

/-- The second half of a surrogate pair. -/
def isTrailing (n : Nat) : Bool := 0xDC00 ≤ n && n ≤ 0xDFFF

/-- The text that pieces stand for, or how reading them fails: an unpaired half is
wrong, except that a first half may be cut from its second. -/
def joinPieces (closing : Closing) : List Piece → Except Closing (List Char)
  | [] => if closing = .quoted then .ok [] else .error closing
  | .char c :: pieces => (joinPieces closing pieces).map (c :: ·)
  | .unit n :: .unit m :: pieces =>
    if isLeading n then
      if isTrailing m then
        (joinPieces closing pieces).map
          (Char.ofNat (0x10000 + (n - 0xD800) * 0x400 + (m - 0xDC00)) :: ·)
      else .error .wrong
    else if isTrailing n then .error .wrong
    else (joinPieces closing (.unit m :: pieces)).map (Char.ofNat n :: ·)
  | .unit n :: pieces =>
    if isLeading n then .error (if pieces = [] ∧ closing = .cut then .cut else .wrong)
    else if isTrailing n then .error .wrong
    else (joinPieces closing pieces).map (Char.ofNat n :: ·)

/-- The lower-case hexadecimal digit of a number below sixteen. -/
def hexDigit (n : Nat) : Char :=
  if n < 10 then Char.ofNat ('0'.toNat + n) else Char.ofNat ('a'.toNat + (n - 10))

/-- A character as it is written inside a string. -/
def escapeChar (c : Char) : List Char :=
  if c = '"' then ['\\', '"']
  else if c = '\\' then ['\\', '\\']
  else if c = '\x08' then ['\\', 'b']
  else if c = '\x0c' then ['\\', 'f']
  else if c = '\n' then ['\\', 'n']
  else if c = '\r' then ['\\', 'r']
  else if c = '\t' then ['\\', 't']
  else if c < ' ' then
    ['\\', 'u', '0', '0', hexDigit (c.toNat / 16), hexDigit (c.toNat % 16)]
  else [c]

/-- A string as it is written in a document. -/
def quote (text : String) : List Char :=
  ['"'] ++ text.toList.flatMap escapeChar ++ ['"']

end SdfScene.Json
