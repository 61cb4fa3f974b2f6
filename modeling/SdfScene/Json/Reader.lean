import SdfScene.Json.Document
import SdfScene.Json.Text

/-!
# Reading a document

The reader turns a text into a document and the text after it. It never fails: what
is not well-formed becomes a flaw at its place, and reading stops there.
-/

namespace SdfScene.Json

open Number

/-- A blank between tokens. -/
def isSpace (c : Char) : Bool := c = ' ' || c = '\n' || c = '\t' || c = '\r'

/-- The text after the blanks at its start. -/
def skipSpace (cs : List Char) : List Char := cs.dropWhile isSpace

/-- What was read, and the text after it unless there is a flaw. -/
abbrev Read (α : Type) := α × Option (List Char)

/-- Read the rest of a word that stands for a value. -/
def readWord (value : Doc) : List Char → List Char → Read Doc
  | [], rest => (value, some rest)
  | _ :: _, [] => (.flawed .cutWord, none)
  | expected :: word, c :: rest =>
    if c = expected then readWord value word rest else (.flawed .wrongWord, none)

/-- A flaw in a numeral, by what is left of the text. -/
def numeralFlaw (rest : List Char) : Read Doc :=
  (.flawed (if rest = [] then .cutNumeral else .wrongNumeral), none)

/-- Read the exponent of a numeral, if there is one. -/
def readExponent (negative : Bool) (whole fraction : List Char) (text : List Char) :
    Read Doc :=
  let plain : Read Doc := (.number ⟨negative, whole, fraction, none⟩, some text)
  match text with
  | [] => plain
  | mark :: rest =>
    if mark = 'e' ∨ mark = 'E' then
      let (minus, rest) := takeSign rest
      let digits := rest.takeWhile Char.isDigit
      if digits = [] then numeralFlaw rest
      else
        let exponent : Int := if minus then -(ofDigits digits : Int) else ofDigits digits
        (.number ⟨negative, whole, fraction, some exponent⟩,
          some (rest.dropWhile Char.isDigit))
    else plain

/-- Read a numeral after its minus: no leading zeros, and digits on both sides of a
point. -/
def readNumeral (negative : Bool) (text : List Char) : Read Doc :=
  let whole := text.takeWhile Char.isDigit
  let rest := text.dropWhile Char.isDigit
  if whole = [] then numeralFlaw rest
  else if whole.head? = some '0' ∧ whole.length ≠ 1 then (.flawed .wrongNumeral, none)
  else match rest with
    | '.' :: rest =>
      let fraction := rest.takeWhile Char.isDigit
      if fraction = [] then numeralFlaw rest
      else readExponent negative whole fraction (rest.dropWhile Char.isDigit)
    | rest => readExponent negative whole [] rest

/-- The category of an end that is not the closing quote. -/
def Closing.category : Closing → Category
  | .cut => .truncated
  | _ => .malformed

/-- A string after its opening quote: its text, where it can be read, and the text
after it, or the faults met by a reader and by one who skips it. -/
def readQuoted (text : List Char) :
    Except (Category × Category) (Option String × List Char) :=
  let (pieces, closing, rest) := scanString text
  match joinPieces closing pieces with
  | .ok content => .ok (some (String.ofList content), rest)
  | .error fault =>
    if closing = .quoted then .ok (none, rest)
    else .error (fault.category, closing.category)

mutual

/-- Read a value. -/
def readValue : Nat → List Char → Read Doc
  | 0, _ => (.flawed .missing, none)
  | fuel + 1, text =>
    match skipSpace text with
    | [] => (.flawed .missing, none)
    | 'n' :: rest => readWord .null ['u', 'l', 'l'] rest
    | 't' :: rest => readWord (.bool true) ['r', 'u', 'e'] rest
    | 'f' :: rest => readWord (.bool false) ['a', 'l', 's', 'e'] rest
    | '-' :: rest => readNumeral true rest
    | '"' :: rest =>
      match readQuoted rest with
      | .ok (text, rest) => (.string text, some rest)
      | .error (toReader, toSkipper) => (.flawed (.brokenText toReader toSkipper), none)
    | '[' :: rest =>
      match skipSpace rest with
      | [] => (.array [] .cut, none)
      | ']' :: rest => (.array [] .closed, some rest)
      | rest =>
        let (items, ending, rest) := readItems fuel rest
        (.array items ending, rest)
    | '{' :: rest =>
      match skipSpace rest with
      | [] => (.object [] .cut, none)
      | '}' :: rest => (.object [] .closed, some rest)
      | rest =>
        let (members, ending, rest) := readMembers fuel rest
        (.object members ending, rest)
    | c :: rest =>
      if c.isDigit then readNumeral false (c :: rest) else (.flawed .unexpected, none)

/-- Read the items of an array from the start of one of them. -/
def readItems : Nat → List Char → List Doc × Ending × Option (List Char)
  | 0, _ => ([], .cut, none)
  | fuel + 1, text =>
    match readValue fuel text with
    | (item, none) => ([item], .closed, none)
    | (item, some rest) =>
      match skipSpace rest with
      | [] => ([item], .cut, none)
      | ']' :: rest => ([item], .closed, some rest)
      | ',' :: rest =>
        match skipSpace rest with
        | [] => ([item], .afterComma true, none)
        | ']' :: _ => ([item], .afterComma false, none)
        | rest =>
          let (items, ending, rest) := readItems fuel rest
          (item :: items, ending, rest)
      | _ => ([item], .stray, none)

/-- Read the members of an object from the place of a key. -/
def readMembers :
    Nat → List Char → List (Option String × Doc) × Ending × Option (List Char)
  | 0, _ => ([], .cut, none)
  | fuel + 1, '"' :: text =>
    match readQuoted text with
    | .error (toReader, toSkipper) => ([], .brokenKey toReader toSkipper, none)
    | .ok (key, rest) =>
      match skipSpace rest with
      | [] => ([(key, .flawed (.noColon true))], .closed, none)
      | ':' :: rest =>
        match readValue fuel rest with
        | (value, none) => ([(key, value)], .closed, none)
        | (value, some rest) =>
          match skipSpace rest with
          | [] => ([(key, value)], .cut, none)
          | '}' :: rest => ([(key, value)], .closed, some rest)
          | ',' :: rest =>
            match skipSpace rest with
            | [] => ([(key, value)], .afterComma true, none)
            | '}' :: _ => ([(key, value)], .afterComma false, none)
            | rest =>
              let (members, ending, rest) := readMembers fuel rest
              ((key, value) :: members, ending, rest)
          | _ => ([(key, value)], .stray, none)
      | _ => ([(key, .flawed (.noColon false))], .closed, none)
  | _ + 1, _ => ([], .notAKey, none)

end

/-- The document at the start of a text, and the text after it unless it has a flaw. A
level of nesting takes two steps and at least one character. -/
def Doc.ofText (text : List Char) : Read Doc := readValue (2 * text.length + 2) text

/-- Whether something other than blanks follows a document. -/
def hasMore : Option (List Char) → Bool
  | none => false
  | some rest => skipSpace rest ≠ []

end SdfScene.Json
