import SdfScene.Json.Fault
import SdfScene.Json.Numeral

/-!
# Documents

A document is the tree of a JSON text, read as far as the text is well-formed. Where
it is not, the tree ends in a flaw. What a flaw means depends on how the place is
looked at: a value that is read, a value that is skipped, and the end of a sequence
that is already complete each have their own view of it.
-/

namespace SdfScene.Json

/-- Why no value stands at some place. -/
inductive Flaw where
  /-- The text ends where a value should begin. -/
  | missing
  /-- A character that begins no value. -/
  | unexpected
  /-- A word that is not the one its first letter announces. -/
  | wrongWord
  /-- The text ends inside a word. -/
  | cutWord
  /-- A numeral with a character out of place. -/
  | wrongNumeral
  /-- The text ends inside a numeral. -/
  | cutNumeral
  /-- A broken string, as it appears to a reader and to one who skips it. -/
  | brokenText (toReader toSkipper : Category)
  /-- A member without its colon, at the end of the text or before something else. -/
  | noColon (atEnd : Bool)
  deriving DecidableEq

namespace Flaw

/-- A flaw in a value that is read. -/
def whenRead : Flaw → Category
  | missing | cutWord | cutNumeral => .truncated
  | unexpected | wrongWord | wrongNumeral => .malformed
  | brokenText toReader _ => toReader
  | noColon atEnd => if atEnd then .truncated else .malformed

/-- A flaw in a value that is skipped: a cut numeral is not told from a wrong one. -/
def whenSkipped : Flaw → Category
  | missing | cutWord => .truncated
  | unexpected | wrongWord | wrongNumeral | cutNumeral => .malformed
  | brokenText _ toSkipper => toSkipper
  | noColon atEnd => if atEnd then .truncated else .malformed

/-- A flaw where a name is wanted: anything but a string is out of place at once. -/
def whenName : Flaw → Category
  | missing => .truncated
  | unexpected | wrongWord | cutWord | wrongNumeral | cutNumeral => .malformed
  | brokenText toReader _ => toReader
  | noColon atEnd => if atEnd then .truncated else .malformed

end Flaw

/-- How the items of an array or the members of an object come to an end. -/
inductive Ending where
  /-- By the closing bracket. -/
  | closed
  /-- By the end of the text, before a comma or a closing bracket. -/
  | cut
  /-- By something else than a comma or a closing bracket. -/
  | stray
  /-- After a comma, by the end of the text or by the closing bracket. -/
  | afterComma (atEnd : Bool)
  /-- By something else than a string in place of a key. -/
  | notAKey
  /-- By a broken string in place of a key. -/
  | brokenKey (toReader toSkipper : Category)
  deriving DecidableEq

namespace Ending

/-- The fault met by a reader who goes on to the next item. -/
def whenRead? : Ending → Option Category
  | closed => none
  | cut => some .truncated
  | stray => some .malformed
  | afterComma atEnd => some (if atEnd then .truncated else .malformed)
  | notAKey => some .malformed
  | brokenKey toReader _ => some toReader

/-- The fault met by one who skips the items. -/
def whenSkipped? : Ending → Option Category
  | brokenKey _ toSkipper => some toSkipper
  | ending => ending.whenRead?

/-- The fault met by a reader who wants the closing bracket. -/
def whenComplete? : Ending → Option Category
  | closed => none
  | cut => some .truncated
  | _ => some .malformed

end Ending

/-- A JSON text as far as it is well-formed. A string is `none` where an escape stands
for half a surrogate pair; such a string can be skipped but not read. -/
inductive Doc where
  | null
  | bool (value : Bool)
  | number (numeral : Numeral)
  | string (text : Option String)
  | array (items : List Doc) (ending : Ending)
  | object (members : List (Option String × Doc)) (ending : Ending)
  | flawed (flaw : Flaw)

/-- The number of nested arrays and objects that a reader accepts. -/
def depthLimit : Nat := 127

namespace Doc

/-- The fault met by a reader who wants a value of another type: a container is
refused at its bracket, anything else is read first. -/
def whenUnsuited : Doc → Category
  | .flawed flaw => flaw.whenRead
  | .number numeral => if numeral.quantity?.isSome then .unsuitable else .malformed
  | .string none => .malformed
  | _ => .unsuitable

mutual

/-- The first fault met by a reader of the whole value, `levels` deep at most. -/
def readFault? (levels : Nat) : Doc → Option Category
  | .null | .bool _ => none
  | .number numeral => if numeral.quantity?.isSome then none else some .malformed
  | .string text => if text.isSome then none else some .malformed
  | .array items ending =>
    match levels with
    | 0 => some .malformed
    | levels + 1 => (readFaultItems? levels items).or ending.whenRead?
  | .object members ending =>
    match levels with
    | 0 => some .malformed
    | levels + 1 => (readFaultMembers? levels members).or ending.whenRead?
  | .flawed flaw => some flaw.whenRead

/-- The first fault met by a reader of the items. -/
def readFaultItems? (levels : Nat) : List Doc → Option Category
  | [] => none
  | item :: items => (readFault? levels item).or (readFaultItems? levels items)

/-- The first fault met by a reader of the members. -/
def readFaultMembers? (levels : Nat) : List (Option String × Doc) → Option Category
  | [] => none
  | (none, _) :: _ => some .malformed
  | (some _, value) :: members =>
    (readFault? levels value).or (readFaultMembers? levels members)

end

mutual

/-- The first fault met by one who skips the value, however deep it is. -/
def skipFault? : Doc → Option Category
  | .array items ending => (skipFaultItems? items).or ending.whenSkipped?
  | .object members ending => (skipFaultMembers? members).or ending.whenSkipped?
  | .flawed flaw => some flaw.whenSkipped
  | _ => none

/-- The first fault met by one who skips the items. -/
def skipFaultItems? : List Doc → Option Category
  | [] => none
  | item :: items => (skipFault? item).or (skipFaultItems? items)

/-- The first fault met by one who skips the members. -/
def skipFaultMembers? : List (Option String × Doc) → Option Category
  | [] => none
  | (_, value) :: members => (skipFault? value).or (skipFaultMembers? members)

end

end Doc

end SdfScene.Json
