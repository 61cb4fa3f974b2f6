import Mathlib.Data.String.Basic
import SdfScene.Proofs.Shader.Search

/-!
# Injection by byte offsets

The same injection as a walk over the bytes of a template: words are found at byte offsets, slices
are taken at them, and the braces are counted down one by one. Each slice and each count can fail,
and none does.
-/

namespace SdfScene.Shader

open String (utf8Len)

/-- The text before and after a byte offset, if a character begins or the text ends there. -/
def cutAt? (offset : Nat) : List Char → Option (List Char × List Char)
  | [] => if offset = 0 then some ([], []) else none
  | c :: text =>
    if offset = 0 then some ([], c :: text)
    else if c.utf8Size ≤ offset then
      (cutAt? (offset - c.utf8Size) text).map fun (before, after) => (c :: before, after)
    else none

/-- The byte offset of the first occurrence of a word. -/
def offset? (word text : List Char) : Option Nat :=
  (splitBefore? word text).map fun (before, _) => utf8Len before

/-- How the count of braces ends: below zero, with braces open, or at the byte offset behind the
brace that closes the last of them. -/
inductive Count
  | underflow
  | unfinished
  | closed (offset : Nat)

/-- Count the braces, of which `depth` are open at a byte offset. Closing ones do not count until
one is `opened`. -/
def countBraces (opened : Bool) (depth offset : Nat) : List Char → Count
  | [] => .unfinished
  | c :: text =>
    if c = '\x7b' then countBraces true (depth + 1) (offset + c.utf8Size) text
    else if c = '\x7d' ∧ opened then
      match depth with
      | 0 => .underflow
      | 1 => .closed (offset + 1)
      | depth + 2 => countBraces opened (depth + 1) (offset + c.utf8Size) text
    else countBraces opened depth (offset + c.utf8Size) text

/-- The parts of a template around the definition by byte offsets, `some none` for a template
without a complete one. No answer is given if the count of braces falls below zero or a slice is
not taken at the beginning of a character. -/
def sliceAround? (template : List Char) : Option (Option (List Char × List Char)) :=
  match offset? marker template with
  | none => some none
  | some start => do
    let (_, marked) ← cutAt? start template
    match offset? functionName marked with
    | none => some none
    | some offset =>
      let (_, definition) ← cutAt? (start + offset) template
      match countBraces false 0 0 definition with
      | .underflow => none
      | .unfinished => some none
      | .closed length =>
        let (before, _) ← cutAt? start template
        let (_, after) ← cutAt? (start + offset + length) template
        some (some (before, after))

/-- A text can be cut behind each of its beginnings. -/
theorem cutAt?_append (front back : List Char) :
    cutAt? (utf8Len front) (front ++ back) = some (front, back) := by
  induction front with
  | nil => cases back <;> rfl
  | cons c front ih =>
    have hpositive : utf8Len (c :: front) ≠ 0 := by
      rw [Ne, String.utf8Len_eq_zero]
      exact List.cons_ne_nil c front
    have hle : c.utf8Size ≤ utf8Len (c :: front) := Nat.le_add_left _ _
    rw [List.cons_append, cutAt?, if_neg hpositive, if_pos hle, String.utf8Len_cons,
      Nat.add_sub_cancel, ih]
    rfl

/-- A text is cut at an offset exactly if a beginning of it has as many bytes. -/
theorem cutAt?_eq_some {offset : Nat} {text front back : List Char} :
    cutAt? offset text = some (front, back) ↔ text = front ++ back ∧ offset = utf8Len front := by
  constructor
  · intro h
    induction text generalizing offset front with
    | nil =>
      rw [cutAt?] at h
      split at h
      · next hzero =>
        cases h
        exact ⟨rfl, hzero⟩
      · cases h
    | cons c text ih =>
      rw [cutAt?] at h
      split at h
      · next hzero =>
        cases h
        exact ⟨rfl, hzero⟩
      · split at h
        · next hle =>
          obtain ⟨⟨rest, tail⟩, hrest, hsame⟩ := Option.map_eq_some_iff.mp h
          cases hsame
          obtain ⟨rfl, hoffset⟩ := ih hrest
          exact ⟨rfl, (Nat.sub_eq_iff_eq_add hle).mp hoffset⟩
        · cases h
  · rintro ⟨rfl, rfl⟩
    exact cutAt?_append front back

/-- A search that leaves `none` or some end of a text, and the count that it is: the offset is that
of the end. -/
inductive CountOf (offset : Nat) (text : List Char) : Option (List Char) → Count → Prop
  | unfinished : CountOf offset text none .unfinished
  | closed (passed after : List Char) (heq : text = passed ++ after) :
    CountOf offset text (some after) (.closed (offset + utf8Len passed))

theorem CountOf.cons {offset : Nat} {c : Char} {text : List Char} {left : Option (List Char)}
    {count : Count} (h : CountOf (offset + c.utf8Size) text left count) :
    CountOf offset (c :: text) left count := by
  cases h with
  | unfinished => exact .unfinished
  | closed passed after heq =>
    have hsum : offset + c.utf8Size + utf8Len passed = offset + utf8Len (c :: passed) := by
      rw [String.utf8Len_cons, Nat.add_assoc, Nat.add_comm c.utf8Size]
    rw [hsum]
    exact .closed (c :: passed) after (by rw [heq, List.cons_append])

/-- Once a brace is opened, the count is that of the search, and stays above zero until it ends. -/
theorem countOf_opened (depth offset : Nat) (text : List Char) :
    CountOf offset text (afterBody? (depth + 1) text)
      (countBraces true (depth + 1) offset text) := by
  induction text generalizing depth offset with
  | nil => exact .unfinished
  | cons c text ih =>
    by_cases hopen : c = '\x7b'
    · subst hopen
      exact (ih (depth + 1) _).cons
    · by_cases hclose : c = '\x7d'
      · subst hclose
        cases depth with
        | zero => exact .closed ['\x7d'] text rfl
        | succ depth => exact (ih depth _).cons
      · rw [afterBody?_other hopen hclose]
        simp only [countBraces, if_neg hopen, hclose, false_and, if_false]
        exact (ih depth _).cons

/-- Before a brace is opened, none counts. -/
theorem countOf_unopened (offset : Nat) (text : List Char) :
    CountOf offset text (afterBody? 0 text) (countBraces false 0 offset text) := by
  induction text generalizing offset with
  | nil => exact .unfinished
  | cons c text ih =>
    by_cases hopen : c = '\x7b'
    · subst hopen
      exact (countOf_opened 0 _ text).cons
    · rw [afterBody?_zero_cons hopen]
      simp only [countBraces, if_neg hopen, Bool.false_eq_true, and_false, if_false]
      exact (ih _).cons

/-- No count falls below zero and every slice is taken at the beginning of a character: by offsets,
the parts around the definition are those that the search finds. -/
theorem sliceAround?_eq (template : List Char) :
    sliceAround? template = some (aroundDefinition? template) := by
  unfold sliceAround? aroundDefinition? offset?
  cases hmarker : splitBefore? marker template with
  | none => rfl
  | some split =>
    obtain ⟨before, marked⟩ := split
    obtain ⟨rfl, -⟩ := splitBefore?_eq_some hmarker
    cases hname : splitBefore? functionName marked with
    | none => simp [cutAt?_append, hname]
    | some split =>
      obtain ⟨between, definition⟩ := split
      obtain ⟨rfl, -⟩ := splitBefore?_eq_some hname
      have hstart : cutAt? (utf8Len before + utf8Len between) (before ++ (between ++ definition)) =
          some (before ++ between, definition) :=
        cutAt?_eq_some.mpr (by simp)
      have hcount := countOf_unopened 0 definition
      generalize hdefinition : afterBody? 0 definition = left at hcount
      generalize hbraces : countBraces false 0 0 definition = count at hcount
      cases hcount with
      | unfinished => simp [cutAt?_append, hname, hstart, hdefinition, hbraces]
      | closed passed after heq =>
        subst heq
        have hend : cutAt? (utf8Len before + utf8Len between + utf8Len passed)
            (before ++ (between ++ (passed ++ after))) =
              some (before ++ between ++ passed, after) :=
          cutAt?_eq_some.mpr (by simp [Nat.add_assoc])
        simp [cutAt?_append, hname, hstart, hdefinition, hbraces, hend]

end SdfScene.Shader
