import Mathlib.Data.List.Basic

/-!
# Words and marks of code

Code is read as words with marks around them: a word runs as far as no mark stands, and a
mark is one character. Nothing is lost by it, so two texts with the same words and marks
are the same text.
-/

namespace SdfScene.Code

/-- Whether a character stands for itself. A point belongs to its number, and so does a
minus, which no expression uses as an operator. -/
def isMark (c : Char) : Bool := c ∈ ['(', ')', ',', '*', '/', ' ']

/-- A word, or a mark between two words. -/
inductive Token where
  | word (text : List Char)
  | mark (c : Char)
  deriving DecidableEq

/-- The characters of a token. -/
def Token.chars : Token → List Char
  | word text => text
  | mark c => [c]

/-- One more character in front that is no mark: it begins the word that is there, or is a
word of its own. -/
def attach (c : Char) : List Token → List Token
  | .word text :: rest => .word (c :: text) :: rest
  | [] => [.word [c]]
  | .mark d :: rest => .word [c] :: .mark d :: rest

/-- The words and marks of a text. -/
def tokens : List Char → List Token
  | [] => []
  | c :: text => if isMark c then .mark c :: tokens text else attach c (tokens text)

/-- Characters without a mark among them, and at least one. -/
structure IsWord (text : List Char) : Prop where
  ne_nil : text ≠ []
  unmarked : ∀ c ∈ text, ¬ isMark c

instance (text : List Char) : Decidable (IsWord text) :=
  decidable_of_iff (text ≠ [] ∧ text.all fun c => ¬ isMark c)
    ⟨fun ⟨hne, hall⟩ => ⟨hne, by simpa using hall⟩, fun ⟨hne, hall⟩ => ⟨hne, by simpa using hall⟩⟩

theorem flatMap_chars_attach (c : Char) (read : List Token) :
    (attach c read).flatMap Token.chars = c :: read.flatMap Token.chars := by
  rcases read with _ | ⟨_ | _, rest⟩ <;> rfl

/-- What stands behind a mark has no part in the words before it. -/
theorem attach_append_mark (c d : Char) (read rest : List Token) :
    attach c (read ++ .mark d :: rest) = attach c read ++ .mark d :: rest := by
  rcases read with _ | ⟨_ | _, read⟩ <;> rfl

theorem mem_attach {c : Char} {read : List Token} {word : List Char}
    (h : .word word ∈ attach c read) :
    .word word ∈ read ∨ ∃ text, word = c :: text ∧ (text = [] ∨ .word text ∈ read) := by
  rcases read with _ | ⟨text | d, read⟩
  · cases List.mem_singleton.mp h
    exact .inr ⟨[], rfl, .inl rfl⟩
  · rcases List.mem_cons.mp h with heq | hrest
    · cases heq
      exact .inr ⟨text, rfl, .inr List.mem_cons_self⟩
    · exact .inl (List.mem_cons_of_mem _ hrest)
  · rcases List.mem_cons.mp h with heq | hrest
    · cases heq
      exact .inr ⟨[], rfl, .inl rfl⟩
    · exact .inl hrest

/-- The words and marks of a text put together are the text. -/
theorem flatMap_chars_tokens (text : List Char) : (tokens text).flatMap Token.chars = text := by
  induction text with
  | nil => rfl
  | cons c text ih =>
    rw [tokens]
    split_ifs
    · rw [List.flatMap_cons, ih]
      rfl
    · rw [flatMap_chars_attach, ih]

/-- Texts with the same words and marks are the same. -/
theorem tokens_inj {text other : List Char} : tokens text = tokens other ↔ text = other := by
  constructor
  · intro h
    rw [← flatMap_chars_tokens text, h, flatMap_chars_tokens]
  · exact congrArg tokens

/-- A mark cuts a text into two that are read on their own. -/
theorem tokens_append_mark {c : Char} (h : isMark c) (before after : List Char) :
    tokens (before ++ c :: after) = tokens before ++ .mark c :: tokens after := by
  induction before with
  | nil => exact if_pos h
  | cons d before ih =>
    rw [List.cons_append, tokens, tokens, ih, attach_append_mark]
    split_ifs <;> rfl

/-- A word is read as one. -/
theorem IsWord.tokens_eq {text : List Char} (h : IsWord text) : tokens text = [.word text] := by
  obtain ⟨hne, hunmarked⟩ := h
  induction text with
  | nil => exact absurd rfl hne
  | cons c text ih =>
    obtain ⟨hc, htext⟩ := List.forall_mem_cons.mp hunmarked
    rw [tokens, if_neg hc]
    rcases text with _ | ⟨d, text⟩
    · rfl
    · rw [ih (List.cons_ne_nil _ _) htext, attach]

/-- No word has a mark in it. -/
theorem unmarked_of_mem_tokens {text word : List Char} (h : .word word ∈ tokens text) :
    ∀ c ∈ word, ¬ isMark c := by
  induction text generalizing word with
  | nil => cases h
  | cons c text ih =>
    rw [tokens] at h
    split_ifs at h with hc
    · cases h with
      | tail _ h => exact ih h
    · obtain h | ⟨rest, rfl, rfl | hrest⟩ := mem_attach h
      · exact ih h
      · exact List.forall_mem_singleton.mpr hc
      · exact List.forall_mem_cons.mpr ⟨hc, ih hrest⟩

end SdfScene.Code
