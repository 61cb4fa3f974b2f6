import Mathlib.Data.List.Infix
import SdfScene.Proofs.Expression.Tokens

/-!
# Calls and their arguments

An argument is a word, a call, or two of these with an operator between them. It closes
what it opens and has its commas inside parentheses, so the arguments of a call end where
the call says.
-/

namespace SdfScene.Code

/-! ## Parentheses -/

/-- No beginning of a text closes more parentheses than it opens, and the whole text closes
all it opens. -/
structure Balanced (text : List Char) : Prop where
  opened : ∀ length, (text.take length).count ')' ≤ (text.take length).count '('
  closed : text.count ')' = text.count '('

theorem Balanced.of_notMem {text : List Char} (hopen : '(' ∉ text) (hclose : ')' ∉ text) :
    Balanced text where
  opened length := by
    rw [List.count_eq_zero_of_not_mem fun h => hclose (List.mem_of_mem_take h)]
    exact Nat.zero_le _
  closed := by rw [List.count_eq_zero_of_not_mem hclose, List.count_eq_zero_of_not_mem hopen]

theorem Balanced.append {text other : List Char} (h : Balanced text) (hother : Balanced other) :
    Balanced (text ++ other) where
  opened length := by
    rw [List.take_append, List.count_append, List.count_append]
    exact Nat.add_le_add (h.opened _) (hother.opened _)
  closed := by rw [List.count_append, List.count_append, h.closed, hother.closed]

theorem Balanced.enclosed {text : List Char} (h : Balanced text) :
    Balanced ('(' :: (text ++ [')'])) where
  opened length := by
    cases length with
    | zero => exact Nat.le_refl _
    | succ length =>
      have hinner := h.opened length
      have hlast : ((([')'] : List Char).take (length - text.length)).count ')') ≤ 1 :=
        (List.take_sublist _ _).count_le _
      simp only [List.take_succ_cons, List.take_append, List.count_cons, List.count_append,
        beq_iff_eq, Char.reduceEq, if_false, if_true]
      omega
  closed := by simp [h.closed]

theorem Balanced.flatMap {α : Type} {items : List α} {text : α → List Char}
    (h : ∀ item ∈ items, Balanced (text item)) : Balanced (items.flatMap text) := by
  induction items with
  | nil => exact .of_notMem List.not_mem_nil List.not_mem_nil
  | cons item items ih =>
    obtain ⟨hitem, hitems⟩ := List.forall_mem_cons.mp h
    exact hitem.append (ih hitems)

/-! ## The form of a call -/

/-- The text of a call. -/
def callText (name first : List Char) (others : List (List Char)) : List Char :=
  name ++ '(' :: (first ++ others.flatMap (',' :: ·) ++ [')'])

/-- The words and marks of a call. -/
def call (name : List Char) (first : List Token) (others : List (List Token)) : List Token :=
  .word name :: .mark '(' :: (first ++ others.flatMap (.mark ',' :: ·) ++ [.mark ')'])

private theorem tokens_arguments (first : List Char) (others : List (List Char)) :
    tokens (first ++ others.flatMap (',' :: ·) ++ [')']) =
      tokens first ++ (others.map tokens).flatMap (.mark ',' :: ·) ++ [.mark ')'] := by
  induction others generalizing first with
  | nil => simp [tokens_append_mark (c := ')') rfl, tokens]
  | cons other others ih =>
    rw [List.flatMap_cons, List.cons_append, List.append_assoc, List.cons_append,
      tokens_append_mark rfl, ih]
    simp

/-- A call is read as the reading of its arguments. -/
theorem tokens_callText {name : List Char} (hname : IsWord name) (first : List Char)
    (others : List (List Char)) :
    tokens (callText name first others) = call name (tokens first) (others.map tokens) := by
  rw [callText, tokens_append_mark rfl, hname.tokens_eq, tokens_arguments]
  rfl

/-- What can stand as an argument. -/
inductive Argument : List Token → Prop
  | word (text : List Char) : Argument [.word text]
  | operation {left right : List Token} {c : Char} (hc : c ≠ '(' ∧ c ≠ ')' ∧ c ≠ ',')
    (hleft : Argument left) (hright : Argument right) : Argument (left ++ .mark c :: right)
  | call (name : List Char) {first : List Token} {others : List (List Token)}
    (hfirst : Argument first) (hothers : ∀ other ∈ others, Argument other) :
    Argument (call name first others)

/-- The characters of a call. -/
theorem flatMap_chars_call (name : List Char) (first : List Token) (others : List (List Token)) :
    (call name first others).flatMap Token.chars =
      name ++ '(' :: (first.flatMap Token.chars ++
        others.flatMap (fun other => ',' :: other.flatMap Token.chars) ++ [')']) := by
  simp [call, Token.chars, List.flatMap_assoc]

/-- Arguments close what they open. -/
theorem Argument.balanced {read : List Token} (h : Argument read)
    (hwords : ∀ text, .word text ∈ read → ∀ c ∈ text, ¬ isMark c) :
    Balanced (read.flatMap Token.chars) := by
  have hplain : ∀ text : List Char, (∀ c ∈ text, ¬ isMark c) → Balanced text := fun text htext =>
    .of_notMem (fun hmem => htext _ hmem rfl) (fun hmem => htext _ hmem rfl)
  induction h with
  | word text =>
    rw [List.flatMap_singleton]
    exact hplain text (hwords text List.mem_cons_self)
  | @operation left right c hc _ _ ihleft ihright =>
    have hmark : Balanced [c] := .of_notMem (by simp [hc.1.symm]) (by simp [hc.2.1.symm])
    rw [List.flatMap_append, List.flatMap_cons]
    exact (ihleft fun text htext => hwords text (List.mem_append_left _ htext)).append
      (hmark.append (ihright fun text htext =>
        hwords text (List.mem_append_right _ (List.mem_cons_of_mem _ htext))))
  | @call name first others _ _ ihfirst ihothers =>
    have hname : Balanced name := hplain name (hwords name List.mem_cons_self)
    have hfirst := ihfirst fun text htext => hwords text (by simp [Code.call, htext])
    have hrest : Balanced (others.flatMap fun other => ',' :: other.flatMap Token.chars) := by
      refine .flatMap fun other hother => ?_
      have hcomma : Balanced [','] := .of_notMem (by decide) (by decide)
      refine hcomma.append (ihothers other hother fun text htext => hwords text ?_)
      simp only [Code.call, List.mem_cons, List.mem_append, List.mem_flatMap]
      exact .inr (.inr (.inl (.inr ⟨other, hother, .inr htext⟩)))
    rw [flatMap_chars_call]
    exact hname.append (hfirst.append hrest).enclosed

/-! ## Reading the arguments of a call -/

/-- The arguments up to the parenthesis that closes them, and what stands behind it. Those
read so far, the one that is read and the number of parentheses open in it are kept. -/
def argumentsFrom? : ℕ → List (List Token) → List Token → List Token →
    Option (List (List Token) × List Token)
  | _, _, _, [] => none
  | depth, done, current, .mark '(' :: rest =>
    argumentsFrom? (depth + 1) done (current ++ [.mark '(']) rest
  | 0, done, current, .mark ')' :: rest => some (done ++ [current], rest)
  | depth + 1, done, current, .mark ')' :: rest =>
    argumentsFrom? depth done (current ++ [.mark ')']) rest
  | 0, done, current, .mark ',' :: rest => argumentsFrom? 0 (done ++ [current]) [] rest
  | depth, done, current, token :: rest => argumentsFrom? depth done (current ++ [token]) rest

/-- The arguments of a call, from behind the parenthesis that opens them, and what stands
behind the one that closes them. -/
def arguments? (read : List Token) : Option (List (List Token) × List Token) :=
  argumentsFrom? 0 [] [] read

section

variable (depth : ℕ) (done : List (List Token)) (current rest : List Token)

theorem argumentsFrom?_word (text : List Char) :
    argumentsFrom? depth done current (.word text :: rest) =
      argumentsFrom? depth done (current ++ [.word text]) rest := by
  cases depth <;> simp [argumentsFrom?]

theorem argumentsFrom?_operator {c : Char} (hc : c ≠ '(' ∧ c ≠ ')' ∧ c ≠ ',') :
    argumentsFrom? depth done current (.mark c :: rest) =
      argumentsFrom? depth done (current ++ [.mark c]) rest := by
  cases depth <;> simp [argumentsFrom?, hc]

theorem argumentsFrom?_open :
    argumentsFrom? depth done current (.mark '(' :: rest) =
      argumentsFrom? (depth + 1) done (current ++ [.mark '(']) rest := by
  simp [argumentsFrom?]

theorem argumentsFrom?_succ_close :
    argumentsFrom? (depth + 1) done current (.mark ')' :: rest) =
      argumentsFrom? depth done (current ++ [.mark ')']) rest := by
  simp [argumentsFrom?]

theorem argumentsFrom?_succ_comma :
    argumentsFrom? (depth + 1) done current (.mark ',' :: rest) =
      argumentsFrom? (depth + 1) done (current ++ [.mark ',']) rest := by
  simp [argumentsFrom?]

theorem argumentsFrom?_zero_close :
    argumentsFrom? 0 done current (.mark ')' :: rest) = some (done ++ [current], rest) := by
  simp [argumentsFrom?]

theorem argumentsFrom?_zero_comma :
    argumentsFrom? 0 done current (.mark ',' :: rest) =
      argumentsFrom? 0 (done ++ [current]) [] rest := by
  simp [argumentsFrom?]

end

/-- Arguments inside the parentheses of another call belong to one argument. -/
private theorem argumentsFrom?_inner {others : List (List Token)}
    (hothers : ∀ other ∈ others, ∀ depth done current rest,
      argumentsFrom? depth done current (other ++ rest) =
        argumentsFrom? depth done (current ++ other) rest)
    (depth : ℕ) (done : List (List Token)) (current rest : List Token) :
    argumentsFrom? (depth + 1) done current (others.flatMap (.mark ',' :: ·) ++ rest) =
      argumentsFrom? (depth + 1) done (current ++ others.flatMap (.mark ',' :: ·)) rest := by
  induction others generalizing current with
  | nil => simp
  | cons other others ih =>
    obtain ⟨hother, hothers⟩ := List.forall_mem_cons.mp hothers
    rw [List.flatMap_cons, List.cons_append, List.cons_append, List.append_assoc,
      argumentsFrom?_succ_comma, hother, ih hothers]
    simp

/-- An argument is passed over as a whole. -/
theorem Argument.argumentsFrom? {read : List Token} (h : Argument read) (depth : ℕ)
    (done : List (List Token)) (current rest : List Token) :
    Code.argumentsFrom? depth done current (read ++ rest) =
      Code.argumentsFrom? depth done (current ++ read) rest := by
  induction h generalizing depth done current rest with
  | word text => exact argumentsFrom?_word depth done current rest text
  | operation hc _ _ ihleft ihright =>
    rw [List.append_assoc, ihleft, List.cons_append, argumentsFrom?_operator _ _ _ _ hc, ihright]
    simp
  | call name _ _ ihfirst ihothers =>
    rw [Code.call, List.cons_append, argumentsFrom?_word, List.cons_append, argumentsFrom?_open]
    simp only [List.append_assoc]
    rw [ihfirst, argumentsFrom?_inner ihothers]
    exact (argumentsFrom?_succ_close _ _ _ _).trans (by simp)

/-- The arguments of a call are those it was made of. -/
theorem arguments?_call {first : List Token} {others : List (List Token)} (hfirst : Argument first)
    (hothers : ∀ other ∈ others, Argument other) (rest : List Token) :
    arguments? (first ++ others.flatMap (.mark ',' :: ·) ++ .mark ')' :: rest) =
      some (first :: others, rest) := by
  have hfrom : ∀ done current,
      argumentsFrom? 0 done current (others.flatMap (.mark ',' :: ·) ++ .mark ')' :: rest) =
        some (done ++ current :: others, rest) := by
    clear hfirst
    induction others with
    | nil => exact fun done current => argumentsFrom?_zero_close done current rest
    | cons other others ih =>
      intro done current
      obtain ⟨hother, hothers⟩ := List.forall_mem_cons.mp hothers
      rw [List.flatMap_cons, List.cons_append, List.cons_append, List.append_assoc,
        argumentsFrom?_zero_comma, hother.argumentsFrom?, ih hothers]
      simp
  rw [arguments?, List.append_assoc, hfirst.argumentsFrom?, hfrom]
  rfl

/-! ## All calls of a text -/

/-- At each call that begins in a list of tokens, a property of its name and of what stands
behind its parenthesis, which may reach into the tokens behind the list. -/
def CallsHold (property : List Char → List Token → Prop) : List Token → List Token → Prop
  | [], _ => True
  | token :: read, after =>
    (∀ name rest, token = .word name → read ++ after = .mark '(' :: rest → property name rest) ∧
      CallsHold property read after

variable {property : List Char → List Token → Prop}

theorem callsHold_append {read other after : List Token} :
    CallsHold property (read ++ other) after ↔
      CallsHold property read (other ++ after) ∧ CallsHold property other after := by
  induction read with
  | nil => simp [CallsHold]
  | cons token read ih => simp [CallsHold, ih, and_assoc]

/-- No call begins at a mark. -/
@[simp] theorem callsHold_mark {c : Char} {read after : List Token} :
    CallsHold property (.mark c :: read) after ↔ CallsHold property read after := by
  simp [CallsHold]

/-- A call holds if its head does and its arguments do, each in its place. -/
theorem callsHold_call {name : List Char} {first : List Token} {others : List (List Token)}
    {after : List Token}
    (hname : property name (first ++ others.flatMap (.mark ',' :: ·) ++ .mark ')' :: after))
    (hfirst : CallsHold property first (others.flatMap (.mark ',' :: ·) ++ .mark ')' :: after))
    (hothers : CallsHold property (others.flatMap (.mark ',' :: ·)) (.mark ')' :: after)) :
    CallsHold property (call name first others) after := by
  refine ⟨?_, ?_⟩
  · rintro _ rest ⟨rfl⟩ hopen
    cases hopen
    simpa using hname
  · rw [callsHold_mark, callsHold_append, callsHold_append]
    exact ⟨⟨by simpa using hfirst, by simpa using hothers⟩, by simp [CallsHold]⟩

/-- The property at each call of a list of tokens, whatever stands behind the list but a
parenthesis, which would make a call of its last word. -/
def AllCalls (property : List Char → List Token → Prop) (read : List Token) : Prop :=
  ∀ after, (∀ rest, after ≠ .mark '(' :: rest) → CallsHold property read after

theorem allCalls_word (text : List Char) : AllCalls property [.word text] :=
  fun _ hafter => ⟨fun _ rest _ hopen => absurd hopen (hafter rest), trivial⟩

theorem AllCalls.operation {left right : List Token} {c : Char} (hc : c ≠ '(')
    (hleft : AllCalls property left) (hright : AllCalls property right) :
    AllCalls property (left ++ .mark c :: right) := by
  intro after hafter
  rw [callsHold_append, callsHold_mark]
  exact ⟨hleft _ fun rest h => hc (Token.mark.inj (List.cons.inj h).1), hright after hafter⟩

/-- Behind each argument stands a comma or the last parenthesis. -/
theorem callsHold_arguments {others : List (List Token)}
    (hothers : ∀ other ∈ others, AllCalls property other) (after : List Token) :
    CallsHold property (others.flatMap (.mark ',' :: ·)) (.mark ')' :: after) := by
  induction others with
  | nil => trivial
  | cons other others ih =>
    obtain ⟨hother, hothers⟩ := List.forall_mem_cons.mp hothers
    rw [List.flatMap_cons, List.cons_append, callsHold_mark, callsHold_append]
    refine ⟨hother _ ?_, ih hothers⟩
    cases others <;> simp

/-- A call holds wherever it stands if its head and its arguments do. -/
theorem AllCalls.call {name : List Char} {first : List Token} {others : List (List Token)}
    (hname : ∀ after,
      property name (first ++ others.flatMap (.mark ',' :: ·) ++ .mark ')' :: after))
    (hfirst : AllCalls property first) (hothers : ∀ other ∈ others, AllCalls property other) :
    AllCalls property (call name first others) := by
  intro after _
  refine callsHold_call (hname after) (hfirst _ ?_) (callsHold_arguments hothers after)
  cases others <;> simp

/-- The property holds of a call wherever in the text it stands. -/
theorem CallsHold.of_occurrence {read : List Token} (h : CallsHold property read [])
    {before : List Token} {name : List Char} {rest : List Token}
    (hread : read = before ++ .word name :: .mark '(' :: rest) : property name rest := by
  subst hread
  rw [callsHold_append] at h
  exact h.2.1 name rest rfl (List.append_nil _)

end SdfScene.Code
