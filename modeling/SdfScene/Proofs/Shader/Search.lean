import Mathlib.Data.List.Infix
import SdfScene.Shader

/-!
# Searching a template

A word is split off before its first occurrence. Where no end of the word is also its beginning,
an occurrence cannot overlap another one, so the first one in a text is the one before which the
word does not occur. The braces of a definition are matched by counting: a body ends where a brace
closes that was not opened in it.
-/

namespace SdfScene.Shader

/-! Words. -/

/-- No end of a word, the whole word apart, is a beginning of it. -/
def Unbordered (word : List Char) : Prop :=
  ∀ k < word.length, 0 < k → ¬ word.drop k <+: word

instance (word : List Char) : Decidable (Unbordered word) :=
  inferInstanceAs (Decidable (∀ k < word.length, 0 < k → ¬ word.drop k <+: word))

/-- What is split is the text, and the word stands at the place. -/
theorem splitBefore?_eq_some {word text before found : List Char}
    (h : splitBefore? word text = some (before, found)) :
    text = before ++ found ∧ word <+: found := by
  induction text generalizing before with
  | nil =>
    rw [splitBefore?] at h
    split at h
    · next hword =>
      cases h
      exact ⟨rfl, hword ▸ List.nil_prefix⟩
    · cases h
  | cons c text ih =>
    rw [splitBefore?] at h
    split at h
    · next hword =>
      cases h
      exact ⟨rfl, List.isPrefixOf_iff_prefix.mp hword⟩
    · obtain ⟨⟨front, rest⟩, hrest, hsame⟩ := Option.map_eq_some_iff.mp h
      cases hsame
      obtain ⟨rfl, hword⟩ := ih hrest
      exact ⟨rfl, hword⟩

/-- Nothing is split exactly if the word does not occur. -/
theorem splitBefore?_eq_none {word text : List Char} :
    splitBefore? word text = none ↔ ¬ word <:+: text := by
  induction text with
  | nil =>
    rw [splitBefore?]
    split
    · next hword => simp [hword]
    · next hword => simp [hword]
  | cons c text ih =>
    rw [splitBefore?, List.infix_cons_iff, not_or, ← ih]
    split
    · next hword => simp [List.isPrefixOf_iff_prefix.mp hword]
    · next hword =>
      rw [List.isPrefixOf_iff_prefix] at hword
      simp [hword]

/-- Before the first occurrence there is none. -/
theorem notInfix_of_splitBefore? {word text before found : List Char} (hword : word ≠ [])
    (h : splitBefore? word text = some (before, found)) : ¬ word <:+: before := by
  induction text generalizing before with
  | nil => simp [splitBefore?, hword] at h
  | cons c text ih =>
    rw [splitBefore?] at h
    split at h
    · cases h
      simpa using hword
    · next hprefix =>
      obtain ⟨⟨front, rest⟩, hrest, hsame⟩ := Option.map_eq_some_iff.mp h
      cases hsame
      obtain ⟨rfl, -⟩ := splitBefore?_eq_some hrest
      rw [List.infix_cons_iff]
      rintro (hstart | hlater)
      · refine hprefix (List.isPrefixOf_iff_prefix.mpr ?_)
        rw [← List.cons_append]
        exact hstart.trans (List.prefix_append _ _)
      · exact ih hrest hlater

/-- A text stands either without a word or around its first occurrence. -/
theorem exists_first_occurrence (word : List Char) (hword : word ≠ []) (text : List Char) :
    ¬ word <:+: text ∨ ∃ before rest, text = before ++ (word ++ rest) ∧ ¬ word <:+: before := by
  cases hsplit : splitBefore? word text with
  | none => exact .inl (splitBefore?_eq_none.mp hsplit)
  | some split =>
    obtain ⟨before, found⟩ := split
    obtain ⟨rfl, rest, rfl⟩ := splitBefore?_eq_some hsplit
    exact .inr ⟨before, rest, rfl, notInfix_of_splitBefore? hword hsplit⟩

/-- A word that cannot overlap itself is found behind a text in which it does not occur. -/
theorem splitBefore?_append {word before : List Char} (hword : Unbordered word)
    (hfree : ¬ word <:+: before) (rest : List Char) :
    splitBefore? word (before ++ (word ++ rest)) = some (before, word ++ rest) := by
  induction before with
  | nil =>
    cases word with
    | nil => exact absurd List.infix_rfl hfree
    | cons c word =>
      have hstart : (c :: word).isPrefixOf (c :: (word ++ rest)) := by
        rw [List.isPrefixOf_iff_prefix, ← List.cons_append]
        exact List.prefix_append _ _
      simp [splitBefore?, hstart]
  | cons c before ih =>
    rw [List.infix_cons_iff, not_or] at hfree
    have hstart : ¬ word <+: c :: before ++ (word ++ rest) := by
      intro h
      by_cases hlength : word.length ≤ (c :: before).length
      · exact hfree.1 (List.prefix_of_prefix_length_le h (List.prefix_append _ _) hlength)
      · -- The word goes beyond `before`, so its end overlaps the beginning of the other one.
        have hshort : (c :: before).length < word.length := Nat.lt_of_not_le hlength
        obtain ⟨tail, rfl⟩ := List.prefix_of_prefix_length_le (List.prefix_append _ _) h hshort.le
        rw [List.prefix_append_right_inj] at h
        refine hword (c :: before).length hshort (Nat.succ_pos _) ?_
        rw [List.drop_left]
        refine List.prefix_of_prefix_length_le h (List.prefix_append _ _) ?_
        rw [List.length_append]
        exact Nat.le_add_left _ _
    rw [List.cons_append, splitBefore?, if_neg, ih hfree.2]
    · rfl
    · rwa [List.isPrefixOf_iff_prefix]

/-- A text without the first character of a word can be passed over. -/
theorem splitBefore?_append_of_notMem {c : Char} {word front : List Char} (hfree : c ∉ front)
    (text : List Char) :
    splitBefore? (c :: word) (front ++ text) =
      (splitBefore? (c :: word) text).map fun (before, found) => (front ++ before, found) := by
  induction front with
  | nil => simp
  | cons d front ih =>
    rw [List.mem_cons, not_or] at hfree
    have hstart : ¬ (c :: word).isPrefixOf (d :: (front ++ text)) := by
      simp [List.isPrefixOf, hfree.1]
    rw [List.cons_append, splitBefore?, if_neg hstart, ih hfree.2, Option.map_map]
    rfl

/-! Braces. -/

theorem afterBody?_other {depth : Nat} {c : Char} {text : List Char} (hopen : c ≠ '\x7b')
    (hclose : c ≠ '\x7d') : afterBody? depth (c :: text) = afterBody? depth text := by
  simp only [afterBody?, if_neg hopen, if_neg hclose]

/-- No beginning of a text closes more braces than were open before it and are opened in it. -/
def Within (depth : Nat) (text : List Char) : Prop :=
  ∀ front, front <+: text → front.count '\x7d' ≤ front.count '\x7b' + depth

/-- Braces are balanced: no beginning of the text closes more of them than it opens, and all that
are opened are closed. -/
structure Balanced (text : List Char) : Prop where
  opened : Within 0 text
  closed : text.count '\x7d' = text.count '\x7b'

instance (depth : Nat) (text : List Char) : Decidable (Within depth text) :=
  decidable_of_iff
    (∀ front ∈ text.inits, front.count '\x7d' ≤ front.count '\x7b' + depth)
    (by simp only [List.mem_inits, Within])

instance (text : List Char) : Decidable (Balanced text) :=
  decidable_of_iff (Within 0 text ∧ text.count '\x7d' = text.count '\x7b')
    ⟨fun h => ⟨h.1, h.2⟩, fun h => ⟨h.opened, h.closed⟩⟩

/-- The first brace that is opened is never closed. -/
def NeverCloses (text : List Char) : Prop :=
  ∀ head tail, text = head ++ '\x7b' :: tail → '\x7b' ∉ head → Within 0 tail

@[simp] theorem within_nil (depth : Nat) : Within depth [] := by
  intro front hfront
  rw [List.prefix_nil.mp hfront]
  exact Nat.zero_le _

theorem within_cons {depth : Nat} {c : Char} {text : List Char} :
    Within depth (c :: text) ↔ ∀ front, front <+: text →
      (c :: front).count '\x7d' ≤ (c :: front).count '\x7b' + depth := by
  constructor
  · intro h front hfront
    exact h (c :: front) ((List.prefix_cons_inj c).mpr hfront)
  · intro h front hfront
    obtain rfl | ⟨rest, rfl, hrest⟩ := List.prefix_cons_iff.mp hfront
    · exact Nat.zero_le _
    · exact h rest hrest

theorem within_open {depth : Nat} {text : List Char} :
    Within depth ('\x7b' :: text) ↔ Within (depth + 1) text := by
  rw [within_cons]
  simp [Within, Nat.add_comm 1, Nat.add_assoc]

theorem within_close {depth : Nat} {text : List Char} :
    Within (depth + 1) ('\x7d' :: text) ↔ Within depth text := by
  rw [within_cons]
  simp [Within, ← Nat.add_assoc]

theorem not_within_zero_close (text : List Char) : ¬ Within 0 ('\x7d' :: text) := by
  intro h
  exact absurd (within_cons.mp h [] List.nil_prefix) (by decide)

theorem within_other {depth : Nat} {c : Char} {text : List Char} (hopen : c ≠ '\x7b')
    (hclose : c ≠ '\x7d') : Within depth (c :: text) ↔ Within depth text := by
  rw [within_cons]
  simp [Within, hopen, hclose]

/-- A body that closes all open braces with the brace behind it is passed over. -/
theorem afterBody?_append {depth : Nat} {body : List Char} (hwithin : Within depth body)
    (hcount : body.count '\x7d' = body.count '\x7b' + depth) (after : List Char) :
    afterBody? (depth + 1) (body ++ '\x7d' :: after) = some after := by
  induction body generalizing depth with
  | nil =>
    obtain rfl : depth = 0 := by simpa using hcount.symm
    rfl
  | cons c body ih =>
    by_cases hopen : c = '\x7b'
    · subst hopen
      apply ih (within_open.mp hwithin)
      simpa [Nat.add_right_comm, ← Nat.add_assoc] using hcount
    · by_cases hclose : c = '\x7d'
      · subst hclose
        cases depth with
        | zero => exact absurd hwithin (not_within_zero_close body)
        | succ depth =>
          apply ih (within_close.mp hwithin)
          simpa [← Nat.add_assoc] using hcount
      · rw [List.cons_append, afterBody?_other hopen hclose]
        apply ih ((within_other hopen hclose).mp hwithin)
        simpa [hopen, hclose] using hcount

/-- With some braces open, the text that is left stands behind a body that closes all of them with
the brace behind it. -/
theorem exists_of_afterBody?_succ {depth : Nat} {text after : List Char}
    (h : afterBody? (depth + 1) text = some after) :
    ∃ body, text = body ++ '\x7d' :: after ∧ Within depth body ∧
      body.count '\x7d' = body.count '\x7b' + depth := by
  induction text generalizing depth with
  | nil => cases h
  | cons c text ih =>
    by_cases hopen : c = '\x7b'
    · subst hopen
      have hbelow : afterBody? (depth + 1 + 1) text = some after := h
      obtain ⟨body, rfl, hwithin, hcount⟩ := ih hbelow
      refine ⟨'\x7b' :: body, rfl, within_open.mpr hwithin, ?_⟩
      simp [hcount, Nat.add_right_comm, ← Nat.add_assoc]
    · by_cases hclose : c = '\x7d'
      · subst hclose
        cases depth with
        | zero =>
          cases h
          exact ⟨[], rfl, within_nil 0, rfl⟩
        | succ depth =>
          have hbelow : afterBody? (depth + 1) text = some after := h
          obtain ⟨body, rfl, hwithin, hcount⟩ := ih hbelow
          refine ⟨'\x7d' :: body, rfl, within_close.mpr hwithin, ?_⟩
          simp [hcount, ← Nat.add_assoc]
      · rw [afterBody?_other hopen hclose] at h
        obtain ⟨body, rfl, hwithin, hcount⟩ := ih h
        refine ⟨c :: body, rfl, (within_other hopen hclose).mpr hwithin, ?_⟩
        simpa [hopen, hclose] using hcount

/-- With some braces open, no text is left exactly if no beginning closes all of them. -/
theorem afterBody?_succ_eq_none {depth : Nat} {text : List Char} :
    afterBody? (depth + 1) text = none ↔ Within depth text := by
  induction text generalizing depth with
  | nil => simp [afterBody?]
  | cons c text ih =>
    by_cases hopen : c = '\x7b'
    · subst hopen
      rw [within_open, ← ih]
      rfl
    · by_cases hclose : c = '\x7d'
      · subst hclose
        cases depth with
        | zero => simp [afterBody?, not_within_zero_close]
        | succ depth =>
          rw [within_close, ← ih]
          rfl
      · rw [within_other hopen hclose, ← ih, afterBody?_other hopen hclose]

theorem afterBody?_zero_cons {c : Char} (hopen : c ≠ '\x7b') (text : List Char) :
    afterBody? 0 (c :: text) = afterBody? 0 text := by
  by_cases hclose : c = '\x7d'
  · subst hclose
    rfl
  · exact afterBody?_other hopen hclose

/-- Up to the first brace that is opened, every character is passed over. -/
theorem afterBody?_zero_append {head : List Char} (hhead : '\x7b' ∉ head) (text : List Char) :
    afterBody? 0 (head ++ text) = afterBody? 0 text := by
  induction head with
  | nil => rfl
  | cons c head ih =>
    rw [List.mem_cons, not_or] at hhead
    rw [List.cons_append, afterBody?_zero_cons (Ne.symm hhead.1), ih hhead.2]

/-- A text stands either without an opened brace or around the first of them. -/
theorem exists_first_open (text : List Char) :
    '\x7b' ∉ text ∨ ∃ head tail, text = head ++ '\x7b' :: tail ∧ '\x7b' ∉ head := by
  by_cases hmem : '\x7b' ∈ text
  · obtain ⟨head, tail, rfl, hhead⟩ := List.eq_append_cons_of_mem hmem
    exact .inr ⟨head, tail, rfl, hhead⟩
  · exact .inl hmem

/-- With no brace open, the text after the body between the first opened brace and the one that
closes it. -/
theorem afterBody?_zero_eq_some {text after : List Char} :
    afterBody? 0 text = some after ↔
      ∃ head body, text = head ++ '\x7b' :: body ++ '\x7d' :: after ∧ '\x7b' ∉ head ∧
        Balanced body := by
  constructor
  · intro h
    obtain hfree | ⟨head, tail, rfl, hhead⟩ := exists_first_open text
    · rw [← List.append_nil text, afterBody?_zero_append hfree] at h
      cases h
    · rw [afterBody?_zero_append hhead] at h
      have hbelow : afterBody? (0 + 1) tail = some after := h
      obtain ⟨body, rfl, hwithin, hcount⟩ := exists_of_afterBody?_succ hbelow
      exact ⟨head, body, by simp, hhead, hwithin, hcount⟩
  · rintro ⟨head, body, rfl, hhead, hbalanced⟩
    rw [List.append_assoc, afterBody?_zero_append hhead]
    exact afterBody?_append hbalanced.opened hbalanced.closed after

/-- With no brace open, no text is left exactly if the first brace that is opened never closes. -/
theorem afterBody?_zero_eq_none {text : List Char} :
    afterBody? 0 text = none ↔ NeverCloses text := by
  constructor
  · rintro h head tail rfl hhead
    rw [afterBody?_zero_append hhead] at h
    exact afterBody?_succ_eq_none.mp h
  · intro h
    obtain hfree | ⟨head, tail, rfl, hhead⟩ := exists_first_open text
    · rw [← List.append_nil text, afterBody?_zero_append hfree]
      rfl
    · rw [afterBody?_zero_append hhead]
      exact afterBody?_succ_eq_none.mpr (h head tail rfl hhead)

end SdfScene.Shader
