import SdfScene.Proofs.Json.Numeral
import SdfScene.Proofs.Json.Text

/-!
# Documents are read back

A document that can be written is read as itself from its text, with whatever comes next
left over. Two steps of fuel for every character are enough, so the whole text is read.
-/

namespace SdfScene.Json

open Number

namespace Doc

/-- The documents that can be written: numerals in normal form, texts that can be read, and
closed arrays and objects of such. -/
inductive Written : Doc → Prop
  | null : Written .null
  | bool (value : Bool) : Written (.bool value)
  | number {numeral : Numeral} (h : numeral.Normal) : Written (.number numeral)
  | string (text : String) : Written (.ofString text)
  | array {items : List Doc} (h : ∀ item ∈ items, Written item) : Written (.ofItems items)
  | object {members : List (String × Doc)} (h : ∀ member ∈ members, Written member.2) :
    Written (.ofMembers members)

end Doc

theorem skipSpace_cons {c : Char} (hc : isSpace c = false) (rest : List Char) :
    skipSpace (c :: rest) = c :: rest := by
  simp [skipSpace, hc]

/-- A digit is one of ten characters. -/
private theorem eq_digitChar_of_isDigit {c : Char} (h : c.isDigit = true) :
    ∃ d, d < 10 ∧ c = digitChar d := by
  have hbounds : 48 ≤ c.toNat ∧ c.toNat ≤ 57 := by
    simp only [Char.isDigit, Bool.and_eq_true, decide_eq_true_eq] at h
    exact h
  refine ⟨c.toNat - 48, by omega, ?_⟩
  rw [digitChar, show '0'.toNat = 48 from rfl, Nat.add_sub_cancel' hbounds.1, Char.ofNat_toNat]

/-- A value that starts with a digit is a numeral. -/
private theorem readValue_digit {c : Char} (hc : c.isDigit = true) (fuel : Nat)
    (rest : List Char) : readValue (fuel + 1) (c :: rest) = readNumeral false (c :: rest) := by
  obtain ⟨d, hd, rfl⟩ := eq_digitChar_of_isDigit hc
  have hall : d = 0 ∨ d = 1 ∨ d = 2 ∨ d = 3 ∨ d = 4 ∨ d = 5 ∨ d = 6 ∨ d = 7 ∨ d = 8 ∨ d = 9 := by
    omega
  rcases hall with rfl | rfl | rfl | rfl | rfl | rfl | rfl | rfl | rfl | rfl <;> rfl

/-- The numeral of a number in normal form is read from its sign on. -/
private theorem readValue_numeral {x : Numeral} (hx : x.Normal) {rest : List Char}
    (hrest : EndsNumeral rest) (fuel : Nat) :
    readValue (fuel + 1) (x.text ++ rest) = (.number x, some rest) := by
  have hbody := hx.readNumeral_body hrest
  rw [Numeral.text_eq]
  cases hnegative : x.negative with
  | true =>
    rw [hnegative] at hbody
    exact hbody
  | false =>
    rw [hnegative] at hbody
    obtain ⟨c, cs, hwhole⟩ := List.exists_cons_of_ne_nil hx.whole_ne_nil
    have hc : c.isDigit = true := hx.isDigit_whole c (hwhole ▸ List.mem_cons_self)
    simp only [Numeral.body, hwhole, Bool.false_eq_true, ite_false, List.nil_append,
      List.cons_append] at hbody ⊢
    rw [readValue_digit hc, hbody]

/-- A written value starts with a character that is no blank and no closing bracket. -/
theorem Doc.Written.start {doc : Doc} (h : doc.Written) :
    ∃ c cs, doc.render = c :: cs ∧ isSpace c = false ∧ c ≠ ']' ∧ c ≠ '\x7d' := by
  cases h with
  | null => exact ⟨'n', _, rfl, by decide⟩
  | bool value => cases value <;> exact ⟨_, _, rfl, by decide⟩
  | @number x hx =>
    rw [render, Numeral.text_eq]
    cases x.negative with
    | true => exact ⟨'-', _, rfl, by decide⟩
    | false =>
      obtain ⟨c, cs, hwhole⟩ := List.exists_cons_of_ne_nil hx.whole_ne_nil
      obtain ⟨d, hd, rfl⟩ :=
        eq_digitChar_of_isDigit (hx.isDigit_whole c (hwhole ▸ List.mem_cons_self))
      have hall : ∀ d, d < 10 →
          isSpace (digitChar d) = false ∧ digitChar d ≠ ']' ∧ digitChar d ≠ '\x7d' := by decide
      exact ⟨digitChar d, _, by rw [Numeral.body, hwhole]; rfl, hall d hd⟩
  | string text => exact ⟨'"', _, rfl, by decide⟩
  | array hitems => exact ⟨'[', _, rfl, by decide⟩
  | object hmembers => exact ⟨'\x7b', _, rfl, by decide⟩

/-! Items and members, given that each value is read. -/

theorem Doc.renderItems_cons (first second : Doc) (items : List Doc) :
    renderItems (first :: second :: items) =
      first.render ++ ',' :: renderItems (second :: items) := by
  simp [renderItems]

/-- What follows a comma starts with an item. -/
private theorem start_renderItems {second : Doc} (h : second.Written) (items : List Doc)
    (rest : List Char) :
    ∃ c cs, Doc.renderItems (second :: items) ++ rest = c :: cs ∧ isSpace c = false ∧
      c ≠ ']' := by
  obtain ⟨c, cs, hstart, hspace, hbracket, -⟩ := h.start
  cases items with
  | nil => exact ⟨c, _, by rw [Doc.renderItems, hstart, List.cons_append], hspace, hbracket⟩
  | cons third items =>
    exact ⟨c, _, by rw [Doc.renderItems_cons, hstart]; rfl, hspace, hbracket⟩

/-- A value that is read as itself, given two steps of fuel for every character. -/
private def IsRead (doc : Doc) : Prop :=
  ∀ (rest : List Char) (fuel : Nat), EndsNumeral rest → 2 * doc.render.length ≤ fuel →
    readValue fuel (doc.render ++ rest) = (doc, some rest)

private theorem readItems_render (items : List Doc)
    (hitems : ∀ item ∈ items, item.Written ∧ IsRead item) (hne : items ≠ [])
    (rest : List Char) (fuel : Nat) (hfuel : 2 * (Doc.renderItems items).length + 1 ≤ fuel) :
    readItems fuel (Doc.renderItems items ++ ']' :: rest) = (items, .closed, some rest) := by
  induction items generalizing fuel with
  | nil => exact absurd rfl hne
  | cons item items ih =>
    obtain ⟨⟨-, hread⟩, hothers⟩ := List.forall_mem_cons.mp hitems
    obtain ⟨fuel, rfl⟩ := Nat.exists_eq_succ_of_ne_zero (show fuel ≠ 0 by omega)
    cases items with
    | nil =>
      have hitem := hread (']' :: rest) fuel (endsNumeral_cons (by decide)) (by
        rw [Doc.renderItems] at hfuel
        omega)
      rw [Doc.renderItems, readItems, hitem]
      rfl
    | cons second items =>
      rw [Doc.renderItems_cons] at hfuel ⊢
      simp only [List.length_append, List.length_cons] at hfuel
      have hitem := hread (',' :: (Doc.renderItems (second :: items) ++ ']' :: rest)) fuel
        (endsNumeral_cons (by decide)) (by omega)
      have hrest := ih hothers (List.cons_ne_nil _ _) fuel (by omega)
      obtain ⟨c, cs, hnext, hspace, hbracket⟩ :=
        start_renderItems (hothers second List.mem_cons_self).1 items (']' :: rest)
      have hcomma : isSpace ',' = false := by decide
      rw [List.append_assoc, List.cons_append, readItems, hitem]
      rw [hnext] at hrest ⊢
      simp only [skipSpace_cons hcomma, skipSpace_cons hspace]
      split
      · next h => cases h
      · next h => exact absurd (List.cons.inj h).1 hbracket
      · rw [hrest]

theorem Doc.renderMembers_cons (key : String) (value : Doc) (second : Option String × Doc)
    (members : List (Option String × Doc)) :
    renderMembers ((some key, value) :: second :: members) =
      quote key ++ ':' :: (value.render ++ ',' :: renderMembers (second :: members)) := by
  simp [renderMembers]

theorem Doc.renderMembers_singleton (key : String) (value : Doc) :
    renderMembers [(some key, value)] = quote key ++ ':' :: value.render := by
  simp [renderMembers]

/-- What follows a comma starts with a key. -/
private theorem start_renderMembers (second : Option String × Doc)
    (members : List (Option String × Doc)) :
    ∃ cs, Doc.renderMembers (second :: members) = '"' :: cs := by
  obtain ⟨key, value⟩ := second
  cases members with
  | nil => exact ⟨_, rfl⟩
  | cons third members =>
    rw [Doc.renderMembers]
    · exact ⟨_, rfl⟩
    · exact fun h => by cases h

/-- The last member of an object. -/
private theorem readMembers_last (key : String) (value : Doc) (fuel : Nat) {rest : List Char}
    (hread : readValue fuel (value.render ++ '\x7d' :: rest) = (value, some ('\x7d' :: rest))) :
    readMembers (fuel + 1) (quote key ++ ':' :: (value.render ++ '\x7d' :: rest)) =
      ([(some key, value)], .closed, some rest) := by
  have hcolon : isSpace ':' = false := by decide
  have hbrace : isSpace '\x7d' = false := by decide
  simp only [quote, List.append_assoc, List.cons_append, List.nil_append, readMembers,
    readQuoted_escaped, skipSpace_cons hcolon, skipSpace_cons hbrace, hread,
    String.ofList_toList]

/-- A member that is followed by others. -/
private theorem readMembers_next (key : String) (value : Doc) (fuel : Nat)
    {others : List (Option String × Doc)} {start rest : List Char}
    (hread : readValue fuel (value.render ++ ',' :: '"' :: start) =
      (value, some (',' :: '"' :: start)))
    (hothers : readMembers fuel ('"' :: start) = (others, .closed, some rest)) :
    readMembers (fuel + 1) (quote key ++ ':' :: (value.render ++ ',' :: '"' :: start)) =
      ((some key, value) :: others, .closed, some rest) := by
  have hcolon : isSpace ':' = false := by decide
  have hcomma : isSpace ',' = false := by decide
  have hquote : isSpace '"' = false := by decide
  simp only [quote, List.append_assoc, List.cons_append, List.nil_append, readMembers,
    readQuoted_escaped, skipSpace_cons hcolon, skipSpace_cons hcomma, skipSpace_cons hquote,
    hread, String.ofList_toList]
  split
  · next h => cases h
  · next h => cases h
  · rw [hothers]

/-- Members under keys that can be read. -/
private theorem readMembers_render (members : List (Option String × Doc))
    (hmembers : ∀ member ∈ members, member.1.isSome ∧ IsRead member.2) (hne : members ≠ [])
    (rest : List Char) (fuel : Nat)
    (hfuel : 2 * (Doc.renderMembers members).length + 1 ≤ fuel) :
    readMembers fuel (Doc.renderMembers members ++ '\x7d' :: rest) =
      (members, .closed, some rest) := by
  induction members generalizing fuel with
  | nil => exact absurd rfl hne
  | cons member members ih =>
    obtain ⟨⟨hkey, hread⟩, hothers⟩ := List.forall_mem_cons.mp hmembers
    obtain ⟨key, value⟩ := member
    obtain ⟨key, rfl⟩ := Option.isSome_iff_exists.mp hkey
    obtain ⟨fuel, rfl⟩ := Nat.exists_eq_succ_of_ne_zero (show fuel ≠ 0 by omega)
    cases members with
    | nil =>
      rw [Doc.renderMembers_singleton] at hfuel ⊢
      simp only [List.length_append, List.length_cons] at hfuel
      have hvalue := hread ('\x7d' :: rest) fuel (endsNumeral_cons (by decide)) (by
        simp only
        omega)
      rw [List.append_assoc, List.cons_append]
      exact readMembers_last key value fuel hvalue
    | cons second members =>
      rw [Doc.renderMembers_cons] at hfuel ⊢
      simp only [List.length_append, List.length_cons] at hfuel
      have hvalue := hread (',' :: (Doc.renderMembers (second :: members) ++ '\x7d' :: rest)) fuel
        (endsNumeral_cons (by decide)) (by
          simp only
          omega)
      have hrest := ih hothers (List.cons_ne_nil _ _) fuel (by omega)
      obtain ⟨cs, hnext⟩ := start_renderMembers second members
      simp only [List.append_assoc, List.cons_append]
      rw [hnext, List.cons_append] at hrest hvalue ⊢
      exact readMembers_next key value fuel hvalue hrest

/-! Whole values. -/

private theorem readValue_text (text : String) (rest : List Char) (fuel : Nat) :
    readValue (fuel + 1) (quote text ++ rest) = (.ofString text, some rest) := by
  have hquote : isSpace '"' = false := by decide
  simp only [quote, List.append_assoc, List.cons_append, List.nil_append, readValue,
    skipSpace_cons hquote, readQuoted_escaped, String.ofList_toList]
  rfl

private theorem readValue_array {items : List Doc} {start : List Char} {c : Char}
    {rest : List Char} {fuel : Nat} (hspace : isSpace c = false) (hbracket : c ≠ ']')
    (hread : readItems fuel (c :: start) = (items, .closed, some rest)) :
    readValue (fuel + 1) ('[' :: c :: start) = (.ofItems items, some rest) := by
  have hopen : isSpace '[' = false := by decide
  simp only [readValue, skipSpace_cons hopen, skipSpace_cons hspace]
  split
  · next h => cases h
  · next h => exact absurd (List.cons.inj h).1 hbracket
  · rw [hread]
    rfl

private theorem readValue_object {members : List (Option String × Doc)} {start : List Char}
    {rest : List Char} {fuel : Nat}
    (hread : readMembers fuel ('"' :: start) = (members, .closed, some rest)) :
    readValue (fuel + 1) ('\x7b' :: '"' :: start) = (.object members .closed, some rest) := by
  have hopen : isSpace '\x7b' = false := by decide
  have hquote : isSpace '"' = false := by decide
  simp only [readValue, skipSpace_cons hopen, skipSpace_cons hquote]
  split
  · next h => cases h
  · next h => cases h
  · rw [hread]

namespace Doc.Written

/-- Fuel for a value that has a character is there. -/
private theorem isRead_of_succ {doc : Doc} (h : doc.Written)
    (hread : ∀ rest fuel, EndsNumeral rest → 2 * doc.render.length ≤ fuel + 1 →
      readValue (fuel + 1) (doc.render ++ rest) = (doc, some rest)) : IsRead doc := by
  intro rest fuel hrest hfuel
  obtain ⟨c, cs, hstart, -⟩ := h.start
  have hpos : fuel ≠ 0 := by
    rw [hstart, List.length_cons] at hfuel
    omega
  obtain ⟨fuel, rfl⟩ := Nat.exists_eq_succ_of_ne_zero hpos
  exact hread rest fuel hrest hfuel

/-- A written value is read as itself, with what comes next left over. -/
theorem readValue_render {doc : Doc} (h : doc.Written) (rest : List Char) (fuel : Nat)
    (hrest : EndsNumeral rest) (hfuel : 2 * doc.render.length ≤ fuel + 1) :
    readValue (fuel + 1) (doc.render ++ rest) = (doc, some rest) := by
  induction h generalizing rest fuel with
  | null => rfl
  | bool value => cases value <;> rfl
  | number hx => exact readValue_numeral hx hrest fuel
  | string text => exact readValue_text text rest fuel
  | @array items hitems ih =>
    cases items with
    | nil => rfl
    | cons item items =>
      have hread := readItems_render (item :: items)
        (fun item hitem => ⟨hitems item hitem, isRead_of_succ (hitems item hitem) (ih item hitem)⟩)
        (List.cons_ne_nil _ _) rest fuel (by
          simp only [ofItems, render, List.length_append, List.length_singleton] at hfuel
          omega)
      obtain ⟨c, cs, hnext, hspace, hbracket⟩ :=
        start_renderItems (hitems item List.mem_cons_self) items (']' :: rest)
      rw [hnext] at hread
      have htext : (ofItems (item :: items)).render ++ rest = '[' :: c :: cs := by
        rw [← hnext]
        simp [ofItems, render]
      rw [htext]
      exact readValue_array hspace hbracket hread
  | @object members hmembers ih =>
    cases members with
    | nil => rfl
    | cons member members =>
      have hread := readMembers_render
        ((member :: members).map fun member => (some member.1, member.2)) (fun named hnamed => by
          obtain ⟨member, hmember, rfl⟩ := List.mem_map.mp hnamed
          exact ⟨rfl, isRead_of_succ (hmembers member hmember) (ih member hmember)⟩)
        (List.cons_ne_nil _ _) rest fuel (by
          simp only [ofMembers, render, List.length_append, List.length_singleton] at hfuel
          omega)
      obtain ⟨cs, hnext⟩ := start_renderMembers (some member.1, member.2)
        (members.map fun member => (some member.1, member.2))
      rw [List.map_cons, hnext, List.cons_append] at hread
      have htext : (ofMembers (member :: members)).render ++ rest =
          '\x7b' :: '"' :: (cs ++ '\x7d' :: rest) := by
        simp only [ofMembers, render, List.map_cons, hnext, List.append_assoc, List.cons_append,
          List.nil_append]
      rw [htext]
      exact readValue_object hread

/-- The text of a written document is read as the document, and nothing is left over. -/
theorem ofText_render {doc : Doc} (h : doc.Written) : Doc.ofText doc.render = (doc, some []) := by
  have hread := h.readValue_render [] (2 * doc.render.length + 1) endsNumeral_nil (by omega)
  rwa [List.append_nil] at hread

end Doc.Written

end SdfScene.Json
