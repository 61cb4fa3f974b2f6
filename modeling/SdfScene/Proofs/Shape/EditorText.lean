import Mathlib.Data.List.Basic
import SdfScene.Proofs.Outcome
import SdfScene.Shape.Kind

/-!
# What an editor's text denotes

A number is a numeral between blanks that stands for a finite value, and a vector is three of them
with commas between. A text is accepted exactly if it denotes a value, which is then the outcome.
-/

namespace SdfScene

/-! Pieces. -/

theorem Text.pieces_of_notMem {separator : Char} {text : List Char} (hfree : separator ∉ text) :
    pieces separator text = [text] := by
  induction text with
  | nil => rfl
  | cons c text ih =>
    rw [List.mem_cons, not_or] at hfree
    rw [pieces, if_neg (Ne.symm hfree.1), ih hfree.2]

theorem Text.pieces_append {separator : Char} {front : List Char} (hfree : separator ∉ front)
    (rest : List Char) :
    pieces separator (front ++ separator :: rest) = front :: pieces separator rest := by
  induction front with
  | nil => rw [List.nil_append, pieces, if_pos rfl]
  | cons c front ih =>
    rw [List.mem_cons, not_or] at hfree
    rw [List.cons_append, pieces, if_neg (Ne.symm hfree.1), ih hfree.2]

theorem Text.pieces_ne_nil (separator : Char) (text : List Char) : pieces separator text ≠ [] := by
  by_cases hmem : separator ∈ text
  · obtain ⟨front, rest, rfl, hfree⟩ := List.eq_append_cons_of_mem hmem
    rw [pieces_append hfree]
    exact List.cons_ne_nil _ _
  · rw [pieces_of_notMem hmem]
    exact List.cons_ne_nil _ _

/-- A text is its only piece exactly if the separator does not occur in it. -/
theorem Text.pieces_eq_singleton {separator : Char} {text first : List Char} :
    pieces separator text = [first] ↔ text = first ∧ separator ∉ first := by
  constructor
  · intro h
    by_cases hmem : separator ∈ text
    · obtain ⟨front, rest, rfl, hfree⟩ := List.eq_append_cons_of_mem hmem
      rw [pieces_append hfree] at h
      exact absurd (List.cons.inj h).2 (pieces_ne_nil separator rest)
    · rw [pieces_of_notMem hmem] at h
      obtain rfl := (List.cons.inj h).1
      exact ⟨rfl, hmem⟩
  · rintro ⟨rfl, hfree⟩
    exact pieces_of_notMem hfree

/-- A text has more pieces exactly if they are those of what follows its first separator. -/
theorem Text.pieces_eq_cons_cons {separator : Char} {text first second : List Char}
    {others : List (List Char)} :
    pieces separator text = first :: second :: others ↔
      ∃ rest, text = first ++ separator :: rest ∧ separator ∉ first ∧
        pieces separator rest = second :: others := by
  constructor
  · intro h
    by_cases hmem : separator ∈ text
    · obtain ⟨front, rest, rfl, hfree⟩ := List.eq_append_cons_of_mem hmem
      rw [pieces_append hfree] at h
      obtain ⟨rfl, hrest⟩ := List.cons.inj h
      exact ⟨rest, rfl, hfree, hrest⟩
    · rw [pieces_of_notMem hmem] at h
      cases h
  · rintro ⟨rest, rfl, hfree, hrest⟩
    rw [pieces_append hfree, hrest]

/-! Numbers and vectors. -/

/-- A text denotes a finite number between its outer blanks. -/
def Single.DenotedBy (text : List Char) (x : Single) : Prop :=
  Single.ofText? (Text.trim text) = some x ∧ x.isFinite

/-- A text denotes a vector by three numbers with commas between them. -/
def Vec3.DenotedBy (text : List Char) (v : Vec3) : Prop :=
  ∃ a b c, text = a ++ ',' :: (b ++ ',' :: c) ∧ ',' ∉ a ∧ ',' ∉ b ∧ ',' ∉ c ∧
    v.x.DenotedBy a ∧ v.y.DenotedBy b ∧ v.z.DenotedBy c

theorem Single.ofEditorText_eq_ok {text : List Char} {x : Single} :
    Single.ofEditorText text = .ok x ↔ x.DenotedBy text := by
  constructor
  · intro h
    dsimp only [ofEditorText] at h
    split at h
    · cases h
    · next y hy =>
      split at h
      · next hfinite =>
        cases h
        exact ⟨hy, hfinite⟩
      · cases h
  · rintro ⟨hx, hfinite⟩
    simp only [ofEditorText, hx, hfinite, if_true]

theorem Vec3.ofEditorText_eq_ok {text : List Char} {v : Vec3} :
    Vec3.ofEditorText text = .ok v ↔ v.DenotedBy text := by
  constructor
  · intro h
    rw [ofEditorText] at h
    split at h
    · next a b c hpieces =>
      obtain ⟨rest, rfl, ha, hrest⟩ := Text.pieces_eq_cons_cons.mp hpieces
      obtain ⟨last, rfl, hb, hlast⟩ := Text.pieces_eq_cons_cons.mp hrest
      obtain ⟨rfl, hc⟩ := Text.pieces_eq_singleton.mp hlast
      obtain ⟨x, hx, h⟩ := Outcome.bind_eq_ok.mp h
      obtain ⟨y, hy, h⟩ := Outcome.bind_eq_ok.mp h
      obtain ⟨z, hz, h⟩ := Outcome.bind_eq_ok.mp h
      cases h
      exact ⟨a, b, last, rfl, ha, hb, hc, Single.ofEditorText_eq_ok.mp hx,
        Single.ofEditorText_eq_ok.mp hy, Single.ofEditorText_eq_ok.mp hz⟩
    · cases h
  · rintro ⟨a, b, c, rfl, ha, hb, hc, hx, hy, hz⟩
    have hpieces : Text.pieces ',' (a ++ ',' :: (b ++ ',' :: c)) = [a, b, c] := by
      rw [Text.pieces_append ha, Text.pieces_append hb, Text.pieces_of_notMem hc]
    simp only [ofEditorText, hpieces, Single.ofEditorText_eq_ok.mpr hx,
      Single.ofEditorText_eq_ok.mpr hy, Single.ofEditorText_eq_ok.mpr hz]
    rfl

/-- A text denotes a value of a parameter. -/
def Param.DenotedBy (text : List Char) : Param → Prop
  | .scalar x => x.DenotedBy text
  | .vector v => v.DenotedBy text

end SdfScene
