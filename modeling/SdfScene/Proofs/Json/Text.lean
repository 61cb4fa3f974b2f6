import SdfScene.Json.Reader

/-!
# Quoted strings are read back

Every character is written as itself, as a short escape or as an escaped unit below the
halves of surrogate pairs, so a quoted string is scanned into one piece for each character
and its pieces join to the string.
-/

namespace SdfScene.Json

/-- The piece that a written character is scanned into. -/
def pieceOf (c : Char) : Piece :=
  if c < ' ' ∧ c ∉ ['\x08', '\x0c', '\n', '\r', '\t'] then .unit c.toNat else .char c

private theorem hexUnit?_hexDigit {n : Nat} (hn : n < 32) :
    hexUnit? '0' '0' (hexDigit (n / 16)) (hexDigit (n % 16)) = some n := by
  have hall : ∀ n, n < 32 → hexUnit? '0' '0' (hexDigit (n / 16)) (hexDigit (n % 16)) = some n := by
    decide
  exact hall n hn

/-- A written character is scanned into its piece. -/
theorem scanString_escapeChar (c : Char) (rest : List Char) :
    scanString (escapeChar c ++ rest) = pushPiece (pieceOf c) (scanString rest) := by
  by_cases hquote : c = '"'
  · subst hquote; rfl
  by_cases hslash : c = '\\'
  · subst hslash; rfl
  by_cases hshort : c ∈ ['\x08', '\x0c', '\n', '\r', '\t']
  · simp only [List.mem_cons, List.not_mem_nil, or_false] at hshort
    rcases hshort with rfl | rfl | rfl | rfl | rfl <;> rfl
  have hnamed := hshort
  simp only [List.mem_cons, List.not_mem_nil, or_false, not_or] at hnamed
  obtain ⟨hb, hf, hn, hr, ht⟩ := hnamed
  by_cases hcontrol : c < ' '
  · have hsmall : c.toNat < 32 := hcontrol
    simp only [escapeChar, pieceOf, hquote, hslash, hb, hf, hn, hr, ht, hcontrol, hshort,
      ite_true, ite_false, not_false_eq_true, and_self, List.cons_append, List.nil_append]
    rw [scanString, hexUnit?_hexDigit hsmall]
  · simp only [escapeChar, pieceOf, hquote, hslash, hb, hf, hn, hr, ht, hcontrol, ite_false,
      false_and, List.cons_append, List.nil_append]
    -- Neither a quote nor the start of an escape, so the last case of the scan.
    simp [scanString, hslash, hcontrol]

/-- A written string is scanned into the pieces of its characters. -/
theorem scanString_escaped (cs rest : List Char) :
    scanString (cs.flatMap escapeChar ++ '"' :: rest) = (cs.map pieceOf, .quoted, rest) := by
  induction cs with
  | nil => rfl
  | cons c cs ih =>
    rw [List.flatMap_cons, List.append_assoc, scanString_escapeChar, ih]
    rfl

/-- A unit that is no half of a pair stands for itself. -/
private theorem joinPieces_unit (closing : Closing) {n : Nat} (hleading : isLeading n = false)
    (htrailing : isTrailing n = false) (pieces : List Piece) :
    joinPieces closing (.unit n :: pieces) =
      (joinPieces closing pieces).map (Char.ofNat n :: ·) := by
  cases pieces with
  | nil => simp only [joinPieces, hleading, htrailing, Bool.false_eq_true, ite_false]
  | cons piece pieces =>
    cases piece <;> simp only [joinPieces, hleading, htrailing, Bool.false_eq_true, ite_false]

/-- The pieces of characters join to the characters. -/
theorem joinPieces_pieceOf (cs : List Char) :
    joinPieces .quoted (cs.map pieceOf) = .ok cs := by
  induction cs with
  | nil => rfl
  | cons c cs ih =>
    rw [List.map_cons, pieceOf]
    split
    · next hcontrol =>
      have hsmall : c.toNat < 32 := hcontrol.1
      have hleading : isLeading c.toNat = false := by
        simp only [isLeading, Bool.and_eq_false_iff, decide_eq_false_iff_not]
        omega
      have htrailing : isTrailing c.toNat = false := by
        simp only [isTrailing, Bool.and_eq_false_iff, decide_eq_false_iff_not]
        omega
      rw [joinPieces_unit .quoted hleading htrailing, ih, Char.ofNat_toNat]
      rfl
    · rw [joinPieces, ih]
      rfl

/-- A written string is read as itself. -/
theorem readQuoted_escaped (cs rest : List Char) :
    readQuoted (cs.flatMap escapeChar ++ '"' :: rest) = .ok (some (String.ofList cs), rest) := by
  simp only [readQuoted, scanString_escaped, joinPieces_pieceOf]

end SdfScene.Json
