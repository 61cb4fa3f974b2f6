import SdfScene.Proofs.Expression.Printed

/-!
# A term is read in one way

Whatever stands behind a printed part, its words and marks tell the part and where it ends:
a number by what follows it, a list of parameters by the parenthesis that closes it, the
sample point and a leaf by their names. So they tell a whole term.
-/

namespace SdfScene

open Code

/-! ## No two terms begin alike -/

theorem PrintedVec.append_inj {v w : PrintedVec} {rest other : List Token}
    (h : v.tokens ++ rest = w.tokens ++ other) : v = w ∧ rest = other := by
  obtain ⟨x, y, z⟩ := v
  obtain ⟨x', y', z'⟩ := w
  simp only [PrintedVec.tokens, call, List.flatMap_cons, List.flatMap_nil, List.cons_append,
    List.nil_append, List.cons.injEq, Token.word.injEq, String.toList_inj, true_and] at h
  obtain ⟨rfl, rfl, rfl, rfl⟩ := h
  exact ⟨rfl, rfl⟩

/-- Two transforms with points of which one can tell where they end. -/
theorem PrintedTransform.append_inj {t u : PrintedTransform} {point point' : List Token} {p : Prop}
    {rest other : List Token} (h : t.tokens point ++ rest = u.tokens point' ++ other)
    (hpoint : ∀ {rest other}, point ++ rest = point' ++ other → p ∧ rest = other) :
    t = u ∧ p ∧ rest = other := by
  obtain ⟨⟨px, py, pz⟩, ⟨rx, ry, rz⟩, s⟩ := t
  obtain ⟨⟨px', py', pz'⟩, ⟨rx', ry', rz'⟩, s'⟩ := u
  simp only [PrintedTransform.tokens, PrintedTransform.matrixTokens, angleTokens, call,
    List.flatMap_cons, List.flatMap_nil, List.append_assoc, List.cons_append, List.nil_append,
    List.cons.injEq, Token.word.injEq, String.toList_inj, true_and] at h
  obtain ⟨rfl, rfl, rfl, rfl, rfl, rfl, hbehind⟩ := h
  obtain ⟨hp, hscale⟩ := hpoint hbehind
  simp only [List.cons.injEq, Token.word.injEq, String.toList_inj, true_and] at hscale
  obtain ⟨rfl, rfl⟩ := hscale
  exact ⟨rfl, hp, rfl⟩

/-- A number is told from a vector by what stands behind it, which is no parenthesis. -/
theorem PrintedParam.append_inj {x y : PrintedParam} {rest other : List Token}
    (h : x.tokens ++ rest = y.tokens ++ other) (hrest : ∀ inner, rest ≠ .mark '(' :: inner)
    (hother : ∀ inner, other ≠ .mark '(' :: inner) : x = y ∧ rest = other := by
  rcases x with x | v <;> rcases y with y | w
  · simp only [tokens, List.cons_append, List.nil_append, List.cons.injEq, Token.word.injEq,
      String.toList_inj] at h
    obtain ⟨rfl, rfl⟩ := h
    exact ⟨rfl, rfl⟩
  · exact absurd (List.cons.inj h).2 (hrest _)
  · exact absurd (List.cons.inj h).2.symm (hother _)
  · obtain ⟨rfl, rfl⟩ := PrintedVec.append_inj h
    exact ⟨rfl, rfl⟩

/-- The parameters of a call end at its last parenthesis. -/
theorem PrintedParam.list_append_inj {params params' : List PrintedParam} {rest other : List Token}
    (h : (params.map tokens).flatMap (.mark ',' :: ·) ++ .mark ')' :: rest =
      (params'.map tokens).flatMap (.mark ',' :: ·) ++ .mark ')' :: other) :
    params = params' ∧ rest = other := by
  -- Behind a parameter stands a comma or the last parenthesis.
  have hbehind : ∀ (params : List PrintedParam) (rest inner : List Token),
      (params.map tokens).flatMap (.mark ',' :: ·) ++ .mark ')' :: rest ≠ .mark '(' :: inner := by
    intro params rest inner
    cases params <;> simp
  induction params generalizing params' with
  | nil =>
    cases params' with
    | nil => exact ⟨rfl, (List.cons.inj h).2⟩
    | cons y params' => exact absurd h (by simp)
  | cons x params ih =>
    cases params' with
    | nil => exact absurd h (by simp)
    | cons y params' =>
      simp only [List.map_cons, List.flatMap_cons, List.cons_append, List.append_assoc,
        List.cons.injEq, true_and] at h
      obtain ⟨rfl, hparams⟩ := append_inj h (hbehind _ _) (hbehind _ _)
      obtain ⟨rfl, rfl⟩ := ih hparams
      exact ⟨rfl, rfl⟩

theorem PrimitiveKind.name_inj {kind other : PrimitiveKind} (h : kind.name = other.name) :
    kind = other := by
  cases kind <;> cases other <;> first | rfl | exact absurd h (by decide)

theorem CombinatorKind.name_inj {kind other : CombinatorKind} (h : kind.name = other.name) :
    kind = other := by
  cases kind <;> cases other <;> first | rfl | exact absurd h (by decide)

namespace LoweredTerm

/-- The sample point is told from a point in the frame of a transform by its name. -/
theorem outerTokens_append_inj {parent parent' : Option PrintedTransform} {rest other : List Token}
    (h : outerTokens parent ++ rest = outerTokens parent' ++ other) :
    parent = parent' ∧ rest = other := by
  have hname : "p".toList ≠ "vec3".toList := by decide
  rcases parent with _ | parent <;> rcases parent' with _ | parent'
  · exact ⟨rfl, (List.cons.inj h).2⟩
  · exact absurd (Token.word.inj (List.cons.inj h).1) hname
  · exact absurd (Token.word.inj (List.cons.inj h).1).symm hname
  · obtain ⟨rfl, -, rfl⟩ := PrintedTransform.append_inj (p := True) h
      fun hpoint => ⟨trivial, (List.cons.inj hpoint).2⟩
    exact ⟨rfl, rfl⟩

/-- A leaf is told from a combination by its name. -/
theorem col_ne_name (kind : CombinatorKind) : "Col".toList ≠ kind.name.toList := by
  cases kind <;> decide

/-- A term is determined by the words and marks it begins a text with, and so is where it
ends. -/
theorem tokens_append_inj {s t : LoweredTerm} {rest other : List Token}
    (h : s.tokens ++ rest = t.tokens ++ other) : s = t ∧ rest = other := by
  induction s generalizing t rest other with
  | leaf kind own parent params color =>
    cases t with
    | leaf kind' own' parent' params' color' =>
      simp only [tokens, distanceTokens, call, List.flatMap_cons, List.flatMap_nil,
        List.append_assoc, List.cons_append, List.nil_append, List.cons.injEq, Token.word.injEq,
        String.toList_inj, true_and] at h
      obtain ⟨hkind, hbody⟩ := h
      obtain ⟨rfl, rfl, hparams⟩ := PrintedTransform.append_inj hbody outerTokens_append_inj
      obtain ⟨rfl, hscales⟩ := PrintedParam.list_append_inj hparams
      simp only [List.cons.injEq, true_and] at hscales
      have hcolor := List.append_cancel_left hscales
      simp only [List.cons.injEq, true_and] at hcolor
      obtain ⟨rfl, hrest⟩ := PrintedVec.append_inj hcolor
      rw [PrimitiveKind.name_inj hkind]
      exact ⟨rfl, (List.cons.inj hrest).2⟩
    | join kind' left right smoothness =>
      exact absurd (Token.word.inj (List.cons.inj h).1) (col_ne_name kind')
  | join kind left right smoothness ihleft ihright =>
    cases t with
    | leaf => exact absurd (Token.word.inj (List.cons.inj h).1).symm (col_ne_name kind)
    | join kind' left' right' smoothness' =>
      simp only [tokens, call, List.flatMap_cons, List.flatMap_nil,
        List.append_assoc, List.cons_append, List.nil_append, List.cons.injEq, Token.word.injEq,
        String.toList_inj, true_and] at h
      obtain ⟨hkind, hleft⟩ := h
      obtain ⟨rfl, hright⟩ := ihleft hleft
      simp only [List.cons.injEq, true_and] at hright
      obtain ⟨rfl, hrest⟩ := ihright hright
      simp only [List.cons.injEq, Token.word.injEq, String.toList_inj, true_and] at hrest
      obtain ⟨rfl, rfl⟩ := hrest
      rw [CombinatorKind.name_inj hkind]
      exact ⟨rfl, rfl⟩

/-- Different terms have different words and marks. -/
theorem tokens_injective : Function.Injective tokens := by
  intro s t h
  have happend : s.tokens ++ [] = t.tokens ++ [] := by rw [h]
  exact (tokens_append_inj happend).1

end LoweredTerm

/-- Two expressions that print a term have the same text exactly if they print the same
term. -/
theorem Expression.text_inj {d e : Expression} {s t : LoweredTerm} (hd : d.term? = some s)
    (he : e.term? = some t) : d.text = e.text ↔ s = t := by
  rw [← String.toList_inj, ← Code.tokens_inj, tokens_text hd, tokens_text he,
    LoweredTerm.tokens_injective.eq_iff]

end SdfScene
