import Mathlib.Data.List.Basic
import SdfScene.Expression.Basic

/-!
# What a shape draws

Said without splitting, ids or an allocator: a combinator draws its children under its
own transform and combines what they draw from the right, the children that draw nothing
left out. The text that stands for nothing is drawn by a piece of code alone.
-/

namespace SdfScene

namespace Expression

/-- The text of nothing belongs to no body and to no combination, only to code that is
this text. -/
theorem text_eq_neutralText {e : Expression} : e.text = neutralText ↔ e = verbatim neutralText := by
  constructor
  · intro h
    cases e with
    | verbatim code => exact congrArg verbatim h
    | leaf body own parent color =>
      have hfifth : (leafText body own parent color).toList[4]? = some '0' :=
        congrArg (fun text : String => text.toList[4]?) h
      -- Not by its equation, for which all these literals would be compared.
      delta leafText at hfifth
      simp only [String.append_assoc, String.toList_append] at hfifth
      cases hkind : body.kind <;> exact absurd hfifth (by simp [hkind, PrimitiveKind.name])
    | join kind left right smoothness =>
      have hfirst : (join kind left right smoothness).text.toList[0]? = some 'C' :=
        congrArg (fun text : String => text.toList[0]?) h
      simp only [text, String.append_assoc, String.toList_append] at hfirst
      cases kind <;> exact absurd hfirst (by simp [CombinatorKind.name])
  · rintro rfl
    rfl

/-- Expressions combined from the right; one alone stays as it is. -/
def joinAll? (kind : CombinatorKind) (smoothness : Single) : List Expression → Option Expression
  | [] => none
  | [only] => some only
  | first :: second :: others =>
    (joinAll? kind smoothness (second :: others)).map fun rest => join kind first rest smoothness

/-- At most one expression combines to itself. -/
theorem joinAll?_toList (kind : CombinatorKind) (smoothness : Single) (e : Option Expression) :
    joinAll? kind smoothness e.toList = e := by
  cases e <;> rfl

/-- Expressions that are there combine to one. -/
theorem exists_joinAll? (kind : CombinatorKind) (smoothness : Single) (first : Expression)
    (others : List Expression) :
    ∃ all, joinAll? kind smoothness (first :: others) = some all := by
  induction others generalizing first with
  | nil => exact ⟨first, rfl⟩
  | cons second others ih =>
    obtain ⟨rest, hrest⟩ := ih second
    exact ⟨join kind first rest smoothness, by rw [joinAll?, hrest, Option.map_some]⟩

/-- Pairing an expression with the combination of others combines them all. -/
theorem join?_joinAll? (kind : CombinatorKind) (smoothness : Single) (first : Option Expression)
    (others : List Expression) :
    join? kind smoothness first (joinAll? kind smoothness others) =
      joinAll? kind smoothness (first.toList ++ others) := by
  cases first with
  | none => rfl
  | some first =>
    cases others with
    | nil => rfl
    | cons second others =>
      obtain ⟨rest, hrest⟩ := exists_joinAll? kind smoothness second others
      simp only [Option.toList_some, List.singleton_append, joinAll?, hrest, join?,
        Option.map_some]

end Expression

namespace Shape

mutual

/-- The expression that a shape draws below a transform. -/
def drawn? (parent : Transform) : Shape → Option Expression
  | .primitive body transform color _ => some (.leaf body transform parent color)
  | .combinator kind children smoothness transform _ =>
    Expression.joinAll? kind smoothness (drawnIn transform children)
  | .custom content _ _ => if content = "" then none else some (.verbatim content)

/-- What the shapes of a list draw below a transform, in their order. -/
def drawnIn (parent : Transform) : List Shape → List Expression
  | [] => []
  | shape :: shapes => (drawn? parent shape).toList ++ drawnIn parent shapes

end

/-- The shapes that draw nothing are left out. -/
theorem drawnIn_eq_filterMap (parent : Transform) (shapes : List Shape) :
    drawnIn parent shapes = shapes.filterMap (drawn? parent) := by
  induction shapes with
  | nil => rfl
  | cons shape shapes ih =>
    rw [drawnIn, ih]
    cases h : drawn? parent shape with
    | none => rw [List.filterMap_cons_none h, Option.toList_none, List.nil_append]
    | some e => rw [List.filterMap_cons_some h, Option.toList_some, List.singleton_append]

end Shape

end SdfScene
