import SdfScene.Expression.Basic
import SdfScene.Scene.Basic

/-!
# From shapes to expressions

An expression combines two distances at a time. A combinator with more children keeps
its first one and moves the others below a new combinator of the same kind, transform
and smoothness, which is split in turn. The split is either made in the tree, so that it
is saved with it, or for the moment only.

Transforms reach one level: a child is placed by its own transform and by that of the
combinator directly above it.
-/

namespace SdfScene

/-- How wide combinators are split. -/
inductive FlattenMode where
  /-- In the tree; the new combinators get fresh ids. -/
  | inPlace
  /-- For the moment; the tree and the allocator stay as they are. -/
  | transient
  deriving DecidableEq

/-- The outcome of lowering shapes. -/
structure Lowered (α : Type) where
  /-- The expression, unless nothing is drawn. -/
  expression : Option Expression
  /-- The shapes afterwards. -/
  tree : α
  /-- The allocator afterwards. -/
  ids : Allocator

/-- The allocator after a split that has issued an id. -/
def FlattenMode.keep (mode : FlattenMode) (before after : Allocator) : Allocator :=
  match mode with
  | .inPlace => after
  | .transient => before

mutual

/-- Lower a shape below a transform. -/
def Shape.lower (mode : FlattenMode) (parent : Transform) :
    Shape → Allocator → Lowered Shape
  | .primitive body transform color id, ids =>
    ⟨some (.leaf body transform parent color), .primitive body transform color id, ids⟩
  | .custom content transform id, ids =>
    ⟨if content = "" then none else some (.verbatim content), .custom content transform id,
      ids⟩
  | .combinator kind children smoothness transform id, ids =>
    let row := lowerRow mode kind smoothness transform children ids
    ⟨row.expression, .combinator kind row.tree smoothness transform id, row.ids⟩

/-- Lower the children of a combinator. The id for a split is issued before the first
child is lowered; a first child that already has this id gives way to the others. -/
def Shape.lowerRow (mode : FlattenMode) (kind : CombinatorKind) (smoothness : Single)
    (transform : Transform) : List Shape → Allocator → Lowered (List Shape)
  | [], ids => ⟨none, [], ids⟩
  | [only], ids =>
    let one := lower mode transform only ids
    ⟨one.expression, [one.tree], one.ids⟩
  | [first, second], ids =>
    let left := lower mode transform first ids
    let right := lower mode transform second left.ids
    ⟨Expression.join? kind smoothness left.expression right.expression, [left.tree, right.tree],
      right.ids⟩
  | first :: second :: third :: others, ids =>
    let (id, raised) := ids.next
    let left : Lowered (List Shape) :=
      if first.id = id then ⟨none, [], mode.keep ids raised⟩
      else
        let one := lower mode transform first (mode.keep ids raised)
        ⟨one.expression, [one.tree], one.ids⟩
    let right := lowerRow mode kind smoothness transform (second :: third :: others) left.ids
    ⟨Expression.join? kind smoothness left.expression right.expression,
      match mode with
      | .inPlace => left.tree ++ [.combinator kind right.tree smoothness transform id]
      | .transient => first :: second :: third :: others,
      right.ids⟩

end

namespace Lowered

/-- The code of the expression, or that of nothing. -/
def text {α : Type} (lowered : Lowered α) : String :=
  match lowered.expression with
  | none => Expression.neutralText
  | some expression => expression.text

end Lowered

namespace Scene

/-- Lower the displayed shape. -/
def lowerContent (scene : Scene) (mode : FlattenMode) (ids : Allocator) : Lowered Scene :=
  match scene.content? with
  | none => ⟨none, scene, ids⟩
  | some shape =>
    let lowered := shape.lower mode .identity ids
    ⟨lowered.expression, scene.withContent lowered.tree, lowered.ids⟩

/-- Lower the node that an id addresses; without an id, or by the id of the root, the
displayed shape. -/
def lower (scene : Scene) (mode : FlattenMode) (id : Option NodeId) (ids : Allocator) :
    Except SceneError (Lowered Scene) :=
  match id.filter fun id => id ≠ rootId with
  | none => .ok (scene.lowerContent mode ids)
  | some id =>
    match scene.find? id with
    | none => .error (.shapeNotFound id)
    | some shape =>
      let lowered := shape.lower mode .identity ids
      .ok ⟨lowered.expression, scene.update id fun _ => lowered.tree, lowered.ids⟩

end Scene

end SdfScene
