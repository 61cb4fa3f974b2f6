import SdfScene.Proofs.Expression.Drawn
import SdfScene.Proofs.Node.Fresh
import SdfScene.Proofs.Shape.Height
import SdfScene.Proofs.Shape.Nodes

/-!
# Splitting wide combinators

The tree in which no combinator has more than two children, as a function of the tree
and of the floor above which its new ids lie. It draws the same, stores the same numbers,
and its ids are those of the tree and the ones issued on the way.
-/

namespace SdfScene.Shape

mutual

/-- The number of splits until no combinator has more than two children. -/
def splits : Shape → Nat
  | .combinator _ children _ _ _ => (children.length - 2) + splitsIn children
  | _ => 0

/-- The number of splits below the shapes of a list. -/
def splitsIn : List Shape → Nat
  | [] => 0
  | shape :: shapes => splits shape + splitsIn shapes

end

/-- What a shape is split, its list is split as well. -/
theorem splits_le_splitsIn {shape : Shape} {shapes : List Shape} (h : shape ∈ shapes) :
    splits shape ≤ splitsIn shapes := by
  induction shapes with
  | nil => exact absurd h List.not_mem_nil
  | cons other others ih =>
    rw [splitsIn]
    rcases List.mem_cons.mp h with rfl | h
    · omega
    · have hle := ih h
      omega

mutual

/-- The tree with its wide combinators split, the ids for the splits issued above a
floor. -/
def splitAbove : Nat → Shape → Shape
  | floor, .combinator kind children smoothness transform id =>
    .combinator kind (splitRow kind smoothness transform floor children) smoothness transform id
  | _, shape => shape

/-- The children of a combinator, split. -/
def splitRow (kind : CombinatorKind) (smoothness : Single) (transform : Transform) :
    Nat → List Shape → List Shape
  | _, [] => []
  | floor, [only] => [splitAbove floor only]
  | floor, [first, second] =>
    [splitAbove floor first, splitAbove (floor + splits first) second]
  | floor, first :: second :: third :: others =>
    [splitAbove (floor + 1) first,
      .combinator kind
        (splitRow kind smoothness transform (floor + 1 + splits first)
          (second :: third :: others))
        smoothness transform (.ofNumber (floor + 1))]

end

/-- Induction on a row of children as it is split: a wide row gives its first child away and
goes on with the others above the ids that were issued. -/
theorem rowInduction {motive : Nat → List Shape → Prop} (nil : ∀ floor, motive floor [])
    (one : ∀ floor only, motive floor [only])
    (two : ∀ floor first second, motive floor [first, second])
    (wide : ∀ floor first second third others,
      motive (floor + 1 + splits first) (second :: third :: others) →
        motive floor (first :: second :: third :: others))
    (floor : Nat) (children : List Shape) : motive floor children := by
  induction children generalizing floor with
  | nil => exact nil floor
  | cons first others ih =>
    match others, ih with
    | [], _ => exact one floor first
    | [second], _ => exact two floor first second
    | second :: third :: others, ih => exact wide floor first second third others (ih _)

/-- Splitting keeps the id of the root. -/
@[simp] theorem id_splitAbove (floor : Nat) (shape : Shape) :
    (splitAbove floor shape).id = shape.id := by
  cases shape <;> rfl

/-! Splitting keeps what is drawn: a new combinator combines the rest of the row just as
the row itself would. -/

private theorem joinAll?_splitRow (kind : CombinatorKind) (smoothness : Single)
    (transform : Transform) (floor : Nat) (children : List Shape)
    (hchildren : ∀ child ∈ children, ∀ floor,
      drawn? transform (splitAbove floor child) = drawn? transform child) :
    Expression.joinAll? kind smoothness
        (drawnIn transform (splitRow kind smoothness transform floor children)) =
      Expression.joinAll? kind smoothness (drawnIn transform children) := by
  induction floor, children using rowInduction with
  | nil floor => rfl
  | one floor only => simp only [splitRow, drawnIn, hchildren only List.mem_cons_self]
  | two floor first second =>
    simp only [splitRow, drawnIn, hchildren first List.mem_cons_self,
      hchildren second (List.mem_cons_of_mem _ List.mem_cons_self)]
  | wide floor first second third others ih =>
    obtain ⟨hfirst, hothers⟩ := List.forall_mem_cons.mp hchildren
    rw [splitRow, drawnIn, drawnIn, drawnIn, List.append_nil, hfirst, drawn?, ih hothers,
      ← Expression.join?_joinAll?, Expression.joinAll?_toList, Expression.join?_joinAll?]
    rfl

/-- A split tree draws what the tree draws. -/
theorem drawn?_splitAbove (parent : Transform) (floor : Nat) (shape : Shape) :
    drawn? parent (splitAbove floor shape) = drawn? parent shape := by
  induction shape generalizing parent floor with
  | primitive => rfl
  | custom => rfl
  | combinator kind children smoothness transform id ih =>
    simp only [splitAbove, drawn?]
    exact joinAll?_splitRow kind smoothness transform floor children
      fun child hchild floor => ih child hchild transform floor

/-! The ids of a split tree: those of the tree, and those issued from the floor on. The
order differs, since the first child is split after the id for its row was issued. -/

private theorem idsIn_splitRow (kind : CombinatorKind) (smoothness : Single)
    (transform : Transform) (floor : Nat) (children : List Shape)
    (hchildren : ∀ child ∈ children, ∀ floor,
      (splitAbove floor child).ids.Perm
        (child.ids ++ Allocator.upcoming ⟨floor⟩ child.splits)) :
    (idsIn (splitRow kind smoothness transform floor children)).Perm
      (idsIn children ++
        Allocator.upcoming ⟨floor⟩ ((children.length - 2) + splitsIn children)) := by
  induction floor, children using rowInduction with
  | nil floor => exact List.Perm.refl _
  | one floor only =>
    simpa [splitRow, splitsIn] using hchildren only List.mem_cons_self floor
  | two floor first second =>
    have hone := hchildren first List.mem_cons_self floor
    have htwo := hchildren second (List.mem_cons_of_mem _ List.mem_cons_self)
      (floor + splits first)
    rw [List.perm_iff_count] at hone htwo ⊢
    intro a
    have hcount := hone a
    have hcount' := htwo a
    simp only [splitRow, splitsIn, List.length_cons, List.length_nil, Nat.zero_add, Nat.reduceAdd,
      Nat.sub_self, Nat.add_zero, Allocator.upcoming_add, idsIn_cons, idsIn_nil,
      List.append_nil, List.count_append] at hcount hcount' ⊢
    omega
  | wide floor first second third others ih =>
    obtain ⟨hfirst, hothers⟩ := List.forall_mem_cons.mp hchildren
    have hone := hfirst (floor + 1)
    have hrest := ih hothers
    have hids : idsIn (splitRow kind smoothness transform floor
        (first :: second :: third :: others)) =
        (splitAbove (floor + 1) first).ids ++ (NodeId.ofNumber (floor + 1) ::
          idsIn (splitRow kind smoothness transform (floor + 1 + splits first)
            (second :: third :: others))) := by
      rw [splitRow, idsIn_cons, idsIn_cons, idsIn_nil, ids_combinator, List.append_nil]
    have hcount : (first :: second :: third :: others).length - 2 +
        splitsIn (first :: second :: third :: others) =
          1 + (splits first + ((second :: third :: others).length - 2 +
            splitsIn (second :: third :: others))) := by
      simp only [List.length_cons, splitsIn]
      omega
    have hissued : Allocator.upcoming ⟨floor⟩ 1 = [NodeId.ofNumber (floor + 1)] := rfl
    rw [hids, hcount, Allocator.upcoming_add, Allocator.upcoming_add, hissued,
      idsIn_cons first]
    rw [List.perm_iff_count] at hone hrest ⊢
    intro a
    have hcount := hone a
    have hcount' := hrest a
    simp only [List.count_append, List.count_cons, List.count_nil] at hcount hcount' ⊢
    omega

/-- The ids of a split tree are those of the tree and the ones issued for the splits. -/
theorem ids_splitAbove (floor : Nat) (shape : Shape) :
    (splitAbove floor shape).ids.Perm
      (shape.ids ++ Allocator.upcoming ⟨floor⟩ shape.splits) := by
  induction shape generalizing floor with
  | primitive => exact List.Perm.refl _
  | custom => exact List.Perm.refl _
  | combinator kind children smoothness transform id ih =>
    simp only [splitAbove, ids_combinator, splits, List.cons_append, List.perm_cons]
    exact idsIn_splitRow kind smoothness transform floor children ih

/-! The numbers of a split tree: a new combinator has those of the one that it splits. -/

private theorem mem_numbersIn_splitRow (kind : CombinatorKind) (smoothness : Single)
    (transform : Transform) (floor : Nat) (children : List Shape) {x : Single}
    (hchildren : ∀ child ∈ children, ∀ floor,
      x ∈ (splitAbove floor child).numbers ↔ x ∈ child.numbers) :
    x ∈ smoothness :: transform.numbers ∨
        x ∈ numbersIn (splitRow kind smoothness transform floor children) ↔
      x ∈ smoothness :: transform.numbers ∨ x ∈ numbersIn children := by
  induction floor, children using rowInduction with
  | nil floor => exact Iff.rfl
  | one floor only =>
    simp only [splitRow, numbersIn_cons, numbersIn_nil, List.append_nil,
      hchildren only List.mem_cons_self]
  | two floor first second =>
    simp only [splitRow, numbersIn_cons, numbersIn_nil, List.append_nil, List.mem_append,
      hchildren first List.mem_cons_self,
      hchildren second (List.mem_cons_of_mem _ List.mem_cons_self)]
  | wide floor first second third others ih =>
    obtain ⟨hfirst, hothers⟩ := List.forall_mem_cons.mp hchildren
    have hrest := ih hothers
    rw [splitRow, numbersIn_cons, numbersIn_cons, numbersIn_nil, numbers_combinator,
      List.append_nil, List.mem_append, List.mem_append, hfirst, hrest, numbersIn_cons first,
      List.mem_append]
    tauto

/-- Splitting stores the numbers that are in the tree already. -/
theorem mem_numbers_splitAbove {floor : Nat} {shape : Shape} {x : Single} :
    x ∈ (splitAbove floor shape).numbers ↔ x ∈ shape.numbers := by
  induction shape generalizing floor with
  | primitive => exact Iff.rfl
  | custom => exact Iff.rfl
  | combinator kind children smoothness transform id ih =>
    rw [splitAbove, numbers_combinator, numbers_combinator, List.mem_append, List.mem_append]
    exact mem_numbersIn_splitRow kind smoothness transform floor children
      fun child hchild floor => ih child hchild

/-! A split tree is not split again. -/

private theorem splits_splitRow (kind : CombinatorKind) (smoothness : Single)
    (transform : Transform) (floor : Nat) (children : List Shape)
    (hchildren : ∀ child ∈ children, ∀ floor, (splitAbove floor child).splits = 0) :
    (splitRow kind smoothness transform floor children).length ≤ 2 ∧
      splitsIn (splitRow kind smoothness transform floor children) = 0 := by
  induction floor, children using rowInduction with
  | nil floor => exact ⟨Nat.zero_le 2, rfl⟩
  | one floor only => simp [splitRow, splitsIn, hchildren only List.mem_cons_self]
  | two floor first second =>
    simp [splitRow, splitsIn, hchildren first List.mem_cons_self,
      hchildren second (List.mem_cons_of_mem _ List.mem_cons_self)]
  | wide floor first second third others ih =>
    obtain ⟨hfirst, hothers⟩ := List.forall_mem_cons.mp hchildren
    obtain ⟨hlength, hsplits⟩ := ih hothers
    simp [splitRow, splitsIn, splits, hfirst, hsplits, hlength]

/-- Nothing is left to split in a split tree. -/
theorem splits_splitAbove (floor : Nat) (shape : Shape) : (splitAbove floor shape).splits = 0 := by
  induction shape generalizing floor with
  | primitive => rfl
  | custom => rfl
  | combinator kind children smoothness transform id ih =>
    obtain ⟨hlength, hsplits⟩ := splits_splitRow kind smoothness transform floor children
      fun child hchild floor => ih child hchild floor
    rw [splitAbove, splits, hsplits]
    omega

/-! A row is split into a chain, which is as deep as the row was wide. -/

private theorem length_le_heightIn_splitRow (kind : CombinatorKind) (smoothness : Single)
    (transform : Transform) (floor : Nat) (children : List Shape) :
    children.length ≤ heightIn (splitRow kind smoothness transform floor children) + 1 := by
  induction floor, children using rowInduction with
  | nil floor => exact Nat.zero_le _
  | one floor only => simp [splitRow]
  | two floor first second =>
    have hpos := height_pos (splitAbove floor first)
    simp only [splitRow, heightIn, List.length_cons, List.length_nil]
    omega
  | wide floor first second third others ih =>
    simp only [splitRow, heightIn, height, List.length_cons] at ih ⊢
    omega

/-- A split combinator is at least as high as it had children. -/
theorem length_le_height_splitAbove (floor : Nat) (kind : CombinatorKind) (children : List Shape)
    (smoothness : Single) (transform : Transform) (id : NodeId) :
    children.length ≤
      (splitAbove floor (combinator kind children smoothness transform id)).height := by
  rw [splitAbove, height]
  exact length_le_heightIn_splitRow kind smoothness transform floor children

end SdfScene.Shape
