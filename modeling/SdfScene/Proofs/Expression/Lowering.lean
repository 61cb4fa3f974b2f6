import SdfScene.Expression.Lowering
import SdfScene.Proofs.Shape.Splitting

/-!
# Lowering draws what a shape draws

Both modes of lowering give the expression that the shape draws, as long as the ids they
issue fit in 64 bits. For the moment, the tree and the allocator stay as they are; in the
tree, they become those of the splits.
-/

namespace SdfScene

namespace Shape

/-! Each equation of a row of three or more, the case in which the ids come into play. -/

theorem lowerRow_wide (mode : FlattenMode) (kind : CombinatorKind) (smoothness : Single)
    (transform : Transform) (first second third : Shape) (others : List Shape)
    {ids : Allocator} (hfresh : first.id ≠ ids.next.1) :
    lowerRow mode kind smoothness transform (first :: second :: third :: others) ids =
      let left := lower mode transform first (mode.keep ids ids.next.2)
      let right := lowerRow mode kind smoothness transform (second :: third :: others) left.ids
      ⟨Expression.join? kind smoothness left.expression right.expression,
        match mode with
        | .inPlace =>
          [left.tree, .combinator kind right.tree smoothness transform ids.next.1]
        | .transient => first :: second :: third :: others,
        right.ids⟩ := by
  have hne : first.id ≠ NodeId.ofNumber (ids.floor + 1) := hfresh
  simp only [lowerRow, Allocator.next, hne, ite_false]
  cases mode <;> rfl

/-! Lowering for the moment. -/

/-- For the moment, a row of children gives what they draw together and stays as it is. -/
private theorem lowerRow_transient (kind : CombinatorKind) (smoothness : Single)
    (transform : Transform) (ids : Allocator) (children : List Shape)
    (hcovers : ids.Covers (idsIn children))
    (hroom : 0 < children.length - 2 → ids.floor + 1 < 2 ^ 64)
    (hchildren : ∀ child ∈ children,
      lower .transient transform child ids = ⟨drawn? transform child, child, ids⟩) :
    lowerRow .transient kind smoothness transform children ids =
      ⟨Expression.joinAll? kind smoothness (drawnIn transform children), children, ids⟩ := by
  induction children with
  | nil => rfl
  | cons first others ih =>
    obtain ⟨hfirst, hothers⟩ := List.forall_mem_cons.mp hchildren
    rw [drawnIn, ← Expression.join?_joinAll?]
    rcases others with _ | ⟨second, _ | ⟨third, others⟩⟩
    · rw [lowerRow, hfirst]
      cases drawn? transform first <;> rfl
    · have hsecond := hothers second List.mem_cons_self
      simp only [lowerRow, hfirst, hsecond, drawnIn, List.append_nil]
      cases drawn? transform second <;> rfl
    · have hfresh : first.id ≠ ids.next.1 := fun h => by
        refine hcovers.next_notMem (hroom (by simp)) (h ▸ ?_)
        exact List.mem_append_left _ (id_mem_ids first)
      have hrest := ih (hcovers.of_subset (List.subset_append_right _ _))
        (fun _ => hroom (by simp)) hothers
      rw [lowerRow_wide _ _ _ _ _ _ _ _ hfresh]
      simp only [FlattenMode.keep, hfirst, hrest]

private theorem lowerRow_transient_keeps (kind : CombinatorKind) (smoothness : Single)
    (transform : Transform) (ids : Allocator) (children : List Shape)
    (hchildren : ∀ child ∈ children, ∀ ids,
      (lower .transient transform child ids).tree = child ∧
        (lower .transient transform child ids).ids = ids) :
    (lowerRow .transient kind smoothness transform children ids).tree = children ∧
      (lowerRow .transient kind smoothness transform children ids).ids = ids := by
  induction children with
  | nil => exact ⟨rfl, rfl⟩
  | cons first others ih =>
    obtain ⟨hfirst, hothers⟩ := List.forall_mem_cons.mp hchildren
    rcases others with _ | ⟨second, _ | ⟨third, others⟩⟩
    · simp only [lowerRow, hfirst, and_self]
    · simp only [lowerRow, hfirst, hothers second List.mem_cons_self, and_self]
    · by_cases hlost : first.id = NodeId.ofNumber (ids.floor + 1)
      · have hrest := ih hothers
        simp only [lowerRow, Allocator.next, FlattenMode.keep, hlost, ite_true, hrest, and_self]
      · rw [lowerRow_wide _ _ _ _ _ _ _ _ hlost]
        simp only [FlattenMode.keep, hfirst, ih hothers, and_self]

/-- For the moment, a shape gives what it draws and stays as it is. -/
theorem lower_transient (shape : Shape) (parent : Transform) (ids : Allocator)
    (hcovers : ids.Covers shape.ids) (hroom : 0 < shape.splits → ids.floor + 1 < 2 ^ 64) :
    lower .transient parent shape ids = ⟨drawn? parent shape, shape, ids⟩ := by
  induction shape generalizing parent with
  | primitive => rfl
  | custom => rfl
  | combinator kind children smoothness transform id ih =>
    rw [ids_combinator] at hcovers
    have hinner : ids.Covers (idsIn children) :=
      hcovers.of_subset (List.subset_cons_self id _)
    have hrow := lowerRow_transient kind smoothness transform ids children hinner
      (fun h => hroom (by rw [splits]; omega))
      (fun child hchild => ih child hchild transform
        (hinner.of_subset (ids_subset_idsIn hchild))
        (fun h => hroom (by
          have hle := splits_le_splitsIn hchild
          rw [splits]
          omega)))
    simp only [lower, hrow, drawn?]

/-- For the moment, neither the tree nor the allocator changes, whatever the ids are. -/
theorem lower_transient_keeps (shape : Shape) (parent : Transform) (ids : Allocator) :
    (lower .transient parent shape ids).tree = shape ∧
      (lower .transient parent shape ids).ids = ids := by
  induction shape generalizing parent ids with
  | primitive => exact ⟨rfl, rfl⟩
  | custom => exact ⟨rfl, rfl⟩
  | combinator kind children smoothness transform id ih =>
    have hrow := lowerRow_transient_keeps kind smoothness transform ids children
      fun child hchild ids => ih child hchild transform ids
    exact ⟨by simp only [lower, hrow.1], hrow.2⟩

/-! Lowering in the tree. The ids issued on the way are bounded without any condition on
those in use, which makes a bound on the last floor one on all floors before it. -/

private theorem lowerRow_floor_bounds (mode : FlattenMode) (kind : CombinatorKind)
    (smoothness : Single) (transform : Transform) (ids : Allocator) (children : List Shape)
    (hchildren : ∀ child ∈ children, ∀ ids,
      ids.floor ≤ (lower mode transform child ids).ids.floor ∧
        (lower mode transform child ids).ids.floor ≤ ids.floor + splits child) :
    ids.floor ≤ (lowerRow mode kind smoothness transform children ids).ids.floor ∧
      (lowerRow mode kind smoothness transform children ids).ids.floor ≤
        ids.floor + ((children.length - 2) + splitsIn children) := by
  induction children generalizing ids with
  | nil => exact ⟨Nat.le_refl _, Nat.le_add_right _ _⟩
  | cons first others ih =>
    obtain ⟨hfirst, hothers⟩ := List.forall_mem_cons.mp hchildren
    rcases others with _ | ⟨second, _ | ⟨third, others⟩⟩
    · have h := hfirst ids
      simp only [lowerRow, splitsIn, List.length_cons, List.length_nil]
      omega
    · have h := hfirst ids
      have h' := hothers second List.mem_cons_self (lower mode transform first ids).ids
      simp only [lowerRow, splitsIn, List.length_cons, List.length_nil]
      omega
    · have hkeep : ids.floor ≤ (mode.keep ids ids.next.2).floor ∧
          (mode.keep ids ids.next.2).floor ≤ ids.floor + 1 := by
        cases mode <;> simp [FlattenMode.keep, Allocator.next]
      by_cases hfresh : first.id = ids.next.1
      · have hrest := ih (mode.keep ids ids.next.2) hothers
        have hlost : first.id = NodeId.ofNumber (ids.floor + 1) := hfresh
        simp only [Allocator.next, List.length_cons] at hkeep hrest
        simp only [lowerRow, Allocator.next, hlost, ite_true, splitsIn, List.length_cons] at hrest ⊢
        omega
      · have hone := hfirst (mode.keep ids ids.next.2)
        have hrest := ih (lower mode transform first (mode.keep ids ids.next.2)).ids hothers
        rw [lowerRow_wide _ _ _ _ _ _ _ _ hfresh]
        simp only [splitsIn, List.length_cons] at hrest ⊢
        omega

/-- Lowering never takes back an id, and it issues at most one for each split. -/
theorem lower_floor_bounds (mode : FlattenMode) (shape : Shape) (parent : Transform)
    (ids : Allocator) :
    ids.floor ≤ (lower mode parent shape ids).ids.floor ∧
      (lower mode parent shape ids).ids.floor ≤ ids.floor + shape.splits := by
  induction shape generalizing parent ids with
  | primitive => exact ⟨Nat.le_refl _, Nat.le_refl _⟩
  | custom => exact ⟨Nat.le_refl _, Nat.le_refl _⟩
  | combinator kind children smoothness transform id ih =>
    simp only [lower, splits]
    exact lowerRow_floor_bounds mode kind smoothness transform ids children
      fun child hchild ids => ih child hchild transform ids

private theorem lowerRow_inPlace (kind : CombinatorKind) (smoothness : Single)
    (transform : Transform) (ids : Allocator) (children : List Shape)
    (hcovers : ids.Covers (idsIn children))
    (hroom : (lowerRow .inPlace kind smoothness transform children ids).ids.floor < 2 ^ 64)
    (hchildren : ∀ child ∈ children, ∀ ids : Allocator, ids.Covers child.ids →
      (lower .inPlace transform child ids).ids.floor < 2 ^ 64 →
        lower .inPlace transform child ids =
          ⟨drawn? transform child, splitAbove ids.floor child, ⟨ids.floor + splits child⟩⟩) :
    lowerRow .inPlace kind smoothness transform children ids =
      ⟨Expression.joinAll? kind smoothness (drawnIn transform children),
        splitRow kind smoothness transform ids.floor children,
        ⟨ids.floor + ((children.length - 2) + splitsIn children)⟩⟩ := by
  induction children generalizing ids with
  | nil => rfl
  | cons first others ih =>
    obtain ⟨hfirst, hothers⟩ := List.forall_mem_cons.mp hchildren
    rw [idsIn_cons, Allocator.covers_append] at hcovers
    rw [drawnIn, ← Expression.join?_joinAll?]
    rcases others with _ | ⟨second, _ | ⟨third, others⟩⟩
    · rw [lowerRow] at hroom ⊢
      rw [hfirst ids hcovers.1 hroom]
      simp only [drawnIn, splitRow, splitsIn, List.length_cons, List.length_nil, Nat.zero_add,
        Nat.add_zero, Nat.reduceSub]
      cases drawn? transform first <;> rfl
    · rw [lowerRow] at hroom ⊢
      have hmono := (lower_floor_bounds .inPlace second transform
        (lower .inPlace transform first ids).ids).1
      have hone := hfirst ids hcovers.1 (Nat.lt_of_le_of_lt hmono hroom)
      rw [hone] at hroom ⊢
      have hcovered : Allocator.Covers ⟨ids.floor + splits first⟩ second.ids :=
        (hcovers.2.of_subset (ids_subset_idsIn List.mem_cons_self)).mono (Nat.le_add_right _ _)
      rw [hothers second List.mem_cons_self _ hcovered hroom]
      simp only [drawnIn, splitRow, splitsIn, List.length_cons, List.length_nil, Nat.zero_add,
        Nat.add_zero, Nat.reduceAdd, Nat.sub_self, List.append_nil, Nat.add_assoc]
      cases drawn? transform second <;> rfl
    · have hmono := fun start : Allocator =>
        (lowerRow_floor_bounds .inPlace kind smoothness transform start
          (second :: third :: others) fun child _ ids =>
            lower_floor_bounds .inPlace child transform ids).1
      have hfresh : first.id ≠ ids.next.1 := fun hlost => by
        have hnext : first.id = NodeId.ofNumber (ids.floor + 1) := hlost
        simp only [lowerRow, Allocator.next, hnext, ite_true, FlattenMode.keep] at hroom
        have hissued : ids.floor + 1 < 2 ^ 64 := Nat.lt_of_le_of_lt (hmono _) hroom
        exact hcovers.1.next_notMem hissued (hlost ▸ id_mem_ids first)
      have hraised : ids.floor ≤ ids.next.2.floor := Nat.le_succ _
      rw [lowerRow_wide _ _ _ _ _ _ _ _ hfresh] at hroom ⊢
      have hone := hfirst ids.next.2 (hcovers.1.mono hraised)
        (Nat.lt_of_le_of_lt (hmono _) hroom)
      simp only [FlattenMode.keep, hone] at hroom ⊢
      have hcovered : Allocator.Covers ⟨ids.next.2.floor + splits first⟩
          (idsIn (second :: third :: others)) :=
        hcovers.2.mono (Nat.le_trans hraised (Nat.le_add_right _ _))
      rw [ih _ hcovered hroom hothers]
      simp only [splitRow, splitsIn, List.length_cons, Allocator.next, Lowered.mk.injEq,
        Allocator.mk.injEq, true_and]
      omega

/-- In the tree, a shape gives what it draws, and the tree and the floor afterwards are
those of the splits. -/
theorem lower_inPlace (shape : Shape) (parent : Transform) (ids : Allocator)
    (hcovers : ids.Covers shape.ids)
    (hroom : (lower .inPlace parent shape ids).ids.floor < 2 ^ 64) :
    lower .inPlace parent shape ids =
      ⟨drawn? parent shape, splitAbove ids.floor shape, ⟨ids.floor + shape.splits⟩⟩ := by
  induction shape generalizing parent ids with
  | primitive => rfl
  | custom => rfl
  | combinator kind children smoothness transform id ih =>
    rw [ids_combinator] at hcovers
    have hrow := lowerRow_inPlace kind smoothness transform ids children
      (hcovers.of_subset (List.subset_cons_self id _)) hroom
      (fun child hchild ids hids hfloor => ih child hchild transform ids hids hfloor)
    simp only [lower, hrow, drawn?, splitAbove, splits]

/-! Every id that a split issues is put into the tree before the next one is issued, so a
bound on the numbers in the tree is one on the floor. -/

private theorem lowerRow_floor_le {bound : Nat} (hbound : bound + 1 < 2 ^ 64)
    (kind : CombinatorKind) (smoothness : Single) (transform : Transform) (ids : Allocator)
    (children : List Shape) (hcovers : ids.Covers (idsIn children)) (hfloor : ids.floor ≤ bound)
    (htree : Allocator.Covers ⟨bound⟩
      (idsIn (lowerRow .inPlace kind smoothness transform children ids).tree))
    (hchildren : ∀ child ∈ children, ∀ ids : Allocator, ids.Covers child.ids →
      ids.floor ≤ bound → Allocator.Covers ⟨bound⟩ (lower .inPlace transform child ids).tree.ids →
        (lower .inPlace transform child ids).ids.floor ≤ bound) :
    (lowerRow .inPlace kind smoothness transform children ids).ids.floor ≤ bound := by
  induction children generalizing ids with
  | nil => exact hfloor
  | cons first others ih =>
    obtain ⟨hfirst, hothers⟩ := List.forall_mem_cons.mp hchildren
    rw [idsIn_cons, Allocator.covers_append] at hcovers
    rcases others with _ | ⟨second, _ | ⟨third, others⟩⟩
    · rw [lowerRow, idsIn_cons, Allocator.covers_append] at htree
      exact hfirst ids hcovers.1 hfloor htree.1
    · rw [lowerRow, idsIn_cons, idsIn_cons, Allocator.covers_append,
        Allocator.covers_append] at htree
      have hmono := (lower_floor_bounds .inPlace first transform ids).1
      exact hothers second List.mem_cons_self _
        ((hcovers.2.of_subset (ids_subset_idsIn List.mem_cons_self)).mono hmono)
        (hfirst ids hcovers.1 hfloor htree.1) htree.2.1
    · have hissued : ids.floor + 1 < 2 ^ 64 := by omega
      have hfresh : first.id ≠ ids.next.1 := fun hlost =>
        hcovers.1.next_notMem hissued (hlost ▸ id_mem_ids first)
      rw [lowerRow_wide _ _ _ _ _ _ _ _ hfresh] at htree ⊢
      simp only [FlattenMode.keep, idsIn_cons, idsIn_nil, List.append_nil, ids_combinator,
        Allocator.covers_append] at htree ⊢
      obtain ⟨hleft, hright⟩ := htree
      have hraised : ids.next.2.floor ≤ bound :=
        hright _ List.mem_cons_self _ (NodeId.number?_ofNumber hissued)
      have hmono := (lower_floor_bounds .inPlace first transform ids.next.2).1
      exact ih _ (hcovers.2.mono (Nat.le_trans (Nat.le_succ _) hmono))
        (hfirst _ (hcovers.1.mono (Nat.le_succ _)) hraised hleft)
        (hright.of_subset (List.subset_cons_self _ _)) hothers

/-- If no number in the lowered tree is above a bound, no id above it was issued. -/
theorem lower_inPlace_floor_le {bound : Nat} (hbound : bound + 1 < 2 ^ 64) (shape : Shape)
    (parent : Transform) (ids : Allocator) (hcovers : ids.Covers shape.ids)
    (hfloor : ids.floor ≤ bound)
    (htree : Allocator.Covers ⟨bound⟩ (lower .inPlace parent shape ids).tree.ids) :
    (lower .inPlace parent shape ids).ids.floor ≤ bound := by
  induction shape generalizing parent ids with
  | primitive => exact hfloor
  | custom => exact hfloor
  | combinator kind children smoothness transform id ih =>
    rw [lower, ids_combinator] at htree
    rw [ids_combinator] at hcovers
    exact lowerRow_floor_le hbound kind smoothness transform ids children
      (hcovers.of_subset (List.subset_cons_self id _)) hfloor
      (htree.of_subset (List.subset_cons_self id _))
      fun child hchild ids hids hle htree => ih child hchild transform ids hids hle htree

end Shape

/-- How many ids beyond its floor an allocator must have for a number of splits: all of
them in the tree, and the same one for every split that is for the moment. -/
def FlattenMode.issued : FlattenMode → Nat → Nat
  | .inPlace, splits => splits
  | .transient, splits => min splits 1

namespace Shape

/-- Both modes give what the shape draws. -/
theorem lower_expression (mode : FlattenMode) (shape : Shape) (parent : Transform)
    (ids : Allocator) (hcovers : ids.Covers shape.ids)
    (hroom : ids.floor + mode.issued shape.splits < 2 ^ 64) :
    (lower mode parent shape ids).expression = drawn? parent shape := by
  cases mode with
  | inPlace =>
    have hbound := (lower_floor_bounds .inPlace shape parent ids).2
    rw [lower_inPlace shape parent ids hcovers (Nat.lt_of_le_of_lt hbound hroom)]
  | transient =>
    have hone : 0 < shape.splits → ids.floor + 1 < 2 ^ 64 := fun hpos => by
      simp only [FlattenMode.issued] at hroom
      omega
    rw [lower_transient shape parent ids hcovers hone]

/-- The text of a lowered shape is that of nothing exactly if it draws nothing, or draws
code that is this text. -/
theorem text_lowered_eq_neutralText {lowered : Lowered Shape} :
    lowered.text = Expression.neutralText ↔
      lowered.expression = none ∨
        lowered.expression = some (.verbatim Expression.neutralText) := by
  cases h : lowered.expression with
  | none => simp [Lowered.text, h]
  | some e => simp [Lowered.text, h, Expression.text_eq_neutralText]

/-- Lowering in either mode is the plain recursive drawing of the shape, and the text of
nothing comes out exactly where nothing is drawn or where code is drawn that is this very
text. -/
theorem lower_eq_drawn (mode : FlattenMode) (shape : Shape) (parent : Transform)
    (ids : Allocator) (hcovers : ids.Covers shape.ids)
    (hroom : ids.floor + mode.issued shape.splits < 2 ^ 64) :
    (shape.lower mode parent ids).expression = shape.drawn? parent ∧
      ((shape.lower mode .identity ids).text = Expression.neutralText ↔
        shape.drawn? .identity = none ∨
          shape.drawn? .identity = some (.verbatim Expression.neutralText)) := by
  constructor
  · exact lower_expression mode shape parent ids hcovers hroom
  · rw [text_lowered_eq_neutralText, lower_expression mode shape .identity ids hcovers hroom]

/-- Four children, one of them without code, and the allocator as tight as it may be. -/
theorem lower_eq_drawn_of_four :
    let shape : Shape := .combinator .xor
      [.custom "a" .identity ⟨"1"⟩, .custom "" .identity ⟨"+7"⟩, .custom "b" .identity ⟨"x"⟩,
        .custom "c" .identity ⟨"2"⟩] .one .identity ⟨"3"⟩
    let ids : Allocator := ⟨7⟩
    ids.Covers shape.ids ∧ ids.floor + FlattenMode.inPlace.issued shape.splits < 2 ^ 64 ∧
      (shape.lower .inPlace .identity ids).expression =
        some (.join .xor (.verbatim "a") (.join .xor (.verbatim "b") (.verbatim "c") .one) .one) ∧
      (shape.lower .inPlace .identity ids).text ≠ Expression.neutralText :=
  have hcovers : Allocator.Covers ⟨7⟩ [⟨"3"⟩, ⟨"1"⟩, ⟨"+7"⟩, ⟨"x"⟩, ⟨"2"⟩] := by decide +kernel
  have hroom : 7 + FlattenMode.inPlace.issued 2 < 2 ^ 64 := by decide
  have h := lower_eq_drawn .inPlace (.combinator .xor
    [.custom "a" .identity ⟨"1"⟩, .custom "" .identity ⟨"+7"⟩, .custom "b" .identity ⟨"x"⟩,
      .custom "c" .identity ⟨"2"⟩] .one .identity ⟨"3"⟩) .identity ⟨7⟩ hcovers hroom
  ⟨hcovers, hroom, h.1.trans rfl, fun hneutral => by
    rcases h.2.mp hneutral with hnone | hcode
    · cases hnone
    · cases hcode⟩

/-- Code that is the text of nothing draws something and yet gives the text of nothing. -/
theorem neutralText_of_code :
    ¬ ∀ (mode : FlattenMode) (shape : Shape) (ids : Allocator), ids.Covers shape.ids →
      ids.floor + mode.issued shape.splits < 2 ^ 64 →
        ((shape.lower mode .identity ids).text = Expression.neutralText ↔
          shape.drawn? .identity = none) := fun h => by
  have hcode := (h .inPlace (.custom Expression.neutralText .identity ⟨"1"⟩) ⟨1⟩
    (by decide +kernel) (by decide)).mp rfl
  cases hcode

end Shape

end SdfScene
