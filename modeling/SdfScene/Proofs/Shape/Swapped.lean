import SdfScene.Proofs.Shape.Search

/-!
# Trees that differ in one place

A change of the node that an id addresses leaves a tree that differs from the one before in
this place only. Whatever holds of such a pair of trees is proved along the way from the
root to the place: at the place itself, and from a child to its combinator.
-/

namespace SdfScene.Shape

/-- Two trees that differ in one place at most: where a search for an id ends in the first
of them, the second has another node. -/
inductive Swapped (wanted : NodeId) (old new : Shape) : Shape → Shape → Prop
  | root (hid : old.id = wanted) : Swapped wanted old new old new
  | inside {kind : CombinatorKind} {front back : List Shape} {child changed : Shape}
      {smoothness : Single} {transform : Transform} {id : NodeId} (hid : id ≠ wanted)
      (hfront : ∀ other ∈ front, other.find? wanted = none)
      (hchild : Swapped wanted old new child changed) :
      Swapped wanted old new
        (.combinator kind (front ++ child :: back) smoothness transform id)
        (.combinator kind (front ++ changed :: back) smoothness transform id)

/-! Lists in which the trees before the wanted node do not have its id. -/

private theorem exists_of_findIn? {wanted : NodeId} {node : Shape} {shapes : List Shape}
    (h : findIn? wanted shapes = some node) :
    ∃ front child back, shapes = front ++ child :: back ∧
      (∀ other ∈ front, other.find? wanted = none) ∧ child.find? wanted = some node := by
  induction shapes with
  | nil => cases h
  | cons shape shapes ih =>
    cases hshape : shape.find? wanted with
    | some found =>
      rw [findIn?, hshape, Option.some_or] at h
      exact ⟨[], shape, shapes, rfl, fun _ h => absurd h List.not_mem_nil, hshape.trans h⟩
    | none =>
      rw [findIn?, hshape, Option.none_or] at h
      obtain ⟨front, child, back, rfl, hfront, hchild⟩ := ih h
      exact ⟨shape :: front, child, back, rfl, List.forall_mem_cons.mpr ⟨hshape, hfront⟩, hchild⟩

private theorem findIn?_append {wanted : NodeId} {front : List Shape}
    (hfront : ∀ other ∈ front, other.find? wanted = none) (back : List Shape) :
    findIn? wanted (front ++ back) = findIn? wanted back := by
  induction front with
  | nil => rfl
  | cons other others ih =>
    obtain ⟨hother, hothers⟩ := List.forall_mem_cons.mp hfront
    rw [List.cons_append, findIn?, hother, Option.none_or, ih hothers]

private theorem updateIn?_append {wanted : NodeId} {change : Shape → Shape} {front : List Shape}
    (hfront : ∀ other ∈ front, other.find? wanted = none) (back : List Shape) :
    updateIn? wanted change (front ++ back) = (updateIn? wanted change back).map (front ++ ·) := by
  induction front with
  | nil => simp
  | cons other others ih =>
    obtain ⟨hother, hothers⟩ := List.forall_mem_cons.mp hfront
    rw [List.cons_append, updateIn?, update?_eq_none hother, ih hothers, Option.map_map]
    rfl

private theorem exists_swapped_root {wanted : NodeId} {shape node : Shape}
    (hid : shape.id = wanted) (h : shape.find? wanted = some node) (change : Shape → Shape) :
    ∃ changed, shape.update? wanted change = some changed ∧
      Swapped wanted node (change node) shape changed := by
  subst hid
  rw [find?_self, Option.some.injEq] at h
  subst h
  exact ⟨change shape, update?_self change shape, .root rfl⟩

/-- What is found can be changed, and the trees before and after differ in this place. -/
theorem exists_swapped {wanted : NodeId} {shape node : Shape}
    (h : shape.find? wanted = some node) (change : Shape → Shape) :
    ∃ changed, shape.update? wanted change = some changed ∧
      Swapped wanted node (change node) shape changed := by
  induction shape with
  | primitive body transform color id =>
    have hid := List.mem_singleton.mp (mem_nodes_of_find? h) ▸ id_of_find? h
    exact exists_swapped_root hid h change
  | custom content transform id =>
    have hid := List.mem_singleton.mp (mem_nodes_of_find? h) ▸ id_of_find? h
    exact exists_swapped_root hid h change
  | combinator kind children smoothness transform id ih =>
    by_cases hid : id = wanted
    · have hroot : (combinator kind children smoothness transform id).id = wanted := hid
      exact exists_swapped_root hroot h change
    · rw [find?, ite_cond_eq_false _ _ (eq_false hid)] at h
      obtain ⟨front, child, back, rfl, hfront, hchild⟩ := exists_of_findIn? h
      obtain ⟨changed, hupdate, hswapped⟩ :=
        ih child (List.mem_append_right _ List.mem_cons_self) hchild
      refine ⟨.combinator kind (front ++ changed :: back) smoothness transform id, ?_,
        .inside hid hfront hswapped⟩
      simp only [update?, hid, ite_false, updateIn?_append hfront, updateIn?, hupdate,
        Option.map_some]

namespace Swapped

variable {wanted : NodeId} {old new before after : Shape}

/-- In the first of the trees the old node is found. -/
theorem find?_old (h : Swapped wanted old new before after) : before.find? wanted = some old := by
  induction h with
  | root hid =>
    subst hid
    exact find?_self old
  | inside hid hfront _ ih =>
    rw [find?, ite_cond_eq_false _ _ (eq_false hid), findIn?_append hfront, findIn?, ih,
      Option.some_or]

/-- A change that makes the new node of the old one makes the second tree of the first. -/
theorem update?_eq (h : Swapped wanted old new before after) {change : Shape → Shape}
    (hchange : change old = new) : before.update? wanted change = some after := by
  induction h with
  | root hid =>
    subst hid
    rw [update?_self, hchange]
  | inside hid hfront _ ih =>
    simp only [update?, hid, ite_false, updateIn?_append hfront, updateIn?, ih, Option.map_some]

/-- Under the same id the two trees have the same place. -/
theorem symm (h : Swapped wanted old new before after) (hnew : new.id = wanted) :
    Swapped wanted new old after before := by
  induction h with
  | root _ => exact .root hnew
  | inside hid hfront _ ih => exact .inside hid hfront ih

/-- In the second of the trees the new node is found if it has the id. -/
theorem find?_new (h : Swapped wanted old new before after) (hnew : new.id = wanted) :
    after.find? wanted = some new :=
  (h.symm hnew).find?_old

/-- The place can be taken by any other node. -/
theorem exists_other (h : Swapped wanted old new before after) (hnew : new.id = wanted)
    (other : Shape) :
    ∃ later, Swapped wanted old other before later ∧ Swapped wanted new other after later := by
  induction h with
  | root hid => exact ⟨other, .root hid, .root hnew⟩
  | inside hid hfront _ ih =>
    obtain ⟨later, hbefore, hafter⟩ := ih
    exact ⟨_, .inside hid hfront hbefore, .inside hid hfront hafter⟩

/-- The roots have the same id if the nodes at the place have. -/
theorem id_eq (h : Swapped wanted old new before after) (hnew : new.id = wanted) :
    after.id = before.id := by
  cases h with
  | root hid => exact hnew.trans hid.symm
  | inside => rfl

/-- The same node at the place makes the same tree. -/
theorem eq_of_same (h : Swapped wanted old old before after) : after = before := by
  induction h with
  | root _ => rfl
  | inside _ _ _ ih => rw [ih]

/-- The nodes of the trees are the same before the place and behind it. -/
theorem exists_splice (h : Swapped wanted old new before after) :
    ∃ front back, before.trace = front ++ old.trace ++ back ∧
      after.trace = front ++ new.trace ++ back := by
  obtain ⟨front, back, hbefore, hchange⟩ := Shape.exists_splice h.find?_old
  obtain ⟨changed, hupdate, hafter⟩ := hchange fun _ => new
  rw [h.update?_eq rfl, Option.some.injEq] at hupdate
  exact ⟨front, back, hbefore, hupdate ▸ hafter⟩

/-- Whatever the nodes below the place have, what comes there comes to the whole tree. -/
private theorem flatMap_perm {α : Type} [DecidableEq α] (f : Shape → List α)
    (h : Swapped wanted old new before after) {come : List α}
    (hnew : (new.trace.flatMap f).Perm (old.trace.flatMap f ++ come)) :
    (after.trace.flatMap f).Perm (before.trace.flatMap f ++ come) := by
  obtain ⟨front, back, hbefore, hafter⟩ := h.exists_splice
  simp only [hbefore, hafter, List.flatMap_append, List.perm_iff_count, List.count_append]
    at hnew ⊢
  intro a
  have hcount := hnew a
  omega

/-- What the new node has in ids beyond the old one, the second tree has beyond the first. -/
theorem ids_perm (h : Swapped wanted old new before after) {issued : List NodeId}
    (hids : new.ids.Perm (old.ids ++ issued)) : after.ids.Perm (before.ids ++ issued) := by
  simp only [ids_eq_map_trace, List.map_eq_flatMap] at hids ⊢
  exact h.flatMap_perm _ hids

/-- So it is with numbers. -/
theorem numbers_perm (h : Swapped wanted old new before after) {given : List Single}
    (hnumbers : new.numbers.Perm (old.numbers ++ given)) :
    after.numbers.Perm (before.numbers ++ given) := by
  simp only [numbers_eq_flatMap_trace] at hnumbers ⊢
  exact h.flatMap_perm _ hnumbers

/-- Above the place, the children stay under their ids. -/
theorem child_ids_eq (h : Swapped wanted old new before after) (hnew : new.id = wanted)
    (habove : before.id ≠ wanted) :
    after.children?.map (List.map Shape.id) = before.children?.map (List.map Shape.id) := by
  cases h with
  | root hid => exact absurd hid habove
  | inside _ _ hchild =>
    simp only [children?, Option.map_some, List.map_append, List.map_cons, hchild.id_eq hnew]

/-- The nodes of the new subtree are in the second tree. -/
theorem nodes_new_subset (h : Swapped wanted old new before after) : new.nodes ⊆ after.nodes := by
  induction h with
  | root _ => exact List.Subset.refl _
  | inside _ _ _ ih =>
    intro node hnode
    rw [nodes_combinator, List.flatMap_append, List.flatMap_cons]
    exact List.mem_cons_of_mem _ (List.mem_append_right _ (List.mem_append_left _ (ih hnode)))

/-- A node of the first tree is in the old subtree, or it is in the second tree as well, or
the place is below it and it differs there. -/
theorem node_cases (h : Swapped wanted old new before after) {node : Shape}
    (hnode : node ∈ before.nodes) :
    node ∈ old.nodes ∨ node ∈ after.nodes ∨
      ∃ later ∈ after.nodes, later.bare = node.bare ∧ Swapped wanted old new node later := by
  induction h with
  | root _ => exact Or.inl hnode
  | @inside kind front back child changed smoothness transform id hid hfront hchild ih =>
    rw [nodes_combinator, List.flatMap_append, List.flatMap_cons] at hnode ⊢
    rcases List.mem_cons.mp hnode with rfl | hbelow
    · exact Or.inr (Or.inr ⟨_, List.mem_cons_self, rfl, .inside hid hfront hchild⟩)
    · rcases List.mem_append.mp hbelow with hmem | hmem
      · exact Or.inr (Or.inl (List.mem_cons_of_mem _ (List.mem_append_left _ hmem)))
      · rcases List.mem_append.mp hmem with hmem | hmem
        · rcases ih hmem with hin | hin | ⟨later, hin, hbare, hswapped⟩
          · exact Or.inl hin
          · exact Or.inr (Or.inl (List.mem_cons_of_mem _
              (List.mem_append_right _ (List.mem_append_left _ hin))))
          · exact Or.inr (Or.inr ⟨later, List.mem_cons_of_mem _
              (List.mem_append_right _ (List.mem_append_left _ hin)), hbare, hswapped⟩)
        · exact Or.inr (Or.inl (List.mem_cons_of_mem _
            (List.mem_append_right _ (List.mem_append_right _ hmem))))

end Swapped

section Appended

variable {node : Shape} {children : List Shape} (hchildren : node.children? = some children)
  (new : Shape)

include hchildren

theorem ids_appended : (node.withChildren (children ++ [new])).ids = node.ids ++ new.ids := by
  rw [ids_eq_cons, ids_eq_cons node, id_withChildren, children?_withChildren hchildren, hchildren]
  simp

theorem numbers_appended :
    (node.withChildren (children ++ [new])).numbers = node.numbers ++ new.numbers := by
  have hown : (node.withChildren (children ++ [new])).ownNumbers = node.ownNumbers := by
    cases node <;> rfl
  rw [numbers_eq_append, numbers_eq_append node, hown, children?_withChildren hchildren, hchildren]
  simp [numbersIn]

/-- A child that is appended below a node comes in with its ids and its numbers and takes none
away. -/
theorem exists_appended {wanted : NodeId} {shape : Shape}
    (hnode : shape.find? wanted = some node) :
    ∃ changed, shape.update? wanted (withChildren (children ++ [new])) = some changed ∧
      changed.ids.Perm (shape.ids ++ new.ids) ∧
      changed.numbers.Perm (shape.numbers ++ new.numbers) ∧ new ∈ changed.nodes := by
  obtain ⟨changed, hupdate, hswapped⟩ := exists_swapped hnode (withChildren (children ++ [new]))
  have hnew : new ∈ (node.withChildren (children ++ [new])).nodes :=
    mem_nodes_of_children? (children?_withChildren hchildren _) new
      (List.mem_append_right _ List.mem_cons_self)
  exact ⟨changed, hupdate, hswapped.ids_perm (ids_appended hchildren new ▸ List.Perm.refl _),
    hswapped.numbers_perm (numbers_appended hchildren new ▸ List.Perm.refl _),
    hswapped.nodes_new_subset hnew⟩

end Appended

end SdfScene.Shape
