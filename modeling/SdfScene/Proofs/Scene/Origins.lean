import SdfScene.Proofs.Expression.Lowering
import SdfScene.Proofs.Scene.Preservation

/-!
# Where the ids of a scene come from

Whatever the ids in a scene are, what is done with it brings in no others than those of the
subtree that is put in and those that the allocator issues. Nothing is assumed about the ids
in use, so a new node may come under an id that is already taken: then another node may have
to give way, but still no other id comes in.
-/

namespace SdfScene

open Shape Event

/-! Lowering. -/

namespace Shape

private theorem origin_lowerRow (kind : CombinatorKind) (smoothness : Single)
    (transform : Transform) (ids : Allocator) (children : List Shape)
    (hchildren : ∀ child ∈ children, ∀ ids : Allocator,
      ∀ id ∈ (lower .inPlace transform child ids).tree.ids,
        id ∈ child.ids ∨ (lower .inPlace transform child ids).ids.Reached id) :
    ∀ id ∈ idsIn (lowerRow .inPlace kind smoothness transform children ids).tree,
      id ∈ idsIn children ∨
        (lowerRow .inPlace kind smoothness transform children ids).ids.Reached id := by
  induction children generalizing ids with
  | nil => exact fun _ h => absurd h List.not_mem_nil
  | cons first others ih =>
    obtain ⟨hfirst, hothers⟩ := List.forall_mem_cons.mp hchildren
    rcases others with _ | ⟨second, _ | ⟨third, others⟩⟩
    · intro id hid
      simp only [lowerRow, idsIn_cons, idsIn_nil, List.append_nil] at hid ⊢
      exact hfirst ids id hid
    · intro id hid
      simp only [lowerRow, idsIn_cons, idsIn_nil, List.append_nil, List.mem_append] at hid ⊢
      rcases hid with hid | hid
      · have hle := (lower_floor_bounds .inPlace second transform
          (lower .inPlace transform first ids).ids).1
        exact (hfirst ids id hid).imp Or.inl fun hreached => hreached.mono hle
      · exact (hothers second List.mem_cons_self _ id hid).imp Or.inr fun hreached => hreached
    · -- The floor rises from the split to the first child and on to the rest of the row.
      have hrow (between : Allocator) : between.floor ≤ (lowerRow .inPlace kind smoothness
          transform (second :: third :: others) between).ids.floor :=
        (lower_floor_bounds .inPlace
          (.combinator kind (second :: third :: others) smoothness transform first.id)
          transform between).1
      by_cases hlost : first.id = ids.next.1
      · have hrest := ih ids.next.2 hothers
        have htaken : first.id = NodeId.ofNumber (ids.floor + 1) := hlost
        simp only [lowerRow, Allocator.next, htaken, ite_true, FlattenMode.keep, List.nil_append,
          idsIn_cons, idsIn_nil, List.append_nil, ids_combinator] at hrest ⊢
        intro id hid
        rcases List.mem_cons.mp hid with rfl | hid
        · exact Or.inr (ids.reached_next.mono (hrow ids.next.2))
        · exact (hrest id hid).imp_left (List.mem_append_right _)
      · rw [lowerRow_wide _ _ _ _ _ _ _ _ hlost]
        simp only [FlattenMode.keep, idsIn_cons, idsIn_nil, List.append_nil, ids_combinator,
          List.mem_append, List.mem_cons]
        have hleft := hfirst ids.next.2
        have hup := (lower_floor_bounds .inPlace first transform ids.next.2).1
        have hright := ih (lower .inPlace transform first ids.next.2).ids hothers
        have hon := hrow (lower .inPlace transform first ids.next.2).ids
        rintro id (hid | rfl | hid)
        · exact (hleft id hid).imp Or.inl fun hreached => hreached.mono hon
        · exact Or.inr (ids.reached_next.mono (Nat.le_trans hup hon))
        · have horigin := hright id hid
          simp only [idsIn_cons, List.mem_append] at horigin
          exact horigin.imp_left Or.inr

/-- The ids of a lowered tree are those of the tree and some that were issued. -/
theorem origin_lower (mode : FlattenMode) (shape : Shape) (parent : Transform)
    (ids : Allocator) :
    ∀ id ∈ (lower mode parent shape ids).tree.ids,
      id ∈ shape.ids ∨ (lower mode parent shape ids).ids.Reached id := by
  cases mode with
  | transient =>
    rw [(lower_transient_keeps shape parent ids).1]
    exact fun id hid => Or.inl hid
  | inPlace =>
    induction shape generalizing parent ids with
    | primitive => exact fun id hid => Or.inl hid
    | custom => exact fun id hid => Or.inl hid
    | combinator kind children smoothness transform id ih =>
      have hrow := origin_lowerRow kind smoothness transform ids children
        fun child hchild ids => ih child hchild transform ids
      simp only [lower, ids_combinator, List.mem_cons]
      rintro other (rfl | hother)
      · exact Or.inl (Or.inl rfl)
      · exact (hrow other hother).imp_left Or.inr

/-- A child that is put among others takes the place of the one that has its id, if any. -/
theorem exchanged_putChild (child : Shape) (children : List Shape) :
    Exchanged (traceIn (children.find? fun other => other.id = child.id).toList) child.trace
      (traceIn children) (traceIn (putChild child children)) := by
  induction children with
  | nil => exact ⟨[], by simp, by simp [putChild]⟩
  | cons other others ih =>
    by_cases hid : other.id = child.id
    · refine ⟨traceIn others, ?_, ?_⟩
      · simp only [List.find?_cons, hid, decide_true, Option.toList_some, traceIn_cons,
          traceIn_nil, List.append_nil]
        exact List.perm_append_comm
      · rw [putChild, if_pos hid, traceIn_cons]
        exact List.perm_append_comm
    · have hbelow := ih.within other.trace []
      rw [List.append_nil, List.append_nil, ← traceIn_cons, ← traceIn_cons] at hbelow
      rw [putChild, if_neg hid, List.find?_cons_of_neg (by simpa using hid)]
      exact hbelow

end Shape

/-! Changes of a scene. -/

namespace Scene

variable {scene : Scene} {ids : Allocator}

/-- The ids of a node that is found are ids of the scene. -/
theorem ids_subset_of_find? {id : NodeId} {node : Shape} (h : scene.find? id = some node) :
    node.ids ⊆ scene.tree.ids := by
  obtain ⟨front, back, htrace, -⟩ := exists_splice_list h
  intro other hother
  rw [ids_tree, idsIn_eq_map_traceIn, htrace, List.map_append, List.map_append,
    ← ids_eq_map_trace]
  exact List.mem_cons_of_mem _ (List.mem_append_left _ (List.mem_append_right _ hother))

/-- A node that is changed brings in its own ids only. -/
theorem mem_ids_update {id other : NodeId} {changed : Shape}
    (h : other ∈ (scene.update id fun _ => changed).tree.ids) :
    other ∈ scene.tree.ids ∨ other ∈ changed.ids := by
  simp only [ids_tree, update, List.mem_cons] at h ⊢
  rcases h with rfl | h
  · exact Or.inl (Or.inl rfl)
  cases hnode : findIn? id scene.shapes with
  | none =>
    rw [updateIn?_eq_none_of_notMem hnode, Option.getD_none] at h
    exact Or.inl (Or.inr h)
  | some node =>
    obtain ⟨front, back, htrace, hchange⟩ := exists_splice_list hnode
    obtain ⟨shapes, hupdate, hafter⟩ := hchange fun _ => changed
    rw [hupdate, Option.getD_some, idsIn_eq_map_traceIn, hafter] at h
    rw [idsIn_eq_map_traceIn, htrace, ids_eq_map_trace]
    simp only [List.map_append, List.mem_append] at h ⊢
    tauto

/-- Another displayed shape brings in its own ids only. -/
theorem mem_ids_withContent {other : NodeId} {content : Shape}
    (h : other ∈ (scene.withContent content).tree.ids) :
    other ∈ scene.tree.ids ∨ other ∈ content.ids := by
  simp only [ids_tree, withContent, idsIn_cons, List.mem_cons, List.mem_append] at h ⊢
  rcases h with rfl | h | h
  · exact Or.inl (Or.inl rfl)
  · exact Or.inr h
  · obtain ⟨shape, hshape, hid⟩ := List.mem_flatMap.mp h
    exact Or.inl (Or.inr (List.mem_flatMap.mpr ⟨shape, List.mem_of_mem_tail hshape, hid⟩))

/-- The ids of a scene whose displayed shape was lowered are those of the scene and some that
were issued. -/
theorem origin_lowerContent (mode : FlattenMode) :
    ∀ id ∈ (scene.lowerContent mode ids).tree.tree.ids,
      id ∈ scene.tree.ids ∨ (scene.lowerContent mode ids).ids.Reached id := by
  rw [lowerContent]
  split
  · exact fun id hid => Or.inl hid
  · next shape hcontent =>
    intro id hid
    rcases mem_ids_withContent hid with hid | hid
    · exact Or.inl hid
    · have hmem : shape ∈ scene.shapes := List.mem_of_mem_head? hcontent
      refine (origin_lower mode shape .identity ids id hid).imp_left fun hid => ?_
      rw [ids_tree]
      exact List.mem_cons_of_mem _ (ids_subset_idsIn hmem hid)

/-- The same holds of lowering any node. -/
theorem origin_lower {mode : FlattenMode} {id : Option NodeId} {lowered : Lowered Scene}
    (h : scene.lower mode id ids = .ok lowered) :
    ∀ id ∈ lowered.tree.tree.ids, id ∈ scene.tree.ids ∨ lowered.ids.Reached id := by
  rw [lower] at h
  split at h
  · cases h
    exact origin_lowerContent mode
  · split at h
    · cases h
    · next wanted _ node hnode =>
      cases h
      intro id hid
      rcases mem_ids_update hid with hid | hid
      · exact Or.inl hid
      · exact (Shape.origin_lower mode node .identity ids id hid).imp_left
          fun hid => ids_subset_of_find? hnode hid

end Scene

/-! Edits. -/

namespace Desk

/-- What an edit brings in are the ids of the subtrees that came. -/
theorem Edits.mem_ids {before after : Desk} {events : List Event} (h : Edits before after events)
    {id : NodeId} (hid : id ∈ after.scene.tree.ids) :
    id ∈ before.scene.tree.ids ∨ id ∈ idsIn (arrived events) := by
  rw [ids_eq_map_trace] at hid ⊢
  rw [idsIn_eq_map_traceIn]
  exact h.exchanged.mem_ids hid

/-- Adding gives the next id, taken or not. -/
theorem add_id {desk after : Desk} {kind : Kind} {parent id : NodeId}
    (h : desk.add kind parent = .ok (id, after)) : id = desk.ids.next.1 := by
  obtain ⟨group, -, h⟩ := Outcome.bind_eq_ok.mp h
  obtain ⟨hid, -⟩ := Prod.mk.inj (Except.ok.inj h)
  exact hid.symm.trans (id_ofKind _ kind)

/-- A change of kind gives the next id as well. -/
theorem changeKind_id {desk after : Desk} {child parent id : NodeId} {kind : Kind}
    (h : desk.changeKind child kind parent = (.ok id, after)) : id = desk.ids.next.1 :=
  (exists_replace_of_changeKind h).1

/-- Adding exchanges the child of the combinator that has the new id, if there is one, with
everything below it for a new node. -/
theorem exchanged_add {desk after : Desk} {kind : Kind} {parent id : NodeId}
    (h : desk.add kind parent = .ok (id, after)) :
    ∃ group, desk.scene.group parent = .ok group ∧
      Exchanged (traceIn (group.child? id).toList) [ofKind id kind]
        desk.scene.tree.trace after.scene.tree.trace := by
  obtain rfl := add_id h
  obtain ⟨group, hgroup, h⟩ := Outcome.bind_eq_ok.mp h
  obtain ⟨-, hdesk⟩ := Prod.mk.inj (Except.ok.inj h)
  have hscene : after.scene = desk.scene.withGroup
      ⟨group.id, putChild (ofKind desk.ids.next.1 kind) group.children⟩ := hdesk ▸ rfl
  have htrace : (ofKind desk.ids.next.1 kind).trace = [ofKind desk.ids.next.1 kind] := by
    cases kind <;> rfl
  have hput := exchanged_putChild (ofKind desk.ids.next.1 kind) group.children
  rw [id_ofKind, htrace] at hput
  obtain ⟨front, node, back, -, hbefore, hafter⟩ := Scene.exists_splice_group hgroup
  refine ⟨group, hgroup, ?_⟩
  rw [hscene, hafter, hbefore]
  exact hput.within (front ++ [node]) back

/-- What adding brings in is the next id, taken or not. -/
theorem mem_ids_add {desk after : Desk} {kind : Kind} {parent id other : NodeId}
    (h : desk.add kind parent = .ok (id, after)) (hother : other ∈ after.scene.tree.ids) :
    other ∈ desk.scene.tree.ids ∨ other = id := by
  obtain ⟨group, -, hexchanged⟩ := exchanged_add h
  rw [ids_eq_map_trace] at hother ⊢
  refine (hexchanged.mem_ids hother).imp_right fun hnew => ?_
  rwa [List.map_singleton, id_ofKind, List.mem_singleton] at hnew

end Desk

end SdfScene
