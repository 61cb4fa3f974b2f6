import SdfScene.Proofs.Scene.Groups
import SdfScene.Proofs.Scene.Origins
import SdfScene.Proofs.Scene.Preservation
import SdfScene.Proofs.Shape.Parents

/-!
# What an edit leaves alone

A structural edit changes the children of one combinator: some of them go, and what is new comes
behind those that stay. Every other node keeps its kind, its id, its own fields and the list of
its children, however deep in the tree the combinator is. In the list of all ids, depth first,
one block goes and another one comes at the end of the combinator's own block.
-/

namespace SdfScene

open Shape

namespace Shape

@[simp] theorem kind_ofKind (id : NodeId) (kind : Kind) : (ofKind id kind).kind = kind := by
  cases kind with
  | primitive kind => exact congrArg Kind.primitive (Primitive.kind_ofKind kind)
  | combinator => rfl
  | custom => rfl

/-- A new node has no children, whether or not it can have any. -/
@[simp] theorem childIds_ofKind (id : NodeId) (kind : Kind) : (ofKind id kind).childIds = [] := by
  cases kind <;> rfl

/-- Where a combinator got other children, every node that did not go with one of them is still
there, on its own as it was, and has its children in their order unless it is the combinator. -/
theorem Swapped.exists_kept {wanted : NodeId} {old before after node : Shape}
    {children others : List Shape}
    (h : Swapped wanted old (old.withChildren others) before after)
    (hchildren : old.children? = some children) (hnode : node ∈ before.nodes)
    (hstays : ∀ child ∈ children, node ∈ child.nodes → child ∈ others) :
    ∃ later ∈ after.nodes, later.bare = node.bare ∧
      (node.id ≠ wanted → later.childIds = node.childIds) := by
  have hid : (old.withChildren others).id = wanted := by
    rw [id_withChildren, id_of_find? h.find?_old]
  have hgiven := children?_withChildren hchildren others
  rcases h.node_cases hnode with hin | hin | ⟨later, hlater, hbare, hswapped⟩
  · rw [nodes_eq_cons, hchildren, Option.getD_some] at hin
    rcases List.mem_cons.mp hin with rfl | hbelow
    · refine ⟨_, h.nodes_new_subset (self_mem_nodes _), bare_withChildren others node, ?_⟩
      intro hne
      exact absurd (id_of_find? h.find?_old) hne
    · obtain ⟨child, hchild, hmem⟩ := List.mem_flatMap.mp hbelow
      have hkept := mem_nodes_of_children? hgiven child (hstays child hchild hmem)
      exact ⟨node, h.nodes_new_subset (nodes_subset_of_mem hkept hmem), rfl, fun _ => rfl⟩
  · exact ⟨node, hin, rfl, fun _ => rfl⟩
  · refine ⟨later, hlater, hbare, ?_⟩
    intro hne
    unfold childIds
    rw [← Option.getD_map (List.map Shape.id), ← Option.getD_map (List.map Shape.id),
      hswapped.child_ids_eq hid hne]

end Shape

namespace Scene

/-- In the list of all ids, depth first, the block of a combinator lost that of the children in
`out` from between others and got that of those in `into` at its end, and the rest stayed. -/
def MovesBlock (before after : Scene) (parent : NodeId) (front out back into : List Shape) : Prop :=
  ∃ head tail,
    before.tree.ids = head ++ parent :: (idsIn front ++ idsIn out ++ idsIn back) ++ tail ∧
    after.tree.ids = head ++ parent :: (idsIn front ++ idsIn back ++ idsIn into) ++ tail

/-- Between two scenes, the combinator under one id lost the children in `out` from between others
and got those in `into` behind them, and nothing else changed. -/
structure Framed (before after : Scene) (parent : NodeId) (front out back into : List Shape) :
    Prop where
  group_before : before.group parent = .ok ⟨parent, front ++ out ++ back⟩
  group_after : after.group parent = .ok ⟨parent, front ++ back ++ into⟩
  block : before.MovesBlock after parent front out back into
  kept : ∀ node ∈ before.tree.nodes, node.id ∉ idsIn out →
    ∃ later, after.tree.find? node.id = some later ∧ later.bare = node.bare ∧
      (node.id ≠ parent → later.childIds = node.childIds)

/-- Under an id there is a new node of a kind, with the defaults of the kind and no children. -/
structure HasNew (scene : Scene) (id : NodeId) (kind : Kind) : Prop where
  found : scene.find? id = some (.ofKind id kind)
  kind_eq : (Shape.ofKind id kind).kind = kind
  childless : (Shape.ofKind id kind).childIds = []

section Blocks

variable {before after : Scene} {parent : NodeId} {front out back into : List Shape}

/-- An id is there as often as before, but for those that went and those that came. -/
theorem MovesBlock.count_eq (h : before.MovesBlock after parent front out back into)
    (id : NodeId) :
    after.tree.ids.count id + (idsIn out).count id =
      before.tree.ids.count id + (idsIn into).count id := by
  obtain ⟨head, tail, hbefore, hafter⟩ := h
  rw [hbefore, hafter]
  simp only [List.count_append, List.count_cons]
  omega

/-- Where ids are distinct, one that does not come is there once at most. -/
theorem MovesBlock.count_le_one (h : before.MovesBlock after parent front out back into)
    (hdistinct : before.tree.ids.Nodup) {id : NodeId} (hid : id ∉ idsIn into) :
    after.tree.ids.count id ≤ 1 := by
  have hcount := h.count_eq id
  have honce := List.nodup_iff_count_le_one.mp hdistinct id
  have hnone : (idsIn into).count id = 0 := List.count_eq_zero.mpr hid
  omega

/-- A new node that came under an id that was not there is found under it. -/
theorem Framed.hasNew {id : NodeId} {kind : Kind}
    (h : before.Framed after parent front out back [.ofKind id kind])
    (hfresh : id ∉ before.tree.ids) : after.HasNew id kind := by
  refine ⟨?_, kind_ofKind id kind, childIds_ofKind id kind⟩
  have hne : id ≠ rootId := by
    intro hroot
    exact hfresh (hroot ▸ id_mem_ids before.tree)
  have hmem : ofKind id kind ∈ after.tree.nodes :=
    mem_nodes_of_group h.group_after _ (List.mem_append_right _ List.mem_cons_self)
  have honce : after.tree.ids.count id ≤ 1 := by
    have hcount := h.block.count_eq id
    rw [List.count_eq_zero.mpr hfresh, idsIn_cons, idsIn_nil, List.append_nil, ids_ofKind,
      List.count_singleton_self] at hcount
    omega
  rw [← find?_tree hne]
  simpa only [id_ofKind] using find?_of_count_le_one (by rwa [id_ofKind]) hmem

end Blocks

/-- The ids below a combinator are a block behind its own. -/
theorem exists_block {scene : Scene} {parent : NodeId} {group : Group}
    (hgroup : scene.group parent = .ok group) :
    ∃ head tail, scene.tree.ids = head ++ parent :: idsIn group.children ++ tail ∧
      ∀ children, (scene.withGroup ⟨group.id, children⟩).tree.ids =
        head ++ parent :: idsIn children ++ tail := by
  obtain ⟨front, node, back, rfl, hbefore, hafter⟩ := exists_splice_group hgroup
  refine ⟨front.map Shape.id, back.map Shape.id, ?_, fun children => ?_⟩
  · simp [ids_eq_map_trace, hbefore, idsIn_eq_map_traceIn]
  · simp [ids_eq_map_trace, hafter, idsIn_eq_map_traceIn]

/-- Where ids are distinct, other children of one combinator leave all else as it is, as long as
what comes has no id of what stays. -/
theorem framed_withGroup {scene : Scene} {parent : NodeId} {front out back into : List Shape}
    (hdistinct : scene.tree.ids.Nodup)
    (hgroup : scene.group parent = .ok ⟨parent, front ++ out ++ back⟩)
    (hfree : ∀ id ∈ idsIn into, id ∈ scene.tree.ids → id ∈ idsIn out) :
    scene.Framed (scene.withGroup ⟨parent, front ++ back ++ into⟩) parent front out back into := by
  obtain ⟨node, hid, hchildren, hput⟩ := exists_swapped_group hgroup
  have hblock : scene.MovesBlock (scene.withGroup ⟨parent, front ++ back ++ into⟩) parent front out
      back into := by
    obtain ⟨head, tail, hbefore, hafter⟩ := exists_block hgroup
    have hlater := hafter (front ++ back ++ into)
    simp only [idsIn_append] at hbefore hlater
    exact ⟨head, tail, hbefore, hlater⟩
  refine ⟨hgroup, group_withGroup hgroup, hblock, ?_⟩
  intro other hother hstays
  have hothers : ∀ child ∈ front ++ out ++ back, other ∈ child.nodes →
      child ∈ front ++ back ++ into := by
    intro child hchild hin
    rw [List.append_assoc, List.mem_append, List.mem_append] at hchild
    rcases hchild with hfront | hout | hback
    · exact List.mem_append_left _ (List.mem_append_left _ hfront)
    · exact absurd (ids_subset_idsIn hout (List.mem_map_of_mem hin)) hstays
    · exact List.mem_append_left _ (List.mem_append_right _ hback)
  obtain ⟨later, hmem, hbare, hsame⟩ :=
    (hput (front ++ back ++ into)).exists_kept hchildren hother hothers
  have hlaterid : later.id = other.id := by rw [← id_bare, hbare, id_bare]
  refine ⟨later, ?_, hbare, hsame⟩
  -- the id is not among those that come, so the node is the only one that has it
  have hnew : other.id ∉ idsIn into := by
    intro hin
    exact hstays (hfree _ hin (List.mem_map_of_mem hother))
  rw [← hlaterid]
  apply find?_of_count_le_one _ hmem
  rw [hlaterid]
  exact hblock.count_le_one hdistinct hnew

section Groups

variable {scene : Scene} {parent : NodeId} {group : Group}
  (hdistinct : scene.tree.ids.Nodup) (hgroup : scene.group parent = .ok group)

include hdistinct hgroup

/-- A subtree of new ids comes behind all children. -/
theorem framed_add {shape : Shape} (hfresh : ∀ id ∈ shape.ids, id ∉ scene.tree.ids) :
    scene.Framed (scene.withGroup (group.add shape).group) parent group.children [] [] [shape] := by
  obtain ⟨rfl, -⟩ := exists_combinator_of_group hgroup
  rw [Group.add_eq (hasChild_eq_false hgroup (hfresh _ (id_mem_ids shape)))]
  have hframed : scene.Framed (scene.withGroup ⟨group.id, group.children ++ [] ++ [shape]⟩)
      group.id group.children [] [] [shape] := by
    refine framed_withGroup hdistinct (by simpa using hgroup) fun id hid hmem => ?_
    rw [idsIn_cons, idsIn_nil, List.append_nil] at hid
    exact absurd hmem (hfresh id hid)
  rwa [List.append_nil] at hframed

/-- A child goes from between the others. -/
theorem framed_delete {id : NodeId} {change : GroupEdit Shape}
    (hdelete : group.delete id = .ok change) :
    change.result.id = id ∧ ∃ front back,
      scene.Framed (scene.withGroup change.group) parent front [change.result] back [] := by
  obtain ⟨rfl, -⟩ := exists_combinator_of_group hgroup
  obtain ⟨front, child, back, hchildren, hid, rfl⟩ := Group.delete_ok hdelete
  have hsplit : scene.group group.id = .ok ⟨group.id, front ++ [child] ++ back⟩ := by
    rw [hgroup, ← List.append_cons, ← hchildren]
  have hframed := framed_withGroup hdistinct hsplit fun id (hid : id ∈ idsIn []) =>
    absurd hid List.not_mem_nil
  rw [List.append_nil] at hframed
  exact ⟨hid, front, back, hframed⟩

/-- A child goes and a subtree of ids that are new, or those that go, comes behind the others. -/
theorem framed_replace {old : NodeId} {new : Shape} {change : GroupEdit Shape}
    (hreplace : group.replace old new = .ok change)
    (hfree : ∀ id ∈ new.ids, id ∈ scene.tree.ids → id ∈ change.result.ids) :
    change.result.id = old ∧ ∃ front back,
      scene.Framed (scene.withGroup change.group) parent front [change.result] back [new] := by
  obtain ⟨rfl, -⟩ := exists_combinator_of_group hgroup
  obtain ⟨front, child, back, hchildren, hid, rfl⟩ := Group.replace_ok hreplace
  have hsplit : scene.group group.id = .ok ⟨group.id, front ++ [child] ++ back⟩ := by
    rw [hgroup, ← List.append_cons, ← hchildren]
  refine ⟨hid, front, back, framed_withGroup hdistinct hsplit ?_⟩
  simpa using hfree

end Groups

end Scene

namespace Desk

/-- A structural edit of a scene of distinct ids, with numbers up to the floor, changes the
children of the combinator that it works on and nothing else. The child that it takes out is the
one under the given id, what it puts in comes behind the children that stay, and where it makes
a new node this is one of the given kind. -/
theorem edits_framed {desk : Desk} (hscene : desk.scene.Numbered desk.ids)
    (hroom : desk.ids.floor + 1 < 2 ^ 64) (parent : NodeId) :
    (∀ kind id after, desk.add kind parent = .ok (id, after) →
      (∃ front back, desk.scene.Framed after.scene parent front [] back [.ofKind id kind]) ∧
        after.scene.HasNew id kind) ∧
    (∀ shape id after, desk.insert shape parent = .ok (id, after) →
      ∃ front back, desk.scene.Framed after.scene parent front [] back [shape]) ∧
    (∀ child removed after, desk.delete child parent = .ok (removed, after) →
      removed.id = child ∧
        ∃ front back, desk.scene.Framed after.scene parent front [removed] back []) ∧
    (∀ old new removed after, desk.replace old new parent = .ok (removed, after) →
      removed.id = old ∧
        ∃ front back, desk.scene.Framed after.scene parent front [removed] back [new]) ∧
    (∀ child kind id after, desk.changeKind child kind parent = (.ok id, after) →
      (∃ removed, removed.id = child ∧ ∃ front back,
        desk.scene.Framed after.scene parent front [removed] back [.ofKind id kind]) ∧
        after.scene.HasNew id kind) := by
  have hdistinct := hscene.distinct
  have hnext := hscene.covered.next_notMem hroom
  refine ⟨fun kind id after h => ?_, fun shape id after h => ?_, fun child removed after h => ?_,
    fun old new removed after h => ?_, fun child kind id after h => ?_⟩
  · obtain rfl := add_id h
    obtain ⟨group, hgroup, hadd⟩ := Outcome.bind_eq_ok.mp h
    obtain ⟨-, rfl⟩ := Prod.mk.inj (Except.ok.inj hadd)
    have hframed := Scene.framed_add hdistinct hgroup fun id hid => by
      rw [ids_ofKind desk.ids.next.1 kind, List.mem_singleton] at hid
      exact hid ▸ hnext
    exact ⟨⟨_, _, hframed⟩, hframed.hasNew hnext⟩
  · have hfresh := notMem_of_insert h
    obtain ⟨_, -, hedit⟩ := Outcome.bind_eq_ok.mp h
    obtain ⟨group, change, hgroup, hinsert, hcommit⟩ := editGroup_ok hedit
    obtain ⟨-, rfl⟩ := Group.insert_ok hinsert
    obtain ⟨-, rfl⟩ := Prod.mk.inj hcommit
    exact ⟨_, _, Scene.framed_add hdistinct hgroup hfresh⟩
  · obtain ⟨group, change, hgroup, hdelete, hcommit⟩ := editGroup_ok h
    obtain ⟨rfl, rfl⟩ := Prod.mk.inj hcommit
    exact Scene.framed_delete hdistinct hgroup hdelete
  · have hfree := mem_of_replace hdistinct h
    obtain ⟨_, -, hedit⟩ := Outcome.bind_eq_ok.mp h
    obtain ⟨group, change, hgroup, hreplace, hcommit⟩ := editGroup_ok hedit
    obtain ⟨rfl, rfl⟩ := Prod.mk.inj hcommit
    exact Scene.framed_replace hdistinct hgroup hreplace hfree
  · obtain ⟨rfl, group, change, hgroup, hreplace, rfl⟩ := exists_replace_of_changeKind h
    obtain ⟨hid, front, back, hframed⟩ :=
      Scene.framed_replace hdistinct hgroup hreplace fun id hnew hmem => by
        rw [ids_ofKind, List.mem_singleton] at hnew
        exact absurd (hnew ▸ hmem) hnext
    exact ⟨⟨change.result, hid, front, back, hframed⟩, hframed.hasNew hnext⟩

/-- In a combinator below another one, each of the edits succeeds and leaves the others alone. -/
theorem edits_framed_of_nested :
    let group (id : NodeId) (children : List Shape) : Shape :=
      .combinator .union children .zero .identity id
    let leaf (id : NodeId) : Shape := .custom "c" .identity id
    let desk : Desk := ⟨.ofContent (group ⟨"1"⟩ [group ⟨"2"⟩ [leaf ⟨"3"⟩, leaf ⟨"4"⟩], leaf ⟨"5"⟩]),
      ⟨5⟩, []⟩
    (∃ after front back, desk.scene.Framed after ⟨"2"⟩ front [] back [.ofKind ⟨"6"⟩ .custom] ∧
      after.HasNew ⟨"6"⟩ .custom) ∧
    (∃ after front back, desk.scene.Framed after ⟨"2"⟩ front [] back [leaf ⟨"7"⟩]) ∧
    (∃ after front back, desk.scene.Framed after ⟨"2"⟩ front [leaf ⟨"3"⟩] back []) ∧
    (∃ after front back, desk.scene.Framed after ⟨"2"⟩ front [leaf ⟨"3"⟩] back [leaf ⟨"3"⟩]) ∧
    (∃ after removed front back, desk.scene.Framed after ⟨"2"⟩ front [removed] back
      [.ofKind ⟨"6"⟩ .custom] ∧ removed.id = ⟨"3"⟩) := by
  intro group leaf desk
  have hscene : desk.scene.Numbered desk.ids := ⟨by decide +kernel, by decide +kernel⟩
  obtain ⟨hadd, hinsert, hdelete, hreplace, hchange⟩ :=
    edits_framed hscene (by decide) ⟨"2"⟩
  obtain ⟨⟨_, _, hadded⟩, hnew⟩ := hadd .custom ⟨"6"⟩ _ rfl
  obtain ⟨_, _, hinserted⟩ := hinsert (leaf ⟨"7"⟩) ⟨"7"⟩ _ rfl
  obtain ⟨-, _, _, hdeleted⟩ := hdelete ⟨"3"⟩ (leaf ⟨"3"⟩) _ rfl
  obtain ⟨-, _, _, hreplaced⟩ := hreplace ⟨"3"⟩ (leaf ⟨"3"⟩) (leaf ⟨"3"⟩) _ rfl
  obtain ⟨⟨_, hid, _, _, hchanged⟩, -⟩ := hchange ⟨"3"⟩ .custom ⟨"6"⟩ _ rfl
  exact ⟨⟨_, _, _, hadded, hnew⟩, ⟨_, _, _, hinserted⟩, ⟨_, _, _, hdeleted⟩, ⟨_, _, _, hreplaced⟩,
    ⟨_, _, _, _, hchanged, hid⟩⟩

end Desk

end SdfScene
