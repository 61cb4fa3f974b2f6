import SdfScene.Proofs.Scene.Edits
import SdfScene.Proofs.Shape.Fields

/-!
# Edits keep scenes well-formed

An exchange keeps a scene well-formed if what comes is sound and takes no id that stays.
New nodes come under ids above the floor, detached subtrees come after a check of their
ids, and what a replacement takes out is the very subtree that its check left out.
-/

namespace SdfScene

open Shape Event

namespace Shape

/-- The defaults of every kind are finite. -/
theorem isFinite_of_mem_ofKind (id : NodeId) (kind : Kind) :
    ∀ x ∈ (ofKind id kind).numbers, x.isFinite := by
  have hall : ∀ kind ∈ Kind.all, ∀ x ∈ (ofKind ⟨""⟩ kind).numbers, x.isFinite := by
    decide +kernel
  have hkind : kind ∈ Kind.all := by
    cases kind with
    | primitive body => cases body <;> decide
    | combinator operation => cases operation <;> decide
    | custom => decide
  have hid : (ofKind id kind).numbers = (ofKind ⟨""⟩ kind).numbers := by
    cases kind <;> rfl
  exact hid ▸ hall kind hkind

/-- A new node has its own id only. -/
@[simp] theorem ids_ofKind (id : NodeId) (kind : Kind) : (ofKind id kind).ids = [id] := by
  cases kind <;> rfl

/-- A new node under the next id is sound for the raised allocator. -/
theorem sound_ofKind_next (ids : Allocator) (kind : Kind) (hroom : ids.floor + 1 < 2 ^ 64) :
    (ofKind ids.next.1 kind).Sound ids.next.2 := by
  have hids : (ofKind ids.next.1 kind).ids = ids.upcoming 1 := ids_ofKind _ _
  refine ⟨hids ▸ ids.nodup_upcoming 1, hids ▸ Allocator.covers_upcoming hroom, ?_⟩
  exact isFinite_of_mem_ofKind _ kind

/-- A subtree of a list of sound nodes is sound. -/
theorem NodesSound.of_mem {ids : Allocator} {shapes : List Shape} {shape : Shape}
    (h : NodesSound ids (traceIn shapes)) (hshape : shape ∈ shapes) : shape.Sound ids := by
  refine nodesSound_trace.mp (h.sublist ?_)
  rw [traceIn, List.flatMap_def]
  exact List.sublist_flatten_of_mem (List.mem_map_of_mem hshape)

end Shape

namespace Scene

/-- The ids of a subtree that does not clash are new, those of what it replaces apart. -/
theorem replaced_of_clash?_eq_none {scene : Scene} {shape : Shape}
    {replacing : Option NodeId} (h : scene.clash? shape replacing = none) {id : NodeId}
    (hid : id ∈ shape.ids) (htaken : id ∈ scene.tree.ids) :
    ∃ old, replacing.bind scene.find? = some old ∧ id ∈ old.ids := by
  have hfree := List.find?_eq_none.mp h id hid
  rw [← contains_iff] at htaken
  simpa [htaken, Option.any_eq_true, Shape.contains_iff] using hfree

/-- A scene that displays a sound shape without the id of the root is well-formed. -/
theorem wellFormed_ofContent {shape : Shape} {ids : Allocator} (hshape : shape.Sound ids)
    (hroot : rootId ∉ shape.ids) : (ofContent shape).WellFormed ids := by
  refine ⟨?_, ?_, ?_⟩ <;> simp only [ofContent, idsIn_cons, idsIn_nil, numbersIn_cons,
    numbersIn_nil, List.append_nil]
  · exact List.nodup_cons.mpr ⟨hroot, hshape.distinct⟩
  · exact hshape.covered
  · exact hshape.finite

namespace WellFormed

variable {scene : Scene} {ids later : Allocator}

/-- A subtree of a well-formed scene is sound. -/
theorem sound_of_find? {id : NodeId} {node : Shape} (h : scene.WellFormed ids)
    (hnode : scene.find? id = some node) : node.Sound ids :=
  (wellFormed_iff.mp h).of_find? (h.find?_tree hnode).2

/-- A node that is found can be changed into a sound one that takes no id outside it. -/
theorem update {id : NodeId} {node changed : Shape} (h : scene.WellFormed ids)
    (hnode : scene.find? id = some node) (hle : ids.floor ≤ later.floor)
    (hchanged : changed.Sound later)
    (hids : ∀ id ∈ changed.ids, id ∈ scene.tree.ids → id ∈ node.ids) :
    (scene.update id fun _ => changed).WellFormed later := by
  obtain ⟨hroot, hfound⟩ := h.find?_tree hnode
  rw [wellFormed_iff, tree_update hroot]
  exact (wellFormed_iff.mp h).update hfound hle hchanged hids

private theorem trace_of_content? {shape : Shape} (hcontent : scene.content? = some shape) :
    scene.tree.trace = [scene.tree.bare] ++ shape.trace ++ traceIn scene.shapes.tail := by
  obtain ⟨shapes⟩ := scene
  obtain ⟨others, rfl⟩ := List.head?_eq_some_iff.mp hcontent
  rw [trace_eq_cons]
  rfl

/-- The displayed shape of a well-formed scene is sound. -/
theorem sound_of_content? {shape : Shape} (h : scene.WellFormed ids)
    (hcontent : scene.content? = some shape) : shape.Sound ids :=
  (wellFormed_iff.mp h).of_trace (trace_of_content? hcontent)

/-- The displayed shape can be changed into a sound one that takes no id outside it. -/
theorem withContent {shape changed : Shape} (h : scene.WellFormed ids)
    (hcontent : scene.content? = some shape) (hle : ids.floor ≤ later.floor)
    (hchanged : changed.Sound later)
    (hids : ∀ id ∈ changed.ids, id ∈ scene.tree.ids → id ∈ shape.ids) :
    (scene.withContent changed).WellFormed later := by
  rw [wellFormed_iff]
  exact (wellFormed_iff.mp h).splice (trace_of_content? hcontent) (trace_of_content? rfl) hle
    hchanged hids

end WellFormed

end Scene

namespace Desk

/-- An edit keeps a scene well-formed if what it adds is sound and takes no id that
stays. -/
theorem Edits.wellFormed {before after : Desk} {events : List Event}
    (h : Edits before after events) (hscene : before.scene.WellFormed before.ids)
    (hle : before.ids.floor ≤ after.ids.floor)
    (hnew : NodesSound after.ids (traceIn (arrived events)))
    (hclash : ∀ id ∈ idsIn (arrived events), id ∈ before.scene.tree.ids →
      id ∈ idsIn (departed events)) :
    after.scene.WellFormed after.ids := by
  rw [Scene.wellFormed_iff, ← nodesSound_trace] at hscene ⊢
  refine h.exchanged.sound hscene hle hnew fun id hid hmem => ?_
  rw [← idsIn_eq_map_traceIn] at hid ⊢
  exact hclash id hid (ids_eq_map_trace _ ▸ hmem)

/-- What an edit of a well-formed scene takes out is sound. -/
theorem Edits.sound_departed {before after : Desk} {events : List Event}
    (h : Edits before after events) (hscene : before.scene.WellFormed before.ids) :
    ∀ shape ∈ departed events, shape.Sound before.ids := by
  rw [Scene.wellFormed_iff, ← nodesSound_trace] at hscene
  exact fun shape hshape => (h.exchanged.sound_old hscene).of_mem hshape

/-- No id that the allocator will issue next is in a well-formed scene. -/
theorem next_notMem {desk : Desk} (hscene : desk.scene.WellFormed desk.ids)
    (hroom : desk.ids.floor + 1 < 2 ^ 64) : desk.ids.next.1 ∉ desk.scene.tree.ids :=
  (Scene.wellFormed_iff.mp hscene).covered.next_notMem hroom

/-- A new node keeps the scene well-formed, whether or not it takes the place of others. -/
private theorem wellFormed_ofKind_next {desk after : Desk} {events : List Event} {kind : Kind}
    (hscene : desk.scene.WellFormed desk.ids) (hroom : desk.ids.floor + 1 < 2 ^ 64)
    (hids : after.ids = desk.ids.next.2) (hedits : Edits desk after events)
    (harrived : arrived events = [ofKind desk.ids.next.1 kind]) :
    after.scene.WellFormed after.ids := by
  refine hedits.wellFormed hscene (hids ▸ Nat.le_succ _) ?_ ?_
  · rw [hids, harrived, traceIn_cons, traceIn_nil, List.append_nil, nodesSound_trace]
    exact sound_ofKind_next desk.ids kind hroom
  · intro id hid hmem
    rw [harrived, idsIn_cons, idsIn_nil, List.append_nil, ids_ofKind, List.mem_singleton] at hid
    exact absurd (hid ▸ hmem) (next_notMem hscene hroom)

theorem wellFormed_add {desk after : Desk} {kind : Kind} {parent id : NodeId}
    (hscene : desk.scene.WellFormed desk.ids) (hroom : desk.ids.floor + 1 < 2 ^ 64)
    (h : desk.add kind parent = .ok (id, after)) : after.scene.WellFormed after.ids := by
  obtain ⟨hids, hedits⟩ := add_ok h
  exact wellFormed_ofKind_next hscene hroom hids (hedits (next_notMem hscene hroom)) rfl

theorem wellFormed_changeKind {desk after : Desk} {child parent id : NodeId} {kind : Kind}
    (hscene : desk.scene.WellFormed desk.ids) (hroom : desk.ids.floor + 1 < 2 ^ 64)
    (h : desk.changeKind child kind parent = (.ok id, after)) :
    after.scene.WellFormed after.ids := by
  obtain ⟨old, -, hids, hedits⟩ := changeKind_ok h
  exact wellFormed_ofKind_next hscene hroom hids hedits rfl

/-- The check of an insertion leaves out nothing, so no id of the subtree is taken. -/
theorem notMem_of_insert {desk after : Desk} {shape : Shape} {parent id : NodeId}
    (h : desk.insert shape parent = .ok (id, after)) :
    ∀ taken ∈ shape.ids, taken ∉ desk.scene.tree.ids := by
  intro taken hid hmem
  obtain ⟨old, hold, -⟩ := Scene.replaced_of_clash?_eq_none (insert_ok h).1 hid hmem
  cases hold

theorem wellFormed_insert {desk after : Desk} {shape : Shape} {parent id : NodeId}
    (hscene : desk.scene.WellFormed desk.ids) (hshape : shape.Sound desk.ids)
    (h : desk.insert shape parent = .ok (id, after)) : after.scene.WellFormed after.ids := by
  obtain ⟨-, hids, hedits⟩ := insert_ok h
  refine hedits.wellFormed hscene (hids ▸ Nat.le_refl _) ?_ ?_
  · simpa [hids, nodesSound_trace] using hshape
  · intro taken hid hmem
    simp only [arrived_added, arrived_nil, idsIn_cons, idsIn_nil, List.append_nil] at hid
    exact absurd hmem (notMem_of_insert h taken hid)

theorem wellFormed_delete {desk after : Desk} {child : Shape} {id parent : NodeId}
    (hscene : desk.scene.WellFormed desk.ids) (h : desk.delete id parent = .ok (child, after)) :
    after.scene.WellFormed after.ids := by
  obtain ⟨-, hids, hedits⟩ := delete_ok h
  refine hedits.wellFormed hscene (hids ▸ Nat.le_refl _) (NodesSound.nil _) ?_
  exact fun taken hid => absurd hid List.not_mem_nil

/-- The check of a replacement leaves out the node under the old id, and where ids are
distinct this is the child that is taken out. -/
theorem mem_of_replace {desk after : Desk} {child new : Shape} {old parent : NodeId}
    (hdistinct : desk.scene.tree.ids.Nodup)
    (h : desk.replace old new parent = .ok (child, after)) :
    ∀ taken ∈ new.ids, taken ∈ desk.scene.tree.ids → taken ∈ child.ids := by
  obtain ⟨hclash, hid, -, hedits⟩ := replace_ok h
  have hchild : child ∈ desk.scene.tree.nodes := hedits.departing child (by simp)
  have hfound : desk.scene.tree.find? old = some child :=
    hid ▸ find?_of_mem_nodes hdistinct hchild
  intro taken hmem htaken
  obtain ⟨node, hnode, hin⟩ := Scene.replaced_of_clash?_eq_none hclash hmem htaken
  have hsame := (Scene.find?_tree_of_nodup hdistinct hnode).2.symm.trans hfound
  exact Option.some.inj hsame ▸ hin

theorem wellFormed_replace {desk after : Desk} {child new : Shape} {old parent : NodeId}
    (hscene : desk.scene.WellFormed desk.ids) (hnew : new.Sound desk.ids)
    (h : desk.replace old new parent = .ok (child, after)) :
    after.scene.WellFormed after.ids := by
  obtain ⟨-, -, hids, hedits⟩ := replace_ok h
  refine hedits.wellFormed hscene (hids ▸ Nat.le_refl _) ?_ ?_
  · simpa [hids, nodesSound_trace] using hnew
  · intro taken hmem htaken
    simp only [arrived_deleted, arrived_added, arrived_nil, departed_deleted, departed_added,
      departed_nil, idsIn_cons, idsIn_nil, List.append_nil] at hmem ⊢
    exact mem_of_replace (Scene.wellFormed_iff.mp hscene).distinct h taken hmem htaken

theorem wellFormed_setField {desk after : Desk} {id : NodeId} {field text : String}
    {changed : Shape} (hscene : desk.scene.WellFormed desk.ids)
    (h : desk.setField id field text = .ok (changed, after)) :
    after.scene.WellFormed after.ids := by
  obtain ⟨⟨node, hnode, hset⟩, hids, -, hafter⟩ := setField_ok h
  rw [hids, hafter]
  refine hscene.update hnode (Nat.le_refl _)
    ((hscene.sound_of_find? hnode).setField hset) fun other hother _ => ?_
  exact ids_setField hset ▸ hother

end Desk

end SdfScene
