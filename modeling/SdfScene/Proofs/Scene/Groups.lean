import SdfScene.Proofs.Scene.Tree
import SdfScene.Proofs.Shape.Swapped

/-!
# Groups in a scene

A group that is taken from a scene, changed and put back changes the children of one
combinator. So changes of one group can follow each other as if they were one, and where the
children of a combinator have distinct ids, a child that was taken out leaves its id to
another one.
-/

namespace SdfScene

open Shape

namespace Scene

/-! A group that was put into a scene. -/

/-- A group of the scene is that of a combinator, and putting another one in its place changes
the combinator's children. -/
theorem exists_swapped_group {scene : Scene} {parent : NodeId} {group : Group}
    (h : scene.group parent = .ok group) :
    ∃ node, node.id = parent ∧ node.children? = some group.children ∧
      ∀ children, Swapped parent node (node.withChildren children) scene.tree
        (scene.withGroup ⟨parent, children⟩).tree := by
  obtain ⟨-, node, hnode, hchildren⟩ := exists_combinator_of_group h
  refine ⟨node, id_of_find? hnode, hchildren, fun children => ?_⟩
  obtain ⟨changed, hupdate, hswapped⟩ := exists_swapped hnode (withChildren children)
  rw [tree_withGroup, hupdate, Option.getD_some]
  exact hswapped

/-- The children of a combinator are a group of the scene. -/
theorem group_of_find? {scene : Scene} {parent : NodeId} {node : Shape} {children : List Shape}
    (hnode : scene.tree.find? parent = some node) (hchildren : node.children? = some children) :
    scene.group parent = .ok ⟨parent, children⟩ := by
  by_cases hroot : parent = rootId
  · subst hroot
    have hself : some scene.tree = some node := (find?_self scene.tree).symm.trans hnode
    rw [← Option.some.inj hself] at hchildren
    simp only [group, ite_true, Option.some.inj hchildren]
  · rw [find?_tree hroot] at hnode
    simp only [group, hroot, ite_false, hnode, hchildren]

/-- A group that was put back is found again. -/
theorem group_withGroup {scene : Scene} {group other : Group}
    (h : scene.group other.id = .ok group) : (scene.withGroup other).group other.id = .ok other := by
  obtain ⟨node, hid, hnode, hput⟩ := exists_swapped_group h
  have hsame : (node.withChildren other.children).id = other.id := by rw [id_withChildren, hid]
  exact group_of_find? ((hput other.children).find?_new hsame)
    (children?_withChildren hnode other.children)

/-- Of two groups that are put back one after the other, the second one stays. -/
theorem withGroup_withGroup {scene : Scene} {group other later : Group}
    (h : scene.group other.id = .ok group) (hid : later.id = other.id) :
    (scene.withGroup other).withGroup later = scene.withGroup later := by
  obtain ⟨node, hnode, -, hput⟩ := exists_swapped_group h
  have hsame : (node.withChildren other.children).id = other.id := by rw [id_withChildren, hnode]
  obtain ⟨last, hdirect, hthrough⟩ :=
    (hput other.children).exists_other hsame (node.withChildren later.children)
  refine tree_injective ?_
  simp only [tree_withGroup _ later, hid, hdirect.update?_eq rfl,
    hthrough.update?_eq (withChildren_withChildren _ _ node), Option.getD_some]

/-- A group that is put back where it comes from changes nothing. -/
theorem withGroup_self {scene : Scene} {group : Group} (h : scene.group group.id = .ok group) :
    scene.withGroup group = scene := by
  obtain ⟨node, -, hnode, hput⟩ := exists_swapped_group h
  have hswapped := hput group.children
  rw [withChildren_self hnode] at hswapped
  exact tree_injective hswapped.eq_of_same

/-! Distinct children. -/

/-- The children of every combinator have distinct ids, as those of an ordered map have. -/
def Keyed (scene : Scene) : Prop :=
  ∀ parent group, scene.group parent = .ok group → (group.children.map Shape.id).Nodup

/-- Where ids are distinct, those of children are. -/
theorem keyed_of_nodup {scene : Scene} (hdistinct : scene.tree.ids.Nodup) : scene.Keyed := by
  intro parent group hgroup
  obtain ⟨-, node, hnode, hchildren⟩ := exists_combinator_of_group hgroup
  obtain ⟨front, back, htrace, -⟩ := exists_splice hnode
  rw [ids_eq_map_trace, htrace, trace_of_children? hchildren] at hdistinct
  simp only [List.map_append, List.map_cons, ← idsIn_eq_map_traceIn] at hdistinct
  exact nodup_map_id
    (List.nodup_cons.mp (List.nodup_append'.mp (List.nodup_append'.mp hdistinct).1).2.1).2

theorem Numbered.keyed {scene : Scene} {ids : Allocator} (h : scene.Numbered ids) :
    scene.Keyed :=
  keyed_of_nodup h.distinct

end Scene

namespace Shape

theorem map_id_eraseChild (id : NodeId) (children : List Shape) :
    (eraseChild id children).map Shape.id = (children.map Shape.id).erase id := by
  rw [List.erase_eq_eraseP', List.eraseP_map, eraseChild]
  rfl

theorem hasChild_iff_mem_map {id : NodeId} {children : List Shape} :
    hasChild id children ↔ id ∈ children.map Shape.id := by
  rw [hasChild_iff, List.mem_map]

end Shape

/-- A replacement that passes its checks takes out the child and then finds the id of the new
subtree free. -/
theorem Group.exists_replaced {group : Group} {old : NodeId} {new : Shape}
    (hdistinct : (group.children.map Shape.id).Nodup) (hold : hasChild old group.children)
    (hfree : ¬(new.id = group.id ∨ (new.id ≠ old ∧ hasChild new.id group.children))) :
    ∃ removal insertion, group.delete old = .ok removal ∧ removal.group.id = group.id ∧
      removal.group.insert new = .ok insertion ∧ insertion.group.id = group.id ∧
      group.replace old new =
        .ok ⟨removal.result, insertion.group, removal.events ++ insertion.events⟩ := by
  obtain ⟨hroot, hsibling⟩ := not_or.mp hfree
  obtain ⟨child, hchild⟩ : ∃ child, group.child? old = some child := by
    obtain ⟨child, hmem, hid⟩ := hasChild_iff.mp hold
    exact Option.isSome_iff_exists.mp (List.find?_isSome.mpr ⟨child, hmem, by simpa using hid⟩)
  have hgone : ¬ hasChild new.id (eraseChild old group.children) := by
    rw [hasChild_iff_mem_map, map_id_eraseChild]
    intro hmem
    by_cases hsame : new.id = old
    · exact hdistinct.not_mem_erase (hsame ▸ hmem)
    · exact hsibling ⟨hsame, hasChild_iff_mem_map.mpr (List.mem_of_mem_erase hmem)⟩
  have hinsert : ¬(hasChild new.id (eraseChild old group.children) ∨ group.id = new.id) :=
    not_or.mpr ⟨hgone, fun h => hroot h.symm⟩
  have hremoval : group.delete old = .ok ⟨child, ⟨group.id, eraseChild old group.children⟩,
      [⟨.deleted, group.id, child⟩]⟩ := by
    rw [delete, hchild]
  have hinsertion : insert ⟨group.id, eraseChild old group.children⟩ new =
      .ok (add ⟨group.id, eraseChild old group.children⟩ new) := by
    rw [insert, ite_cond_eq_false _ _ (eq_false hinsert)]
  refine ⟨_, _, hremoval, rfl, hinsertion, rfl, ?_⟩
  simp only [replace, hold, Bool.not_true, Bool.false_eq_true, hfree, ite_false, hremoval, bind,
    Except.bind, hinsertion]
  rfl

end SdfScene
