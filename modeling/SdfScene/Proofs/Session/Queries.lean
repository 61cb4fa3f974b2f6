import Mathlib.Data.List.TFAE
import Mathlib.Tactic.TFAE
import SdfScene.Proofs.Scene.Groups
import SdfScene.Proofs.Session.Addressing
import SdfScene.Proofs.Session.Reinsertion

/-!
# The queries of a scene describe one tree

Whether an id is in a scene, which node it is that of, which combinator holds it and where it
stands in the depth-first list are four searches with orders of their own. Where ids are distinct
they agree, and a node is removed wherever it is exactly if one of them finds it.
-/

namespace SdfScene

open Shape

namespace Shape

private theorem nodes_sublist_flatMap {shape : Shape} {shapes : List Shape} (h : shape ∈ shapes) :
    shape.nodes.Sublist (shapes.flatMap nodes) := by
  rw [List.flatMap_def]
  exact List.sublist_flatten_of_mem (List.mem_map_of_mem h)

/-- The nodes of a node stand in the list of the tree in their order. -/
theorem nodes_sublist_of_mem {shape node : Shape} (hnode : node ∈ shape.nodes) :
    node.nodes.Sublist shape.nodes := by
  induction shape using childInduction with
  | step shape ih =>
    rw [nodes_eq_cons shape] at hnode ⊢
    rcases List.mem_cons.mp hnode with rfl | hbelow
    · rw [← nodes_eq_cons]
    · obtain ⟨child, hchild, hmem⟩ := List.mem_flatMap.mp hbelow
      exact .cons _ ((ih child hchild hmem).trans (nodes_sublist_flatMap hchild))

/-- Depth first, a combinator comes before its children. -/
theorem holder_before_child {shapes : List Shape} {holder child : Shape}
    (hholder : holder ∈ nodesIn shapes) (hchild : holder.Holds child) :
    [holder, child].Sublist (nodesIn shapes) := by
  rw [nodesIn_eq_flatMap] at hholder ⊢
  obtain ⟨shape, hshape, hmem⟩ := List.mem_flatMap.mp hholder
  have hbelow : child ∈ (holder.children?.getD []).flatMap nodes :=
    List.mem_flatMap.mpr ⟨child, hchild, self_mem_nodes child⟩
  have hpair : [holder, child].Sublist holder.nodes := by
    rw [nodes_eq_cons holder]
    exact .cons_cons _ (List.singleton_sublist.mpr hbelow)
  exact hpair.trans ((nodes_sublist_of_mem hmem).trans (nodes_sublist_flatMap hshape))

/-- What holds a child is a combinator with the child between others. -/
theorem Holds.exists_children {holder child : Shape} (h : holder.Holds child) :
    ∃ front back, holder.children? = some (front ++ child :: back) := by
  unfold Holds at h
  cases hchildren : holder.children? with
  | none => simp [hchildren] at h
  | some children =>
    rw [hchildren, Option.getD_some] at h
    obtain ⟨front, back, rfl⟩ := List.append_of_mem h
    exact ⟨front, back, rfl⟩

end Shape

namespace Scene

/-- A node is the only one with its id, and one combinator or the root is the only one that has
the id among those of its children. -/
structure Places (scene : Scene) (node holder : Shape) : Prop where
  found : scene.find? node.id = some node
  only : ∀ other ∈ nodesIn scene.shapes, other.id = node.id → other = node
  parent : scene.parent? node.id = some holder.id
  holder_mem : holder ∈ scene.tree.nodes
  holds : holder.Holds node
  holder_only : ∀ other ∈ scene.tree.nodes, node.id ∈ other.childIds → other = holder

/-- Apart from the root, a node is looked for in the shapes. -/
theorem contains_iff_find? {scene : Scene} {id : NodeId} (hne : id ≠ rootId) :
    scene.contains id ↔ ∃ node, scene.find? id = some node := by
  simp [contains, hne, Option.isSome_iff_exists]

/-- A node is found exactly under the ids of the depth-first list. -/
theorem exists_find?_iff {scene : Scene} {id : NodeId} :
    (∃ node, scene.find? id = some node) ↔ id ∈ (nodesIn scene.shapes).map Shape.id := by
  rw [← idsIn_eq_map_nodesIn, ← isSome_findIn?, Option.isSome_iff_exists]
  rfl

/-- A parent is found exactly for the ids of the depth-first list. -/
theorem exists_parent?_iff {scene : Scene} {id : NodeId} :
    (∃ parent, scene.parent? id = some parent) ↔ id ∈ (nodesIn scene.shapes).map Shape.id := by
  have hbelow : id ∈ idsIn scene.shapes ↔ ∃ holder ∈ scene.tree.nodes, id ∈ holder.childIds := by
    rw [← List.mem_flatMap]
    exact (idsIn_children_perm scene.tree).mem_iff
  rw [← idsIn_eq_map_nodesIn, hbelow, ← Option.isSome_iff_exists, ← parent?_tree,
    parent?_eq_find?_nodes, Option.isSome_map, List.find?_isSome]
  simp only [hasChild_iff_mem_map, childIds]

/-- Where ids are distinct, what is found has its place. -/
theorem exists_places {scene : Scene} (hdistinct : (idsIn scene.shapes).Nodup) {node : Shape}
    (hnode : node ∈ nodesIn scene.shapes) : ∃ holder, scene.Places node holder := by
  obtain ⟨hfound, -, holder, hholder, hholds, hparent, -⟩ := finds_of_nodup hdistinct hnode
  refine ⟨holder, hfound, fun other hother hid => ?_, hparent, hholder, hholds,
    fun other hother hid => ?_⟩
  · have hsame := findIn?_of_mem_nodesIn hdistinct hother
    rw [hid] at hsame
    exact Option.some.inj (hsame.symm.trans hfound)
  · obtain ⟨twin, htwin, hid⟩ := List.mem_map.mp hid
    exact eq_of_holds scene.tree hdistinct hholder hother hholds htwin hid

end Scene

namespace Session

/-- In a scene of distinct ids, that of the root among them, the queries describe one tree. The
depth-first list has each id once and every combinator before its children. Any id but that of
the root is contained in the scene, found, in the list and below a parent, or nothing of this.
In the first case the node has its place there, and removing it deletes it from its parent; in
the other case nothing can be removed. -/
theorem queries_agree {session : Session} (hdistinct : session.desk.scene.tree.ids.Nodup) :
    let scene := session.desk.scene
    let walk := (nodesIn scene.shapes).map Shape.id
    (walk.Nodup ∧ ∀ holder ∈ nodesIn scene.shapes, ∀ child, holder.Holds child →
      [holder.id, child.id].Sublist walk) ∧
    ∀ id, id ≠ Scene.rootId →
      [scene.contains id = true, ∃ node, scene.find? id = some node, id ∈ walk,
        ∃ parent, scene.parent? id = some parent].TFAE ∧
      (scene.contains id → ∃ node holder after, node.id = id ∧ scene.Places node holder ∧
        session.remove id = (.ok node, after) ∧
          session.delete id holder.id = (.ok node, after)) ∧
      (¬ scene.contains id → session.remove id = (.error (.shapeNotFound id), session)) := by
  intro scene walk
  have hwalk : (idsIn scene.shapes).Nodup :=
    (List.nodup_cons.mp (Scene.ids_tree scene ▸ hdistinct)).2
  refine ⟨⟨?_, fun holder hholder child hchild => ?_⟩, fun id hne => ⟨?_, ?_, ?_⟩⟩
  · rwa [idsIn_eq_map_nodesIn] at hwalk
  · exact (holder_before_child hholder hchild).map Shape.id
  · tfae_have 1 ↔ 2 := Scene.contains_iff_find? hne
    tfae_have 2 ↔ 3 := Scene.exists_find?_iff
    tfae_have 4 ↔ 3 := Scene.exists_parent?_iff
    tfae_finish
  · intro hin
    obtain ⟨node, hnode⟩ := (Scene.contains_iff_find? hne).mp hin
    obtain ⟨-, hfound⟩ := Scene.find?_tree_of_nodup hdistinct hnode
    have hmem : node ∈ nodesIn scene.shapes := by
      rw [Scene.find?, findIn?_eq_find?_nodesIn] at hnode
      exact List.mem_of_find?_eq_some hnode
    obtain rfl := id_of_find? hfound
    obtain ⟨holder, hplaces⟩ := Scene.exists_places hwalk hmem
    obtain ⟨front, back, hchildren⟩ := hplaces.holds.exists_children
    have hdelete := Desk.delete_of_mem hdistinct hplaces.holder_mem hchildren
    have hedit : session.delete node.id holder.id = (.ok node, _) :=
      edit_eq_ok.mpr ⟨_, hdelete, rfl⟩
    refine ⟨node, holder, _, rfl, hplaces, ?_, hedit⟩
    rw [← hedit, remove, Desk.remove, hplaces.parent]
    rfl
  · intro hout
    have hnone : scene.parent? id = none := by
      rw [Option.eq_none_iff_forall_ne_some]
      intro parent hparent
      exact hout ((Scene.contains_iff_find? hne).mpr
        (Scene.exists_find?_iff.mpr (Scene.exists_parent?_iff.mp ⟨parent, hparent⟩)))
    rw [remove, Desk.remove, hnone]
    rfl

/-- In a scene with a group in another one, a leaf is found below the inner group and nothing
under an id of its own. -/
theorem queries_agree_of_nested :
    let group (id : NodeId) (children : List Shape) : Shape :=
      .combinator .union children .zero .identity id
    let leaf (id : NodeId) : Shape := .custom "c" .identity id
    let session : Session :=
      ⟨⟨.ofContent (group ⟨"1"⟩ [group ⟨"2"⟩ [leaf ⟨"3"⟩], leaf ⟨"4"⟩]), ⟨4⟩, []⟩,
        Builtin.camera, .transient, false, none⟩
    session.desk.scene.tree.ids.Nodup ∧ session.desk.scene.contains ⟨"3"⟩ ∧
      (∃ parent, session.desk.scene.parent? ⟨"3"⟩ = some parent) ∧
      (∃ node after, session.remove ⟨"3"⟩ = (.ok node, after)) ∧
      session.remove ⟨"5"⟩ = (.error (.shapeNotFound ⟨"5"⟩), session) := by
  intro group leaf session
  have hdistinct : session.desk.scene.tree.ids.Nodup := by decide +kernel
  have hin : session.desk.scene.contains ⟨"3"⟩ := by decide +kernel
  obtain ⟨-, hqueries⟩ := queries_agree hdistinct
  obtain ⟨hagree, hremoves, -⟩ := hqueries ⟨"3"⟩ (by decide)
  obtain ⟨node, -, after, -, -, hremove, -⟩ := hremoves hin
  exact ⟨hdistinct, hin, (hagree.out 0 3).mp hin, ⟨node, after, hremove⟩,
    (hqueries ⟨"5"⟩ (by decide)).2.2 (by decide +kernel)⟩

end Session

end SdfScene
