import Mathlib.Data.List.Pairwise
import Mathlib.Data.List.Perm.Basic
import SdfScene.Proofs.Shape.Search

/-!
# Parents

Every node below the topmost one is a child of exactly one combinator, as long as the ids
below the topmost node are distinct. The search for a parent, which goes by the id of the
child alone, ends at this combinator, whatever id the topmost node has.
-/

namespace SdfScene.Shape

/-- A combinator holds its children. -/
def Holds (holder child : Shape) : Prop := child ∈ holder.children?.getD []

/-- The ids of the children of a node. -/
def childIds (shape : Shape) : List NodeId := (shape.children?.getD []).map Shape.id

/-- The search for a parent goes through the nodes and looks at the children of each. -/
theorem parent?_eq_find?_nodes (wanted : NodeId) (shape : Shape) :
    shape.parent? wanted =
      (shape.nodes.find? fun node => hasChild wanted (node.children?.getD [])).map Shape.id := by
  induction shape with
  | primitive => rfl
  | custom => rfl
  | combinator kind children smoothness transform id ih =>
    have hbelow : parentIn? wanted children = ((children.flatMap nodes).find? fun node =>
        hasChild wanted (node.children?.getD [])).map Shape.id := by
      induction children with
      | nil => rfl
      | cons child children ihs =>
        obtain ⟨hchild, hchildren⟩ := List.forall_mem_cons.mp ih
        rw [parentIn?, hchild, ihs hchildren, List.flatMap_cons, List.find?_append, Option.map_or]
    rw [parent?, nodes_combinator, List.find?_cons]
    by_cases h : hasChild wanted children
    · simp [children?, h, Shape.id]
    · simp [children?, h, hbelow]

/-- The ids below a node are those of the children of all nodes. -/
theorem idsIn_children_perm (shape : Shape) :
    (idsIn (shape.children?.getD [])).Perm (shape.nodes.flatMap childIds) := by
  induction shape using childInduction with
  | step shape ih =>
    have hrows : (idsIn (shape.children?.getD [])).Perm
        ((shape.children?.getD []).flatMap fun child =>
          child.id :: child.nodes.flatMap childIds) := by
      rw [idsIn, funext ids_eq_cons]
      exact List.Perm.flatMap_left _ fun child hchild => (ih child hchild).cons child.id
    rw [nodes_eq_cons, List.flatMap_cons, List.flatMap_assoc]
    exact hrows.trans (List.map_append_flatMap_perm _ _ _).symm

/-- Where the ids below a node are distinct, no two nodes hold children of the same id. -/
theorem eq_of_holds (shape : Shape) {holder other child twin : Shape}
    (hdistinct : (idsIn (shape.children?.getD [])).Nodup)
    (hholder : holder ∈ shape.nodes) (hother : other ∈ shape.nodes)
    (hchild : holder.Holds child) (htwin : other.Holds twin) (hid : twin.id = child.id) :
    other = holder := by
  rw [(idsIn_children_perm shape).nodup_iff, List.nodup_flatMap] at hdistinct
  have hsymm : Std.Symm (Function.onFun List.Disjoint childIds) :=
    ⟨fun _ _ h => List.disjoint_symm h⟩
  by_contra hne
  have hmem : child.id ∈ other.childIds := hid ▸ List.mem_map_of_mem htwin
  exact hdistinct.2.forall hother hholder hne hmem (List.mem_map_of_mem hchild)

/-- So the search for the parent of a child ends at the node that holds it. -/
theorem parent?_of_holds (shape : Shape) {holder child : Shape}
    (hdistinct : (idsIn (shape.children?.getD [])).Nodup) (hholder : holder ∈ shape.nodes)
    (hchild : holder.Holds child) : shape.parent? child.id = some holder.id := by
  rw [parent?_eq_find?_nodes]
  cases hfound : shape.nodes.find? fun node => hasChild child.id (node.children?.getD []) with
  | none =>
    have hnone := List.find?_eq_none.mp hfound holder hholder
    exact absurd (hasChild_iff.mpr ⟨child, hchild, rfl⟩) hnone
  | some found =>
    have hheld := List.find?_some hfound
    obtain ⟨twin, htwin, hid⟩ := hasChild_iff.mp hheld
    rw [eq_of_holds shape hdistinct hholder (List.mem_of_find?_eq_some hfound) hchild htwin hid]
    rfl

/-- Every node but the topmost one is held by one. -/
theorem exists_holder (shape : Shape) {node : Shape}
    (hnode : node ∈ nodesIn (shape.children?.getD [])) :
    ∃ holder ∈ shape.nodes, holder.Holds node := by
  rw [nodesIn_eq_flatMap] at hnode
  induction shape using childInduction with
  | step shape ih =>
    obtain ⟨child, hchild, hmem⟩ := List.mem_flatMap.mp hnode
    rw [nodes_eq_cons] at hmem
    rcases List.mem_cons.mp hmem with rfl | hbelow
    · exact ⟨shape, self_mem_nodes shape, hchild⟩
    · obtain ⟨holder, hholder, hholds⟩ := ih child hchild hbelow
      refine ⟨holder, ?_, hholds⟩
      rw [nodes_eq_cons shape]
      exact List.mem_cons_of_mem _ (List.mem_flatMap.mpr ⟨child, hchild, hholder⟩)

end SdfScene.Shape
