import SdfScene.Proofs.Shape.Search
import SdfScene.Proofs.Shape.Sound
import SdfScene.Scene.Basic

/-!
# The scene as one tree

With its root as a combinator like any other, a scene is one tree, and its queries and
edits are those of the tree. A scene is well-formed if this tree is sound.
-/

namespace SdfScene.Scene

/-- The tree of a scene, its root included. -/
def tree (scene : Scene) : Shape := .combinator .union scene.shapes .zero .identity rootId

/-- A scene is determined by its tree. -/
theorem tree_injective : Function.Injective tree := fun _ _ h => by
  injection h with _ hshapes
  exact congrArg Scene.mk hshapes

/-- All ids of the scene are distinct, that of the root among them, the floor covers the
numbers among them, and the numbers stored in the nodes are finite. The children of a node
are under their own ids in any case. -/
structure WellFormed (scene : Scene) (ids : Allocator) : Prop where
  distinct : (rootId :: Shape.idsIn scene.shapes).Nodup
  covered : ids.Covers (Shape.idsIn scene.shapes)
  finite : ∀ x ∈ Shape.numbersIn scene.shapes, x.isFinite

@[simp] theorem ids_tree (scene : Scene) :
    scene.tree.ids = rootId :: Shape.idsIn scene.shapes :=
  Shape.ids_combinator _ _ _ _ _

/-- The id of the root is no number. -/
theorem number?_rootId : rootId.number? = none := by decide +kernel

/-- A floor that covers the displayed shape covers the scene. -/
theorem covers_tree_ofContent {shape : Shape} {ids : Allocator} (h : ids.Covers shape.ids) :
    ids.Covers (ofContent shape).tree.ids := by
  rw [ids_tree, ofContent, Shape.idsIn_cons, Shape.idsIn_nil, List.append_nil]
  refine List.forall_mem_cons.mpr ⟨fun n hn => ?_, h⟩
  rw [number?_rootId] at hn
  cases hn

/-- The root adds an id that is no number, and no infinite number. -/
theorem wellFormed_iff {scene : Scene} {ids : Allocator} :
    scene.WellFormed ids ↔ scene.tree.Sound ids := by
  have hown : ∀ x ∈ Single.zero :: Transform.identity.numbers, x.isFinite := by decide
  constructor
  · intro ⟨hdistinct, hcovered, hfinite⟩
    refine ⟨by rwa [ids_tree], ?_, ?_⟩
    · rw [ids_tree]
      refine List.forall_mem_cons.mpr ⟨fun n hn => ?_, hcovered⟩
      rw [number?_rootId] at hn
      cases hn
    · rw [tree, Shape.numbers_combinator, List.forall_mem_append]
      exact ⟨hown, hfinite⟩
  · intro ⟨hdistinct, hcovered, hfinite⟩
    rw [ids_tree] at hdistinct hcovered
    rw [tree, Shape.numbers_combinator, List.forall_mem_append] at hfinite
    exact ⟨hdistinct, (List.forall_mem_cons.mp hcovered).2, hfinite.2⟩

/-- A higher floor covers what a lower one covers. -/
theorem WellFormed.mono {scene : Scene} {ids later : Allocator} (h : scene.WellFormed ids)
    (hle : ids.floor ≤ later.floor) : scene.WellFormed later :=
  ⟨h.distinct, h.covered.mono hle, h.finite⟩

/-- Apart from that of the root, ids are searched in the shapes. -/
theorem find?_tree {id : NodeId} (h : id ≠ rootId) (scene : Scene) :
    scene.tree.find? id = scene.find? id := by
  simp only [tree, Shape.find?, h.symm, ite_false, find?]

/-- The ids that a scene contains are those of its tree. -/
theorem contains_iff {scene : Scene} {id : NodeId} :
    scene.contains id ↔ id ∈ scene.tree.ids := by
  by_cases h : id = rootId
  · simp [contains, h]
  · rw [← Shape.isSome_find?, find?_tree h, contains]
    simp [h]

/-- Where ids are distinct, no shape below the root has the id of the root. -/
theorem rootId_notMem {scene : Scene} (h : scene.tree.ids.Nodup) :
    rootId ∉ Shape.idsIn scene.shapes := by
  rw [ids_tree] at h
  exact (List.nodup_cons.mp h).1

/-- So what is found in the scene is found in its tree. -/
theorem find?_tree_of_nodup {scene : Scene} (h : scene.tree.ids.Nodup) {id : NodeId}
    {node : Shape} (hnode : scene.find? id = some node) :
    id ≠ rootId ∧ scene.tree.find? id = some node := by
  have hin : id ∈ Shape.idsIn scene.shapes :=
    Shape.isSome_findIn?.mp (Option.isSome_of_eq_some hnode)
  have hne : id ≠ rootId := fun hroot => rootId_notMem h (hroot ▸ hin)
  exact ⟨hne, (Scene.find?_tree hne scene).trans hnode⟩

/-- All ids are distinct, that of the root among them, and the floor covers the numbers among
them. -/
structure Numbered (scene : Scene) (ids : Allocator) : Prop where
  distinct : scene.tree.ids.Nodup
  covered : ids.Covers scene.tree.ids

/-- A well-formed scene is one with finite numbers in its nodes. -/
theorem WellFormed.numbered {scene : Scene} {ids : Allocator} (h : scene.WellFormed ids) :
    scene.Numbered ids :=
  ⟨(wellFormed_iff.mp h).distinct, (wellFormed_iff.mp h).covered⟩

theorem Numbered.find?_tree {scene : Scene} {ids : Allocator} (h : scene.Numbered ids)
    {id : NodeId} {node : Shape} (hnode : scene.find? id = some node) :
    id ≠ rootId ∧ scene.tree.find? id = some node :=
  find?_tree_of_nodup h.distinct hnode

theorem WellFormed.find?_tree {scene : Scene} {ids : Allocator} (hscene : scene.WellFormed ids)
    {id : NodeId} {node : Shape} (h : scene.find? id = some node) :
    id ≠ rootId ∧ scene.tree.find? id = some node :=
  hscene.numbered.find?_tree h

/-- Apart from the root, a change of a node is one in the tree. -/
theorem tree_update {id : NodeId} (h : id ≠ rootId) (scene : Scene) (change : Shape → Shape) :
    (scene.update id change).tree = (scene.tree.update? id change).getD scene.tree := by
  simp only [tree, update, Shape.update?, h.symm, ite_false]
  cases Shape.updateIn? id change scene.shapes <;> rfl

/-- A group that is put back replaces the children of its node. -/
theorem tree_withGroup (scene : Scene) (group : Group) :
    (scene.withGroup group).tree =
      (scene.tree.update? group.id (Shape.withChildren group.children)).getD scene.tree := by
  by_cases h : group.id = rootId
  · simp only [withGroup, h, ite_true, tree, Shape.update?, Option.getD_some, Shape.withChildren]
  · rw [withGroup, ite_cond_eq_false _ _ (eq_false h), tree_update h]

/-- A group is that of a combinator of the tree. -/
theorem exists_combinator_of_group {scene : Scene} {parent : NodeId} {group : Group}
    (h : scene.group parent = .ok group) :
    group.id = parent ∧
      ∃ node, scene.tree.find? parent = some node ∧ node.children? = some group.children := by
  by_cases hroot : parent = rootId
  · subst hroot
    simp only [Scene.group, ite_true, Except.ok.injEq] at h
    subst h
    exact ⟨rfl, scene.tree, Shape.find?_self scene.tree, rfl⟩
  · rw [find?_tree hroot]
    simp only [Scene.group, hroot, ite_false] at h
    cases hnode : scene.find? parent with
    | none => simp [hnode] at h
    | some node =>
      cases hchildren : node.children? with
      | none => simp [hnode, hchildren] at h
      | some children =>
        simp only [hnode, hchildren, Except.ok.injEq] at h
        subst h
        exact ⟨rfl, node, rfl, hchildren⟩

/-- The nodes below a group stand together behind the one that holds them, and other children
replace them and nothing else. -/
theorem exists_splice_group {scene : Scene} {parent : NodeId} {group : Group}
    (h : scene.group parent = .ok group) :
    ∃ front node back, node.id = parent ∧
      scene.tree.trace = front ++ [node] ++ Shape.traceIn group.children ++ back ∧
      ∀ children, (scene.withGroup ⟨group.id, children⟩).tree.trace =
        front ++ [node] ++ Shape.traceIn children ++ back := by
  obtain ⟨hid, node, hnode, hchildren⟩ := exists_combinator_of_group h
  obtain ⟨front, back, htrace, hchange⟩ := Shape.exists_splice hnode
  refine ⟨front, node.bare, back, by rw [Shape.id_bare, Shape.id_of_find? hnode], ?_,
    fun children => ?_⟩
  · rw [htrace, Shape.trace_of_children? hchildren, List.append_assoc front [node.bare]]
    rfl
  · obtain ⟨changed, hupdate, hafter⟩ := hchange (Shape.withChildren children)
    rw [tree_withGroup, hid, hupdate, Option.getD_some, hafter,
      Shape.trace_withChildren hchildren, List.append_assoc front [node.bare]]
    rfl

/-- The children of a group are nodes of the tree. -/
theorem mem_nodes_of_group {scene : Scene} {parent : NodeId} {group : Group}
    (h : scene.group parent = .ok group) : ∀ child ∈ group.children, child ∈ scene.tree.nodes := by
  obtain ⟨-, node, hnode, hchildren⟩ := exists_combinator_of_group h
  intro child hchild
  exact Shape.nodes_subset_of_mem (Shape.mem_nodes_of_find? hnode)
    (Shape.mem_nodes_of_children? hchildren child hchild)

/-- No child of a group has an id that is not in the tree. -/
theorem hasChild_eq_false {scene : Scene} {parent id : NodeId} {group : Group}
    (h : scene.group parent = .ok group) (hid : id ∉ scene.tree.ids) :
    Shape.hasChild id group.children = false := by
  rw [← Bool.not_eq_true, Shape.hasChild_iff]
  rintro ⟨child, hchild, rfl⟩
  exact hid (List.mem_map_of_mem (mem_nodes_of_group h child hchild))

end SdfScene.Scene
