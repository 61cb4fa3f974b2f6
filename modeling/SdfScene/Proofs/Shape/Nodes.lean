import Mathlib.Data.List.Basic
import SdfScene.Shape.Query

/-!
# The node list of a tree

A tree is determined by what its nodes are on their own and by how they are nested. The
lists here say the first of these: the nodes without their children in depth-first order,
their ids, and the numbers stored in them.
-/

namespace SdfScene

/-- The components of a vector. -/
def Vec3.numbers (v : Vec3) : List Single := [v.x, v.y, v.z]

/-- The numbers of a transform. -/
def Transform.numbers (t : Transform) : List Single :=
  t.position.numbers ++ t.rotation.numbers ++ [t.scale]

/-- The numbers of a parameter's value. -/
def Param.numbers : Param → List Single
  | scalar x => [x]
  | vector v => v.numbers

namespace Shape

/-- Induction on trees: what all children have, their combinator has. -/
@[elab_as_elim, induction_eliminator]
theorem treeInduction {motive : Shape → Prop}
    (primitive : ∀ body transform color id, motive (.primitive body transform color id))
    (combinator : ∀ kind children smoothness transform id,
      (∀ child ∈ children, motive child) →
        motive (.combinator kind children smoothness transform id))
    (custom : ∀ content transform id, motive (.custom content transform id))
    (shape : Shape) : motive shape :=
  @Shape.rec motive (fun children => ∀ child ∈ children, motive child) primitive combinator
    custom (fun _ h => absurd h List.not_mem_nil)
    (fun _ _ hhead htail => List.forall_mem_cons.mpr ⟨hhead, htail⟩) shape

/-- Induction on trees without regard to kinds: what all children have, a node has. -/
theorem childInduction {motive : Shape → Prop}
    (step : ∀ shape, (∀ child ∈ shape.children?.getD [], motive child) → motive shape)
    (shape : Shape) : motive shape := by
  induction shape with
  | primitive body transform color id => exact step _ fun _ h => absurd h List.not_mem_nil
  | combinator kind children smoothness transform id ih => exact step _ ih
  | custom content transform id => exact step _ fun _ h => absurd h List.not_mem_nil

/-- A node without its children: its kind, its id and its own fields. -/
def bare (shape : Shape) : Shape := shape.withChildren []

/-- The numbers in a node's own fields. -/
def ownNumbers : Shape → List Single
  | primitive body transform color _ =>
    body.params.flatMap Param.numbers ++ transform.numbers ++ color.numbers
  | combinator _ _ smoothness transform _ => smoothness :: transform.numbers
  | custom _ transform _ => transform.numbers

/-- The nodes of a tree on their own, depth first. -/
def trace (shape : Shape) : List Shape := shape.nodes.map bare

/-- The nodes of a list of trees on their own. -/
def traceIn (shapes : List Shape) : List Shape := shapes.flatMap trace

/-- The ids of a list of trees. -/
def idsIn (shapes : List Shape) : List NodeId := shapes.flatMap ids

/-- Every number stored in a tree. -/
def numbers (shape : Shape) : List Single := shape.nodes.flatMap ownNumbers

/-- Every number stored in a list of trees. -/
def numbersIn (shapes : List Shape) : List Single := shapes.flatMap numbers

@[simp] theorem id_bare (shape : Shape) : shape.bare.id = shape.id := by
  cases shape <;> rfl

@[simp] theorem id_ofKind (id : NodeId) (kind : Kind) : (ofKind id kind).id = id := by
  cases kind <;> rfl

@[simp] theorem ownNumbers_bare (shape : Shape) : shape.bare.ownNumbers = shape.ownNumbers := by
  cases shape <;> rfl

@[simp] theorem id_withChildren (children : List Shape) (shape : Shape) :
    (shape.withChildren children).id = shape.id := by
  cases shape <;> rfl

@[simp] theorem withChildren_withChildren (children others : List Shape) (shape : Shape) :
    (shape.withChildren children).withChildren others = shape.withChildren others := by
  cases shape <;> rfl

/-- What can hold children has some or none. -/
theorem exists_children_of_isCombinator {shape : Shape} (h : shape.isCombinator) :
    ∃ children, shape.children? = some children := by
  cases shape with
  | primitive => cases h
  | combinator => exact ⟨_, rfl⟩
  | custom => cases h

/-- A node that can hold children has those that it is given. -/
theorem children?_withChildren {shape : Shape} {children : List Shape}
    (h : shape.children? = some children) (others : List Shape) :
    (shape.withChildren others).children? = some others := by
  cases shape with
  | primitive => cases h
  | custom => cases h
  | combinator => rfl

/-- A node that is given its own children stays as it is. -/
theorem withChildren_self {shape : Shape} {children : List Shape}
    (h : shape.children? = some children) : shape.withChildren children = shape := by
  cases shape with
  | primitive => rfl
  | custom => rfl
  | combinator => rw [withChildren, Option.some.inj h]

@[simp] theorem bare_withChildren (children : List Shape) (shape : Shape) :
    (shape.withChildren children).bare = shape.bare := by
  cases shape <;> rfl

/-- The nodes of several trees are those of one after the other. -/
theorem nodesIn_eq_flatMap (shapes : List Shape) : nodesIn shapes = shapes.flatMap nodes := by
  induction shapes with
  | nil => rfl
  | cons shape shapes ih => rw [nodesIn, ih, List.flatMap_cons]

theorem nodes_combinator (kind : CombinatorKind) (children : List Shape) (smoothness : Single)
    (transform : Transform) (id : NodeId) :
    (combinator kind children smoothness transform id).nodes =
      combinator kind children smoothness transform id :: children.flatMap nodes := by
  rw [nodes, nodesIn_eq_flatMap]

/-- The nodes of a tree are its root and those below it. -/
theorem nodes_eq_cons (shape : Shape) :
    shape.nodes = shape :: (shape.children?.getD []).flatMap nodes := by
  cases shape with
  | primitive => rfl
  | custom => rfl
  | combinator => exact nodes_combinator _ _ _ _ _

/-- A tree's list starts with its root. -/
theorem self_mem_nodes (shape : Shape) : shape ∈ shape.nodes := by
  cases shape <;> simp [nodes]

theorem trace_combinator (kind : CombinatorKind) (children : List Shape) (smoothness : Single)
    (transform : Transform) (id : NodeId) :
    (combinator kind children smoothness transform id).trace =
      combinator kind [] smoothness transform id :: traceIn children := by
  simp only [trace, traceIn, nodes_combinator, List.map_cons, List.map_flatMap]
  rfl

/-- The ids of a tree can be read off its trace. -/
theorem ids_eq_map_trace (shape : Shape) : shape.ids = shape.trace.map Shape.id := by
  simp only [ids, trace, List.map_map, Function.comp_def, id_bare]

/-- The numbers of a tree can be read off its trace. -/
theorem numbers_eq_flatMap_trace (shape : Shape) :
    shape.numbers = shape.trace.flatMap ownNumbers := by
  simp only [numbers, trace, List.flatMap_map, ownNumbers_bare]

theorem idsIn_eq_map_traceIn (shapes : List Shape) :
    idsIn shapes = (traceIn shapes).map Shape.id := by
  rw [idsIn, traceIn, List.map_flatMap, funext ids_eq_map_trace]

theorem numbersIn_eq_flatMap_traceIn (shapes : List Shape) :
    numbersIn shapes = (traceIn shapes).flatMap ownNumbers := by
  rw [numbersIn, traceIn, List.flatMap_assoc, funext numbers_eq_flatMap_trace]

theorem trace_eq_cons (shape : Shape) :
    shape.trace = shape.bare :: traceIn (shape.children?.getD []) := by
  cases shape with
  | primitive => rfl
  | custom => rfl
  | combinator => exact trace_combinator _ _ _ _ _

theorem ids_eq_cons (shape : Shape) : shape.ids = shape.id :: idsIn (shape.children?.getD []) := by
  rw [ids_eq_map_trace, trace_eq_cons, List.map_cons, id_bare, idsIn_eq_map_traceIn]

theorem numbers_eq_append (shape : Shape) :
    shape.numbers = shape.ownNumbers ++ numbersIn (shape.children?.getD []) := by
  rw [numbers_eq_flatMap_trace, trace_eq_cons, List.flatMap_cons, ownNumbers_bare,
    numbersIn_eq_flatMap_traceIn]

/-- All numbers of a tree have a property exactly if those of its root and those of its
children have it. -/
theorem forall_mem_numbers {P : Single → Prop} {shape : Shape} :
    (∀ x ∈ shape.numbers, P x) ↔ (∀ x ∈ shape.ownNumbers, P x) ∧
      ∀ child ∈ shape.children?.getD [], ∀ x ∈ child.numbers, P x := by
  rw [numbers_eq_append, List.forall_mem_append, numbersIn, List.forall_mem_flatMap]

@[simp] theorem ids_primitive (body : Primitive) (transform : Transform) (color : Vec3)
    (id : NodeId) : (primitive body transform color id).ids = [id] := rfl

@[simp] theorem ids_custom (content : String) (transform : Transform) (id : NodeId) :
    (custom content transform id).ids = [id] := rfl

@[simp] theorem ids_combinator (kind : CombinatorKind) (children : List Shape)
    (smoothness : Single) (transform : Transform) (id : NodeId) :
    (combinator kind children smoothness transform id).ids = id :: idsIn children := by
  rw [ids_eq_map_trace, trace_combinator, List.map_cons, ← idsIn_eq_map_traceIn]
  rfl

@[simp] theorem numbers_combinator (kind : CombinatorKind) (children : List Shape)
    (smoothness : Single) (transform : Transform) (id : NodeId) :
    (combinator kind children smoothness transform id).numbers =
      smoothness :: transform.numbers ++ numbersIn children := by
  rw [numbers_eq_flatMap_trace, trace_combinator, List.flatMap_cons,
    ← numbersIn_eq_flatMap_traceIn]
  rfl

@[simp] theorem idsIn_nil : idsIn [] = [] := rfl

@[simp] theorem idsIn_cons (shape : Shape) (shapes : List Shape) :
    idsIn (shape :: shapes) = shape.ids ++ idsIn shapes := List.flatMap_cons

@[simp] theorem idsIn_append (front back : List Shape) :
    idsIn (front ++ back) = idsIn front ++ idsIn back := List.flatMap_append

@[simp] theorem numbersIn_nil : numbersIn [] = [] := rfl

@[simp] theorem numbersIn_cons (shape : Shape) (shapes : List Shape) :
    numbersIn (shape :: shapes) = shape.numbers ++ numbersIn shapes := List.flatMap_cons

@[simp] theorem traceIn_nil : traceIn [] = [] := rfl

@[simp] theorem traceIn_append (front back : List Shape) :
    traceIn (front ++ back) = traceIn front ++ traceIn back := List.flatMap_append

@[simp] theorem traceIn_cons (shape : Shape) (shapes : List Shape) :
    traceIn (shape :: shapes) = shape.trace ++ traceIn shapes := List.flatMap_cons

/-- The id of the root is among the ids of a tree. -/
theorem id_mem_ids (shape : Shape) : shape.id ∈ shape.ids :=
  List.mem_map_of_mem (self_mem_nodes shape)

/-- The ids of a child are among those of the list. -/
theorem ids_subset_idsIn {shape : Shape} {shapes : List Shape} (h : shape ∈ shapes) :
    shape.ids ⊆ idsIn shapes := fun _ hid => List.mem_flatMap.mpr ⟨shape, h, hid⟩

end Shape

end SdfScene
