import SdfScene.Proofs.Expression.Lowering
import SdfScene.Proofs.Scene.Tree
import SdfScene.Proofs.Shape.Retained

/-!
# Lowering one node of a scene

A scene is lowered at one node, and its tree changes in this place only: by nothing, or by
the splits of the node. Which of the two it is depends on the mode alone, so the modes are
told apart once, by what they leave behind of a tree and of a floor.
-/

namespace SdfScene

open Shape

/-! What a mode makes of a tree and of a floor. -/

namespace FlattenMode

/-- The tree that a mode leaves behind. -/
def split (mode : FlattenMode) (floor : Nat) (shape : Shape) : Shape :=
  match mode with
  | .inPlace => shape.splitAbove floor
  | .transient => shape

/-- The number of ids that a mode uses up for a number of splits. -/
def spent (mode : FlattenMode) (splits : Nat) : Nat :=
  match mode with
  | .inPlace => splits
  | .transient => 0

theorem spent_le_issued (mode : FlattenMode) (splits : Nat) :
    mode.spent splits ≤ mode.issued splits := by
  cases mode
  · exact Nat.le_refl _
  · exact Nat.zero_le _

end FlattenMode

namespace Shape

/-- The code that a node draws by itself. -/
def code (shape : Shape) : String :=
  (shape.drawn? .identity).elim Expression.neutralText Expression.text

/-- Lowering in either mode, told by what the mode leaves behind. -/
theorem lower_eq (mode : FlattenMode) (shape : Shape) (parent : Transform) {ids : Allocator}
    (hcovers : ids.Covers shape.ids) (hroom : ids.floor + mode.issued shape.splits < 2 ^ 64) :
    lower mode parent shape ids =
      ⟨drawn? parent shape, mode.split ids.floor shape,
        ⟨ids.floor + mode.spent shape.splits⟩⟩ := by
  cases mode with
  | inPlace =>
    have hbound := (lower_floor_bounds .inPlace shape parent ids).2
    exact lower_inPlace shape parent ids hcovers (Nat.lt_of_le_of_lt hbound hroom)
  | transient =>
    refine lower_transient shape parent ids hcovers fun hpos => ?_
    rw [FlattenMode.issued] at hroom
    omega

/-- Where nothing is left to split, lowering leaves the tree and the floor, whatever the ids
are. -/
theorem lower_keeps (mode : FlattenMode) {shape : Shape} (hsplits : shape.splits = 0)
    (parent : Transform) (ids : Allocator) :
    (lower mode parent shape ids).tree = shape ∧ (lower mode parent shape ids).ids = ids := by
  induction shape generalizing parent ids with
  | primitive => exact ⟨rfl, rfl⟩
  | custom => exact ⟨rfl, rfl⟩
  | combinator kind children smoothness transform id ih =>
    rw [splits] at hsplits
    rcases children with _ | ⟨first, _ | ⟨second, _ | ⟨third, others⟩⟩⟩
    · exact ⟨rfl, rfl⟩
    · simp only [splitsIn] at hsplits
      have hone := ih first List.mem_cons_self (by omega) transform ids
      exact ⟨by simp only [lower, lowerRow, hone], by simp only [lower, lowerRow, hone]⟩
    · simp only [splitsIn] at hsplits
      have hone := ih first List.mem_cons_self (by omega) transform ids
      have htwo := ih second (List.mem_cons_of_mem _ List.mem_cons_self) (by omega) transform ids
      exact ⟨by simp only [lower, lowerRow, hone, htwo], by simp only [lower, lowerRow, hone, htwo]⟩
    · simp only [List.length_cons] at hsplits
      omega

/-- What a mode leaves behind has the same root. -/
@[simp] theorem id_split (mode : FlattenMode) (floor : Nat) (shape : Shape) :
    (mode.split floor shape).id = shape.id := by
  cases mode
  · exact id_splitAbove floor shape
  · rfl

/-- What a mode leaves behind is the tree with some splits. -/
theorem partlySplit_split (mode : FlattenMode) (floor : Nat) (shape : Shape) :
    PartlySplit (mode.spent shape.splits) shape (mode.split floor shape) := by
  cases mode
  · exact .splitAbove floor shape
  · exact .refl _ shape

theorem retains_split (mode : FlattenMode) (floor : Nat) (shape : Shape) :
    Retains (mode.spent shape.splits) shape (mode.split floor shape) := by
  cases mode
  · exact .splitAbove floor shape
  · exact .refl _ shape

/-- The ids of what a mode leaves behind. -/
theorem ids_split (mode : FlattenMode) (floor : Nat) (shape : Shape) :
    (mode.split floor shape).ids.Perm
      (shape.ids ++ Allocator.upcoming ⟨floor⟩ (mode.spent shape.splits)) := by
  cases mode
  · exact ids_splitAbove floor shape
  · simp [FlattenMode.split, FlattenMode.spent]

end Shape

namespace Scene

variable {scene : Scene} {ids : Allocator}

/-- The node that is lowered by an id; without an id, or by the id of the root, the displayed
shape. -/
def target? (scene : Scene) (id : Option NodeId) : Option Shape :=
  match id.filter fun id => id ≠ rootId with
  | none => scene.content?
  | some id => scene.find? id

/-- Apart from that of the root, an id addresses the node that has it. -/
theorem target?_of_ne {id : NodeId} (h : id ≠ rootId) : scene.target? (some id) = scene.find? id := by
  rw [target?, Option.filter_some_pos (by simpa using h)]

/-- The target is found under its own id, which is not that of the root. -/
theorem Numbered.find?_of_target? (h : scene.Numbered ids) {id : Option NodeId} {node : Shape}
    (htarget : scene.target? id = some node) :
    node.id ≠ rootId ∧ scene.tree.find? node.id = some node := by
  rw [target?] at htarget
  split at htarget
  · have hmem : node ∈ scene.shapes := List.mem_of_mem_head? htarget
    have hin : node.id ∈ idsIn scene.shapes := ids_subset_idsIn hmem (id_mem_ids node)
    have hnode : node ∈ scene.tree.nodes := mem_nodes_of_children? rfl node hmem
    have hne : node.id ≠ rootId := fun hroot => rootId_notMem h.distinct (hroot ▸ hin)
    exact ⟨hne, find?_of_mem_nodes h.distinct hnode⟩
  · obtain ⟨hne, hfound⟩ := h.find?_tree htarget
    rw [id_of_find? hfound]
    exact ⟨hne, hfound⟩

/-- A scene is lowered by lowering the target in its place. -/
theorem Numbered.exists_lowered (h : scene.Numbered ids) {id : Option NodeId} {node : Shape}
    (htarget : scene.target? id = some node) (mode : FlattenMode) :
    ∃ after, scene.lower mode id ids = .ok ⟨(node.lower mode .identity ids).expression, after,
        (node.lower mode .identity ids).ids⟩ ∧
      Swapped node.id node (node.lower mode .identity ids).tree scene.tree after.tree := by
  have hroot := (h.find?_of_target? htarget).1.symm
  rw [target?] at htarget
  split at htarget
  · next hid =>
    obtain ⟨shapes⟩ := scene
    obtain ⟨others, rfl⟩ := List.head?_eq_some_iff.mp htarget
    refine ⟨⟨(node.lower mode .identity ids).tree :: others⟩, ?_, ?_⟩
    · simp only [lower, hid]
      rfl
    · have hinside : Swapped node.id node (node.lower mode .identity ids).tree
          (.combinator .union ([] ++ node :: others) .zero .identity rootId)
          (.combinator .union ([] ++ (node.lower mode .identity ids).tree :: others) .zero
            .identity rootId) :=
        .inside hroot (fun _ h => absurd h List.not_mem_nil) (.root rfl)
      exact hinside
  · next wanted hid =>
    obtain ⟨hne, hfound⟩ := h.find?_tree htarget
    obtain ⟨changed, hupdate, hswapped⟩ :=
      exists_swapped hfound fun _ => (node.lower mode .identity ids).tree
    refine ⟨scene.update wanted fun _ => (node.lower mode .identity ids).tree, ?_, ?_⟩
    · simp only [lower, hid, htarget]
    · rw [tree_update hne, hupdate, Option.getD_some, id_of_find? hfound]
      exact hswapped

/-- Without a target, lowering succeeds only for a displayed shape that is not there, and
nothing is lowered. -/
theorem lower_of_no_target {id : Option NodeId} (htarget : scene.target? id = none)
    {mode : FlattenMode} {lowered : Lowered Scene} (h : scene.lower mode id ids = .ok lowered) :
    lowered = ⟨none, scene, ids⟩ ∧ scene.content? = none ∧
      ∀ other : Scene, other.target? id = other.content? := by
  rw [target?] at htarget
  rw [lower] at h
  split at htarget
  · next hid =>
    simp only [hid, lowerContent, htarget, Except.ok.injEq] at h
    exact ⟨h.symm, htarget, fun other => by rw [target?, hid]⟩
  · next hid =>
    simp only [hid, htarget, reduceCtorEq] at h

/-- For the moment, lowering leaves the scene and the floor, whatever the ids are. -/
theorem lower_transient_keeps {id : Option NodeId} {lowered : Lowered Scene}
    (h : scene.lower .transient id ids = .ok lowered) :
    lowered.tree = scene ∧ lowered.ids = ids := by
  rw [lower] at h
  split at h
  · rw [lowerContent] at h
    split at h
    · cases h
      exact ⟨rfl, rfl⟩
    · next shape hcontent =>
      obtain ⟨htree, hids⟩ := shape.lower_transient_keeps .identity ids
      obtain ⟨shapes⟩ := scene
      obtain ⟨others, rfl⟩ := List.head?_eq_some_iff.mp hcontent
      cases h
      refine ⟨?_, hids⟩
      dsimp only
      rw [htree]
      rfl
  · next wanted hid =>
    split at h
    · cases h
    · next node hnode =>
      obtain ⟨htree, hids⟩ := node.lower_transient_keeps .identity ids
      have hne : wanted ≠ rootId := by simpa using (Option.filter_eq_some_iff.mp hid).2
      cases h
      refine ⟨tree_injective ?_, hids⟩
      obtain ⟨changed, hupdate, hswapped⟩ :=
        exists_swapped ((find?_tree hne scene).trans hnode) fun _ => node
      rw [htree, tree_update hne, hupdate, Option.getD_some, hswapped.eq_of_same]

/-- With room for the ids of the splits, lowering draws the target and leaves what the mode
leaves in its place. -/
theorem Numbered.lower_eq (h : scene.Numbered ids) {id : Option NodeId} {node : Shape}
    (htarget : scene.target? id = some node) {mode : FlattenMode}
    (hroom : ids.floor + mode.issued node.splits < 2 ^ 64) :
    ∃ after, scene.lower mode id ids =
        .ok ⟨node.drawn? .identity, after, ⟨ids.floor + mode.spent node.splits⟩⟩ ∧
      Swapped node.id node (mode.split ids.floor node) scene.tree after.tree := by
  obtain ⟨after, hlower, hswapped⟩ := h.exists_lowered htarget mode
  have hnode := nodes_subset_of_mem (mem_nodes_of_find? (h.find?_of_target? htarget).2)
  have hcovers : ids.Covers node.ids := h.covered.of_subset (List.map_subset Shape.id hnode)
  rw [node.lower_eq mode .identity hcovers hroom] at hlower hswapped
  exact ⟨after, hlower, hswapped⟩

/-- Where a target was put with some splits, the ids are distinct as before, and the floor
covers those that were issued. -/
theorem Numbered.swapped (h : scene.Numbered ids) {after : Scene} {node : Shape}
    (mode : FlattenMode) (hroom : ids.floor + mode.issued node.splits < 2 ^ 64)
    (hswapped : Swapped node.id node (mode.split ids.floor node) scene.tree after.tree) :
    after.tree.ids.Perm (scene.tree.ids ++ ids.upcoming (mode.spent node.splits)) ∧
      after.Numbered ⟨ids.floor + mode.spent node.splits⟩ := by
  have hperm := hswapped.ids_perm (ids_split mode ids.floor node)
  have hspent := mode.spent_le_issued node.splits
  have hroom' : ids.floor + mode.spent node.splits < 2 ^ 64 := by omega
  refine ⟨hperm, ?_, Allocator.Covers.of_subset ?_ hperm.subset⟩
  · rw [hperm.nodup_iff]
    exact h.distinct.append (ids.nodup_upcoming _) (h.covered.disjoint_upcoming hroom')
  · rw [Allocator.covers_append]
    exact ⟨h.covered.mono (Nat.le_add_right _ _), Allocator.covers_upcoming hroom'⟩

end Scene

end SdfScene
