import SdfScene.Proofs.Scene.Groups
import SdfScene.Proofs.Scene.Origins
import SdfScene.Proofs.Session.Invariant
import SdfScene.Proofs.Session.Reopening
import SdfScene.Proofs.Shape.Parents

/-!
# Addressing the nodes of a loaded scene

Whatever is in a store, the ids of the shape that is loaded are distinct and the floor covers
them. So every node is found under its id, and its parent is the one that holds it. The root
is addressed before any node is looked for, and its id is no part of what loading checks: a
stored node that is called like the root is the only one that cannot be addressed as a
combinator, since all that is meant for it goes to the root.
-/

namespace SdfScene

open Shape

namespace Scene

/-- A node is found under its id, and its parent is the one combinator or the root that holds
it. -/
structure Finds (scene : Scene) (node : Shape) : Prop where
  found : scene.find? node.id = some node
  contained : scene.contains node.id
  held : ∃ holder ∈ scene.tree.nodes, holder.Holds node ∧
    scene.parent? node.id = some holder.id ∧
      ∀ other ∈ scene.tree.nodes, other.Holds node → other = holder

/-- The search for a parent is that in the tree. -/
theorem parent?_tree (scene : Scene) (id : NodeId) : scene.tree.parent? id = scene.parent? id := by
  rw [tree, Shape.parent?, parent?]

/-- Where the ids below the root are distinct, every node is found, whatever id it has. -/
theorem finds_of_nodup {scene : Scene} (hdistinct : (idsIn scene.shapes).Nodup) {node : Shape}
    (hnode : node ∈ nodesIn scene.shapes) : scene.Finds node := by
  have hfound : scene.find? node.id = some node := findIn?_of_mem_nodesIn hdistinct hnode
  refine ⟨hfound, by simp [contains, hfound], ?_⟩
  obtain ⟨holder, hholder, hholds⟩ := exists_holder scene.tree hnode
  refine ⟨holder, hholder, hholds, ?_, fun other hother hother' => ?_⟩
  · rw [← parent?_tree]
    exact parent?_of_holds scene.tree hdistinct hholder hholds
  · exact eq_of_holds scene.tree hdistinct hholder hother hholds hother' rfl

end Scene

namespace Desk

variable {desk : Desk}

/-- The id of a combinator stands for its own children: a new node of any kind that is added
under this id goes to the end of them. -/
def Opens (desk : Desk) (node : Shape) : Prop :=
  ∀ children, node.children? = some children →
    desk.scene.group node.id = .ok ⟨node.id, children⟩ ∧
      ∀ kind, ∃ id after, desk.add kind node.id = .ok (id, after) ∧
        after.scene.find? node.id = some (node.withChildren (children ++ [.ofKind id kind]))

/-- Adding to a group of a scene whose ids are covered puts a new node behind its children. -/
theorem add_of_group {parent : NodeId} {group : Group}
    (hcovers : desk.ids.Covers desk.scene.tree.ids) (hroom : desk.ids.floor + 1 < 2 ^ 64)
    (hgroup : desk.scene.group parent = .ok group) (kind : Kind) :
    ∃ id after, desk.add kind parent = .ok (id, after) ∧
      after.scene = desk.scene.withGroup ⟨parent, group.children ++ [.ofKind id kind]⟩ := by
  obtain ⟨rfl, -⟩ := Scene.exists_combinator_of_group hgroup
  have hfree := Scene.hasChild_eq_false hgroup (hcovers.next_notMem hroom)
  have hadd : desk.add kind group.id = .ok ({ desk with ids := desk.ids.next.2 }.commit
      (group.add (ofKind desk.ids.next.1 kind))) := by
    rw [add, hgroup]
    rfl
  rw [Group.add_eq (by rwa [id_ofKind]), id_ofKind] at hadd
  exact ⟨desk.ids.next.1, _, hadd, rfl⟩

/-- Where moreover the ids below the root are distinct, every combinator can be opened, except
one that is called like the root. -/
theorem opens_of_nodup (hdistinct : (idsIn desk.scene.shapes).Nodup)
    (hcovers : desk.ids.Covers desk.scene.tree.ids) (hroom : desk.ids.floor + 1 < 2 ^ 64)
    {node : Shape} (hnode : node ∈ nodesIn desk.scene.shapes) (hne : node.id ≠ Scene.rootId) :
    desk.Opens node := by
  intro children hchildren
  have hfound : desk.scene.find? node.id = some node :=
    (Scene.finds_of_nodup hdistinct hnode).found
  have hintree := (Scene.find?_tree hne desk.scene).trans hfound
  have hgroup := Scene.group_of_find? hintree hchildren
  refine ⟨hgroup, fun kind => ?_⟩
  obtain ⟨id, after, hadd, hscene⟩ := add_of_group hcovers hroom hgroup kind
  refine ⟨id, after, hadd, ?_⟩
  obtain ⟨changed, -, -, hput⟩ := Scene.exists_swapped_group hgroup
  have hswapped := hput (children ++ [.ofKind id kind])
  have hsame : changed = node := Option.some.inj (hswapped.find?_old.symm.trans hintree)
  rw [hsame] at hswapped
  rw [← Scene.find?_tree hne, hscene]
  exact hswapped.find?_new (id_withChildren _ node)

/-- What is added under the id of the root goes behind the shapes of the scene, whether or not
a node is called like the root. -/
theorem add_rootId (hcovers : desk.ids.Covers desk.scene.tree.ids)
    (hroom : desk.ids.floor + 1 < 2 ^ 64) (kind : Kind) :
    ∃ id after, desk.add kind Scene.rootId = .ok (id, after) ∧
      after.scene.shapes = desk.scene.shapes ++ [.ofKind id kind] := by
  have hgroup : desk.scene.group Scene.rootId = .ok ⟨Scene.rootId, desk.scene.shapes⟩ :=
    if_pos rfl
  obtain ⟨id, after, hadd, hscene⟩ := add_of_group hcovers hroom hgroup kind
  refine ⟨id, after, hadd, ?_⟩
  rw [hscene, Scene.withGroup, if_pos rfl]

end Desk

/-! What is loaded. -/

namespace Store

/-- Loading raises the floor to the largest number that a restored id may have, at most. -/
theorem floor_contentOf_le (ids : Allocator) (found : Except IoError (Option String)) :
    (contentOf ids found).2.floor ≤ max ids.floor NodeId.maxRestored := by
  have hcases := contentOf_cases ids found
  generalize contentOf ids found = loaded at hcases ⊢
  rcases hcases with ⟨text, -, hrestore⟩ | rfl
  · obtain ⟨-, -, hsmall, hids⟩ := restore_eq_ok.mp hrestore
    have hhighest := NodeId.highest_le.mpr hsmall
    rw [hids]
    change max ids.floor (NodeId.highest loaded.1.ids) ≤ _
    omega
  · have hbuiltin : Builtin.highestId ≤ NodeId.maxRestored := by decide
    change max ids.floor Builtin.highestId ≤ _
    omega

/-- A node that is called like the root comes from a stored document, and no such document is
refused for it. -/
theorem rootId_mem_contentOf (ids : Allocator) {found : Except IoError (Option String)} :
    Scene.rootId ∈ (contentOf ids found).1.ids ↔
      ∃ text shape after, found = .ok (some text) ∧
        Shape.restore text .fresh = .ok (shape, after) ∧ Scene.rootId ∈ shape.ids := by
  constructor
  · intro hmem
    rcases contentOf_cases ids found with ⟨text, hfound, hrestore⟩ | hbuiltin
    · obtain ⟨hdocument, hdistinct, hsmall, -⟩ := restore_eq_ok.mp hrestore
      exact ⟨text, _, _, hfound, restore_eq_ok.mpr ⟨hdocument, hdistinct, hsmall, rfl⟩, hmem⟩
    · rw [hbuiltin] at hmem
      exact absurd hmem Builtin.rootId_notMem_content
  · rintro ⟨text, shape, after, rfl, hrestore, hmem⟩
    obtain ⟨hdocument, hdistinct, hsmall, -⟩ := restore_eq_ok.mp hrestore
    rw [contentOf, restore_eq_ok.mpr ⟨hdocument, hdistinct, hsmall, rfl⟩]
    exact hmem

end Store

namespace Session

variable {σ : Type}

/-- In the scene that a session is opened with or loads, whatever the store answers, every node
is found under its id, and every combinator can be opened by it, except one that is called
like the root: what is added under its id goes to the root. There is such a node exactly if
the stored document has one. -/
theorem addresses_loaded (store : Store (StateM σ)) (settings : Settings) {session : Session}
    (hroom : session.desk.ids.floor + 1 < 2 ^ 64) (storage : σ) {loaded : Session}
    (hloaded : loaded = ((ofStore store settings).run storage).1 ∨
      loaded = ((session.load store).run storage).1) :
    let scene := loaded.desk.scene
    (∀ node ∈ nodesIn scene.shapes, scene.Finds node ∧
      (node.id ≠ Scene.rootId → loaded.desk.Opens node) ∧
      (node.id = Scene.rootId → ∀ kind, ∃ id after, loaded.desk.add kind node.id = .ok (id, after) ∧
        after.scene.shapes = scene.shapes ++ [.ofKind id kind])) ∧
    ((∃ node ∈ nodesIn scene.shapes, node.id = Scene.rootId) ↔
      ∃ text shape ids, (store.answer Store.rootKey storage).1 = .ok (some text) ∧
        Shape.restore text .fresh = .ok (shape, ids) ∧ Scene.rootId ∈ shape.ids) := by
  intro scene
  generalize hanswer : (store.answer Store.rootKey storage).1 = found
  -- Either way the scene is what the answer stands for, and the floor leaves room.
  obtain ⟨ids, hscene, hids, hfloor⟩ : ∃ ids, scene = .ofContent (Store.contentOf ids found).1 ∧
      loaded.desk.ids = (Store.contentOf ids found).2 ∧ ids.floor + 1 < 2 ^ 64 := by
    rcases hloaded with rfl | rfl
    · have hdesk := desk_ofStore store settings storage
      rw [hanswer] at hdesk
      exact ⟨.fresh, congrArg Desk.scene hdesk, congrArg Desk.ids hdesk, by decide⟩
    · have hdesk := session.desk_load store storage
      rw [hanswer] at hdesk
      exact ⟨session.desk.ids, congrArg Desk.scene hdesk, congrArg Desk.ids hdesk, hroom⟩
  have hsound := Store.sound_contentOf ids found
  have hshapes : scene.shapes = [(Store.contentOf ids found).1] := hscene ▸ rfl
  have hdistinct : (idsIn scene.shapes).Nodup := by
    rw [hshapes, idsIn_cons, idsIn_nil, List.append_nil]
    exact hsound.distinct
  have hcovers : loaded.desk.ids.Covers scene.tree.ids := by
    rw [hids, hscene]
    exact Scene.covers_tree_ofContent hsound.covered
  have hroom' : loaded.desk.ids.floor + 1 < 2 ^ 64 := by
    have hle := Store.floor_contentOf_le ids found
    have hmax : NodeId.maxRestored + 1 < 2 ^ 64 := by decide
    rw [hids]
    omega
  refine ⟨fun node hnode => ⟨Scene.finds_of_nodup hdistinct hnode, fun hne => ?_,
    fun heq => ?_⟩, ?_⟩
  · exact Desk.opens_of_nodup hdistinct hcovers hroom' hnode hne
  · rw [heq]
    exact Desk.add_rootId hcovers hroom'
  · rw [← Store.rootId_mem_contentOf ids, hshapes]
    simp only [nodesIn, List.append_nil, Shape.ids, List.mem_map]

/-- A stored combinator that is called like the root is loaded and cannot be opened: a node that
is meant for it goes to the root. -/
theorem addresses_loaded_of_rootId :
    let inner : Shape := .combinator .union [.custom "x" .identity ⟨"2"⟩] .zero .identity
      Scene.rootId
    let shape : Shape := .combinator .union [inner] .zero .identity ⟨"1"⟩
    ∃ (loaded : Session) (between : Memory),
      (ofStore Memory.store .standard).run ⟨[(Store.rootKey, shape.encoded)], []⟩ =
          (loaded, between) ∧
        loaded.desk.scene.shapes = [shape] ∧ inner ∈ nodesIn loaded.desk.scene.shapes ∧
        ∃ after, loaded.desk.add .custom inner.id = .ok (⟨"3"⟩, after) ∧
          after.scene.shapes = [shape, .ofKind ⟨"3"⟩ .custom] := by
  intro inner shape
  have hrestore : Shape.restore shape.encoded .fresh =
      .ok (shape, ⟨max 0 (NodeId.highest shape.ids)⟩) :=
    restore_encoded_eq_ok.mpr ⟨by decide +kernel, rfl⟩
  have hhighest : NodeId.highest shape.ids = 2 := by decide +kernel
  generalize hmemory : (⟨[(Store.rootKey, shape.encoded)], []⟩ : Memory) = memory
  have hsound : memory.IsSound := hmemory ▸ rfl
  have hentry : memory.get? Store.rootKey = some shape.encoded :=
    hmemory ▸ List.lookup_cons_self
  have hdesk := desk_ofStore Memory.store .standard memory
  rw [Store.answer, Memory.run_get hsound, hentry, Store.contentOf, hrestore, hhighest] at hdesk
  rcases hopen : (ofStore Memory.store .standard).run memory with ⟨loaded, between⟩
  rw [hopen] at hdesk
  have hshapes : loaded.desk.scene.shapes = [shape] :=
    congrArg (fun desk : Desk => desk.scene.shapes) hdesk
  have hids : loaded.desk.ids = ⟨2⟩ := congrArg Desk.ids hdesk
  have hinner : inner ∈ nodesIn loaded.desk.scene.shapes := by
    rw [hshapes]
    exact List.mem_cons_of_mem _ List.mem_cons_self
  have hroom : loaded.desk.ids.floor + 1 < 2 ^ 64 := by
    rw [hids]
    decide
  have hloaded : loaded = ((ofStore Memory.store .standard).run memory).1 := by rw [hopen]
  obtain ⟨hnodes, -⟩ := addresses_loaded Memory.store .standard hroom memory (Or.inl hloaded)
  obtain ⟨id, after, hadd, hafter⟩ := (hnodes inner hinner).2.2 rfl .custom
  have hid : id = ⟨"3"⟩ := by
    rw [Desk.add_id hadd, hids]
    decide +kernel
  rw [hid] at hadd hafter
  rw [hshapes] at hafter
  exact ⟨loaded, between, rfl, hshapes, hinner, after, hadd, hafter⟩

end Session

end SdfScene
