import SdfScene.Proofs.Codec.Generations
import SdfScene.Proofs.Session.Addressing

/-!
# Which issued ids can be restored

Ids are issued without a limit, but restored only up to the largest one that leaves room above it.
So an issued id can be restored exactly if the floor was below that limit, and so can the document
of a displayed shape that was restored and to which a node was added.
-/

namespace SdfScene

open Shape

/-! Observing. -/

/-- The next id can be restored exactly if the floor is below the largest one. -/
theorem Allocator.isSome_past?_next {ids : Allocator} (hroom : ids.floor + 1 < 2 ^ 64)
    (other : Allocator) :
    (other.past? ids.next.1).isSome ↔ ids.floor < NodeId.maxRestored := by
  rw [past?, next, NodeId.number?_ofNumber hroom]
  by_cases hsmall : ids.floor + 1 ≤ NodeId.maxRestored
  · exact iff_of_true (by simp [hsmall]) hsmall
  · exact iff_of_false (by simp [hsmall]) hsmall

/-- Of ids that are observed one after the other, a last one that is too large is reported. -/
theorem Allocator.observeAll_append_singleton {ids : Allocator} {seen : List NodeId}
    (hseen : Allocator.Covers ⟨NodeId.maxRestored⟩ seen) {id : NodeId}
    (hlarge : ∀ other : Allocator, other.past? id = none) :
    ids.observeAll (seen ++ [id]) = .error (.idOutOfRange id) := by
  induction seen generalizing ids with
  | nil => rw [List.nil_append, observeAll, hlarge]
  | cons first seen ih =>
    obtain ⟨hfirst, hrest⟩ := List.forall_mem_cons.mp hseen
    rw [List.cons_append, observeAll, past?]
    cases hnumber : first.number? with
    | none => exact ih hrest
    | some n =>
      simp only [if_pos (hfirst n hnumber)]
      exact ih hrest

/-! Growing. -/

namespace Shape

/-- A shape with a new node behind its children. -/
def grown (kind : Kind) (id : NodeId) (shape : Shape) : Shape :=
  shape.withChildren (shape.children?.getD [] ++ [.ofKind id kind])

variable {shape : Shape} {kind : Kind} {id : NodeId}

theorem children?_grown (hcombinator : shape.isCombinator) :
    (shape.grown kind id).children? = some (shape.children?.getD [] ++ [.ofKind id kind]) := by
  obtain ⟨children, hchildren⟩ := exists_children_of_isCombinator hcombinator
  exact children?_withChildren hchildren _

/-- The new id is the last one of the grown shape. -/
theorem ids_grown (hcombinator : shape.isCombinator) :
    (shape.grown kind id).ids = shape.ids ++ [id] := by
  obtain ⟨children, hchildren⟩ := exists_children_of_isCombinator hcombinator
  rw [grown, hchildren, Option.getD_some, ids_appended hchildren, ids_ofKind]

theorem nodup_ids_grown (h : shape.Restorable) (hcombinator : shape.isCombinator)
    (hfresh : id ∉ shape.ids) : (shape.grown kind id).ids.Nodup := by
  rw [ids_grown hcombinator, List.nodup_append_comm, List.singleton_append, List.nodup_cons]
  exact ⟨hfresh, h.distinct⟩

/-- A new node adds a generation only to a shape that had no children. -/
theorem height_grown (hcombinator : shape.isCombinator) {bound : Nat} (hbound : 1 < bound)
    (h : shape.height ≤ bound) : (shape.grown kind id).height ≤ bound := by
  obtain ⟨bound, rfl⟩ : ∃ below, bound = below + 1 := ⟨bound - 1, by omega⟩
  rw [height_le_succ] at h ⊢
  rw [children?_grown hcombinator, Option.getD_some, List.forall_mem_append]
  refine ⟨h, List.forall_mem_singleton.mpr ?_⟩
  have hone : (ofKind id kind).height = 1 := by cases kind <;> rfl
  rw [hone]
  omega

theorem numbers_grown (hcombinator : shape.isCombinator) :
    (shape.grown kind id).numbers = shape.numbers ++ (ofKind id kind).numbers := by
  obtain ⟨children, hchildren⟩ := exists_children_of_isCombinator hcombinator
  rw [grown, hchildren, Option.getD_some, numbers_appended hchildren]

/-- The document of a grown shape is decoded as the shape. -/
theorem ofDocument_grown (h : shape.Restorable) (hcombinator : shape.isCombinator)
    (hfresh : id ∉ shape.ids) :
    Shape.ofDocument (shape.grown kind id).encoded = .ok (shape.grown kind id) := by
  have hdistinct : (shape.grown kind id).ids.Nodup := nodup_ids_grown h hcombinator hfresh
  refine (ofDocument_encoded_eq_ok hdistinct).mpr ⟨height_grown hcombinator (by decide) h.low, ?_⟩
  rw [numbers_grown hcombinator, List.forall_mem_append]
  refine ⟨h.readsBack, fun x hx => ?_⟩
  exact Single.readsBack_of_isFinite (isFinite_of_mem_ofKind id kind x hx)

/-- So the grown shape is restored if the new id is small enough. -/
theorem restore_grown (h : shape.Restorable) (hcombinator : shape.isCombinator)
    (hfresh : id ∉ shape.ids) (hsmall : ∀ n, id.number? = some n → n ≤ NodeId.maxRestored)
    (other : Allocator) : ∃ later,
      Shape.restore (shape.grown kind id).encoded other = .ok (shape.grown kind id, later) := by
  refine ⟨_, restore_eq_ok.mpr ⟨ofDocument_grown h hcombinator hfresh,
    nodup_ids_grown h hcombinator hfresh, ?_, rfl⟩⟩
  rw [ids_grown hcombinator]
  exact List.forall_mem_append.mpr ⟨h.small, List.forall_mem_singleton.mpr hsmall⟩

/-- Otherwise the new id is reported. -/
theorem restore_grown_error (h : shape.Restorable) (hcombinator : shape.isCombinator)
    (hfresh : id ∉ shape.ids) (hlarge : ∀ other : Allocator, other.past? id = none)
    (other : Allocator) :
    Shape.restore (shape.grown kind id).encoded other = .error (.idOutOfRange id) := by
  have hdistinct : (shape.grown kind id).ids.Nodup := nodup_ids_grown h hcombinator hfresh
  have hrepeated := NodeId.firstRepeated?_eq_none.mpr ⟨hdistinct, List.disjoint_nil_left _⟩
  rw [restore, ofDocument_grown h hcombinator hfresh]
  simp only [hrepeated]
  rw [ids_grown hcombinator, Allocator.observeAll_append_singleton h.small hlarge]

end Shape

/-- Adding under the displayed combinator makes it grow, unless it is called like the root. -/
theorem Desk.add_content {desk : Desk} {shape : Shape} (hscene : desk.scene = .ofContent shape)
    (hcovers : desk.ids.Covers shape.ids) (hroom : desk.ids.floor + 1 < 2 ^ 64)
    (hcombinator : shape.isCombinator) (kind : Kind) :
    ∃ after, desk.add kind shape.id = .ok (desk.ids.next.1, after) ∧
      after.scene.content? = some
        (if shape.id = Scene.rootId then shape else shape.grown kind desk.ids.next.1) := by
  have htree : desk.ids.Covers desk.scene.tree.ids := by
    rw [hscene]
    exact Scene.covers_tree_ofContent hcovers
  by_cases hroot : shape.id = Scene.rootId
  · have hgroup : desk.scene.group shape.id = .ok ⟨shape.id, [shape]⟩ := by
      rw [hscene, Scene.group, if_pos hroot]
      rfl
    obtain ⟨id, after, hadd, hafter⟩ := add_of_group htree hroom hgroup kind
    obtain rfl := add_id hadd
    refine ⟨after, hadd, ?_⟩
    rw [hafter, Scene.withGroup, if_pos hroot, if_pos hroot]
    rfl
  · have hfound : (Scene.ofContent shape).find? shape.id = some shape := by
      rw [Scene.find?, Scene.ofContent, findIn?, find?_self]
      rfl
    obtain ⟨children, hchildren⟩ := exists_children_of_isCombinator hcombinator
    have hgroup : desk.scene.group shape.id = .ok ⟨shape.id, children⟩ := by
      rw [hscene]
      refine Scene.group_of_find? ?_ hchildren
      rwa [Scene.find?_tree hroot]
    obtain ⟨id, after, hadd, hafter⟩ := add_of_group htree hroom hgroup kind
    obtain rfl := add_id hadd
    refine ⟨after, hadd, ?_⟩
    rw [hafter, hscene, if_neg hroot, Scene.withGroup, if_neg hroot]
    simp only [Scene.update, Scene.ofContent, updateIn?, update?_self, Option.getD_some,
      Scene.content?, List.head?_cons, grown, hchildren]

namespace Session

/-- What a session saves after a node was added under the displayed combinator. -/
theorem add_content (session : Session) {shape : Shape}
    (hscene : session.desk.scene = .ofContent shape) (hcovers : session.desk.ids.Covers shape.ids)
    (hroom : session.desk.ids.floor + 1 < 2 ^ 64) (hcombinator : shape.isCombinator) (kind : Kind) :
    ∃ after, session.add kind shape.id = (.ok session.desk.ids.next.1, after) ∧
      after.documents.root = some (if shape.id = Scene.rootId then shape
        else shape.grown kind session.desk.ids.next.1).encoded := by
  obtain ⟨desk, hadd, hcontent⟩ := Desk.add_content hscene hcovers hroom hcombinator kind
  refine ⟨{ session with desk }, by rw [add, hadd, edit], ?_⟩
  rw [documents, hcontent]
  rfl

/-- The largest id that can be restored is followed by one that cannot: the document of a union
under this id is refused after a node was added to the union. -/
theorem refused_after_largest :
    let shape : Shape := .combinator .union [] .zero .identity ⟨"9007199254740991"⟩
    let ids : Allocator := ⟨9007199254740991⟩
    let session : Session := ⟨⟨.ofContent shape, ids, []⟩, Builtin.camera, .inPlace, false, none⟩
    Allocator.fresh.past? ⟨"9007199254740991"⟩ = some ids ∧
      Allocator.fresh.past? ids.next.1 = none ∧
      Shape.restore shape.encoded .fresh = .ok (shape, ids) ∧
      ∃ after grown, session.add .custom shape.id = (.ok ids.next.1, after) ∧
        after.documents.root = some grown ∧
        Shape.restore grown .fresh = .error (.idOutOfRange ids.next.1) := by
  intro shape ids session
  have hrestorable : shape.Restorable := by decide +kernel
  have hlarge : ∀ other : Allocator, other.past? ids.next.1 = none := by
    intro other
    rw [← Option.not_isSome_iff_eq_none, Allocator.isSome_past?_next (by decide)]
    decide
  have hrestore : Shape.restore shape.encoded .fresh = .ok (shape, ids) :=
    restore_encoded_eq_ok.mpr ⟨hrestorable, by decide +kernel⟩
  obtain ⟨after, hadd, hsaved⟩ := session.add_content rfl
    (sound_of_restore hrestore).covered (by decide) rfl .custom
  refine ⟨by decide +kernel, hlarge .fresh, hrestore, after, _, hadd, hsaved, ?_⟩
  rw [if_neg (by decide)]
  exact restore_grown_error hrestorable rfl (by decide +kernel) hlarge .fresh

/-- An issued id can be restored exactly if the floor was below the largest one that can. So a
document that was restored gives one that can be restored, after a node was added under the
displayed combinator, if it leaves the floor below that; otherwise the new id is refused, unless
the combinator is called like the root and the node is not part of the document. -/
theorem restorable_issued :
    (∀ ids : Allocator, ids.floor + 1 < 2 ^ 64 →
      ((Allocator.fresh.past? ids.next.1).isSome ↔ ids.floor < NodeId.maxRestored)) ∧
    ∀ (text : String) (start ids : Allocator) (shape : Shape) (session : Session) (kind : Kind),
      Shape.restore text start = .ok (shape, ids) → shape.isCombinator →
      ids.floor + 1 < 2 ^ 64 → session.desk.scene = .ofContent shape → session.desk.ids = ids →
      ∃ after saved, session.add kind shape.id = (.ok ids.next.1, after) ∧
        after.documents.root = some saved.encoded ∧
        (shape.id ≠ Scene.rootId → saved.ids = shape.ids ++ [ids.next.1]) ∧
        (ids.floor < NodeId.maxRestored → ∀ other,
          ∃ later, Shape.restore saved.encoded other = .ok (saved, later)) ∧
        (NodeId.maxRestored ≤ ids.floor → shape.id ≠ Scene.rootId → ∀ other,
          Shape.restore saved.encoded other = .error (.idOutOfRange ids.next.1)) := by
  refine ⟨fun ids hroom => Allocator.isSome_past?_next hroom .fresh, ?_⟩
  intro text start ids shape session kind hrestore hcombinator hroom hscene hids
  subst hids
  have hcovers := (sound_of_restore hrestore).covered
  have hfresh := hcovers.next_notMem hroom
  have hrestorable := restorable_of_restore hrestore
  obtain ⟨after, hadd, hsaved⟩ := session.add_content hscene hcovers hroom hcombinator kind
  refine ⟨after, _, hadd, hsaved, fun hroot => ?_, fun hbelow other => ?_,
    fun habove hroot other => ?_⟩
  · rw [if_neg hroot, ids_grown hcombinator]
  · by_cases hroot : shape.id = Scene.rootId
    · -- The node goes to the root, and the document stays what it was.
      rw [if_pos hroot]
      exact ⟨_, restore_encoded_eq_ok.mpr ⟨hrestorable, rfl⟩⟩
    · rw [if_neg hroot]
      apply restore_grown hrestorable hcombinator hfresh
      intro n hnumber
      rw [Allocator.next, NodeId.number?_ofNumber hroom] at hnumber
      exact Option.some.inj hnumber ▸ hbelow
  · rw [if_neg hroot]
    apply restore_grown_error hrestorable hcombinator hfresh
    intro issuer
    rw [← Option.not_isSome_iff_eq_none, Allocator.isSome_past?_next hroom]
    exact Nat.not_lt.mpr habove

/-- A sphere under a union of which the id is small. -/
theorem restorable_issued_of_union :
    let shape : Shape := .combinator .union [] .zero .identity ⟨"7"⟩
    let session : Session := ⟨⟨.ofContent shape, ⟨7⟩, []⟩, Builtin.camera, .inPlace, false, none⟩
    ∃ after saved later, session.add (.primitive .sphere) ⟨"7"⟩ = (.ok ⟨"8"⟩, after) ∧
      after.documents.root = some saved.encoded ∧ saved.ids = [⟨"7"⟩, ⟨"8"⟩] ∧
      Shape.restore saved.encoded .fresh = .ok (saved, later) := by
  intro shape session
  have hrestorable : shape.Restorable := by decide +kernel
  have hrestore : Shape.restore shape.encoded .fresh = .ok (shape, ⟨7⟩) :=
    restore_encoded_eq_ok.mpr ⟨hrestorable, by decide +kernel⟩
  obtain ⟨after, saved, hadd, hsaved, hids, hbelow, -⟩ := restorable_issued.2 shape.encoded .fresh
    ⟨7⟩ shape session (.primitive .sphere) hrestore rfl (by decide) rfl rfl
  obtain ⟨later, hagain⟩ := hbelow (by decide) .fresh
  exact ⟨after, saved, later, hadd, hsaved, hids (by decide), hagain⟩

end Session

end SdfScene
