import SdfScene.Proofs.Codec.RoundTrip

/-!
# Restoring into an allocator

A text that is restored raises the floor of an allocator past the numbers in it, and a text that
is refused leaves the allocator as it is. The ids are observed on a copy, in an order that does
not matter, and the copy takes the place of the allocator only once all of them are. What is
restored has its child maps as they stand in the document, each child under its own id.
-/

namespace SdfScene

open Json Codec Shape

/-! Child maps. -/

namespace Codec

/-- The members of a shape that are not its kind are members of the document. -/
private theorem takeKind_subset {reading : Reading} {ending : Ending}
    (members : List (Option String × Doc)) {found : Option Kind} {kind : Kind}
    {others : List (Option String × Doc)}
    (h : takeKind reading members ending found = .ok (kind, others)) : others ⊆ members := by
  induction members generalizing found others with
  | nil =>
    obtain ⟨_, -, h⟩ := Outcome.bind_eq_ok.mp h
    cases found with
    | none => cases h
    | some _ =>
      cases h
      exact List.Subset.refl _
  | cons member members ih =>
    obtain ⟨key, value⟩ := member
    cases key with
    | none => cases h
    | some key =>
      rw [takeKind] at h
      by_cases hkey : key = "kind"
      · rw [if_pos hkey] at h
        split at h
        · cases h
        · obtain ⟨kind, -, h⟩ := Outcome.bind_eq_ok.mp h
          exact List.subset_cons_of_subset _ (ih h)
      · rw [if_neg hkey] at h
        obtain ⟨_, -, h⟩ := Outcome.bind_eq_ok.mp h
        obtain ⟨⟨_, rest⟩, hrest, h⟩ := Outcome.map_eq_ok.mp h
        cases h
        exact List.cons_subset_cons _ (ih hrest)

/-- The fields of a shape are parts of its document. -/
theorem parts_splitKind {reading : Reading} {doc fields : Doc} {kind : Kind}
    (h : splitKind reading doc = .ok (kind, fields)) : fields.parts ⊆ doc.parts := by
  cases doc with
  | object members ending =>
    obtain ⟨inner, -, h⟩ := Outcome.bind_eq_ok.mp h
    obtain ⟨⟨_, others⟩, hothers, h⟩ := Outcome.bind_eq_ok.mp h
    cases h
    exact List.map_subset _ (takeKind_subset members hothers)
  | array items ending =>
    cases items with
    | nil =>
      obtain ⟨_, -, h⟩ := Outcome.bind_eq_ok.mp h
      cases h
    | cons first items =>
      obtain ⟨inner, -, h⟩ := Outcome.bind_eq_ok.mp h
      obtain ⟨_, -, h⟩ := Outcome.bind_eq_ok.mp h
      obtain ⟨_, -, h⟩ := Outcome.bind_eq_ok.mp h
      cases h
      exact List.subset_cons_self _ _
  | _ => cases h

/-- The children of a decoded shape were decoded as a child map from a part of the document. -/
theorem exists_childMap {bound : Nat} {reading : Reading} {doc : Doc} {shape : Shape}
    (h : decodeShapeAt (bound + 1) reading doc = .ok shape) {children : List Shape}
    (hchildren : shape.children? = some children) :
    ∃ inner, ∃ part ∈ doc.parts,
      decodeChildren (decodeShapeAt bound) inner part = .ok children := by
  obtain ⟨⟨kind, fields⟩, hsplit, h⟩ := Outcome.bind_eq_ok.mp h
  obtain ⟨values, hvalues, h⟩ := Outcome.bind_eq_ok.mp h
  have hgives := decodeRecord_forall (P := fun value => ∀ children, value = .children children →
      ∃ inner, ∃ part ∈ fields.parts,
        decodeChildren (decodeShapeAt bound) inner part = .ok children)
    (fieldsOf_gives (fun _ _ _ _ _ _ _ h => nomatch h) (fun _ _ _ _ _ _ h => nomatch h)
      (fun _ _ _ _ _ _ h => nomatch h) (fun _ _ h => nomatch h) (fun _ _ h => nomatch h) ?_ kind)
    hvalues
  · split at h
    · next found hshape =>
      cases h
      obtain ⟨-, rfl⟩ := shapeOf?_eq_some.mp hshape
      cases shape with
      | primitive => cases hchildren
      | custom => cases hchildren
      | combinator =>
        cases hchildren
        obtain ⟨inner, part, hpart, hdecode⟩ := hgives (.children children) List.mem_cons_self _ rfl
        exact ⟨inner, part, parts_splitKind hsplit hpart, hdecode⟩
    · cases h
  · intro inner part hpart value hvalue children hsame
    cases hsame
    exact ⟨inner, part, hpart, hvalue⟩

end Codec

namespace Shape

/-- For the children of each node there is a child map in a document that has them in their order,
each under its own id. -/
def KeyedIn (shape : Shape) (doc : Doc) : Prop :=
  ∀ node ∈ shape.nodes, ∀ children, node.children? = some children →
    ∃ bound reading part, part.Within doc ∧
      decodeEntries (decodeShapeAt bound) reading part =
        .ok (children.map fun child => (child.id, child))

/-- A shape has its child maps from the document that it was decoded from, however deep they are
nested. -/
theorem keyedIn_of_decodeShapeAt (bound : Nat) {reading : Reading} {doc : Doc} {shape : Shape}
    (h : decodeShapeAt bound reading doc = .ok shape) : shape.KeyedIn doc := by
  induction bound generalizing reading doc shape with
  | zero => cases h
  | succ bound ih =>
    intro node hnode children hchildren
    rw [nodes_eq_cons] at hnode
    rcases List.mem_cons.mp hnode with rfl | hbelow
    · obtain ⟨inner, part, hpart, hdecode⟩ := exists_childMap h hchildren
      exact ⟨bound, inner, part, .single hpart, entries_of_decodeChildren hdecode⟩
    · obtain ⟨child, hchild, hmem⟩ := List.mem_flatMap.mp hbelow
      cases hown : shape.children? with
      | none =>
        rw [hown] at hchild
        cases hchild
      | some siblings =>
        rw [hown, Option.getD_some] at hchild
        obtain ⟨_, part, hpart, hdecode⟩ := exists_childMap h hown
        obtain ⟨_, below, hwithin, hshape⟩ := exists_of_mem_decodeChildren hdecode child hchild
        obtain ⟨bound, inner, last, hlast, hentries⟩ := ih hshape node hmem children hchildren
        exact ⟨bound, inner, last, (hlast.trans hwithin).tail hpart, hentries⟩

end Shape

/-! Observed ids. -/

/-- More ids have a higher highest number. -/
theorem NodeId.highest_mono {seen more : List NodeId} (h : seen ⊆ more) :
    highest seen ≤ highest more :=
  highest_le.mpr ((highest_le.mp (Nat.le_refl _)).of_subset h)

/-- The order in which ids are observed does not matter, as long as none of them is too large. -/
theorem Allocator.observeAll_perm {ids after : Allocator} {seen other : List NodeId}
    (h : seen.Perm other) : ids.observeAll seen = .ok after ↔ ids.observeAll other = .ok after := by
  have hhighest : NodeId.highest seen = NodeId.highest other :=
    Nat.le_antisymm (NodeId.highest_mono h.subset) (NodeId.highest_mono h.symm.subset)
  rw [observeAll_eq_ok, observeAll_eq_ok, hhighest, ← NodeId.highest_le, ← NodeId.highest_le,
    hhighest]

namespace Shape

/-- Restore a shape and raise the allocator that is the state, with the ids observed in some
order: first on a copy, which is put in its place at the end. -/
def restoring (order : List NodeId → List NodeId) (text : String) :
    ExceptT SceneError (StateM Allocator) Shape := do
  match Shape.ofDocument text with
  | .error fault => throw (.document fault)
  | .ok shape =>
    match NodeId.firstRepeated? [] shape.ids with
    | some id => throw (.duplicateId id)
    | none =>
      match (← get).observeAll (order shape.ids) with
      | .error e => throw e
      | .ok observed =>
        set observed
        return shape

section Order

variable {order : List NodeId → List NodeId} (horder : ∀ seen, (order seen).Perm seen)
  {text : String} {ids after : Allocator}

include horder

/-- Whatever the order is, the same shapes are restored and the same allocators come out; and
where nothing is restored, the allocator stays. -/
theorem restoring_cases {outcome : Except SceneError Shape}
    (h : (restoring order text).run.run ids = (outcome, after)) :
    (∃ shape, outcome = .ok shape ∧ Shape.restore text ids = .ok (shape, after)) ∨
    (∃ e other, outcome = .error e ∧ after = ids ∧ Shape.restore text ids = .error other) := by
  rw [restoring] at h
  unfold Shape.restore
  cases hdocument : Shape.ofDocument text with
  | error fault =>
    rw [hdocument] at h
    obtain ⟨rfl, rfl⟩ := Prod.mk.inj h
    exact Or.inr ⟨_, _, rfl, rfl, rfl⟩
  | ok shape =>
    rw [hdocument] at h
    dsimp only at h ⊢
    cases hrepeated : NodeId.firstRepeated? [] shape.ids with
    | some id =>
      rw [hrepeated] at h
      obtain ⟨rfl, rfl⟩ := Prod.mk.inj h
      exact Or.inr ⟨_, _, rfl, rfl, rfl⟩
    | none =>
      rw [hrepeated] at h
      change ((match ids.observeAll (order shape.ids) with
        | .error e => throw e
        | .ok observed => do
          set observed
          return shape : ExceptT SceneError (StateM Allocator) Shape)).run.run ids =
            (outcome, after) at h
      have hsame : ∀ later, ids.observeAll (order shape.ids) = .ok later ↔
          ids.observeAll shape.ids = .ok later :=
        fun later => Allocator.observeAll_perm (horder shape.ids)
      cases hobserved : ids.observeAll (order shape.ids) with
      | error e =>
        rw [hobserved] at h
        obtain ⟨rfl, rfl⟩ := Prod.mk.inj h
        cases hdirect : ids.observeAll shape.ids with
        | error other => exact Or.inr ⟨e, other, rfl, rfl, rfl⟩
        | ok later => cases hobserved.symm.trans ((hsame later).mpr hdirect)
      | ok observed =>
        rw [hobserved] at h
        obtain ⟨rfl, rfl⟩ := Prod.mk.inj h
        refine Or.inl ⟨shape, rfl, ?_⟩
        dsimp only
        rw [(hsame observed).mp hobserved]

/-- A text is restored in some order exactly if it is restored. -/
theorem run_restoring_eq_ok {shape : Shape} :
    (restoring order text).run.run ids = (.ok shape, after) ↔
      Shape.restore text ids = .ok (shape, after) := by
  rcases hrun : (restoring order text).run.run ids with ⟨outcome, later⟩
  rcases restoring_cases horder hrun with ⟨found, rfl, hrestore⟩ | ⟨e, other, rfl, -, hrestore⟩
  · rw [hrestore]
    constructor
    · intro h
      cases h
      rfl
    · intro h
      cases h
      rfl
  · rw [hrestore]
    refine iff_of_false (fun h => ?_) (fun h => ?_)
    · cases h
    · cases h

end Order

/-- Whatever order ids are observed in: a text that is restored has its child maps keyed by the
ids of the children, no id twice, finite numbers only and no id above the largest that may be
restored, and it raises the floor to the highest number among its ids if that is above it. So
unless the floor is the largest number there is, the next id is none of them, nor is it another
spelling of one. A text that is refused leaves the allocator alone. -/
theorem restoring_sound {order : List NodeId → List NodeId}
    (horder : ∀ seen, (order seen).Perm seen) {text : String} {ids after : Allocator}
    {outcome : Except SceneError Shape}
    (h : (restoring order text).run.run ids = (outcome, after)) :
    (∀ shape, outcome = .ok shape →
      Shape.restore text ids = .ok (shape, after) ∧
      shape.KeyedIn (Doc.ofText text.toList).1 ∧ shape.ids.Nodup ∧
      (∀ x ∈ shape.numbers, x.isFinite) ∧
      (∀ id ∈ shape.ids, ∀ n, id.number? = some n → n ≤ 2 ^ 53 - 1) ∧
      after.floor = max ids.floor (NodeId.highest shape.ids) ∧
      (ids.floor + 1 < 2 ^ 64 → ∀ id ∈ shape.ids,
        id ≠ after.next.1 ∧ id.number? ≠ after.next.1.number?)) ∧
    (∀ e, outcome = .error e →
      after = ids ∧ ∃ other, Shape.restore text ids = .error other) := by
  rcases restoring_cases horder h with ⟨shape, rfl, hrestore⟩ | ⟨e, other, rfl, hsame, hrestore⟩
  · refine ⟨fun found hfound => ?_, fun e herror => ?_⟩
    · cases hfound
      have hsound := sound_of_restore hrestore
      obtain ⟨hdocument, hdistinct, hsmall, hafter⟩ := restore_eq_ok.mp hrestore
      have hfloor : after.floor = max ids.floor (NodeId.highest shape.ids) := by rw [hafter]
      have hhighest : NodeId.highest shape.ids ≤ 2 ^ 53 - 1 := NodeId.highest_le.mpr hsmall
      refine ⟨hrestore, keyedIn_of_decodeShapeAt depthLimit (decodeAll_eq_ok.mp hdocument).1,
        hdistinct, hsound.finite, hsmall, hfloor, fun hroom id hid => ?_⟩
      have hfits : after.floor + 1 < 2 ^ 64 := by omega
      have hnumber := hsound.covered.number?_ne_next hfits hid
      exact ⟨fun hsame => hnumber (congrArg NodeId.number? hsame), hnumber⟩
    · cases herror
  · refine ⟨fun found hfound => ?_, fun _ _ => ⟨hsame, other, hrestore⟩⟩
    cases hfound

/-- A tree with an id that is no number and one that is written like none that is issued. -/
theorem restoring_sound_of_reversed :
    let shape : Shape := .combinator .union
      [.custom "c" .identity ⟨"007"⟩, .custom "d" .identity ⟨"seven"⟩] .zero .identity ⟨"3"⟩
    ∃ after : Allocator, (restoring List.reverse shape.encoded).run.run ⟨5⟩ = (.ok shape, after) ∧
      after.floor = max 5 (NodeId.highest shape.ids) ∧ ∀ id ∈ shape.ids, id ≠ after.next.1 := by
  intro shape
  have hrestorable : shape.Restorable := by decide +kernel
  have horder : ∀ seen : List NodeId, seen.reverse.Perm seen := List.reverse_perm
  obtain ⟨after, hrun⟩ : ∃ after,
      (restoring List.reverse shape.encoded).run.run ⟨5⟩ = (.ok shape, after) :=
    ⟨_, (run_restoring_eq_ok horder).mpr (restore_encoded_eq_ok.mpr ⟨hrestorable, rfl⟩)⟩
  obtain ⟨-, -, -, -, -, hfloor, hnext⟩ := (restoring_sound horder hrun).1 shape rfl
  exact ⟨after, hrun, hfloor, fun id hid => (hnext (by decide) id hid).1⟩

end Shape

end SdfScene
