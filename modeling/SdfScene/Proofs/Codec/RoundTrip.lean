import SdfScene.Proofs.Codec.Nesting

/-!
# Shape documents round-trip

A tree of at most thirty-one generations is restored from its document as it was, and the
allocator is raised to the highest number among its ids. A higher tree is nested deeper
than a reader goes, so its document is refused as malformed.
-/

namespace SdfScene

open Json Codec

instance (x : Single) : Decidable x.ReadsBack := decidable_of_iff _ Single.readsBack_iff.symm

namespace Shape

/-- The document of a shape is read whole and then decoded. -/
theorem ofDocument_encoded (shape : Shape) :
    Shape.ofDocument shape.encoded =
      check ((shapeDoc shape).readFault? depthLimit) >>= fun _ =>
        decodeShapeAt depthLimit .whole (shapeDoc shape) := by
  rw [ofDocument, encoded, (written_shapeDoc shape).decodeAll_encoded, decodeShape]
  exact decodeShapeAt_shapeDoc_eq 126 (.direct depthLimit) shape

/-- A tree of thirty-two generations is nested too deep for a reader. -/
theorem ofDocument_encoded_of_high {shape : Shape} (h : 32 ≤ shape.height) :
    Shape.ofDocument shape.encoded = .error (.plain .malformed) := by
  have hwritten := written_shapeDoc shape
  rw [ofDocument_encoded]
  cases hfault : (shapeDoc shape).readFault? depthLimit with
  | none =>
    have hfits := fits_shapeDoc.mp ((hwritten.readFault?_eq_none depthLimit).mp hfault)
    have hheight : 4 * shape.height ≤ 127 := hfits.1
    omega
  | some fault =>
    rw [hwritten.eq_malformed hfault]
    rfl

/-- A tree with distinct ids is decoded as itself exactly if it has at most thirty-one
generations and its numbers read back. -/
theorem ofDocument_encoded_eq_ok {shape : Shape} (hdistinct : shape.ids.Nodup) :
    Shape.ofDocument shape.encoded = .ok shape ↔
      shape.height ≤ 31 ∧ ∀ x ∈ shape.numbers, x.ReadsBack := by
  constructor
  · intro h
    have hheight : shape.height < 32 := by
      refine Nat.lt_of_not_le fun hhigh => ?_
      rw [ofDocument_encoded_of_high hhigh] at h
      cases h
    rw [ofDocument_encoded] at h
    obtain ⟨done, -, h⟩ := Outcome.bind_eq_ok.mp h
    exact ⟨Nat.le_of_lt_succ hheight, ((decodeShapeAt_shapeDoc hdistinct).mp h).2⟩
  · intro ⟨hheight, hnumbers⟩
    have hfits : (shapeDoc shape).Fits depthLimit := by
      refine fits_shapeDoc.mpr ⟨?_, fun x hx => (hnumbers x hx).legible⟩
      rw [depthLimit]
      omega
    rw [ofDocument_encoded, ((written_shapeDoc shape).readFault?_eq_none depthLimit).mpr hfits]
    refine (decodeShapeAt_shapeDoc hdistinct).mpr ⟨?_, hnumbers⟩
    rw [depthLimit]
    omega

/-- A tree that comes back from its own document. -/
structure Restorable (shape : Shape) : Prop where
  distinct : shape.ids.Nodup
  small : Allocator.Covers ⟨NodeId.maxRestored⟩ shape.ids
  low : shape.height ≤ 31
  readsBack : ∀ x ∈ shape.numbers, x.ReadsBack

instance (shape : Shape) : Decidable shape.Restorable :=
  decidable_of_iff (shape.ids.Nodup ∧ Allocator.Covers ⟨NodeId.maxRestored⟩ shape.ids ∧
      shape.height ≤ 31 ∧ ∀ x ∈ shape.numbers, x.ReadsBack)
    ⟨fun h => ⟨h.1, h.2.1, h.2.2.1, h.2.2.2⟩, fun h => ⟨h.distinct, h.small, h.low, h.readsBack⟩⟩

/-- A tree is restored from its document exactly if it is restorable, and then the floor is
raised to the highest number among its ids. -/
theorem restore_encoded_eq_ok {shape : Shape} {ids after : Allocator} :
    Shape.restore shape.encoded ids = .ok (shape, after) ↔
      shape.Restorable ∧ after = ⟨max ids.floor (NodeId.highest shape.ids)⟩ := by
  rw [restore_eq_ok]
  constructor
  · rintro ⟨hdocument, hdistinct, hsmall, hafter⟩
    obtain ⟨hlow, hreadsBack⟩ := (ofDocument_encoded_eq_ok hdistinct).mp hdocument
    exact ⟨⟨hdistinct, hsmall, hlow, hreadsBack⟩, hafter⟩
  · rintro ⟨⟨hdistinct, hsmall, hlow, hreadsBack⟩, hafter⟩
    exact ⟨(ofDocument_encoded_eq_ok hdistinct).mpr ⟨hlow, hreadsBack⟩, hdistinct, hsmall, hafter⟩

/-- The document of a higher tree is refused, whatever its ids and numbers are. -/
theorem restore_encoded_of_high {shape : Shape} (h : 32 ≤ shape.height) (ids : Allocator) :
    Shape.restore shape.encoded ids = .error (.document (.plain .malformed)) := by
  rw [restore, ofDocument_encoded_of_high h]

/-- A document of at most thirty-one generations gives back its tree, every field of it, and
raises the floor to the highest number among the ids; that of a higher tree is malformed, and
no allocator comes back. -/
theorem restore_encoded {shape : Shape} (hdistinct : shape.ids.Nodup)
    (hsmall : Allocator.Covers ⟨NodeId.maxRestored⟩ shape.ids)
    (hreadsBack : ∀ x ∈ shape.numbers, x.ReadsBack) (ids : Allocator) :
    (shape.height ≤ 31 → Shape.restore shape.encoded ids =
      .ok (shape, ⟨max ids.floor (NodeId.highest shape.ids)⟩)) ∧
    (32 ≤ shape.height → Shape.restore shape.encoded ids =
      .error (.document (.plain .malformed))) :=
  ⟨fun hlow => restore_encoded_eq_ok.mpr ⟨⟨hdistinct, hsmall, hlow, hreadsBack⟩, rfl⟩,
    fun hhigh => restore_encoded_of_high hhigh ids⟩

/-- A sphere and some code under ids of which one is no number. -/
theorem restore_encoded_of_two :
    let shape : Shape := .combinator .union
      [.ofKind ⟨"12"⟩ (.primitive .sphere),
        .custom "Col(1.0,\n\tvec3(0.5)) // ü" .identity ⟨"\"ü"⟩]
      (.ofRatio false 1 4) .identity ⟨"7"⟩
    shape.Restorable ∧
      Shape.restore shape.encoded ⟨9⟩ = .ok (shape, ⟨max 9 (NodeId.highest shape.ids)⟩) := by
  intro shape
  have hrestorable : shape.Restorable := by decide +kernel
  exact ⟨hrestorable, (restore_encoded hrestorable.distinct hrestorable.small
    hrestorable.readsBack ⟨9⟩).1 hrestorable.low⟩

end Shape

end SdfScene
