import SdfScene.Proofs.Codec.Numbers
import SdfScene.Proofs.Codec.Restoring

/-!
# A restored tree has at most thirty-one generations

However a shape is written, its document is four levels deep for each generation, and a document
that is decoded while it is read is no deeper than the reader goes. So whatever is restored could
be restored from its own document as well.
-/

namespace SdfScene

open Json Codec

/-! How deep documents are. -/

namespace Json.Doc

private theorem depth_le_depthItems {items : List Doc} {item : Doc} (h : item ∈ items) :
    item.depth ≤ depthItems items := by
  induction items with
  | nil => exact absurd h List.not_mem_nil
  | cons first items ih =>
    rw [depthItems]
    rcases List.mem_cons.mp h with rfl | h
    · exact Nat.le_max_left _ _
    · exact Nat.le_trans (ih h) (Nat.le_max_right _ _)

private theorem depth_le_depthMembers {members : List (Option String × Doc)} {value : Doc}
    (h : value ∈ members.map Prod.snd) : value.depth ≤ depthMembers members := by
  induction members with
  | nil => exact absurd h List.not_mem_nil
  | cons member members ih =>
    obtain ⟨key, first⟩ := member
    rw [depthMembers]
    rcases List.mem_cons.mp h with rfl | h
    · exact Nat.le_max_left _ _
    · exact Nat.le_trans (ih h) (Nat.le_max_right _ _)

/-- A part is less deep than the document. -/
theorem depth_lt_of_mem_parts {part doc : Doc} (h : part ∈ doc.parts) : part.depth < doc.depth := by
  cases doc with
  | array items ending => exact Nat.lt_succ_of_le (depth_le_depthItems h)
  | object members ending => exact Nat.lt_succ_of_le (depth_le_depthMembers h)
  | _ => exact absurd h List.not_mem_nil

end Json.Doc

/-! What takes a level. -/

namespace Codec

theorem depth_pos_of_decodeRecord {α : Type} {fields : List (RecordField α)} {reading : Reading}
    {doc : Doc} {values : List α} (h : decodeRecord fields reading doc = .ok values) :
    0 < doc.depth := by
  cases doc with
  | array => exact Nat.succ_pos _
  | object => exact Nat.succ_pos _
  | _ => cases h

theorem two_le_depth_of_decodeEnvelope {tag : Tag} {names : List String} {reading : Reading}
    {doc : Doc} {amounts : List Amount}
    (h : decodeEnvelope tag (decodeAmounts names) reading doc = .ok amounts) : 2 ≤ doc.depth := by
  obtain ⟨inner, part, hpart, hpayload⟩ := exists_payload_of_decodeEnvelope h
  have hpos := depth_pos_of_decodeRecord hpayload
  have hlt := Doc.depth_lt_of_mem_parts hpart
  omega

theorem two_le_depth_of_decodeParam {type : ParamType} {reading : Reading} {doc : Doc}
    {value : Param} (h : decodeParam type reading doc = .ok value) : 2 ≤ doc.depth := by
  cases type with
  | scalar =>
    obtain ⟨x, hx, -⟩ := Outcome.map_eq_ok.mp h
    obtain ⟨amounts, hamounts, -⟩ := Outcome.bind_eq_ok.mp hx
    exact two_le_depth_of_decodeEnvelope hamounts
  | vector =>
    obtain ⟨v, hv, -⟩ := Outcome.map_eq_ok.mp h
    obtain ⟨amounts, hamounts, -⟩ := Outcome.bind_eq_ok.mp hv
    exact two_le_depth_of_decodeEnvelope hamounts

theorem three_le_depth_of_decodeTransform {reading : Reading} {doc : Doc} {t : Transform}
    (h : decodeTransform reading doc = .ok t) : 3 ≤ doc.depth := by
  obtain ⟨parts, hparts, h⟩ := Outcome.bind_eq_ok.mp h
  have hgives := decodeRecord_forall
    (P := fun _ : Param => ∃ part ∈ doc.parts, 2 ≤ part.depth) ?_ hparts
  · split at h
    · obtain ⟨part, hpart, htwo⟩ := hgives _ List.mem_cons_self
      have hlt := Doc.depth_lt_of_mem_parts hpart
      omega
    · cases h
  · have hfield : ∀ name type, (RecordField.required name (decodeParam type)).Gives doc.parts
        fun _ => ∃ part ∈ doc.parts, 2 ≤ part.depth := by
      intro name type
      exact .required fun _ part hpart _ hvalue =>
        ⟨part, hpart, two_le_depth_of_decodeParam hvalue⟩
    simp only [List.forall_mem_cons]
    exact ⟨hfield _ _, hfield _ _, hfield _ _, fun _ h => absurd h List.not_mem_nil⟩

/-- A shape is written with its transform, so it takes four levels without any children. -/
theorem four_le_depth_of_decodeShapeAt {bound : Nat} {reading : Reading} {doc : Doc}
    {shape : Shape} (h : decodeShapeAt bound reading doc = .ok shape) : 4 ≤ doc.depth := by
  cases bound with
  | zero => cases h
  | succ bound =>
    obtain ⟨⟨kind, fields⟩, hsplit, h⟩ := Outcome.bind_eq_ok.mp h
    obtain ⟨values, hvalues, h⟩ := Outcome.bind_eq_ok.mp h
    have hgives := decodeRecord_forall (P := fun value => ∀ t, value = .transform t →
        ∃ part ∈ fields.parts, 3 ≤ part.depth)
      (fieldsOf_gives (fun _ _ _ _ _ _ _ h => nomatch h) ?_
        (fun _ _ _ _ _ _ h => nomatch h) (fun _ _ h => nomatch h) (fun _ _ h => nomatch h)
        (fun _ _ _ _ _ _ h => nomatch h) kind) hvalues
    · split at h
      · next found hshape =>
        cases h
        obtain ⟨-, rfl⟩ := shapeOf?_eq_some.mp hshape
        have hmem : FieldValue.transform shape.transform ∈ valuesOf shape := by
          cases shape <;> simp [valuesOf, Shape.transform]
        obtain ⟨part, hpart, hthree⟩ := hgives _ hmem _ rfl
        have hlt := Doc.depth_lt_of_mem_parts (parts_splitKind hsplit hpart)
        omega
      · cases h
    · exact fun _ part hpart _ hvalue _ _ =>
        ⟨part, hpart, three_le_depth_of_decodeTransform hvalue⟩

/-- A child is three levels below the wrapper of the child map. -/
theorem exists_deep_of_mem_decodeChildren {decodeShape : Decoder Shape} {reading : Reading}
    {doc : Doc} {children : List Shape}
    (h : decodeChildren decodeShape reading doc = .ok children) :
    ∀ child ∈ children,
      ∃ inner part, part.depth + 3 ≤ doc.depth ∧ decodeShape inner part = .ok child := by
  obtain ⟨_, payload, hpayload, heach⟩ :=
    exists_payload_of_decodeEnvelope (entries_of_decodeChildren h)
  intro child hchild
  cases payload with
  | array items ending =>
    obtain ⟨item, hitem, hdecode⟩ :=
      Outcome.exists_of_mem_mapM heach (child.id, child) (List.mem_map_of_mem hchild)
    obtain ⟨inner, part, hpart, hshape⟩ := exists_of_decodeEntry hdecode
    have hentry := Doc.depth_lt_of_mem_parts hpart
    have harray : item.depth < (Doc.array items ending).depth := Doc.depth_lt_of_mem_parts hitem
    have hwrapper := Doc.depth_lt_of_mem_parts hpayload
    exact ⟨inner, part, by omega, hshape⟩
  | _ => cases heach

/-- The document of a shape is four levels deep for every generation. -/
theorem four_mul_height_le_depth (bound : Nat) {reading : Reading} {doc : Doc} {shape : Shape}
    (h : decodeShapeAt bound reading doc = .ok shape) : 4 * shape.height ≤ doc.depth := by
  induction bound generalizing reading doc shape with
  | zero => cases h
  | succ bound ih =>
    have hfour := four_le_depth_of_decodeShapeAt h
    have hbelow : shape.height ≤ (doc.depth - 4) / 4 + 1 := by
      rw [Shape.height_le_succ]
      intro child hchild
      cases hown : shape.children? with
      | none =>
        rw [hown] at hchild
        cases hchild
      | some children =>
        rw [hown] at hchild
        -- Below the shape are the wrapper of the children, their list, an entry and the child.
        obtain ⟨_, map, hmap, hdecode⟩ := exists_childMap h hown
        obtain ⟨_, part, hdeep, hshape⟩ := exists_deep_of_mem_decodeChildren hdecode child hchild
        have hlt := Doc.depth_lt_of_mem_parts hmap
        have hpart := ih hshape
        omega
    omega

/-! What a reader goes through. -/

theorem depth_le_of_readWhole {levels : Nat} {doc : Doc}
    (h : readWhole (.direct levels) doc = .ok ()) : doc.depth ≤ levels := by
  rw [readWhole] at h
  cases hfault : doc.readFault? levels with
  | none => exact Doc.depth_le_of_readFault? doc hfault
  | some fault =>
    rw [hfault] at h
    cases h

theorem depth_eq_zero_of_decodeKind {reading : Reading} {doc : Doc} {kind : Kind}
    (h : decodeKind reading doc = .ok kind) : doc.depth = 0 := by
  cases doc with
  | array => cases reading <;> cases h
  | object => cases reading <;> cases h
  | _ => rfl

private theorem depthMembers_le_of_takeKind {levels : Nat} {ending : Ending}
    (members : List (Option String × Doc)) {found : Option Kind}
    {taken : Kind × List (Option String × Doc)}
    (h : takeKind (.direct levels) members ending found = .ok taken) :
    Doc.depthMembers members ≤ levels := by
  induction members generalizing found taken with
  | nil => exact Nat.zero_le _
  | cons member members ih =>
    obtain ⟨key, value⟩ := member
    cases key with
    | none => cases h
    | some key =>
      rw [takeKind] at h
      rw [Doc.depthMembers, Nat.max_le]
      split at h
      · split at h
        · cases h
        · obtain ⟨kind, hkind, h⟩ := Outcome.bind_eq_ok.mp h
          rw [depth_eq_zero_of_decodeKind hkind]
          exact ⟨Nat.zero_le _, ih h⟩
      · obtain ⟨_, hread, h⟩ := Outcome.bind_eq_ok.mp h
        obtain ⟨_, hrest, -⟩ := Outcome.map_eq_ok.mp h
        exact ⟨depth_le_of_readWhole hread, ih hrest⟩

private theorem depthItems_le_of_readRest {levels : Nat} {ending : Ending} (items : List Doc)
    (h : readRest (.direct levels) items ending = .ok ()) : Doc.depthItems items ≤ levels := by
  induction items with
  | nil => exact Nat.zero_le _
  | cons item items ih =>
    obtain ⟨_, hread, hrest⟩ := Outcome.bind_eq_ok.mp h
    rw [Doc.depthItems, Nat.max_le]
    exact ⟨depth_le_of_readWhole hread, ih hrest⟩

/-- A shape that is decoded while it is read is no deeper than the reader goes. -/
theorem depth_le_of_splitKind {levels : Nat} {doc : Doc} {split : Kind × Doc}
    (h : splitKind (.direct levels) doc = .ok split) : doc.depth ≤ levels := by
  cases doc with
  | object members ending =>
    obtain ⟨inner, hinner, h⟩ := Outcome.bind_eq_ok.mp h
    obtain ⟨_, htake, -⟩ := Outcome.bind_eq_ok.mp h
    cases levels with
    | zero => cases hinner
    | succ levels =>
      cases hinner
      exact Nat.succ_le_succ (depthMembers_le_of_takeKind members htake)
  | array items ending =>
    cases items with
    | nil =>
      obtain ⟨_, -, h⟩ := Outcome.bind_eq_ok.mp h
      cases h
    | cons first items =>
      obtain ⟨inner, hinner, h⟩ := Outcome.bind_eq_ok.mp h
      obtain ⟨kind, hkind, h⟩ := Outcome.bind_eq_ok.mp h
      obtain ⟨_, hrest, -⟩ := Outcome.bind_eq_ok.mp h
      cases levels with
      | zero => cases hinner
      | succ levels =>
        cases hinner
        refine Nat.succ_le_succ (Nat.max_le.mpr ⟨?_, depthItems_le_of_readRest items hrest⟩)
        rw [depth_eq_zero_of_decodeKind hkind]
        exact Nat.zero_le _
  | _ => cases h

end Codec

namespace Shape

/-- A shape that a text is the document of has at most thirty-one generations. -/
theorem height_le_of_ofDocument {text : String} {shape : Shape}
    (h : Shape.ofDocument text = .ok shape) : shape.height ≤ 31 := by
  have hdecode := (decodeAll_eq_ok.mp h).1
  have hheight := four_mul_height_le_depth depthLimit hdecode
  obtain ⟨_, hsplit, -⟩ := Outcome.bind_eq_ok.mp hdecode
  have hdepth := depth_le_of_splitKind hsplit
  rw [depthLimit] at hdepth
  omega

/-- A tree that is low enough, with distinct ids that are small enough, can be restored if its
numbers are finite. -/
theorem Restorable.of_isFinite {shape : Shape} (hdistinct : shape.ids.Nodup)
    (hsmall : Allocator.Covers ⟨NodeId.maxRestored⟩ shape.ids) (hlow : shape.height ≤ 31)
    (hfinite : ∀ x ∈ shape.numbers, x.isFinite) : shape.Restorable :=
  ⟨hdistinct, hsmall, hlow, fun x hx => Single.readsBack_of_isFinite (hfinite x hx)⟩

/-- Whatever was restored can be restored from its own document. -/
theorem restorable_of_restore {text : String} {ids after : Allocator} {shape : Shape}
    (h : Shape.restore text ids = .ok (shape, after)) : shape.Restorable := by
  obtain ⟨hdocument, hdistinct, hsmall, -⟩ := restore_eq_ok.mp h
  exact .of_isFinite hdistinct hsmall (height_le_of_ofDocument hdocument)
    (isFinite_of_ofDocument hdocument)

end Shape

end SdfScene
