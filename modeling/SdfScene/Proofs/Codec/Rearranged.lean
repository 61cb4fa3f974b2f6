import Mathlib.Data.List.Perm.Basic
import SdfScene.Proofs.Codec.Reordered
import SdfScene.Proofs.Codec.Restoring

/-!
# Child maps with their entries in another order

The entries of a child map are an array, and their order is that of the children. With the
entries in another order a shape document is decoded to the tree with these children in that
order, and nothing else of it changes; neither does the floor of the allocator that the tree is
restored into.
-/

namespace SdfScene

open Json Codec

/-! Items in another order. -/

section Lists

variable {α β : Type}

/-- The items at some places in their order, if these are all the places there are. -/
def rearranged (order : List Nat) (items : List α) : List α :=
  if order.Perm (List.range items.length) then order.filterMap (items[·]?) else items

/-- Items are what stands at their places. -/
private theorem filterMap_places {items found : List α} {places : List Nat}
    (h : List.Forall₂ (fun item place => items[place]? = some item) found places) :
    places.filterMap (items[·]?) = found := by
  induction h with
  | nil => rfl
  | cons hitem _ ih => rw [List.filterMap_cons, hitem, ih]

private theorem forall₂_range (items : List α) :
    List.Forall₂ (fun item place => items[place]? = some item) items
      (List.range items.length) := by
  refine List.forall₂_iff_get.mpr ⟨by simp, fun place hplace _ => ?_⟩
  simp

/-- Items that are rearranged are in another order. -/
theorem rearranged_perm (order : List Nat) (items : List α) :
    (rearranged order items).Perm items := by
  rw [rearranged]
  by_cases horder : order.Perm (List.range items.length)
  · rw [if_pos horder]
    exact (horder.filterMap _).trans (.of_eq (filterMap_places (forall₂_range items)))
  · rw [if_neg horder]

/-- Every other order of the items is one that they can be rearranged to. -/
theorem exists_rearranged {items others : List α} (h : others.Perm items) :
    ∃ order, rearranged order items = others := by
  obtain ⟨order, hothers, horder⟩ := List.perm_comp_forall₂ h (forall₂_range items)
  exact ⟨order, (if_pos horder).trans (filterMap_places hothers)⟩

theorem rearranged_map (order : List Nat) (items : List α) (f : α → β) :
    rearranged order (items.map f) = (rearranged order items).map f := by
  rw [rearranged, rearranged, List.length_map]
  by_cases horder : order.Perm (List.range items.length)
  · rw [if_pos horder, if_pos horder, List.map_filterMap]
    simp
  · rw [if_neg horder, if_neg horder]

/-- What goes with the items goes with the rearranged ones in their new order. -/
theorem forall₂_rearranged {R : α → β → Prop} {items : List α} {values : List β}
    (h : List.Forall₂ R items values) (order : List Nat) :
    List.Forall₂ R (rearranged order items) (rearranged order values) := by
  rw [rearranged, rearranged, ← h.length_eq]
  by_cases horder : order.Perm (List.range items.length)
  · rw [if_pos horder, if_pos horder]
    obtain ⟨hlength, hplaces⟩ := List.forall₂_iff_get.mp h
    clear horder
    induction order with
    | nil => exact .nil
    | cons place order ih =>
      by_cases hplace : place < items.length
      · rw [List.filterMap_cons, List.filterMap_cons, List.getElem?_eq_getElem hplace,
          List.getElem?_eq_getElem (hlength ▸ hplace)]
        exact .cons (hplaces place hplace (hlength ▸ hplace)) ih
      · rw [List.filterMap_cons, List.filterMap_cons, List.getElem?_eq_none (Nat.not_lt.mp hplace),
          List.getElem?_eq_none (hlength ▸ Nat.not_lt.mp hplace)]
        exact ih
  · rw [if_neg horder, if_neg horder]
    exact h

/-- One item behind some others is the one at their number. -/
theorem modify_append_cons (f : α → α) (before : List α) (value : α) (behind : List α) :
    (before ++ value :: behind).modify before.length f = before ++ f value :: behind := by
  induction before with
  | nil => rfl
  | cons first before ih => exact congrArg (first :: ·) ih

/-- A conversion that goes with a change of one item. -/
theorem map_modify {f : α → α} {g : β → β} {convert : α → β}
    (h : ∀ item, convert (f item) = g (convert item)) (items : List α) (place : Nat) :
    (items.modify place f).map convert = (items.map convert).modify place g := by
  induction items generalizing place with
  | nil => rw [List.modify_nil, List.map_nil, List.modify_nil]
  | cons item items ih =>
    cases place with
    | zero => exact congrArg (· :: items.map convert) (h item)
    | succ place => exact congrArg (convert item :: ·) (ih place)

end Lists

/-! Trees with the children of one combinator in another order. -/

namespace Shape

/-- A shape with the children of the combinator at the end of a path rearranged. -/
def rearrangeAt (order : List Nat) : List Nat → Shape → Shape
  | [], shape => shape.mapChildren (rearranged order)
  | place :: path, shape =>
    shape.mapChildren fun children => children.modify place (rearrangeAt order path)

@[simp] theorem id_rearrangeAt (order path : List Nat) (shape : Shape) :
    (shape.rearrangeAt order path).id = shape.id := by
  cases path <;> exact id_mapChildren _ shape

private theorem idsIn_modify_perm {f : Shape → Shape} (h : ∀ shape, (f shape).ids.Perm shape.ids)
    (shapes : List Shape) (place : Nat) :
    (idsIn (shapes.modify place f)).Perm (idsIn shapes) := by
  induction shapes generalizing place with
  | nil => rw [List.modify_nil]
  | cons shape shapes ih =>
    cases place with
    | zero => exact (h shape).append_right _
    | succ place => exact (ih place).append_left _

private theorem ids_mapChildren_perm {g : List Shape → List Shape}
    (h : ∀ shapes, (idsIn (g shapes)).Perm (idsIn shapes)) (shape : Shape) :
    (shape.mapChildren g).ids.Perm shape.ids := by
  cases shape with
  | combinator kind children smoothness transform id =>
    rw [mapChildren, ids_combinator, ids_combinator]
    exact (h children).cons _
  | _ => exact .refl _

/-- The tree has the same ids in another order. -/
theorem ids_rearrangeAt_perm (order path : List Nat) (shape : Shape) :
    (shape.rearrangeAt order path).ids.Perm shape.ids := by
  induction path generalizing shape with
  | nil => exact ids_mapChildren_perm (fun shapes => (rearranged_perm order shapes).flatMap_right _) _
  | cons place path ih =>
    exact ids_mapChildren_perm (fun shapes => idsIn_modify_perm ih shapes place) shape

end Shape

/-! Documents with one part replaced. -/

namespace Codec

/-- A part of the document of a record is replaced: the member with a name, or the second item of
an array. -/
inductive PartReplaced (name : String) (old new : Doc) : Doc → Doc → Prop
  | member (front back : List (Option String × Doc)) (ending : Ending) :
      PartReplaced name old new (.object (front ++ (some name, old) :: back) ending)
        (.object (front ++ (some name, new) :: back) ending)
  | second (first : Doc) (rest : List Doc) (ending : Ending) :
      PartReplaced name old new (.array (first :: old :: rest) ending)
        (.array (first :: new :: rest) ending)

/-- Under one name a part is replaced, under the others nothing changes. -/
def ReplacedUnder (name : String) (old new : Doc) (other : String) (doc changed : Doc) : Prop :=
  if other = name then doc = old ∧ changed = new else doc = changed

namespace PartReplaced

variable {name : String} {old new doc other : Doc}

theorem intact (h : PartReplaced name old new doc other) (hintact : old.Intact new) :
    doc.Intact other := by
  cases h with
  | member front back ending => exact .object ending (hintact.exists_member (some name) front back)
  | second first rest ending => exact hintact.item [first] rest ending

/-- The documents of a record differ in the one part, if its name is the second one. -/
theorem recordAlike (h : PartReplaced name old new doc other) (hintact : old.Intact new)
    {first : String} {names : List String} (hnames : (first :: name :: names).Nodup) :
    RecordAlike (ReplacedUnder name old new) (first :: name :: names) doc other := by
  have hsame : ∀ {other}, other ≠ name → ∀ doc, ReplacedUnder name old new other doc doc :=
    fun hne _ => (if_neg hne).mpr rfl
  obtain ⟨hfirst, hrest⟩ := List.nodup_cons.mp hnames
  cases h with
  | member front back ending =>
    exact .object ending (.middle hintact name ((if_pos rfl).mpr ⟨rfl, rfl⟩)
      (fun _ hne => hsame hne) front back)
  | second item rest ending =>
    refine .array ending (.cons (.refl item) (hsame (fun h => hfirst (h ▸ List.mem_cons_self)) item)
      (.cons hintact ((if_pos rfl).mpr ⟨rfl, rfl⟩) (.refl names (fun other hother => ?_) rest)))
    exact hsame fun h => (List.nodup_cons.mp hrest).1 (h ▸ hother)

end PartReplaced

/-- What is the same under a name is followed by what stays the same. -/
private theorem follows_of_ne {α : Type} {decode : Decoder α} {name other : String} {old new : Doc}
    (h : other ≠ name) : decode.Follows (ReplacedUnder name old new other) id := by
  intro reading doc changed value hdoc hvalue
  rw [ReplacedUnder, if_neg h] at hdoc
  exact hdoc ▸ hvalue

/-- A replaced part is followed by what its decoder makes of the new one. -/
private theorem follows_self {α : Type} {decode : Decoder α} {f : α → α} {name : String}
    {old new : Doc}
    (h : ∀ reading value, decode reading old = .ok value → decode reading new = .ok (f value)) :
    decode.Follows (ReplacedUnder name old new name) f := by
  intro reading doc changed value hdoc hvalue
  rw [ReplacedUnder, if_pos rfl] at hdoc
  obtain ⟨rfl, rfl⟩ := hdoc
  exact h reading value hvalue

/-! Child maps. -/

/-- The children of a child map have distinct ids. -/
theorem nodup_of_childrenOf {entries : List (NodeId × Shape)} {front result : List Shape}
    (hfront : (front.map Shape.id).Nodup) (h : childrenOf entries front = .ok result) :
    (result.map Shape.id).Nodup := by
  induction entries generalizing front with
  | nil =>
    cases h
    exact hfront
  | cons entry entries ih =>
    obtain ⟨key, shape⟩ := entry
    rw [childrenOf] at h
    split at h
    · cases h
    · next hkey =>
      split at h
      · cases h
      · next hfresh =>
        refine ih ?_ h
        have hnew : shape.id ∉ front.map Shape.id := by
          rw [← not_not.mp hkey]
          simpa [Shape.hasChild] using hfresh
        rw [List.map_append, List.map_singleton]
        exact List.nodup_append'.mpr
          ⟨hfront, List.nodup_singleton _, List.disjoint_singleton.mpr hnew⟩

/-- Entries are put in order exactly if each stands under its own id and no id is repeated. -/
theorem childrenOf_eq_ok {entries : List (NodeId × Shape)} {children : List Shape} :
    childrenOf entries [] = .ok children ↔
      entries = children.map (fun child => (child.id, child)) ∧ (children.map Shape.id).Nodup := by
  constructor
  · intro h
    have hkeys := keys_of_childrenOf h
    have hchildren := childrenOf_ok h
    rw [List.nil_append] at hchildren
    have hfront : (([] : List Shape).map Shape.id).Nodup := List.nodup_nil
    refine ⟨?_, nodup_of_childrenOf hfront h⟩
    rw [hchildren, List.map_map]
    refine ((List.map_congr_left fun entry hentry => ?_).trans (List.map_id entries)).symm
    exact Prod.ext (hkeys entry hentry).symm rfl
  · rintro ⟨rfl, hdistinct⟩
    exact childrenOf_self children [] hdistinct

/-- A child map follows a change of its entries that keeps each child under its own id and all
ids distinct. -/
private theorem decodeChildren_follows {decodeShape : Decoder Shape} {old new : Doc}
    {f : List (NodeId × Shape) → List (NodeId × Shape)} {g : List Shape → List Shape}
    (hentries : ∀ reading entries, decodeEach (decodeEntry decodeShape) reading old = .ok entries →
      decodeEach (decodeEntry decodeShape) reading new = .ok (f entries))
    (hkeyed : ∀ children, f (children.map fun child => (child.id, child)) =
      (g children).map fun child => (child.id, child))
    (hids : ∀ children, ((g children).map Shape.id).Perm (children.map Shape.id))
    (hintact : old.Intact new) {part changed : Doc} (hpart : PartReplaced "value" old new part changed)
    {reading : Reading} {children : List Shape}
    (h : decodeChildren decodeShape reading part = .ok children) :
    decodeChildren decodeShape reading changed = .ok (g children) := by
  obtain ⟨entries, hdecoded, h⟩ := Outcome.bind_eq_ok.mp h
  obtain ⟨rfl, hdistinct⟩ := childrenOf_eq_ok.mp h
  have henvelope := decodeEnvelope_follows (follows_of_ne (by decide)) (follows_self hentries) .map
    reading part changed _ (hpart.recordAlike hintact (by decide)) hdecoded
  refine Outcome.bind_eq_ok.mpr ⟨_, henvelope, childrenOf_eq_ok.mpr ⟨hkeyed children, ?_⟩⟩
  exact (hids children).nodup_iff.mpr hdistinct

/-! Shapes. -/

/-- A document whose kind, where it can be read, is that of a combinator. -/
def OfCombinator (doc : Doc) : Prop :=
  ∀ reading kind fields, splitKind reading doc = .ok (kind, fields) →
    ∃ combinator, kind = .combinator combinator

/-- The entries of the child map of one combinator are rearranged, of the one at the end of a
path of places among entries. -/
inductive EntriesRearranged (order : List Nat) : List Nat → Doc → Doc → Prop
  /-- Of the document itself. -/
  | here {doc other part changed : Doc} {entries : List Doc} {ending : Ending}
      (hkind : OfCombinator doc) (hpart : PartReplaced "shapes" part changed doc other)
      (hmap : PartReplaced "value" (.array entries ending)
        (.array (rearranged order entries) ending) part changed) :
      EntriesRearranged order [] doc other
  /-- Of the one in an entry. -/
  | deeper {doc other part changed entry changedEntry child changedChild : Doc}
      (front : List Doc) {back : List Doc} {ending : Ending} {path : List Nat}
      (hkind : OfCombinator doc) (hpart : PartReplaced "shapes" part changed doc other)
      (hmap : PartReplaced "value" (.array (front ++ entry :: back) ending)
        (.array (front ++ changedEntry :: back) ending) part changed)
      (hentry : PartReplaced "shape" child changedChild entry changedEntry)
      (h : EntriesRearranged order path child changedChild) :
      EntriesRearranged order (front.length :: path) doc other

namespace EntriesRearranged

variable {order path : List Nat} {doc other : Doc}

theorem intact_rearranged (order : List Nat) (entries : List Doc) (ending : Ending) :
    (Doc.array entries ending).Intact (.array (rearranged order entries) ending) :=
  .array ending fun entry hentry =>
    ⟨entry, (rearranged_perm order entries).subset hentry, .refl entry⟩

/-- Whatever order the entries of a combinator are put in, they are rearranged in some order. -/
theorem exists_of_perm {part changed : Doc} {entries others : List Doc} {ending : Ending}
    (hkind : OfCombinator doc) (hpart : PartReplaced "shapes" part changed doc other)
    (hmap : PartReplaced "value" (.array entries ending) (.array others ending) part changed)
    (hperm : others.Perm entries) : ∃ order, EntriesRearranged order [] doc other := by
  obtain ⟨order, rfl⟩ := exists_rearranged hperm
  exact ⟨order, .here hkind hpart hmap⟩

/-- Another order of entries is no fault. -/
theorem intact (h : EntriesRearranged order path doc other) : doc.Intact other := by
  induction h with
  | here _ hpart hmap => exact hpart.intact (hmap.intact (intact_rearranged order _ _))
  | deeper _ _ hpart hmap hentry _ ih =>
    exact hpart.intact (hmap.intact ((hentry.intact ih).item _ _ _))

/-- A combinator follows a change of its child map. -/
private theorem decodeShapeAt_combinator {bound : Nat} {g : List Shape → List Shape}
    {part changed : Doc} (hkind : OfCombinator doc)
    (hpart : PartReplaced "shapes" part changed doc other) (hintact : part.Intact changed)
    (hchildren : ∀ reading children,
      decodeChildren (decodeShapeAt bound) reading part = .ok children →
        decodeChildren (decodeShapeAt bound) reading changed = .ok (g children))
    {reading : Reading} {shape : Shape}
    (h : decodeShapeAt (bound + 1) reading doc = .ok shape) :
    decodeShapeAt (bound + 1) reading other = .ok (shape.mapChildren g) := by
  refine decodeShapeAt_follows (follows_self hchildren) (fun name hname first second hsame => ?_)
    (fun kind fields hsplit => ?_) h
  · rw [ReplacedUnder, if_neg hname] at hsame
    exact hsame ▸ .refl
  · obtain ⟨combinator, rfl⟩ := hkind reading kind fields hsplit
    exact hpart.recordAlike hintact (by decide)

/-- The shape is decoded with the children at the end of the path rearranged. -/
theorem decodeShapeAt_ok (h : EntriesRearranged order path doc other) {bound : Nat}
    {reading : Reading} {shape : Shape} (hshape : decodeShapeAt bound reading doc = .ok shape) :
    decodeShapeAt bound reading other = .ok (shape.rearrangeAt order path) := by
  induction h generalizing bound reading shape with
  | @here doc other part changed entries ending hkind hpart hmap =>
    cases bound with
    | zero => cases hshape
    | succ bound =>
      have hintact := intact_rearranged order entries ending
      refine decodeShapeAt_combinator hkind hpart (hmap.intact hintact)
        (fun reading children hchildren => ?_) hshape
      refine decodeChildren_follows (f := rearranged order) (fun reading entries hentries => ?_)
        (fun children => rearranged_map order children _)
        (fun children => (rearranged_perm order children).map _) hintact hmap hchildren
      exact Outcome.mapM_eq_ok.mpr (forall₂_rearranged (Outcome.mapM_eq_ok.mp hentries) order)
  | @deeper doc other part changed entry changedEntry child changedChild front back ending path
      hkind hpart hmap hentry h ih =>
    cases bound with
    | zero => cases hshape
    | succ bound =>
      have hchild := hentry.intact h.intact
      have hintact := hchild.item front back ending
      refine decodeShapeAt_combinator
        (g := fun children => children.modify front.length (Shape.rearrangeAt order path)) hkind
        hpart (hmap.intact hintact) (fun reading children hchildren => ?_) hshape
      refine decodeChildren_follows
        (f := fun entries => entries.modify front.length fun entry =>
          (entry.1, entry.2.rearrangeAt order path))
        (g := fun children => children.modify front.length (Shape.rearrangeAt order path))
        (fun reading entries hentries => ?_) (fun children => ?_) (fun children => ?_) hintact hmap
        hchildren
      · obtain ⟨before, value, behind, rfl, hfront, hvalue, hback⟩ :=
          Outcome.mapM_middle_eq_ok.mp hentries
        have hlength := (Outcome.mapM_eq_ok.mp hfront).length_eq
        rw [hlength, modify_append_cons]
        refine Outcome.mapM_middle_eq_ok.mpr ⟨before, _, behind, rfl, hfront, ?_, hback⟩
        exact decodeEntry_follows (follows_of_ne (by decide)) (follows_self fun _ _ => ih) reading
          entry changedEntry value (hentry.recordAlike h.intact (by decide)) hvalue
      · exact (map_modify (fun child => by rw [Shape.id_rearrangeAt]) children _).symm
      · rw [map_modify (g := id) (Shape.id_rearrangeAt order path) children, List.modify_id]

end EntriesRearranged

end Codec

/-! Restored trees. -/

/-- The highest number among ids does not depend on their order. -/
theorem NodeId.highest_perm {ids others : List NodeId} (h : ids.Perm others) :
    highest ids = highest others :=
  Nat.le_antisymm (highest_mono h.subset) (highest_mono h.symm.subset)

namespace Shape

variable {text other : String} {ids after : Allocator} {shape : Shape}

/-- With members in another order a document is decoded to the same tree. -/
private theorem decodeShape_shuffled {doc changed : Doc} (h : doc.Shuffled changed)
    {reading : Reading} (hdecode : decodeShape reading doc = .ok shape) :
    decodeShape reading changed = .ok shape := by
  induction h with
  | refl => exact hdecode
  | tail _ hstep ih => exact decodeShapeAt_orderFree depthLimit _ _ _ _ hstep ih

/-- Another text is restored if it is decoded to a tree with the same ids. -/
private theorem restore_of_decodeShape (h : restore text ids = .ok (shape, after))
    (hmore : hasMore (Doc.ofText other.toList).2 = false) {changed : Shape}
    (hdecode : decodeShape (.direct depthLimit) (Doc.ofText text.toList).1 = .ok shape →
      decodeShape (.direct depthLimit) (Doc.ofText other.toList).1 = .ok changed)
    (hids : changed.ids.Perm shape.ids) : restore other ids = .ok (changed, after) := by
  obtain ⟨hdocument, hdistinct, hsmall, hafter⟩ := restore_eq_ok.mp h
  have hchanged : ofDocument other = .ok changed :=
    decodeAll_eq_ok.mpr ⟨hdecode (decodeAll_eq_ok.mp hdocument).1, hmore⟩
  refine restore_eq_ok.mpr ⟨hchanged, hids.nodup_iff.mpr hdistinct,
    fun id hid => hsmall id (hids.subset hid), ?_⟩
  rw [hafter, NodeId.highest_perm hids]

/-- A text that is restored is restored to the same tree, and to the same floor, with the members
of any of its objects in another order. With the entries of a child map in another order it is
restored to the tree with the children of that combinator in this order, and to the same
floor. The orders are all there are: entries that are permuted in any way are rearranged in one
of them. -/
theorem restore_any_order (h : restore text ids = .ok (shape, after))
    (hmore : hasMore (Doc.ofText other.toList).2 = false) :
    ((Doc.ofText text.toList).1.Shuffled (Doc.ofText other.toList).1 →
      restore other ids = .ok (shape, after)) ∧
    (∀ order path,
      EntriesRearranged order path (Doc.ofText text.toList).1 (Doc.ofText other.toList).1 →
        restore other ids = .ok (shape.rearrangeAt order path, after)) ∧
    ∀ (doc changed part map : Doc) (entries others : List Doc) (ending : Ending),
      OfCombinator doc → PartReplaced "shapes" part map doc changed →
        PartReplaced "value" (.array entries ending) (.array others ending) part map →
          others.Perm entries → ∃ order, EntriesRearranged order [] doc changed := by
  refine ⟨fun hshuffled => ?_, fun order path hrearranged => ?_,
    fun _ _ _ _ _ _ _ => EntriesRearranged.exists_of_perm⟩
  · exact restore_of_decodeShape h hmore (decodeShape_shuffled hshuffled) (.refl _)
  · exact restore_of_decodeShape h hmore hrearranged.decodeShapeAt_ok
      (ids_rearrangeAt_perm order path shape)

/-- The document of a combinator is one. -/
theorem ofCombinator_shapeDoc (kind : CombinatorKind) (children : List Shape) (smoothness : Single)
    (transform : Transform) (id : NodeId) :
    OfCombinator (shapeDoc (.combinator kind children smoothness transform id)) := by
  intro reading found fields hsplit
  rw [splitKind_shapeDoc fun _ _ => .ok []] at hsplit
  obtain ⟨_, -, hsplit⟩ := Outcome.bind_eq_ok.mp hsplit
  cases hsplit
  exact ⟨kind, rfl⟩

/-- A union of some code with a difference. Its document may have the kind at its end and the
payload of the child map before the tag; and with the entries of the difference the other way
round, that is what it is taken from. -/
theorem restore_any_order_of_nested :
    let code (id : String) : Shape := .custom id .identity ⟨id⟩
    let difference (children : List Shape) : Shape :=
      .combinator .subtraction children .zero .identity ⟨"4"⟩
    let union (child : Shape) : Shape :=
      .combinator .union [code "1", child] .zero .identity ⟨"5"⟩
    let shape := union (difference [code "2", code "3"])
    let shuffled : Doc := .ofMembers
      [("shapes", .ofMembers [("value", .ofItems (entryDocs [code "1",
          difference [code "2", code "3"]])), ("dataType", .ofString "Map")]),
        ("smoothness", scalarDoc .zero), ("transform", transformDoc .identity),
        ("id", .ofString "5"), ("kind", .ofString "Union")]
    restore shuffled.encoded .fresh = .ok (shape, ⟨5⟩) ∧
      restore (union (difference [code "3", code "2"])).encoded .fresh =
        .ok (union (difference [code "3", code "2"]), ⟨5⟩) := by
  intro code difference union shape shuffled
  have hrestore : restore shape.encoded .fresh = .ok (shape, ⟨5⟩) :=
    restore_encoded_eq_ok.mpr ⟨by decide +kernel, by decide⟩
  have hshape : Doc.ofText shape.encoded.toList = (shapeDoc shape, some []) :=
    (written_shapeDoc shape).ofText_encoded
  have hmore : hasMore (some []) = false := by decide
  refine ⟨?_, ?_⟩
  · have hwritten : shuffled.Written := by
      refine .object ?_
      simp only [List.forall_mem_cons]
      exact ⟨.object (by simpa using ⟨written_entryDocs fun child _ => written_shapeDoc child,
        .string _⟩), written_paramDoc (.scalar .zero), written_transformDoc .identity, .string _,
        .string _, fun _ h => absurd h List.not_mem_nil⟩
    have hother := hwritten.ofText_encoded
    refine (restore_any_order hrestore (by rw [hother]; exact hmore)).1 ?_
    rw [hother, hshape]
    -- The wrapper of the child map first, then the members of the union.
    let entries := Doc.ofItems (entryDocs [code "1", difference [code "2", code "3"]])
    let fields (map : Doc) : List (Option String × Doc) :=
      [(some "shapes", map), (some "smoothness", scalarDoc .zero),
        (some "transform", transformDoc .identity), (some "id", .ofString "5")]
    have hmap : (wrap .map entries).Permuted
        (.ofMembers [("value", entries), ("dataType", .ofString "Map")]) :=
      .here .closed (.swap _ _ _)
    have hinner : (shapeDoc shape).Permuted (.object ((some "kind", .ofString "Union") ::
        fields (.ofMembers [("value", entries), ("dataType", .ofString "Map")])) .closed) :=
      .member [(some "kind", .ofString "Union")] _ (some "shapes") .closed hmap
    exact (Relation.ReflTransGen.single hinner).tail
      (.here .closed (List.perm_append_singleton _ _).symm)
  · have hother : Doc.ofText (union (difference [code "3", code "2"])).encoded.toList =
        (shapeDoc (union (difference [code "3", code "2"])), some []) :=
      (written_shapeDoc _).ofText_encoded
    refine (restore_any_order hrestore (by rw [hother]; exact hmore)).2.1 [1, 0] [1] ?_
    rw [hother, hshape]
    have hinner : EntriesRearranged [1, 0] [] (shapeDoc (difference [code "2", code "3"]))
        (shapeDoc (difference [code "3", code "2"])) :=
      .here (ofCombinator_shapeDoc _ _ _ _ _) (.member [_] _ .closed) (.member [_] [] .closed)
    exact .deeper [.ofItems [.ofString "1", shapeDoc (code "1")]]
      (ofCombinator_shapeDoc _ _ _ _ _) (.member [_] _ .closed) (.member [_] [] .closed)
      (.second _ [] .closed) hinner

end Shape

end SdfScene
