import SdfScene.Proofs.Json.RoundTrip

/-!
# How deep documents are nested

A reader of a written document meets no fault exactly if it is nested at most as deep as
the reader goes and all its numerals stand for a quantity. The only fault there is
otherwise is that of a text that is not well-formed.
-/

namespace SdfScene.Json.Doc

mutual

/-- The number of arrays and objects around the innermost value. -/
def depth : Doc → Nat
  | .array items _ => depthItems items + 1
  | .object members _ => depthMembers members + 1
  | _ => 0

/-- The depth of the deepest item. -/
def depthItems : List Doc → Nat
  | [] => 0
  | item :: items => max (depth item) (depthItems items)

/-- The depth of the deepest member. -/
def depthMembers : List (Option String × Doc) → Nat
  | [] => 0
  | (_, value) :: members => max (depth value) (depthMembers members)

end

mutual

/-- The numerals of a document. -/
def numerals : Doc → List Numeral
  | .number numeral => [numeral]
  | .array items _ => numeralsItems items
  | .object members _ => numeralsMembers members
  | _ => []

/-- The numerals of items. -/
def numeralsItems : List Doc → List Numeral
  | [] => []
  | item :: items => numerals item ++ numeralsItems items

/-- The numerals of members. -/
def numeralsMembers : List (Option String × Doc) → List Numeral
  | [] => []
  | (_, value) :: members => numerals value ++ numeralsMembers members

end

/-- A document that a reader goes through without a fault. -/
def Fits (levels : Nat) (doc : Doc) : Prop :=
  doc.depth ≤ levels ∧ ∀ x ∈ doc.numerals, x.quantity?.isSome

private theorem fits_items (levels : Nat) (items : List Doc) :
    (depthItems items ≤ levels ∧ ∀ x ∈ numeralsItems items, x.quantity?.isSome) ↔
      ∀ item ∈ items, item.Fits levels := by
  induction items with
  | nil => simp [depthItems, numeralsItems]
  | cons item items ih =>
    rw [depthItems, numeralsItems, Nat.max_le, List.forall_mem_append, List.forall_mem_cons,
      ← ih, Fits]
    exact and_and_and_comm

private theorem fits_members (levels : Nat) (members : List (Option String × Doc)) :
    (depthMembers members ≤ levels ∧ ∀ x ∈ numeralsMembers members, x.quantity?.isSome) ↔
      ∀ member ∈ members, member.2.Fits levels := by
  induction members with
  | nil => simp [depthMembers, numeralsMembers]
  | cons member members ih =>
    rw [depthMembers, numeralsMembers, Nat.max_le, List.forall_mem_append, List.forall_mem_cons,
      ← ih, Fits]
    exact and_and_and_comm

@[simp] theorem fits_ofString (levels : Nat) (text : String) : (ofString text).Fits levels := by
  simp [Fits, ofString, depth, numerals]

@[simp] theorem not_fits_ofItems_zero (items : List Doc) : ¬ (ofItems items).Fits 0 := by
  simp [Fits, ofItems, depth]

@[simp] theorem not_fits_ofMembers_zero (members : List (String × Doc)) :
    ¬ (ofMembers members).Fits 0 := by
  simp [Fits, ofMembers, depth]

/-- An array takes one level more than its items. -/
@[simp] theorem fits_ofItems_succ {levels : Nat} {items : List Doc} :
    (ofItems items).Fits (levels + 1) ↔ ∀ item ∈ items, item.Fits levels := by
  rw [← fits_items, Fits, ofItems, depth, numerals, Nat.add_le_add_iff_right]

/-- An object takes one level more than the values of its members. -/
@[simp] theorem fits_ofMembers_succ {levels : Nat} {members : List (String × Doc)} :
    (ofMembers members).Fits (levels + 1) ↔ ∀ member ∈ members, member.2.Fits levels := by
  have hmembers := fits_members levels
    (members.map fun member => (some member.1, member.2))
  rw [List.forall_mem_map] at hmembers
  rw [← hmembers, Fits, ofMembers, depth, numerals, Nat.add_le_add_iff_right]

/-- No fault where a document fits, and only one fault where it does not. -/
private def IsJudged (levels : Nat) (doc : Doc) : Prop :=
  (doc.readFault? levels = none ↔ doc.Fits levels) ∧
    ∀ fault, doc.readFault? levels = some fault → fault = .malformed

private theorem judged_items {levels : Nat} (items : List Doc)
    (hitems : ∀ item ∈ items, IsJudged levels item) :
    (readFaultItems? levels items = none ↔ ∀ item ∈ items, item.Fits levels) ∧
      ∀ fault, readFaultItems? levels items = some fault → fault = .malformed := by
  induction items with
  | nil => simp [readFaultItems?]
  | cons item items ih =>
    obtain ⟨⟨hnone, hfault⟩, hothers⟩ := List.forall_mem_cons.mp hitems
    obtain ⟨ihnone, ihfault⟩ := ih hothers
    rw [readFaultItems?, Option.or_eq_none_iff, hnone, ihnone, List.forall_mem_cons]
    refine ⟨Iff.rfl, fun fault h => ?_⟩
    rcases Option.or_eq_some_iff.mp h with h | ⟨-, h⟩
    · exact hfault fault h
    · exact ihfault fault h

private theorem judged_members {levels : Nat} (members : List (String × Doc))
    (hmembers : ∀ member ∈ members, IsJudged levels member.2) :
    let named := members.map fun member => (some member.1, member.2)
    (readFaultMembers? levels named = none ↔ ∀ member ∈ members, member.2.Fits levels) ∧
      ∀ fault, readFaultMembers? levels named = some fault → fault = .malformed := by
  induction members with
  | nil => simp [readFaultMembers?]
  | cons member members ih =>
    obtain ⟨⟨hnone, hfault⟩, hothers⟩ := List.forall_mem_cons.mp hmembers
    obtain ⟨ihnone, ihfault⟩ := ih hothers
    simp only [List.map_cons]
    rw [readFaultMembers?, Option.or_eq_none_iff, hnone, ihnone, List.forall_mem_cons]
    refine ⟨Iff.rfl, fun fault h => ?_⟩
    rcases Option.or_eq_some_iff.mp h with h | ⟨-, h⟩
    · exact hfault fault h
    · exact ihfault fault h

private theorem Written.isJudged {doc : Doc} (h : doc.Written) (levels : Nat) :
    IsJudged levels doc := by
  induction h generalizing levels with
  | null => simp [IsJudged, Fits, readFault?, depth, numerals]
  | bool value => simp [IsJudged, Fits, readFault?, depth, numerals]
  | @number x hx =>
    simp only [IsJudged, Fits, readFault?, depth, numerals, List.forall_mem_singleton]
    cases x.quantity? <;> simp
  | string text => simp [IsJudged, Fits, readFault?, depth, numerals, ofString]
  | @array items hitems ih =>
    cases levels with
    | zero => simp [IsJudged, readFault?, ofItems, Fits, depth]
    | succ levels =>
      rw [IsJudged, fits_ofItems_succ, ofItems, readFault?, Ending.whenRead?, Option.or_none]
      exact judged_items items fun item hitem => ih item hitem levels
  | @object members hmembers ih =>
    cases levels with
    | zero => simp [IsJudged, readFault?, ofMembers, Fits, depth]
    | succ levels =>
      rw [IsJudged, fits_ofMembers_succ, ofMembers, readFault?, Ending.whenRead?, Option.or_none]
      exact judged_members members fun member hmember => ih member hmember levels

/-- A reader meets no fault exactly if the document fits. -/
theorem Written.readFault?_eq_none {doc : Doc} (h : doc.Written) (levels : Nat) :
    doc.readFault? levels = none ↔ doc.Fits levels :=
  (h.isJudged levels).1

/-- The only fault of a written document is that it does not fit. -/
theorem Written.eq_malformed {doc : Doc} (h : doc.Written) {levels : Nat} {fault : Category}
    (hfault : doc.readFault? levels = some fault) : fault = .malformed :=
  (h.isJudged levels).2 fault hfault

mutual

/-- A document that a reader goes through is not deeper than the reader goes, whether it is
well-formed to its end or not. -/
theorem depth_le_of_readFault? {levels : Nat} :
    ∀ doc : Doc, doc.readFault? levels = none → doc.depth ≤ levels
  | .null, _ | .bool _, _ | .number _, _ | .string _, _ | .flawed _, _ => Nat.zero_le _
  | .array items ending, h => by
    cases levels with
    | zero => cases h
    | succ levels =>
      rw [readFault?, Option.or_eq_none_iff] at h
      exact Nat.succ_le_succ (depthItems_le_of_readFault? items h.1)
  | .object members ending, h => by
    cases levels with
    | zero => cases h
    | succ levels =>
      rw [readFault?, Option.or_eq_none_iff] at h
      exact Nat.succ_le_succ (depthMembers_le_of_readFault? members h.1)

theorem depthItems_le_of_readFault? {levels : Nat} :
    ∀ items : List Doc, readFaultItems? levels items = none → depthItems items ≤ levels
  | [], _ => Nat.zero_le _
  | item :: items, h => by
    rw [readFaultItems?, Option.or_eq_none_iff] at h
    exact Nat.max_le.mpr
      ⟨depth_le_of_readFault? item h.1, depthItems_le_of_readFault? items h.2⟩

theorem depthMembers_le_of_readFault? {levels : Nat} :
    ∀ members : List (Option String × Doc),
      readFaultMembers? levels members = none → depthMembers members ≤ levels
  | [], _ => Nat.zero_le _
  | (none, _) :: _, h => by cases h
  | (some _, value) :: members, h => by
    rw [readFaultMembers?, Option.or_eq_none_iff] at h
    exact Nat.max_le.mpr
      ⟨depth_le_of_readFault? value h.1, depthMembers_le_of_readFault? members h.2⟩

end

end SdfScene.Json.Doc
