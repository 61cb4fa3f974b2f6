import Mathlib.Data.List.Forall2
import Mathlib.Logic.Relation
import SdfScene.Json.Document

/-!
# Objects with their members in another order

The members of an object can be put in another order, in the object itself or in one that
stands in it at any depth. Who reads the document or skips it meets no fault because of that.
-/

namespace SdfScene.Json

/-- Who meets no fault in the first document meets none in the second. -/
structure Doc.Intact (doc other : Doc) : Prop where
  read : ∀ levels, doc.readFault? levels = none → other.readFault? levels = none
  skip : doc.skipFault? = none → other.skipFault? = none

namespace Doc

theorem Intact.refl (doc : Doc) : doc.Intact doc := ⟨fun _ h => h, fun h => h⟩

/-! No fault in a list is no fault in any place of it. -/

theorem readFaultItems?_eq_none {levels : Nat} {items : List Doc} :
    readFaultItems? levels items = none ↔ ∀ item ∈ items, readFault? levels item = none := by
  induction items with
  | nil => simp [readFaultItems?]
  | cons item items ih => rw [readFaultItems?, Option.or_eq_none_iff, ih, List.forall_mem_cons]

theorem readFaultMembers?_eq_none {levels : Nat} {members : List (Option String × Doc)} :
    readFaultMembers? levels members = none ↔
      ∀ member ∈ members, member.1.isSome ∧ readFault? levels member.2 = none := by
  induction members with
  | nil => simp [readFaultMembers?]
  | cons member members ih =>
    obtain ⟨key, value⟩ := member
    rw [List.forall_mem_cons]
    cases key with
    | none => simp [readFaultMembers?]
    | some key => simp [readFaultMembers?, Option.or_eq_none_iff, ih]

theorem skipFaultItems?_eq_none {items : List Doc} :
    skipFaultItems? items = none ↔ ∀ item ∈ items, skipFault? item = none := by
  induction items with
  | nil => simp [skipFaultItems?]
  | cons item items ih => rw [skipFaultItems?, Option.or_eq_none_iff, ih, List.forall_mem_cons]

theorem skipFaultMembers?_eq_none {members : List (Option String × Doc)} :
    skipFaultMembers? members = none ↔ ∀ member ∈ members, skipFault? member.2 = none := by
  induction members with
  | nil => simp [skipFaultMembers?]
  | cons member members ih =>
    rw [skipFaultMembers?, Option.or_eq_none_iff, ih, List.forall_mem_cons]

/-- An array stays intact if each of the new items takes the place of an old one. -/
theorem Intact.array {items others : List Doc} (ending : Ending)
    (h : ∀ other ∈ others, ∃ item ∈ items, item.Intact other) :
    (Doc.array items ending).Intact (.array others ending) := by
  refine ⟨fun levels hread => ?_, fun hskip => ?_⟩
  · cases levels with
    | zero => cases hread
    | succ levels =>
      rw [readFault?, Option.or_eq_none_iff, readFaultItems?_eq_none] at hread ⊢
      refine ⟨fun other hother => ?_, hread.2⟩
      obtain ⟨item, hitem, hintact⟩ := h other hother
      exact hintact.read levels (hread.1 item hitem)
  · rw [skipFault?, Option.or_eq_none_iff, skipFaultItems?_eq_none] at hskip ⊢
    refine ⟨fun other hother => ?_, hskip.2⟩
    obtain ⟨item, hitem, hintact⟩ := h other hother
    exact hintact.skip (hskip.1 item hitem)

/-- An object stays intact if each of the new members takes the place of an old one. -/
theorem Intact.object {members others : List (Option String × Doc)} (ending : Ending)
    (h : ∀ other ∈ others, ∃ member ∈ members, other.1 = member.1 ∧ member.2.Intact other.2) :
    (Doc.object members ending).Intact (.object others ending) := by
  refine ⟨fun levels hread => ?_, fun hskip => ?_⟩
  · cases levels with
    | zero => cases hread
    | succ levels =>
      rw [readFault?, Option.or_eq_none_iff, readFaultMembers?_eq_none] at hread ⊢
      refine ⟨fun other hother => ?_, hread.2⟩
      obtain ⟨member, hmember, hkey, hintact⟩ := h other hother
      obtain ⟨hnamed, hvalue⟩ := hread.1 member hmember
      exact ⟨hkey ▸ hnamed, hintact.read levels hvalue⟩
  · rw [skipFault?, Option.or_eq_none_iff, skipFaultMembers?_eq_none] at hskip ⊢
    refine ⟨fun other hother => ?_, hskip.2⟩
    obtain ⟨member, hmember, -, hintact⟩ := h other hother
    exact hintact.skip (hskip.1 member hmember)

/-- Another item is intact if the one that it stands for is. -/
theorem Intact.item {doc other : Doc} (h : doc.Intact other) (front back : List Doc)
    (ending : Ending) :
    (Doc.array (front ++ doc :: back) ending).Intact (.array (front ++ other :: back) ending) := by
  refine .array ending fun item hitem => ?_
  rcases List.mem_append.mp hitem with hfront | hback
  · exact ⟨item, List.mem_append_left _ hfront, .refl _⟩
  · rcases List.mem_cons.mp hback with rfl | hback
    · exact ⟨doc, List.mem_append_right _ List.mem_cons_self, h⟩
    · exact ⟨item, List.mem_append_right _ (List.mem_cons_of_mem _ hback), .refl _⟩

/-- The members with another value under a key have the same keys and are intact if it is. -/
theorem Intact.exists_member {doc other : Doc} (h : doc.Intact other) (key : Option String)
    (front back : List (Option String × Doc)) :
    ∀ member ∈ front ++ (key, other) :: back, ∃ old ∈ front ++ (key, doc) :: back,
      member.1 = old.1 ∧ old.2.Intact member.2 := by
  intro member hmember
  rcases List.mem_append.mp hmember with hfront | hback
  · exact ⟨member, List.mem_append_left _ hfront, rfl, .refl _⟩
  · rcases List.mem_cons.mp hback with rfl | hback
    · exact ⟨(key, doc), List.mem_append_right _ List.mem_cons_self, rfl, h⟩
    · exact ⟨member, List.mem_append_right _ (List.mem_cons_of_mem _ hback), rfl, .refl _⟩

/-- The members of one object are put in another order. -/
inductive Permuted : Doc → Doc → Prop
  /-- Of the document itself. -/
  | here {members others : List (Option String × Doc)} (ending : Ending)
      (h : members.Perm others) : Permuted (.object members ending) (.object others ending)
  /-- Of one that stands in an item. -/
  | item {doc other : Doc} (front back : List Doc) (ending : Ending) (h : Permuted doc other) :
      Permuted (.array (front ++ doc :: back) ending) (.array (front ++ other :: back) ending)
  /-- Of one that stands in a member. -/
  | member {doc other : Doc} (front back : List (Option String × Doc)) (key : Option String)
      (ending : Ending) (h : Permuted doc other) :
      Permuted (.object (front ++ (key, doc) :: back) ending)
        (.object (front ++ (key, other) :: back) ending)

/-- The members of any objects are put in another order, at any depth. -/
def Shuffled : Doc → Doc → Prop := Relation.ReflTransGen Permuted

/-- Another order of members is no fault. -/
theorem Permuted.intact {doc other : Doc} (h : doc.Permuted other) : doc.Intact other := by
  induction h with
  | here ending hperm =>
    exact .object ending fun member hmember =>
      ⟨member, hperm.symm.subset hmember, rfl, .refl _⟩
  | item front back ending _ ih => exact ih.item front back ending
  | member front back key ending _ ih =>
    exact .object ending (ih.exists_member key front back)

end Doc

end SdfScene.Json
