import Mathlib.Data.List.Nodup
import SdfScene.Node.Id
import SdfScene.Proofs.Number.Digits

/-!
# Fresh ids

Freshness is a matter of text, and the floor of an allocator is a matter of numbers. An
id in plain digits reads as its number as long as that fits in 64 bits, so an allocator
whose floor covers the numbers in use issues texts that are not in use.
-/

namespace SdfScene

open Number

namespace NodeId

/-- Digits read as their number, as long as it fits in 64 bits. -/
theorem number?_ofNumber_eq (n : Nat) :
    (ofNumber n).number? = if n < 2 ^ 64 then some n else none := by
  have hplain : ∀ rest, digits n ≠ '+' :: rest := by
    intro rest h
    have hdigit : ('+' : Char).isDigit = true :=
      isDigit_of_mem_digits (n := n) (h ▸ List.mem_cons_self)
    exact absurd hdigit (by decide)
  simp [number?, ofNumber]

theorem number?_ofNumber {n : Nat} (hn : n < 2 ^ 64) : (ofNumber n).number? = some n := by
  rw [number?_ofNumber_eq, if_pos hn]

/-- Different numbers are different as texts. -/
theorem ofNumber_injective : Function.Injective ofNumber := fun m n h => by
  have htext := congrArg (fun id : NodeId => id.text.toList) h
  simp only [ofNumber, String.toList_ofList] at htext
  exact digits_injective htext

end NodeId

namespace Allocator

/-- The floor is at least every number among the ids in use. -/
def Covers (ids : Allocator) (used : List NodeId) : Prop :=
  ∀ id ∈ used, ∀ n, id.number? = some n → n ≤ ids.floor

instance (ids : Allocator) (used : List NodeId) : Decidable (ids.Covers used) :=
  decidable_of_iff (∀ id ∈ used, id.number?.all (· ≤ ids.floor)) <| by
    simp only [Covers, Option.all_eq_true, decide_eq_true_eq]

/-- Covering a list is covering each part of it. -/
theorem covers_append {ids : Allocator} {front back : List NodeId} :
    ids.Covers (front ++ back) ↔ ids.Covers front ∧ ids.Covers back :=
  List.forall_mem_append

/-- Fewer ids in use are covered as well. -/
theorem Covers.of_subset {ids : Allocator} {used fewer : List NodeId} (h : ids.Covers used)
    (hsub : fewer ⊆ used) : ids.Covers fewer :=
  fun id hid => h id (hsub hid)

/-- A higher floor covers what a lower one covers. -/
theorem Covers.mono {ids later : Allocator} {used : List NodeId} (h : ids.Covers used)
    (hle : ids.floor ≤ later.floor) : later.Covers used :=
  fun id hid n hn => Nat.le_trans (h id hid n hn) hle

/-- No number above the floor is in use, whatever text it has. -/
theorem Covers.ofNumber_notMem {ids : Allocator} {used : List NodeId} (h : ids.Covers used)
    {n : Nat} (habove : ids.floor < n) (hn : n < 2 ^ 64) : NodeId.ofNumber n ∉ used :=
  fun hmem => absurd (h _ hmem n (NodeId.number?_ofNumber hn)) (Nat.not_le.mpr habove)

/-- The next id of a covering allocator is not in use. -/
theorem Covers.next_notMem {ids : Allocator} {used : List NodeId} (h : ids.Covers used)
    (hroom : ids.floor + 1 < 2 ^ 64) : ids.next.1 ∉ used :=
  h.ofNumber_notMem (Nat.lt_succ_self _) hroom

/-- No id in use denotes the number of the next id, however it is spelt. -/
theorem Covers.number?_ne_next {ids : Allocator} {used : List NodeId} (h : ids.Covers used)
    (hroom : ids.floor + 1 < 2 ^ 64) {id : NodeId} (hid : id ∈ used) :
    id.number? ≠ ids.next.1.number? := by
  intro hsame
  rw [next, NodeId.number?_ofNumber hroom] at hsame
  exact Nat.not_succ_le_self _ (h id hid _ hsame)

/-- The allocator has come to an id: the number of the id, if it has one, is not above the
floor. -/
def Reached (ids : Allocator) (id : NodeId) : Prop := ∀ n, id.number? = some n → n ≤ ids.floor

instance (ids : Allocator) (id : NodeId) : Decidable (ids.Reached id) :=
  decidable_of_iff (id.number?.all (· ≤ ids.floor)) <| by
    simp only [Reached, Option.all_eq_true, decide_eq_true_eq]

/-- What was reached stays reached. -/
theorem Reached.mono {ids later : Allocator} {id : NodeId} (h : ids.Reached id)
    (hle : ids.floor ≤ later.floor) : later.Reached id :=
  fun n hn => Nat.le_trans (h n hn) hle

/-- An id is reached when it is issued. -/
theorem reached_next (ids : Allocator) : ids.next.2.Reached ids.next.1 := by
  intro n hn
  have hread := NodeId.number?_ofNumber_eq (ids.floor + 1)
  rw [← show ids.next.1 = NodeId.ofNumber (ids.floor + 1) from rfl, hn] at hread
  split at hread
  · exact Nat.le_of_eq (Option.some.inj hread)
  · cases hread

/-- The next id was not reached before. -/
theorem not_reached_next {ids : Allocator} (hroom : ids.floor + 1 < 2 ^ 64) :
    ¬ ids.Reached ids.next.1 := fun h =>
  absurd (h _ (NodeId.number?_ofNumber hroom)) (Nat.not_succ_le_self _)

/-- The ids that the next `count` calls issue. -/
def upcoming (ids : Allocator) (count : Nat) : List NodeId :=
  (List.range' (ids.floor + 1) count).map NodeId.ofNumber

@[simp] theorem upcoming_zero (ids : Allocator) : ids.upcoming 0 = [] := rfl

/-- A run of calls can be cut at any place. -/
theorem upcoming_add (ids : Allocator) (first second : Nat) :
    ids.upcoming (first + second) =
      ids.upcoming first ++ Allocator.upcoming ⟨ids.floor + first⟩ second := by
  simp only [upcoming, ← List.map_append]
  rw [show ids.floor + first + 1 = ids.floor + 1 + first by omega, List.range'_append_1]

/-- No id is issued twice. -/
theorem nodup_upcoming (ids : Allocator) (count : Nat) : (ids.upcoming count).Nodup :=
  List.Nodup.map NodeId.ofNumber_injective List.nodup_range'

/-- The floor after a run covers what the run issued. -/
theorem covers_upcoming {ids : Allocator} {count : Nat} (hroom : ids.floor + count < 2 ^ 64) :
    Allocator.Covers ⟨ids.floor + count⟩ (ids.upcoming count) := by
  intro id hid n hn
  obtain ⟨m, hm, rfl⟩ := List.mem_map.mp hid
  have hbounds := List.mem_range'_1.mp hm
  rw [NodeId.number?_ofNumber (by omega), Option.some.injEq] at hn
  show n ≤ ids.floor + count
  omega

/-- What a covering allocator will issue is disjoint from what is in use. -/
theorem Covers.disjoint_upcoming {ids : Allocator} {used : List NodeId} (h : ids.Covers used)
    {count : Nat} (hroom : ids.floor + count < 2 ^ 64) :
    used.Disjoint (ids.upcoming count) := by
  intro id hused hid
  obtain ⟨m, hm, rfl⟩ := List.mem_map.mp hid
  have hbounds := List.mem_range'_1.mp hm
  exact h.ofNumber_notMem (by omega) (by omega) hused

end Allocator

end SdfScene
