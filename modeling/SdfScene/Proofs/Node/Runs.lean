import Mathlib.Data.List.Forall2
import SdfScene.Proofs.Node.Fresh

/-!
# Runs of an allocator

An allocator is asked for ids and shown ids from elsewhere, in any order. What is shown can
raise the floor to the largest restorable number and no further, and each id that is issued
raises it by one, so a run of fewer than `2 ^ 64 - 2 ^ 53` requests stays within 64 bits. As
long as it does, ids are issued in the order of their numbers and none of them was shown before.
-/

namespace SdfScene

/-- Ids with the same text are the same. -/
theorem NodeId.text_injective : Function.Injective NodeId.text :=
  fun ⟨_⟩ ⟨_⟩ htext => congrArg NodeId.mk htext

namespace Allocator

/-- A call on an allocator. -/
inductive Call where
  /-- Issue an id. -/
  | next
  /-- Observe an id from elsewhere. -/
  | observe (id : NodeId)
  deriving DecidableEq

/-- What a call comes to. -/
inductive Answer where
  | issued (id : NodeId)
  | observed (id : NodeId)
  /-- The number of the id is too large. -/
  | refused (id : NodeId)
  deriving DecidableEq

/-- The id that was issued, if one was. -/
def Answer.issued? : Answer → Option NodeId
  | issued id => some id
  | _ => none

/-- What a call comes to, and the allocator after it. -/
def perform (ids : Allocator) : Call → Answer × Allocator
  | .next => (.issued ids.next.1, ids.next.2)
  | .observe id =>
    match ids.past? id with
    | some after => (.observed id, after)
    | none => (.refused id, ids)

/-- What calls come to one after the other, and the allocator after the last one. -/
def run (ids : Allocator) : List Call → List Answer × Allocator
  | [] => ([], ids)
  | call :: calls =>
    ((ids.perform call).1 :: ((ids.perform call).2.run calls).1,
      ((ids.perform call).2.run calls).2)

/-- The ids that are observed before the first request, between each two of them, and after the
last one. -/
def rounds : List Call → List (List NodeId)
  | [] => [[]]
  | .next :: calls => [] :: rounds calls
  | .observe id :: calls =>
    match rounds calls with
    | [] => [[id]]
    | seen :: others => (id :: seen) :: others

/-! The floor. -/

/-- Observing an id raises the floor to its number if that is restorable. -/
theorem perform_observe_floor_le {ids : Allocator} {id : NodeId} {bound : Nat} :
    (ids.perform (.observe id)).2.floor ≤ bound ↔
      ids.floor ≤ bound ∧ ∀ n, id.number? = some n → n ≤ NodeId.maxRestored → n ≤ bound := by
  rw [perform, past?]
  cases id.number? with
  | none => simp
  | some n =>
    by_cases hn : n ≤ NodeId.maxRestored
    · simp only [if_pos hn]
      rw [Nat.max_le]
      simp [hn]
    · simp [hn]

/-- No call lowers the floor. -/
theorem floor_le_perform (ids : Allocator) (call : Call) :
    ids.floor ≤ (ids.perform call).2.floor := by
  cases call with
  | next => exact Nat.le_succ _
  | observe id => exact (perform_observe_floor_le.mp (Nat.le_refl _)).1

/-- A request raises the floor by one, and what is shown raises it to the largest restorable
number at most. -/
theorem perform_floor_le (ids : Allocator) (call : Call) :
    (ids.perform call).2.floor ≤
      max ids.floor NodeId.maxRestored + [call].count .next := by
  cases call with
  | next => exact Nat.succ_le_succ (Nat.le_max_left _ _)
  | observe id =>
    exact perform_observe_floor_le.mpr
      ⟨Nat.le_max_left _ _, fun n _ hn => Nat.le_trans hn (Nat.le_max_right _ _)⟩

theorem floor_le_run (ids : Allocator) (calls : List Call) :
    ids.floor ≤ (ids.run calls).2.floor := by
  induction calls generalizing ids with
  | nil => exact Nat.le_refl _
  | cons call calls ih => exact Nat.le_trans (ids.floor_le_perform call) (ih _)

/-- A run can be cut at any place. -/
theorem run_append (ids : Allocator) (front back : List Call) :
    ids.run (front ++ back) = ((ids.run front).1 ++ ((ids.run front).2.run back).1,
      ((ids.run front).2.run back).2) := by
  induction front generalizing ids with
  | nil => rfl
  | cons call front ih => simp only [List.cons_append, run, ih]

/-- The floor that a run can reach. -/
theorem run_floor_le (ids : Allocator) (calls : List Call) :
    (ids.run calls).2.floor ≤ max ids.floor NodeId.maxRestored + calls.count .next := by
  induction calls generalizing ids with
  | nil => exact Nat.le_max_left _ _
  | cons call calls ih =>
    have hstep := ids.perform_floor_le call
    have hrest := ih (ids.perform call).2
    rw [← List.singleton_append, List.count_append, List.singleton_append, run]
    dsimp only
    omega

/-! What is issued. -/

/-- The ids that a run issues denote rising numbers above the floor that it starts from. -/
theorem exists_numbers (ids : Allocator) (calls : List Call)
    (hroom : (ids.run calls).2.floor < 2 ^ 64) :
    ∃ numbers : List Nat,
      ((ids.run calls).1.filterMap Answer.issued?).map NodeId.number? = numbers.map some ∧
        (ids.floor :: numbers).Pairwise (· < ·) := by
  -- The floor stands before the numbers, so a call has to be compared with it only.
  induction calls generalizing ids with
  | nil => exact ⟨[], rfl, List.pairwise_singleton _ _⟩
  | cons call calls ih =>
    obtain ⟨numbers, hnumbers, hrising⟩ := ih (ids.perform call).2 hroom
    have hfloor := ids.floor_le_perform call
    cases call with
    | next =>
      have hnumber : ids.next.1.number? = some (ids.floor + 1) := by
        refine NodeId.number?_ofNumber (Nat.lt_of_le_of_lt ?_ hroom)
        exact floor_le_run ids.next.2 calls
      refine ⟨(ids.floor + 1) :: numbers, ?_, ?_⟩
      · rw [List.map_cons, ← hnumbers, ← hnumber]
        rfl
      · refine List.pairwise_cons.mpr ⟨fun n hn => ?_, hrising⟩
        rcases List.mem_cons.mp hn with rfl | hn
        · exact Nat.lt_succ_self _
        · exact Nat.lt_trans (Nat.lt_succ_self _) ((List.pairwise_cons.mp hrising).1 n hn)
    | observe id =>
      refine ⟨numbers, ?_, ?_⟩
      · rw [← hnumbers, run, List.filterMap_cons_none]
        rw [perform]
        cases ids.past? id <;> rfl
      · obtain ⟨habove, hpairwise⟩ := List.pairwise_cons.mp hrising
        exact List.pairwise_cons.mpr
          ⟨fun n hn => Nat.lt_of_le_of_lt hfloor (habove n hn), hpairwise⟩

/-- What a run issues was not reached when it started. -/
theorem not_reached_of_issued {ids : Allocator} (calls : List Call)
    (hroom : (ids.run calls).2.floor < 2 ^ 64) {id : NodeId}
    (hid : .issued id ∈ (ids.run calls).1) : ¬ ids.Reached id := by
  obtain ⟨numbers, hnumbers, hrising⟩ := ids.exists_numbers calls hroom
  have hmem : id.number? ∈ numbers.map some := by
    rw [← hnumbers]
    exact List.mem_map_of_mem (List.mem_filterMap.mpr ⟨_, hid, rfl⟩)
  obtain ⟨n, hn, hsame⟩ := List.mem_map.mp hmem
  intro hreached
  have habove := (List.pairwise_cons.mp hrising).1 n hn
  exact Nat.not_le.mpr habove (hreached n hsame.symm)

/-- An id that is observed is reached. -/
theorem reached_of_observed {ids : Allocator} {id other : NodeId}
    (h : (ids.perform (.observe id)).1 = .observed other) :
    (ids.perform (.observe id)).2.Reached other := by
  rw [perform] at h ⊢
  cases hpast : ids.past? id with
  | none => rw [hpast] at h; cases h
  | some after =>
    rw [hpast] at h
    cases h
    intro n hn
    simp only [past?, hn] at hpast
    split at hpast
    · cases hpast
      exact Nat.le_max_right _ _
    · cases hpast

/-- No id is issued that was observed before, however it was spelt. -/
theorem pairwise_fresh (ids : Allocator) (calls : List Call)
    (hroom : (ids.run calls).2.floor < 2 ^ 64) :
    (ids.run calls).1.Pairwise fun earlier later =>
      ∀ other id, earlier = .observed other → later = .issued id → other.text ≠ id.text := by
  induction calls generalizing ids with
  | nil => exact List.Pairwise.nil
  | cons call calls ih =>
    refine List.pairwise_cons.mpr ⟨fun later hlater other id hobserved hissued htext => ?_,
      ih _ hroom⟩
    subst hissued
    have hnew := not_reached_of_issued calls hroom hlater
    cases call with
    | next => cases hobserved
    | observe shown =>
      exact hnew (NodeId.text_injective htext ▸ reached_of_observed hobserved)

/-! What the floor depends on. -/

/-- The allocator after ids were observed, those that are refused left out. -/
def observeEach (ids : Allocator) : List NodeId → Allocator
  | [] => ids
  | id :: seen => (ids.perform (.observe id)).2.observeEach seen

/-- The allocator after rounds of observed ids with a request after each but the last. -/
def runRounds (ids : Allocator) : List (List NodeId) → Allocator
  | [] => ids
  | [seen] => ids.observeEach seen
  | seen :: others => (ids.observeEach seen).next.2.runRounds others

theorem rounds_ne_nil (calls : List Call) : rounds calls ≠ [] := by
  cases calls with
  | nil => exact List.cons_ne_nil _ _
  | cons call calls =>
    cases call with
    | next => exact List.cons_ne_nil _ _
    | observe id =>
      rw [rounds]
      split <;> exact List.cons_ne_nil _ _

/-- A run leaves the allocator that its rounds leave. -/
theorem run_eq_runRounds (ids : Allocator) (calls : List Call) :
    (ids.run calls).2 = ids.runRounds (rounds calls) := by
  induction calls generalizing ids with
  | nil => rfl
  | cons call calls ih =>
    obtain ⟨seen, others, hrounds⟩ := List.exists_cons_of_ne_nil (rounds_ne_nil calls)
    cases call with
    | next =>
      simp only [run, ih, rounds, hrounds]
      rfl
    | observe id =>
      simp only [run, ih, rounds, hrounds]
      cases others <;> rfl

/-- The floor after ids were observed is the least one above the restorable numbers. -/
theorem observeEach_floor_le {ids : Allocator} {seen : List NodeId} {bound : Nat} :
    (ids.observeEach seen).floor ≤ bound ↔ ids.floor ≤ bound ∧
      ∀ id ∈ seen, ∀ n, id.number? = some n → n ≤ NodeId.maxRestored → n ≤ bound := by
  induction seen generalizing ids with
  | nil => simp [observeEach]
  | cons id seen ih =>
    rw [observeEach, ih, perform_observe_floor_le, List.forall_mem_cons, and_assoc]

/-- The order in which ids are observed does not matter, nor how often each of them is. -/
theorem observeEach_congr {seen other : List NodeId} (h : ∀ id, id ∈ seen ↔ id ∈ other)
    (ids : Allocator) : ids.observeEach seen = ids.observeEach other := by
  have hbounds : ∀ bound, (ids.observeEach seen).floor ≤ bound ↔
      (ids.observeEach other).floor ≤ bound := by
    intro bound
    simp only [observeEach_floor_le, h]
  exact congrArg Allocator.mk (Nat.le_antisymm ((hbounds _).mpr (Nat.le_refl _))
    ((hbounds _).mp (Nat.le_refl _)))

theorem runRounds_congr {first second : List (List NodeId)}
    (h : List.Forall₂ (fun seen other => ∀ id, id ∈ seen ↔ id ∈ other) first second)
    (ids : Allocator) : ids.runRounds first = ids.runRounds second := by
  induction h generalizing ids with
  | nil => rfl
  | cons hround hothers ih =>
    cases hothers with
    | nil => exact observeEach_congr hround ids
    | cons hnext hrest =>
      simp only [runRounds, observeEach_congr hround ids]
      exact ih _

/-- A run of fewer than `2 ^ 64 - 2 ^ 53` requests on a fresh allocator stays within 64 bits. The
ids that it issues denote rising numbers and are distinct as texts, and each of them is another
text than any id that was observed before. An id that is refused leaves the allocator as it was.
Two runs that observe the same ids in each round, in any order and any number of times, leave the
same allocator. -/
theorem run_fresh (calls : List Call) (hcount : calls.count .next < 2 ^ 64 - 2 ^ 53) :
    (∀ before, before <+: calls → (fresh.run before).2.floor < 2 ^ 64) ∧
    (∃ numbers : List Nat,
      ((fresh.run calls).1.filterMap Answer.issued?).map NodeId.number? = numbers.map some ∧
        numbers.Pairwise (· < ·)) ∧
    (((fresh.run calls).1.filterMap Answer.issued?).map NodeId.text).Nodup ∧
    ((fresh.run calls).1.Pairwise fun earlier later =>
      ∀ other id, earlier = .observed other → later = .issued id → other.text ≠ id.text) ∧
    (∀ before id, (fresh.run before).2.past? id = none →
      (fresh.run (before ++ [.observe id])).2 = (fresh.run before).2) ∧
    ∀ others, List.Forall₂ (fun seen other => ∀ id, id ∈ seen ↔ id ∈ other)
        (rounds calls) (rounds others) →
      (fresh.run others).2 = (fresh.run calls).2 := by
  have hfits : ∀ before, before <+: calls → (fresh.run before).2.floor < 2 ^ 64 := by
    intro before hbefore
    have hreach := fresh.run_floor_le before
    have hless := hbefore.sublist.count_le .next
    have hlargest : max fresh.floor NodeId.maxRestored = 2 ^ 53 - 1 := by decide
    omega
  have hroom := hfits calls (List.prefix_refl calls)
  obtain ⟨numbers, hnumbers, hrising⟩ := fresh.exists_numbers calls hroom
  have hpairwise := (List.pairwise_cons.mp hrising).2
  refine ⟨hfits, ⟨numbers, hnumbers, hpairwise⟩, ?_, fresh.pairwise_fresh calls hroom, ?_, ?_⟩
  · -- Texts that denote different numbers are different.
    have hdistinct : (numbers.map some).Nodup :=
      List.Nodup.map (fun _ _ => Option.some.inj) (hpairwise.imp Nat.ne_of_lt)
    rw [← hnumbers] at hdistinct
    exact List.Nodup.map NodeId.text_injective (List.Nodup.of_map _ hdistinct)
  · intro before id hrefused
    rw [run_append]
    simp only [run, perform, hrefused]
  · intro others hsame
    rw [run_eq_runRounds, run_eq_runRounds, runRounds_congr hsame]

/-- Ids in several spellings: padded, with a sign, no number at all, and too large for 64 bits or
for being restored. -/
theorem run_fresh_of_spellings :
    let shown : List Call := [.observe ⟨"+7"⟩, .observe ⟨"007"⟩, .observe ⟨"shapes"⟩,
      .observe ⟨"99999999999999999999"⟩, .observe ⟨"9007199254740992"⟩]
    let again : List Call := [.observe ⟨"9007199254740992"⟩, .observe ⟨"shapes"⟩,
      .observe ⟨"99999999999999999999"⟩, .observe ⟨"007"⟩, .observe ⟨"+7"⟩, .observe ⟨"007"⟩]
    let calls := shown ++ [.next, .observe ⟨"9007199254740991"⟩, .next]
    let others := again ++ [.next, .observe ⟨"9007199254740991"⟩, .next]
    calls.count .next < 2 ^ 64 - 2 ^ 53 ∧
      (fresh.run calls).1.filterMap Answer.issued? = [⟨"8"⟩, ⟨"9007199254740992"⟩] ∧
      (((fresh.run calls).1.filterMap Answer.issued?).map NodeId.text).Nodup ∧
      (fresh.run others).2 = (fresh.run calls).2 := by
  intro shown again calls others
  have hcount : calls.count .next < 2 ^ 64 - 2 ^ 53 := by decide
  obtain ⟨-, -, hdistinct, -, -, hsame⟩ := run_fresh calls hcount
  refine ⟨hcount, by decide +kernel, hdistinct, hsame others ?_⟩
  refine .cons (fun id => ?_) (.cons (fun id => Iff.rfl) (.cons (fun id => Iff.rfl) .nil))
  simp only [List.mem_cons, List.not_mem_nil, or_false]
  tauto

end Allocator

end SdfScene
