import LoopOver.Review.MergeOrder
import Mathlib.Data.Prod.Lex

/-!
# Whom a waiting pull request is told to wait for

A decision of the merge train to wait names the siblings ahead, and of these the first as the one
that blocks (`src/review/merge-train.ts`). They are to be the oldest first, but they are sorted by
their numbers, while creation times decide which of them block.

* `NamesOldest` is what the decision promises, in the order of `OpenedBefore`.
* `NumberedByAge`: of two siblings that block, the one with the earlier creation time has no higher
  number.
* **`merge_train_oldest_first_iff`**: when all creation times are known, the promise is kept exactly
  then.
-/

namespace LoopOver

open List

variable (rt : Runtime)

/-- The siblings that the merge waits for. -/
def blockingSiblings (input : ShouldWaitForOlderSiblingsInput) : List MergeTrainSibling :=
  input.siblings.filter (mergeTrainBlocks rt input)

/-- Every creation time is known. -/
structure Dated (input : ShouldWaitForOlderSiblingsInput) : Prop where
  this : ∃ time, createdMs rt input.thisPrCreatedAt = some time
  siblings : ∀ sibling ∈ input.siblings, ∃ time, createdMs rt sibling.createdAt = some time

/-- No sibling is older than an earlier one of the list. -/
def OldestFirst (queue : List MergeTrainSibling) : Prop :=
  queue.Pairwise fun a b => ¬OpenedBefore rt b.opening a.opening

/-- A decision to wait names the oldest of the siblings that block, and lists all of them, oldest
first. -/
def NamesOldest (input : ShouldWaitForOlderSiblingsInput) : Prop :=
  ∀ blockingPr queueAhead, shouldWaitForOlderSiblings rt input = .wait blockingPr queueAhead →
    ∃ queue, queue.Perm (blockingSiblings rt input) ∧ OldestFirst rt queue ∧
      queueAhead = queue.map MergeTrainSibling.number ∧ queueAhead.head? = some blockingPr

/-- Of two siblings that block, the one created earlier has no higher number. -/
def NumberedByAge (input : ShouldWaitForOlderSiblingsInput) : Prop :=
  ∀ a ∈ blockingSiblings rt input, ∀ b ∈ blockingSiblings rt input, ∀ s t,
    createdMs rt a.createdAt = some s → createdMs rt b.createdAt = some t → s < t →
      a.number ≤ b.number

variable {rt}

section Decision

variable {input : ShouldWaitForOlderSiblingsInput} {a b : MergeTrainSibling}

/-- The siblings that block, sorted by their numbers. -/
def numberedQueue (rt : Runtime) (input : ShouldWaitForOlderSiblingsInput) :
    List MergeTrainSibling :=
  (blockingSiblings rt input).insertionSort fun a b => a.number ≤ b.number

theorem shouldWait_eq_wait_iff {blockingPr : ℕ} {queueAhead : List ℕ} :
    shouldWaitForOlderSiblings rt input = .wait blockingPr queueAhead ↔
      queueAhead = (numberedQueue rt input).map MergeTrainSibling.number ∧
        queueAhead.head? = some blockingPr := by
  rw [shouldWaitForOlderSiblings]
  have hqueue : (input.siblings.filter (mergeTrainBlocks rt input)).insertionSort
      (fun a b => a.number ≤ b.number) =
      numberedQueue rt input := rfl
  rw [hqueue]
  cases numberedQueue rt input with
  | nil =>
    constructor
    · rintro ⟨⟩
    · rintro ⟨rfl, hhead⟩
      cases hhead
  | cons blocker queue =>
    constructor
    · intro h
      obtain ⟨rfl, rfl⟩ := MergeTrainDecision.wait.inj h
      exact ⟨rfl, rfl⟩
    · rintro ⟨rfl, hhead⟩
      rw [← Option.some.inj hhead]

theorem mem_blockingSiblings_dated (hdated : Dated rt input) (ha : a ∈ blockingSiblings rt input) :
    ∃ time, createdMs rt a.createdAt = some time :=
  hdated.siblings a (mem_filter.1 ha).1

/-- The age of a sibling: its creation time, then its number. -/
def ageKey (rt : Runtime) (sibling : MergeTrainSibling) : ℤ ×ₗ ℕ :=
  toLex ((createdMs rt sibling.createdAt).getD 0, sibling.number)

/-- With known creation times the older sibling has the lower age. -/
theorem openedBefore_iff_ageKey {s t : ℤ} (ha : createdMs rt a.createdAt = some s)
    (hb : createdMs rt b.createdAt = some t) :
    OpenedBefore rt a.opening b.opening ↔ ageKey rt a < ageKey rt b := by
  rw [openedBefore_of_known (a := a.opening) (b := b.opening) ha hb, ageKey, ageKey,
    Prod.Lex.toLex_lt_toLex, ha, hb]
  exact Iff.rfl

/-- The siblings that block, sorted by their age. -/
def agedQueue (rt : Runtime) (input : ShouldWaitForOlderSiblingsInput) : List MergeTrainSibling :=
  (blockingSiblings rt input).insertionSort fun a b => ageKey rt a ≤ ageKey rt b

instance : Std.Total fun a b : MergeTrainSibling => ageKey rt a ≤ ageKey rt b :=
  ⟨fun _ _ => le_total _ _⟩

instance : IsTrans MergeTrainSibling fun a b => ageKey rt a ≤ ageKey rt b := ⟨fun _ _ _ => le_trans⟩

instance : Std.Total fun a b : MergeTrainSibling => a.number ≤ b.number := ⟨fun _ _ => le_total _ _⟩

instance : IsTrans MergeTrainSibling fun a b => a.number ≤ b.number := ⟨fun _ _ _ => le_trans⟩

theorem agedQueue_perm (rt : Runtime) (input : ShouldWaitForOlderSiblingsInput) :
    (agedQueue rt input).Perm (blockingSiblings rt input) := perm_insertionSort _ _

theorem agedQueue_oldestFirst (hdated : Dated rt input) : OldestFirst rt (agedQueue rt input) := by
  have hsorted :=
    pairwise_insertionSort (fun a b => ageKey rt a ≤ ageKey rt b) (blockingSiblings rt input)
  refine List.Pairwise.imp_of_mem (fun ha hb hle holder => ?_) hsorted
  obtain ⟨s, hs⟩ := mem_blockingSiblings_dated hdated ((agedQueue_perm rt input).subset ha)
  obtain ⟨t, ht⟩ := mem_blockingSiblings_dated hdated ((agedQueue_perm rt input).subset hb)
  exact absurd ((openedBefore_iff_ageKey ht hs).1 holder) (not_lt.2 hle)

/-- Where numbers follow ages, the two orders give the same numbers. -/
theorem agedQueue_numbers (hdated : Dated rt input) (h : NumberedByAge rt input) :
    (agedQueue rt input).map MergeTrainSibling.number =
      (numberedQueue rt input).map MergeTrainSibling.number := by
  refine List.Perm.eq_of_pairwise (fun a b _ _ => @le_antisymm ℕ _ a b) ?_ ?_ ?_
  · rw [pairwise_map]
    have hsorted :=
      pairwise_insertionSort (fun a b => ageKey rt a ≤ ageKey rt b) (blockingSiblings rt input)
    refine List.Pairwise.imp_of_mem (fun {a b} ha hb hle => ?_) hsorted
    have ha' := (agedQueue_perm rt input).subset ha
    have hb' := (agedQueue_perm rt input).subset hb
    obtain ⟨s, hs⟩ := mem_blockingSiblings_dated hdated ha'
    obtain ⟨t, ht⟩ := mem_blockingSiblings_dated hdated hb'
    rw [ageKey, ageKey, Prod.Lex.toLex_le_toLex, hs, ht] at hle
    rcases hle with hlt | ⟨-, hnumber⟩
    · exact h a ha' b hb' s t hs ht hlt
    · exact hnumber
  · rw [pairwise_map]
    exact pairwise_insertionSort (fun a b : MergeTrainSibling => a.number ≤ b.number) _
  · exact ((agedQueue_perm rt input).trans (perm_insertionSort _ _).symm).map _

end Decision

/-- **The siblings ahead are listed oldest first exactly when their numbers follow their ages.** -/
theorem merge_train_oldest_first_iff (rt : Runtime) (input : ShouldWaitForOlderSiblingsInput)
    (hdated : Dated rt input) : NamesOldest rt input ↔ NumberedByAge rt input := by
  constructor
  · intro h a ha b hb s t hs ht hlt
    have hne : (numberedQueue rt input).map MergeTrainSibling.number ≠ [] := by
      intro hnil
      have hnone := map_eq_nil_iff.1 hnil
      have hmem := (mem_insertionSort (fun a b : MergeTrainSibling => a.number ≤ b.number)).2 ha
      rw [← numberedQueue, hnone] at hmem
      exact absurd hmem not_mem_nil
    obtain ⟨blockingPr, hhead⟩ := Option.isSome_iff_exists.1 (isSome_head?.2 hne)
    obtain ⟨queue, hperm, hoverall, hnumbers, -⟩ :=
      h blockingPr _ (shouldWait_eq_wait_iff.2 ⟨rfl, hhead⟩)
    have hsorted : queue.Pairwise fun a b => a.number ≤ b.number := by
      rw [← pairwise_map (f := MergeTrainSibling.number) (R := (· ≤ ·)), ← hnumbers, pairwise_map]
      exact pairwise_insertionSort (fun a b : MergeTrainSibling => a.number ≤ b.number) _
    have hboth := hoverall.and hsorted
    have hne : a ≠ b := by
      rintro rfl
      rw [hs] at ht
      have := Option.some.inj ht
      omega
    -- the older of the two stands first, and the numbers do not fall
    have hfirst : OpenedBefore rt a.opening b.opening :=
      (openedBefore_of_known (a := a.opening) (b := b.opening) hs ht).2 (Or.inl hlt)
    by_contra hnumber
    obtain ⟨i, hi, rfl⟩ := getElem_of_mem (hperm.symm.subset ha)
    obtain ⟨j, hj, rfl⟩ := getElem_of_mem (hperm.symm.subset hb)
    rcases lt_trichotomy i j with hij | hij | hij
    · exact hnumber (pairwise_iff_getElem.1 hboth i j hi hj hij).2
    · subst hij
      exact hne rfl
    · exact (pairwise_iff_getElem.1 hboth j i hj hi hij).1 hfirst
  · intro h blockingPr queueAhead hwait
    obtain ⟨hqueue, hhead⟩ := shouldWait_eq_wait_iff.1 hwait
    exact ⟨agedQueue rt input, agedQueue_perm rt input, agedQueue_oldestFirst hdated,
      hqueue.trans (agedQueue_numbers hdated h).symm, hhead⟩

/-- The third pull request of a repository for an issue, with two older ones for the same issue. -/
def thirdContender (first second : String) : ShouldWaitForOlderSiblingsInput where
  thisPrNumber := 3
  thisPrCreatedAt := some "2026-07-07T11:00:00.000Z"
  thisPrLinkedIssues := [1]
  thisPrChangedFiles := none
  siblings := [contender (1, some first), contender (2, some second)]
  nowMs := 1783425600000

theorem merge_train_oldest_first_ordered :
    NamesOldest trainRuntime
      (thirdContender "2026-07-07T10:00:00.000Z" "2026-07-07T11:00:00.000Z") := by
  have hearly : createdMs trainRuntime (some "2026-07-07T10:00:00.000Z") = some 1783418400000 := by
    decide
  have hlate : createdMs trainRuntime (some "2026-07-07T11:00:00.000Z") = some 1783422000000 := by
    decide
  refine (merge_train_oldest_first_iff trainRuntime _ ⟨⟨_, hlate⟩, ?_⟩).2 ?_
  · rintro sibling (_ | ⟨_, _ | ⟨_, ⟨⟩⟩⟩)
    · exact ⟨_, hearly⟩
    · exact ⟨_, hlate⟩
  · intro a ha b hb s t hs ht hlt
    have ha := (mem_filter.1 ha).1
    have hb := (mem_filter.1 hb).1
    rcases ha with _ | ⟨_, _ | ⟨_, ⟨⟩⟩⟩ <;> rcases hb with _ | ⟨_, _ | ⟨_, ⟨⟩⟩⟩
    · exact le_rfl
    · exact Nat.le_succ 1
    · -- the second was not created before the first
      have hs : some 1783422000000 = some s := hlate.symm.trans hs
      have ht : some 1783418400000 = some t := hearly.symm.trans ht
      cases hs
      cases ht
      exact absurd hlt (by decide)
    · exact le_rfl

/-- The sibling with the lower number is named, though the other is older. -/
theorem merge_train_names_younger :
    Dated trainRuntime (thirdContender "2026-07-07T11:00:00.000Z" "2026-07-07T10:00:00.000Z") ∧
      shouldWaitForOlderSiblings trainRuntime
        (thirdContender "2026-07-07T11:00:00.000Z" "2026-07-07T10:00:00.000Z") = .wait 1 [1, 2] ∧
      ¬NamesOldest trainRuntime
        (thirdContender "2026-07-07T11:00:00.000Z" "2026-07-07T10:00:00.000Z") := by
  have hearly : createdMs trainRuntime (some "2026-07-07T10:00:00.000Z") = some 1783418400000 := by
    decide
  have hlate : createdMs trainRuntime (some "2026-07-07T11:00:00.000Z") = some 1783422000000 := by
    decide
  have hwait : shouldWaitForOlderSiblings trainRuntime
      (thirdContender "2026-07-07T11:00:00.000Z" "2026-07-07T10:00:00.000Z") = .wait 1 [1, 2] := by
        decide
  refine ⟨⟨⟨_, hlate⟩, ?_⟩, hwait, fun hnames => ?_⟩
  · rintro sibling (_ | ⟨_, _ | ⟨_, ⟨⟩⟩⟩)
    · exact ⟨_, hlate⟩
    · exact ⟨_, hearly⟩
  · obtain ⟨queue, hperm, hoverall, hnumbers, -⟩ := hnames 1 [1, 2] hwait
    have hlength : queue.length = 2 := by simpa using congrArg List.length hnumbers.symm
    obtain ⟨first, second, rfl⟩ := length_eq_two.1 hlength
    obtain ⟨hfirst, hsecond⟩ : 1 = first.number ∧ 2 = second.number := by simpa using hnumbers
    have hmem : ∀ sibling ∈ [first, second], sibling ∈
        [contender (1, some "2026-07-07T11:00:00.000Z"),
          contender (2, some "2026-07-07T10:00:00.000Z")] :=
      fun sibling hsibling => (mem_filter.1 (hperm.subset hsibling)).1
    have hone : first = contender (1, some "2026-07-07T11:00:00.000Z") := by
      rcases hmem first (by simp) with _ | ⟨_, _ | ⟨_, ⟨⟩⟩⟩
      · rfl
      · cases hfirst
    have htwo : second = contender (2, some "2026-07-07T10:00:00.000Z") := by
      rcases hmem second (by simp) with _ | ⟨_, _ | ⟨_, ⟨⟩⟩⟩
      · cases hsecond
      · rfl
    have hyounger := rel_of_pairwise_cons hoverall (mem_singleton_self second)
    rw [hone, htwo] at hyounger
    exact hyounger ((openedBefore_of_known (a := (2, _)) (b := (1, _)) hearly hlate).2
      (Or.inl (by decide)))

end LoopOver
