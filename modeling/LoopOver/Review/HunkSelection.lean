import LoopOver.Foundations.Greedy
import LoopOver.Review.ReviewDiff
import Mathlib.Algebra.BigOperators.Group.List.Basic
import Mathlib.Algebra.Order.BigOperators.Group.List

/-!
# Hunks that fit, in the order of the file

A patch that is too long for the budget is cut down to hunks (`keepHighSignalHunks`): the hunks are
taken by their added lines while there is room, and given back, the last one first, until the notice
about the dropped ones fits too.

* `KeepsHighSignal` is the promise. `SelectsHunks` is about a result with whole hunks, and
  `CutShort` about one without.
* `joinLines_splitHunks`: a patch is its hunks, joined.
* `selectHunks_eq` reads the loop as a greedy selection, and `trimChosen_spec` has what the second
  loop leaves.
* **`hunks_fit_and_keep_order`** is about every patch and every budget.
-/

namespace LoopOver.ReviewDiff

open List

/-! ## What is promised -/

/-- The hunk at a position. -/
def hunkAt (hunks : List Units) (i : ℕ) : Units := hunks.getD i []

/-- The added lines of the hunk at a position. -/
def signalAt (hunks : List Units) (i : ℕ) : ℕ := addedLineCount (some (hunkAt hunks i))

/-- The hunks at the positions, joined. -/
def joinAt (hunks : List Units) (positions : List ℕ) : Units :=
  joinLines (positions.map (hunkAt hunks))

/-- The positions of the hunks that the result has whole. -/
def keptPositions (patch : Units) (budget : ℤ) : List ℕ :=
  if (splitHunks patch).length ≤ 1 then []
  else ((keepHunks (splitHunks patch) budget).map fun kept => kept.1.insertionSort (· ≤ ·)).getD []

/-- The result is the hunks at some positions, and the notice about the others. -/
structure SelectsHunks (hunks : List Units) (budget : ℤ) (kept : List ℕ) (result : Units) :
    Prop where
  inOrder : kept.Pairwise (· < ·)
  ofFile : ∀ i ∈ kept, i < hunks.length
  result_eq : result = joinAt hunks kept ++ droppedNotice (hunks.length - kept.length)
  /-- A dropped hunk with more added lines than a kept one did not fit beside the kept ones that
  have as many. -/
  best : ∀ i < hunks.length, i ∉ kept → ∀ k ∈ kept, signalAt hunks k < signalAt hunks i →
    budget < (joinAt hunks (i :: kept.filter (signalAt hunks i ≤ signalAt hunks ·))).length

/-- No hunk is whole: a part of one with a notice, or a part of the notice alone. -/
inductive CutShort (hunks : List Units) (result : Units) : Prop
  | part (hunk : Units) (n : ℕ) (notice : Units) (hhunk : hunk ∈ hunks) (hn : n < hunk.length)
      (hnotice : notice = 10 :: truncatedNotice ∨ notice = droppedNotice (hunks.length - 1))
      (hresult : result = hunk.take n ++ notice)
  | notice (n : ℕ) (notice : Units)
      (hnotice : notice = truncatedNotice ∨ notice = droppedNotice (hunks.length - 1))
      (hresult : result = notice.take n)

structure KeepsHighSignal (patch : Units) (budget : ℤ) : Prop where
  bounded : (keepHighSignalHunks patch budget).length ≤ budget
  unchanged : patch.length ≤ budget → keepHighSignalHunks patch budget = patch
  selects : budget < patch.length → keptPositions patch budget ≠ [] →
    SelectsHunks (splitHunks patch) budget (keptPositions patch budget)
      (keepHighSignalHunks patch budget)
  cuts : budget < patch.length → keptPositions patch budget = [] →
    CutShort (splitHunks patch) (keepHighSignalHunks patch budget)

/-! ## Hunks -/

section Hunks

variable {lines front back hunks : List Units} {patch : Units} {budget : ℤ}

theorem length_joinLines (lines : List Units) :
    (joinLines lines).length = (lines.map List.length).sum + (lines.length - 1) := by
  induction lines with
  | nil => rfl
  | cons line lines ih =>
    cases lines with
    | nil => simp [joinLines]
    | cons next lines =>
      simp only [joinLines, intercalate_cons_cons, length_append, map_cons, sum_cons,
        length_cons] at ih ⊢
      simp at ih ⊢
      omega

theorem splitHunksFrom_ne_nil (cur lines : List Units) (h : cur ≠ [] ∨ lines ≠ []) :
    splitHunksFrom cur lines ≠ [] := by
  induction lines generalizing cur with
  | nil => simpa [splitHunksFrom] using h
  | cons line lines ih =>
    rw [splitHunksFrom]
    split
    · exact cons_ne_nil _ _
    · exact ih _ (Or.inl (by simp))

theorem joinLines_splitHunksFrom (cur lines : List Units) :
    joinLines (splitHunksFrom cur lines) = joinLines (cur ++ lines) := by
  induction lines generalizing cur with
  | nil => cases cur <;> simp [splitHunksFrom, joinLines]
  | cons line lines ih =>
    rw [splitHunksFrom]
    split
    · next hstarts =>
      rw [Bool.and_eq_true, Bool.not_eq_true', isEmpty_eq_false_iff] at hstarts
      rw [← singleton_append,
        joinLines_append (cons_ne_nil _ _) (splitHunksFrom_ne_nil _ _ (by simp)), ih,
        joinLines_append hstarts.2 (by simp)]
      simp [joinLines]
    · rw [ih, append_assoc, singleton_append]

/-- **A patch is its hunks, joined.** -/
theorem joinLines_splitHunks (patch : Units) : joinLines (splitHunks patch) = patch := by
  rw [splitHunks, joinLines_splitHunksFrom, nil_append, joinLines, splitLines, intercalate_splitOn]

theorem splitHunks_ne_nil (patch : Units) : splitHunks patch ≠ [] :=
  splitHunksFrom_ne_nil _ _ (Or.inr (splitOn_ne_nil _ _))

theorem splitHunks_eq_singleton (h : (splitHunks patch).length ≤ 1) :
    splitHunks patch = [patch] := by
  have hjoin := joinLines_splitHunks patch
  cases hhunks : splitHunks patch with
  | nil => exact absurd hhunks (splitHunks_ne_nil patch)
  | cons hunk rest =>
    cases rest with
    | nil =>
      rw [hhunks] at hjoin
      simpa [joinLines] using hjoin
    | cons next rest => simp [hhunks] at h

/-- The digits of a number are as many units. -/
theorem length_digits (n : ℕ) : (utf16Units (toString n)).length = (Nat.toDigits 10 n).length := by
  rw [utf16Units_toString, length_map]

theorem droppedNotice_length_mono {m n : ℕ} (h : m ≤ n) :
    (droppedNotice m).length ≤ (droppedNotice n).length := by
  have hdigits : (Nat.toDigits 10 m).length ≤ (Nat.toDigits 10 n).length := by
    rw [Nat.length_toDigits_le_iff (by decide) Nat.length_toDigits_pos]
    exact h.trans_lt ((Nat.length_toDigits_le_iff (by decide) Nat.length_toDigits_pos).1 le_rfl)
  simp only [droppedNotice, length_append, length_digits]
  omega

end Hunks

/-! ## Positions -/

section Positions

variable {hunks : List Units} {positions : List ℕ} {budget : ℤ}

/-- The characters of the hunks at the positions. -/
def charsAt (hunks : List Units) (positions : List ℕ) : ℕ :=
  (positions.map fun i => (hunkAt hunks i).length).sum

@[simp] theorem charsAt_nil (hunks : List Units) : charsAt hunks [] = 0 := rfl

@[simp] theorem charsAt_cons (hunks : List Units) (i : ℕ) (positions : List ℕ) :
    charsAt hunks (i :: positions) = (hunkAt hunks i).length + charsAt hunks positions := by
  simp [charsAt]

theorem charsAt_append (hunks : List Units) (front back : List ℕ) :
    charsAt hunks (front ++ back) = charsAt hunks front + charsAt hunks back := by
  simp [charsAt]

theorem charsAt_perm (hunks : List Units) {positions' : List ℕ} (h : positions.Perm positions') :
    charsAt hunks positions = charsAt hunks positions' := (h.map _).sum_eq

theorem charsAt_sublist (hunks : List Units) {positions' : List ℕ}
    (h : positions.Sublist positions') :
    charsAt hunks positions ≤ charsAt hunks positions' :=
      (h.map _).sum_le_sum fun _ _ => Nat.zero_le _

theorem length_joinAt (hunks : List Units) (positions : List ℕ) :
    (joinAt hunks positions).length = charsAt hunks positions + (positions.length - 1) := by
  simp [joinAt, length_joinLines, charsAt, Function.comp_def]

theorem map_hunkAt_range (hunks : List Units) :
    (List.range hunks.length).map (hunkAt hunks) = hunks := by
  refine ext_getElem (by simp) fun i _ hi => ?_
  simp [hunkAt, hi]

theorem joinAt_range (hunks : List Units) :
    joinAt hunks (List.range hunks.length) = joinLines hunks := by
  rw [joinAt, map_hunkAt_range]

/-! ## The order of the hunks -/

/-- The positions by their added lines. -/
def rankedPositions (hunks : List Units) : List ℕ := (rankHunks hunks).map (·.i)

theorem rankHunks_perm (hunks : List Units) :
    (rankHunks hunks).Perm (hunks.zipIdx.map fun (hunk, i) =>
      ⟨i, hunk.length, addedLineCount (some hunk)⟩) :=
  perm_insertionSort _ _

theorem rankedPositions_perm (hunks : List Units) :
    (rankedPositions hunks).Perm (List.range hunks.length) := by
  have hzip : (hunks.zipIdx.map fun (hunk, i) =>
      (⟨i, hunk.length, addedLineCount (some hunk)⟩ : RankedHunk)).map (·.i) =
      List.range hunks.length := by
    rw [map_map, range_eq_range', ← zipIdx_map_snd 0 hunks]
    rfl
  exact hzip ▸ (rankHunks_perm hunks).map _

/-- What is known of a ranked hunk is that of its position. -/
theorem rankHunks_entry {r : RankedHunk} (hr : r ∈ rankHunks hunks) :
    r.len = (hunkAt hunks r.i).length ∧ r.sig = signalAt hunks r.i := by
  obtain ⟨⟨hunk, i⟩, hmem, rfl⟩ := mem_map.1 ((rankHunks_perm hunks).mem_iff.1 hr)
  have hget : hunks[i]? = some hunk := mem_zipIdx_iff_getElem?.1 hmem
  have hat : hunkAt hunks i = hunk := by rw [hunkAt, getD_eq_getElem?_getD, hget, Option.getD_some]
  exact ⟨by rw [hat], by rw [signalAt, hat]⟩

theorem rankedPositions_sorted (hunks : List Units) :
    (rankedPositions hunks).Pairwise fun i j => signalAt hunks j ≤ signalAt hunks i := by
  have : Std.Total fun a b : RankedHunk => b.sig ≤ a.sig := ⟨fun a b => le_total _ _⟩
  have : IsTrans RankedHunk fun a b => b.sig ≤ a.sig := ⟨fun _ _ _ hab hbc => hbc.trans hab⟩
  have hsorted : (rankHunks hunks).Pairwise fun a b => b.sig ≤ a.sig := pairwise_insertionSort _ _
  refine pairwise_map.2 (hsorted.imp_of_mem fun {a b} ha hb hle => ?_)
  rw [← (rankHunks_entry ha).2, ← (rankHunks_entry hb).2]
  exact hle

theorem rankedPositions_nodup (hunks : List Units) : (rankedPositions hunks).Nodup :=
  (rankedPositions_perm hunks).nodup_iff.2 nodup_range

theorem length_rankedPositions (hunks : List Units) :
    (rankedPositions hunks).length = hunks.length := by
  rw [(rankedPositions_perm hunks).length_eq, length_range]

/-! ## The two loops -/

/-- Whether a hunk fits beside those that are chosen. -/
def roomFor (hunks : List Units) (budget : ℤ) (chosen : List ℕ) (i : ℕ) : Bool :=
  fits budget (chosen.length + 1) (charsAt hunks chosen + (hunkAt hunks i).length) 0

theorem roomFor_iff {chosen : List ℕ} {i : ℕ} :
    roomFor hunks budget chosen i = true ↔
      ((charsAt hunks chosen + (hunkAt hunks i).length + chosen.length : ℕ) : ℤ) ≤ budget := by
  simp [roomFor, fits]

/-- **The first loop** is a greedy selection, and counts its characters. -/
theorem foldl_chooseHunk (hunks : List Units) (budget : ℤ) {ranked : List RankedHunk}
    (hranked : ∀ r ∈ ranked, r.len = (hunkAt hunks r.i).length) (chosen : List ℕ) :
    ranked.foldl (chooseHunk budget) ⟨chosen, charsAt hunks chosen⟩ =
      ⟨Greedy.fill (roomFor hunks budget) chosen (ranked.map (·.i)),
        charsAt hunks (Greedy.fill (roomFor hunks budget) chosen (ranked.map (·.i)))⟩ := by
  induction ranked generalizing chosen with
  | nil => rfl
  | cons r ranked ih =>
    obtain ⟨hr, hrest⟩ := forall_mem_cons.1 hranked
    rw [foldl_cons, map_cons, Greedy.fill, ← ih hrest]
    congr 1
    rw [chooseHunk, hr, roomFor]
    split
    · rw [charsAt_cons, add_comm]
    · rfl

/-- What the first loop chooses. -/
def chosenPositions (hunks : List Units) (budget : ℤ) : List ℕ :=
  Greedy.fill (roomFor hunks budget) [] (rankedPositions hunks)

theorem selectHunks_eq (hunks : List Units) (budget : ℤ) : selectHunks budget (rankHunks hunks) =
    ⟨chosenPositions hunks budget, charsAt hunks (chosenPositions hunks budget)⟩ :=
  foldl_chooseHunk hunks budget (fun _ hr => (rankHunks_entry hr).1) []

/-- **The second loop** gives hunks back from the top, until the notice fits or one hunk is left. -/
theorem trimChosen_spec (hunks : List Units) (budget : ℤ) (chosen : List ℕ) (droppedCount : ℕ) :
    ∃ kept dropped, trimChosen hunks budget chosen (charsAt hunks chosen) droppedCount =
        (⟨kept, charsAt hunks kept⟩, dropped) ∧
      kept <:+ chosen ∧ (chosen ≠ [] → kept ≠ []) ∧
        dropped + kept.length = droppedCount + chosen.length ∧
      (2 ≤ kept.length →
        fits budget kept.length (charsAt hunks kept)
          (droppedNotice (dropped + 1)).length = true) := by
  induction chosen generalizing droppedCount with
  | nil => exact ⟨[], droppedCount, rfl, suffix_rfl, id, rfl, nofun⟩
  | cons removed chosen ih =>
    cases chosen with
    | nil => exact ⟨[removed], droppedCount, rfl, suffix_rfl, id, rfl, by simp⟩
    | cons next rest =>
      rw [trimChosen]
      split
      · obtain ⟨kept, dropped, heq, hsuffix, hne, hcount, hfits⟩ := ih (droppedCount + 1)
        have hchars : charsAt hunks (removed :: next :: rest) - (hunks.getD removed []).length =
            charsAt hunks (next :: rest) := by
          rw [charsAt_cons, hunkAt, Nat.add_sub_cancel_left]
        refine ⟨kept, dropped, hchars ▸ heq, hsuffix.trans (suffix_cons _ _),
          fun _ => hne (cons_ne_nil _ _),
          ?_, hfits⟩
        simp only [length_cons] at hcount ⊢
        omega
      · next hfits =>
        rw [Bool.not_eq_true', Bool.not_eq_false] at hfits
        exact ⟨_, _, rfl, suffix_rfl, fun _ => cons_ne_nil _ _, rfl, fun _ => hfits⟩

theorem chosenPositions_nodup (hunks : List Units) (budget : ℤ) :
    (chosenPositions hunks budget).Nodup :=
  Greedy.fill_nodup .nil (rankedPositions_nodup hunks) fun _ _ => not_mem_nil

theorem lt_of_mem_chosenPositions {i : ℕ} (h : i ∈ chosenPositions hunks budget) :
    i < hunks.length := by
  rcases Greedy.mem_fill h with hnil | hmem
  · cases hnil
  · exact mem_range.1 ((rankedPositions_perm hunks).mem_iff.1 hmem)

theorem chosenPositions_subperm (hunks : List Units) (budget : ℤ) :
    (chosenPositions hunks budget).Subperm (List.range hunks.length) :=
  subperm_of_subset (chosenPositions_nodup hunks budget) fun _ hi =>
    mem_range.2 (lt_of_mem_chosenPositions hi)

/-- The chosen hunks fit. -/
theorem charsAt_chosenPositions (hunks : List Units) (hbudget : 0 < budget) :
    ((charsAt hunks (chosenPositions hunks budget) +
      ((chosenPositions hunks budget).length - 1) : ℕ) : ℤ) ≤ budget := by
  refine Greedy.fill_invariant (P := fun chosen =>
    ((charsAt hunks chosen + (chosen.length - 1) : ℕ) : ℤ) ≤ budget) ?_ ?_
  · intro chosen i _ _ hroom
    rw [roomFor_iff] at hroom
    simp only [charsAt_cons, length_cons, Nat.add_sub_cancel]
    omega
  · simpa using hbudget.le

/-- A patch that fits loses no hunk. -/
theorem chosenPositions_of_fits (hunks : List Units) (h : ((joinLines hunks).length : ℤ) ≤ budget) :
    chosenPositions hunks budget = (rankedPositions hunks).reverse := by
  rw [chosenPositions, Greedy.fill_eq_of_room, append_nil]
  intro front i back hsplit
  have hchars := charsAt_perm hunks (rankedPositions_perm hunks)
  have hlength := length_rankedPositions hunks
  rw [← joinAt_range, length_joinAt, length_range, ← hchars] at h
  rw [hsplit] at h hlength
  rw [roomFor_iff, append_nil, charsAt_perm hunks (reverse_perm front), length_reverse]
  simp only [charsAt_append, charsAt_cons, length_append, length_cons] at h hlength
  omega

/-- All hunks are chosen only where the patch fits. -/
theorem fits_of_length_chosenPositions (hbudget : 0 < budget)
    (h : (chosenPositions hunks budget).length = hunks.length) :
    ((joinLines hunks).length : ℤ) ≤ budget := by
  have hperm := (chosenPositions_subperm hunks budget).perm_of_length_le (by rw [h, length_range])
  have hfits := charsAt_chosenPositions hunks hbudget
  rwa [charsAt_perm hunks hperm, hperm.length_eq, ← length_joinAt, joinAt_range] at hfits

/-- The hunk with the most added lines is chosen first, where it fits at all. -/
theorem top_of_singleton {top k : ℕ} {rest : List ℕ} (hranked : rankedPositions hunks = top :: rest)
    (hkept : [k] <:+ chosenPositions hunks budget) :
    k = top ∨ budget < (hunkAt hunks top).length := by
  rw [chosenPositions, hranked, Greedy.fill] at hkept
  cases hroom : roomFor hunks budget [] top with
  | true =>
    rw [hroom, if_pos rfl] at hkept
    have htop := Greedy.suffix_fill (roomFor hunks budget) [top] rest
    rcases suffix_or_suffix_of_suffix hkept htop with h | h
    · exact Or.inl (List.cons.inj (h.eq_of_length rfl)).1
    · exact Or.inl (List.cons.inj (h.eq_of_length rfl)).1.symm
  | false =>
    right
    by_contra hle
    have hfits : roomFor hunks budget [] top = true := roomFor_iff.2 (by simpa using hle)
    rw [hroom] at hfits
    cases hfits

end Positions

/-! ## The promise -/

section Promise

variable {patch : Units} {budget : ℤ}

theorem length_cutPatch_le (hbudget : 0 < budget) :
    ((cutPatch patch budget).length : ℤ) ≤ budget := by
  unfold cutPatch
  split
  · assumption
  · extract_lets room
    split
    · simp only [length_append, length_take, length_cons]
      omega
    · rw [length_take]
      omega

theorem length_cutTopHunk_le (hunks : List Units) (ranked : List RankedHunk)
    (hbudget : 0 < budget) :
    ((cutTopHunk hunks ranked budget).length : ℤ) ≤ budget := by
  unfold cutTopHunk
  extract_lets notice room
  split
  · simp only [length_append, length_take]
    omega
  · rw [length_take]
    omega

/-- What is kept of several hunks. -/
theorem keepHunks_eq (hunks : List Units) (budget : ℤ) :
    ∃ kept, kept <:+ chosenPositions hunks budget ∧
      (chosenPositions hunks budget ≠ [] → kept ≠ []) ∧
      ((chosenPositions hunks budget).length = hunks.length → kept = chosenPositions hunks budget) ∧
      (kept.length < hunks.length → 2 ≤ kept.length →
        fits budget kept.length (charsAt hunks kept)
          (droppedNotice (hunks.length - kept.length + 1)).length = true) ∧
      keepHunks hunks budget =
        if kept.length = 0 ∨ (kept.length = 1 ∧
            !fits budget 1 (charsAt hunks kept)
              (droppedNotice (hunks.length - kept.length)).length) then none
        else some (kept, hunks.length - kept.length) := by
  have hle : (chosenPositions hunks budget).length ≤ hunks.length := by
    simpa using (chosenPositions_subperm hunks budget).length_le
  rw [keepHunks]
  simp only [selectHunks_eq]
  by_cases hdrops : 0 < (chosenPositions hunks budget).length ∧
    0 < hunks.length - (chosenPositions hunks budget).length
  · rw [if_pos hdrops]
    obtain ⟨kept, dropped, heq, hsuffix, hne, hcount, hfits⟩ := trimChosen_spec hunks budget
      (chosenPositions hunks budget) (hunks.length - (chosenPositions hunks budget).length)
    obtain rfl : dropped = hunks.length - kept.length := by omega
    refine ⟨kept, hsuffix, hne, fun hall => by omega, fun _ => hfits, ?_⟩
    rw [heq]
  · rw [if_neg hdrops]
    refine ⟨_, suffix_rfl, id, fun _ => rfl, fun hless htwo => ?_, rfl⟩
    omega

/-- The kept positions in the order of the file. -/
def sortedPositions (kept : List ℕ) : List ℕ := kept.insertionSort (· ≤ ·)

theorem sortedPositions_perm (kept : List ℕ) : (sortedPositions kept).Perm kept :=
  perm_insertionSort _ _

variable {kept : List ℕ}

theorem sortedPositions_ascending (h : kept.Nodup) : (sortedPositions kept).Pairwise (· < ·) := by
  have hsorted : (sortedPositions kept).Pairwise (· ≤ ·) := pairwise_insertionSort _ _
  have hnodup := (sortedPositions_perm kept).nodup_iff.2 h
  exact hsorted.imp₂ (fun _ _ hle hne => lt_of_le_of_ne hle hne) hnodup

theorem joinKept_eq (hunks : List Units) (kept : List ℕ) :
    joinKept hunks kept = joinAt hunks (sortedPositions kept) :=
  rfl

theorem length_joinKept (hunks : List Units) (kept : List ℕ) :
    (joinKept hunks kept).length = charsAt hunks kept + (kept.length - 1) := by
  rw [joinKept_eq, length_joinAt, charsAt_perm _ (sortedPositions_perm kept),
    (sortedPositions_perm kept).length_eq]

/-- All positions, sorted, are those of the file. -/
theorem sortedPositions_of_perm_range {n : ℕ} (h : kept.Perm (List.range n)) :
    sortedPositions kept = List.range n := by
  have hasc := sortedPositions_ascending (h.nodup_iff.2 nodup_range)
  exact ((sortedPositions_perm kept).trans h).eq_of_pairwise
    (fun a b _ _ hab hba => absurd hab (not_lt.2 hba.le)) hasc
    pairwise_lt_range

variable {hunks : List Units}

/-- No hunk is left out that fits beside those that come before it. -/
theorem best_of_suffix (hkept : kept <:+ chosenPositions hunks budget) {i k : ℕ}
    (hi : i < hunks.length) (hmissing : i ∉ kept) (hk : k ∈ kept)
    (hless : signalAt hunks k < signalAt hunks i) :
    budget <
      (joinAt hunks
        (i :: (sortedPositions kept).filter (signalAt hunks i ≤ signalAt hunks ·))).length := by
  have hrankedI : i ∈ rankedPositions hunks :=
    (rankedPositions_perm hunks).mem_iff.2 (mem_range.2 hi)
  obtain ⟨front, back, hsplit⟩ := append_of_mem hrankedI
  have hsorted := rankedPositions_sorted hunks
  have hnodup := rankedPositions_nodup hunks
  rw [hsplit] at hsorted hnodup
  have hfront : ∀ j ∈ front, signalAt hunks i ≤ signalAt hunks j := fun j hj =>
    (pairwise_append.1 hsorted).2.2 j hj i mem_cons_self
  have hback : k ∈ back := by
    have hrankedK : k ∈ rankedPositions hunks :=
      (rankedPositions_perm hunks).mem_iff.2
        (mem_range.2 (lt_of_mem_chosenPositions (hkept.subset hk)))
    rw [hsplit, mem_append, mem_cons] at hrankedK
    rcases hrankedK with hk | rfl | hk
    · exact absurd hless (not_lt.2 (hfront k hk))
    · exact absurd hk hmissing
    · exact hk
  rw [chosenPositions, hsplit] at hkept
  obtain ⟨hroom, hbefore⟩ := Greedy.no_room_of_not_mem hnodup hkept hback hk hmissing
  -- the hunks that it was refused for are among the kept ones with as many added lines
  have hamong : (Greedy.fill (roomFor hunks budget) [] front).Sublist
      (kept.filter (signalAt hunks i ≤ signalAt hunks ·)) := by
    have hsublist := hbefore.sublist.filter (signalAt hunks i ≤ signalAt hunks ·)
    rwa [filter_eq_self.2] at hsublist
    intro j hj
    rcases Greedy.mem_fill hj with hnil | hmem
    · cases hnil
    · exact decide_eq_true (hfront j hmem)
  have hperm := (sortedPositions_perm kept).filter (signalAt hunks i ≤ signalAt hunks ·)
  have hchars := charsAt_sublist hunks hamong
  have hlength := hamong.length_le
  have hrefused : ¬roomFor hunks budget (Greedy.fill (roomFor hunks budget) [] front) i = true := by
    simp [hroom]
  rw [roomFor_iff] at hrefused
  rw [length_joinAt, charsAt_cons, charsAt_perm hunks hperm, length_cons, hperm.length_eq,
    Nat.add_sub_cancel]
  omega

/-- The top hunk is cut where not even one hunk fits beside the notice. -/
theorem cutShort_cutTopHunk (hmany : 2 ≤ hunks.length)
    (hkept : kept <:+ chosenPositions hunks budget)
    (hne : chosenPositions hunks budget ≠ [] → kept ≠ [])
    (hcut : kept.length = 0 ∨ (kept.length = 1 ∧ !fits budget 1 (charsAt hunks kept)
      (droppedNotice (hunks.length - kept.length)).length)) :
    CutShort hunks (cutTopHunk hunks (rankHunks hunks) budget) := by
  obtain ⟨top, rest, hranked⟩ : ∃ top rest, rankedPositions hunks = top :: rest := by
    cases hpositions : rankedPositions hunks with
    | nil =>
      have hlength := length_rankedPositions hunks
      rw [hpositions, length_nil] at hlength
      omega
    | cons top rest => exact ⟨top, rest, rfl⟩
  have htop : ((rankHunks hunks).head?.map (·.i)).getD 0 = top := by
    rw [← List.head?_map, show (rankHunks hunks).map (·.i) = top :: rest from hranked]
    rfl
  have hmem : top < hunks.length :=
    mem_range.1 ((rankedPositions_perm hunks).mem_iff.1 (hranked ▸ mem_cons_self))
  unfold cutTopHunk
  rw [htop]
  extract_lets notice room
  split
  · next hroom =>
    -- the top hunk itself, or its part beside the notice, is longer than the budget
    have hlong : room < (hunkAt hunks top).length := by
      rcases hcut with hnone | ⟨hone, hfits⟩
      · have hnil : chosenPositions hunks budget = [] := by
          by_contra hchosen
          exact hne hchosen (length_eq_zero_iff.1 hnone)
        have hrefused : ¬roomFor hunks budget [] top = true := by
          intro hfits
          have htaken := Greedy.suffix_fill (roomFor hunks budget) [top] rest
          rw [chosenPositions, hranked, Greedy.fill, hfits, if_pos rfl] at hnil
          rw [hnil] at htaken
          simp at htaken
        rw [roomFor_iff] at hrefused
        simp at hrefused
        omega
      · obtain ⟨k, rfl⟩ := length_eq_one_iff.1 hone
        rcases top_of_singleton hranked hkept with rfl | hover
        · have hnotice : droppedNotice (hunks.length - 1) = notice := rfl
          rw [length_singleton, hnotice] at hfits
          simp only [fits, charsAt_cons, charsAt_nil, Bool.not_eq_true', decide_eq_false_iff_not,
            not_le] at hfits
          omega
        · omega
    refine .part (hunkAt hunks top) room.toNat notice ?_ (by omega) (Or.inr rfl) rfl
    rw [hunkAt, getD_eq_getElem?_getD, List.getElem?_eq_getElem hmem]
    exact getElem_mem hmem
  · exact .notice budget.toNat notice (Or.inr rfl) rfl

theorem keeps_of_single (hbudget : 0 < budget) (hone : (splitHunks patch).length ≤ 1) :
    KeepsHighSignal patch budget := by
  have heq : keepHighSignalHunks patch budget = cutPatch patch budget := by
    rw [keepHighSignalHunks, if_neg (by omega), if_pos hone]
  have hnone : keptPositions patch budget = [] := if_pos hone
  refine ⟨heq ▸ length_cutPatch_le hbudget, fun hfits => ?_, fun _ hkept => absurd hnone hkept,
    fun hover _ => ?_⟩
  · rw [heq, cutPatch, if_pos hfits]
  · rw [heq, splitHunks_eq_singleton hone, cutPatch, if_neg (by omega)]
    extract_lets room
    split
    · exact .part patch room.toNat _ (mem_singleton_self _) (by omega) (Or.inl rfl) rfl
    · exact .notice budget.toNat _ (Or.inl rfl) rfl

/-- The hunks that stay whole fit, with the notice where some are dropped. -/
theorem length_kept_le (hbudget : 0 < budget)
    (hsuffix : kept <:+ chosenPositions hunks budget)
    (hfits : kept.length < hunks.length → 2 ≤ kept.length →
      fits budget kept.length (charsAt hunks kept)
        (droppedNotice (hunks.length - kept.length + 1)).length = true)
    (hkept : ¬(kept.length = 0 ∨ (kept.length = 1 ∧
      !fits budget 1 (charsAt hunks kept) (droppedNotice (hunks.length - kept.length)).length))) :
    ((if 0 < hunks.length - kept.length then joinKept hunks kept ++
      droppedNotice (hunks.length - kept.length)
      else joinKept hunks kept).length : ℤ) ≤ budget := by
  rw [not_or, not_and] at hkept
  split
  · have hmono := droppedNotice_length_mono (Nat.le_add_right (hunks.length - kept.length) 1)
    rw [length_append, length_joinKept]
    rcases Nat.lt_or_ge kept.length 2 with hless | htwo
    · have hone : kept.length = 1 := by omega
      have hroom := hkept.2 hone
      simp only [fits, Bool.not_eq_true', Bool.not_eq_false, decide_eq_true_eq] at hroom
      omega
    · have hroom := hfits (by omega) htwo
      simp only [fits, decide_eq_true_eq] at hroom
      omega
  · have hle := (chosenPositions_subperm hunks budget).length_le
    rw [length_range] at hle
    rw [length_joinKept, hsuffix.eq_of_length_le (by omega)]
    exact charsAt_chosenPositions hunks hbudget

/-- **Hunk selection fits and keeps the order.** For every patch and every budget the result is
within the budget, a patch that fits stays as it is, and of any other one the result is hunks in the
order of the file with the number of the others, none of which fitted in the place of what has fewer
added lines; or no hunk is whole. -/
theorem hunks_fit_and_keep_order (patch : Units) (budget : ℤ) (hbudget : 0 < budget) :
    KeepsHighSignal patch budget := by
  rcases Nat.lt_or_ge (splitHunks patch).length 2 with hone | hmany
  · exact keeps_of_single hbudget (by omega)
  obtain ⟨kept, hsuffix, hne, hall, hfits, hkeep⟩ := keepHunks_eq (splitHunks patch) budget
  have hpatch := joinLines_splitHunks patch
  have hchosenLe := (chosenPositions_subperm (splitHunks patch) budget).length_le
  rw [length_range] at hchosenLe
  have heq := keepHighSignalHunks.eq_1 patch budget
  simp only [if_neg (show ¬budget ≤ 0 by omega),
    if_neg (show ¬(splitHunks patch).length ≤ 1 by omega)] at heq
  have hpositions : keptPositions patch budget =
      ((keepHunks (splitHunks patch) budget).map fun kept => sortedPositions kept.1).getD [] :=
        if_neg (by omega)
  by_cases hcut : kept.length = 0 ∨
      (kept.length = 1 ∧ !fits budget 1 (charsAt (splitHunks patch) kept)
      (droppedNotice ((splitHunks patch).length - kept.length)).length)
  · rw [hkeep, if_pos hcut] at heq hpositions
    refine ⟨heq ▸ length_cutTopHunk_le _ _ hbudget, fun hfit => ?_,
      fun _ hkept => absurd hpositions hkept, fun _ _ => ?_⟩
    · -- where the patch fits, all hunks are kept
      have hreverse := chosenPositions_of_fits (splitHunks patch) (hpatch.symm ▸ hfit)
      have hlength : (chosenPositions (splitHunks patch) budget).length =
          (splitHunks patch).length := by
        rw [hreverse, length_reverse, length_rankedPositions]
      rw [hall hlength] at hcut
      omega
    · rw [heq]
      exact cutShort_cutTopHunk hmany hsuffix hne hcut
  · rw [hkeep, if_neg hcut] at heq hpositions
    replace hpositions : keptPositions patch budget = sortedPositions kept := hpositions
    refine ⟨heq ▸ length_kept_le hbudget hsuffix hfits hcut, fun hfit => ?_, fun hover _ => ?_,
      fun _ hnil => ?_⟩
    · have hreverse := chosenPositions_of_fits (splitHunks patch) (hpatch.symm ▸ hfit)
      have hperm : (chosenPositions (splitHunks patch) budget).Perm
          (List.range (splitHunks patch).length) := by
        rw [hreverse]
        exact (reverse_perm _).trans (rankedPositions_perm _)
      have hlength : (chosenPositions (splitHunks patch) budget).length =
          (splitHunks patch).length := by
        rw [hperm.length_eq, length_range]
      rw [heq, hall hlength]
      simp only
      rw [if_neg (by omega), joinKept_eq, sortedPositions_of_perm_range hperm, joinAt_range, hpatch]
    · have hperm := sortedPositions_perm kept
      have hless : kept.length < (splitHunks patch).length := by
        by_contra hge
        have hle := hsuffix.length_le
        have hfit : ((joinLines (splitHunks patch)).length : ℤ) ≤ budget :=
          fits_of_length_chosenPositions hbudget (by omega)
        rw [hpatch] at hfit
        omega
      rw [heq, hpositions]
      refine ⟨sortedPositions_ascending ((chosenPositions_nodup _ _).sublist hsuffix.sublist),
        fun i hi => ?_, ?_, ?_⟩
      · exact lt_of_mem_chosenPositions (hsuffix.subset (hperm.mem_iff.1 hi))
      · simp only
        rw [if_pos (by omega), joinKept_eq, hperm.length_eq]
      · intro i hi hmissing k hk hsignal
        exact best_of_suffix hsuffix hi (fun h => hmissing (hperm.mem_iff.2 h))
          (hperm.mem_iff.1 hk) hsignal
    · rw [hpositions] at hnil
      have hlength := (sortedPositions_perm kept).length_eq
      rw [hnil] at hlength
      exact absurd (Or.inl hlength.symm) hcut

/-- Three hunks in 144 units, of which the second only has context. -/
def samplePatch : Units :=
  utf16Units
    ("@@ -1,2 +1,3 @@\n+a\n+b\n context\n@@ -9,4 +10,4 @@\n context of a hunk\n that only moves" ++
    "\n lines around, so\n it goes first\n@@ -20 +21,2 @@\n+c\n context")

/-- A budget that the patch exceeds: the hunk of context is the one that goes. -/
theorem hunks_fit_sample :
    KeepsHighSignal samplePatch 110 ∧ keptPositions samplePatch 110 = [0, 2] :=
  ⟨hunks_fit_and_keep_order _ _ (by decide), by decide +kernel⟩

end Promise

end LoopOver.ReviewDiff
