import LoopOver.Review.ReliabilityCurve
import Mathlib.Algebra.BigOperators.Group.List.Basic
import Mathlib.Order.Bounds.Basic

/-!
# The loosest floor that the cases support

Buckets, pools and the two floors are only the way there. A bucket floor is *supported* by the cases
if it is allowed, and the cases that claim a confidence from it up to the last edge are enough and
precise enough (`Supported`). The suggestion is the least supported floor, and there is none where
no floor is supported (`LoosestFloor`).

* `claimedIndex_any_iff`: a case is in one of the buckets from `i` on exactly if it claims a
  confidence from their floor up to the last edge.
* `getElem?_counts` is about the loop over the cases, and `sum_drop_counts` about the pools: from
  the top, the counts of the buckets add up to the count of the cases.
-/

namespace LoopOver.Reliability

open List

/-! ## What is to be found -/

/-- The case claims a confidence between the bounds, which are included. -/
def claimsWithin (low high : ℚ) (backtestCase : BacktestCase) : Bool :=
  match backtestCase.confidence with
  | .number (.finite claimed) => low ≤ claimed && claimed ≤ high
  | _ => false

def BacktestCase.isConfirmed (backtestCase : BacktestCase) : Bool :=
  backtestCase.label == .confirmed

/-- The cases that a floor lets through. -/
def casesFrom (cases : List BacktestCase) (bucketEdges : List ℚ) (floor : ℚ) : List BacktestCase :=
  cases.filter (claimsWithin floor (bucketEdges.getLastD 0))

structure Supported (cases : List BacktestCase) (bucketEdges : List ℚ)
    (sampleFloor targetPrecision hardMinimum : ℚ) (floor : ℚ) : Prop where
  isFloor : floor ∈ bucketEdges.dropLast
  allowed : hardMinimum ≤ floor
  enough : sampleFloor ≤ (casesFrom cases bucketEdges floor).length
  precise : targetPrecision ≤
    ((casesFrom cases bucketEdges floor).countP (·.isConfirmed) : ℚ) /
      (casesFrom cases bucketEdges floor).length

structure LoosestFloor (cases : List BacktestCase) (bucketEdges : List ℚ)
    (sampleFloor targetPrecision hardMinimum : ℚ) : Prop where
  suggests : ∃ suggestion,
    suggestThreshold cases bucketEdges sampleFloor targetPrecision hardMinimum = .ok suggestion ∧
    (∀ floor, suggestion = some floor ↔
      IsLeast {f | Supported cases bucketEdges sampleFloor targetPrecision hardMinimum f} floor) ∧
    (suggestion = none ↔
      ∀ floor, ¬ Supported cases bucketEdges sampleFloor targetPrecision hardMinimum floor)
  /-- Only the claims within the edges matter, in any order. -/
  unordered : ∀ cases', (casesFrom cases' bucketEdges (bucketEdges.headD 0)).Perm
      (casesFrom cases bucketEdges (bucketEdges.headD 0)) →
    suggestThreshold cases' bucketEdges sampleFloor targetPrecision hardMinimum =
      suggestThreshold cases bucketEdges sampleFloor targetPrecision hardMinimum

/-! ## The bucket of a claim -/

section Claims

variable {bucketEdges : List ℚ} {backtestCase : BacktestCase} {i j : ℕ}

theorem getLastD_eq (h : 2 ≤ bucketEdges.length) :
    bucketEdges.getLastD 0 = bucketEdges[bucketEdges.length - 1] := by
  rw [getLastD_eq_getLast?, List.getLast?_eq_getElem?, List.getElem?_eq_getElem (by omega),
    Option.getD_some]

theorem headD_eq (h : 2 ≤ bucketEdges.length) : bucketEdges.headD 0 = bucketEdges[0] := by
  cases bucketEdges with
  | nil => simp at h
  | cons edge rest => rfl

/-- Ascending edges are in the order of their positions. -/
theorem edge_le (hasc : bucketEdges.Pairwise (· < ·)) (hij : i ≤ j) (hj : j < bucketEdges.length) :
    bucketEdges[i] ≤ bucketEdges[j] := by
  rcases hij.eq_or_lt with rfl | hlt
  · exact le_rfl
  · exact (pairwise_iff_getElem.1 hasc i j (by omega) hj hlt).le

/-- A claim is in a bucket from `i` on exactly if it is from the floor of `i` up to the last
edge. -/
theorem bucketIndexFor_any_iff (hasc : bucketEdges.Pairwise (· < ·))
    (hi : i + 1 < bucketEdges.length) (claimed : ℚ) :
    (bucketIndexFor (.finite claimed) bucketEdges).any (i ≤ ·) = true ↔
      bucketEdges[i] ≤ claimed ∧ claimed ≤ bucketEdges.getLastD 0 := by
  rw [getLastD_eq (by omega), bucketIndexFor, JsNumber.le_finite, headD_eq (by omega)]
  by_cases hfirst : bucketEdges[0] ≤ claimed
  · rw [decide_eq_true hfirst, Bool.not_true, if_neg Bool.false_ne_true]
    cases hfind : bucketEdges.tail.findIdx? fun edge =>
      (JsNumber.finite claimed).lt (.finite edge) with
    | some j =>
      obtain ⟨hj, habove, hbelow⟩ := List.findIdx?_eq_some_iff_getElem.1 hfind
      rw [length_tail] at hj
      simp only [getElem_tail, JsNumber.lt, decide_eq_true_eq, not_lt] at habove hbelow
      have hlast := edge_le hasc (show j + 1 ≤ bucketEdges.length - 1 by omega) (by omega)
      rw [Option.any_some, decide_eq_true_eq]
      constructor
      · intro hij
        refine ⟨?_, (habove.trans_le hlast).le⟩
        rcases Nat.eq_zero_or_pos i with rfl | hpos
        · exact hfirst
        · have hprevious := hbelow (i - 1) (by omega)
          simpa only [Nat.sub_add_cancel hpos] using hprevious
      · rintro ⟨hle, -⟩
        by_contra hji
        exact absurd (habove.trans_le (edge_le hasc (show j + 1 ≤ i by omega) (by omega)))
          (not_lt.2 hle)
    | none =>
      have hall : bucketEdges[bucketEdges.length - 1] ≤ claimed := by
        have hmem : bucketEdges[bucketEdges.length - 1] ∈ bucketEdges.tail := by
          rw [mem_iff_getElem]
          exact ⟨bucketEdges.length - 2, by simp; omega,
            by simp only [getElem_tail]; congr 1; omega⟩
        have hnot := List.findIdx?_eq_none_iff.1 hfind _ hmem
        simpa [JsNumber.lt] using hnot
      simp only [JsNumber.finite.injEq, getLastD_eq (show 2 ≤ bucketEdges.length by omega)]
      split_ifs with hlast
      · rw [Option.any_some, decide_eq_true_eq]
        exact iff_of_true (by omega) ⟨hlast ▸ edge_le hasc (by omega) (by omega), hlast.le⟩
      · exact iff_of_false Bool.false_ne_true fun h => hlast (le_antisymm h.2 hall)
  · rw [decide_eq_false hfirst, Bool.not_false, if_pos rfl]
    refine iff_of_false Bool.false_ne_true fun h => hfirst (le_trans ?_ h.1)
    exact edge_le hasc (Nat.zero_le i) (by omega)

/-- What is not finite is in no bucket. -/
theorem bucketIndexFor_eq_none (bucketEdges : List ℚ) {claimed : JsNumber}
    (h : ∀ value, claimed ≠ .finite value) :
    bucketIndexFor claimed bucketEdges = none := by
  cases claimed with
  | finite value => exact absurd rfl (h value)
  | infinite negative =>
    have hnone : bucketEdges.tail.findIdx? (fun _ => false) = none := by simp
    cases negative <;> simp [bucketIndexFor, JsNumber.le, JsNumber.lt, hnone]
  | nan => simp [bucketIndexFor, JsNumber.le, JsNumber.lt]

theorem claimedIndex_any_iff (hasc : bucketEdges.Pairwise (· < ·)) (hi : i + 1 < bucketEdges.length)
    (backtestCase : BacktestCase) :
    (claimedIndex bucketEdges backtestCase).any (i ≤ ·) =
      claimsWithin bucketEdges[i] (bucketEdges.getLastD 0) backtestCase := by
  unfold claimedIndex claimsWithin
  cases backtestCase.confidence with
  | number claimed =>
    cases claimed with
    | finite value =>
      rw [Bool.eq_iff_iff, bucketIndexFor_any_iff hasc hi, Bool.and_eq_true, decide_eq_true_eq,
        decide_eq_true_eq]
    | infinite negative =>
      have hnone : bucketIndexFor (.infinite negative) bucketEdges = none :=
        bucketIndexFor_eq_none bucketEdges (by simp)
      simp only [hnone, Option.any_none]
    | nan =>
      have hnone : bucketIndexFor .nan bucketEdges = none :=
        bucketIndexFor_eq_none bucketEdges (by simp)
      simp only [hnone, Option.any_none]
  | _ => rfl

theorem claimedIndex_lt (h : claimedIndex bucketEdges backtestCase = some j)
    (hedges : 2 ≤ bucketEdges.length) :
    j < bucketEdges.length - 1 := by
  unfold claimedIndex at h
  split at h
  · unfold bucketIndexFor at h
    split at h
    · cases h
    · split at h
      · next i hfind =>
        obtain rfl := Option.some.inj h
        obtain ⟨hj, -, -⟩ := List.findIdx?_eq_some_iff_getElem.1 hfind
        rwa [length_tail] at hj
      · split at h
        · obtain rfl := Option.some.inj h
          omega
        · cases h
  · cases h

end Claims

/-! ## Counting -/

section Counts

variable {bucketEdges : List ℚ} {cases : List BacktestCase} {counts : List BucketCount}

/-- **What the loop over the cases leaves**: each bucket with the cases that are in it. -/
theorem getElem?_counts (bucketEdges : List ℚ) (cases : List BacktestCase)
    (counts : List BucketCount) (j : ℕ) :
    ((cases.foldl (countCase bucketEdges) counts)[j]?).map
      (fun count => (count.cases, count.confirmed)) =
      counts[j]?.map fun count =>
        (count.cases + cases.countP (claimedIndex bucketEdges · == some j),
        count.confirmed + cases.countP fun c => c.isConfirmed &&
          claimedIndex bucketEdges c == some j) := by
  induction cases generalizing counts with
  | nil => simp
  | cons backtestCase cases ih =>
    rw [foldl_cons, ih, countCase]
    cases hindex : claimedIndex bucketEdges backtestCase with
    | none => simp [hindex]
    | some index =>
      simp only [List.getElem?_modify, countP_cons, hindex, Option.some_beq_some]
      by_cases hj : index = j
      · subst hj
        cases hlabel : backtestCase.label <;> cases counts[index]? <;>
          simp [BucketCount.add, BacktestCase.isConfirmed, hlabel] <;> omega
      · cases counts[j]? <;> simp [hj]

theorem countP_eq_add {α : Type*} {p q r : α → Bool} (as : List α)
    (h : ∀ a, (if p a then 1 else 0) = (if q a then 1 else 0) + (if r a then 1 else 0)) :
    as.countP p = as.countP q + as.countP r := by
  induction as with
  | nil => rfl
  | cons a as ih =>
    rw [countP_cons, countP_cons, countP_cons, ih, h a]
    omega

/-- The counts of the buckets from `i` on add up to the count of what is in one of them. -/
theorem sum_drop_counts {α β : Type*} {buckets : List β} {count : β → ℕ} {as : List α}
    {q : α → Bool} {index : α → Option ℕ}
    (hcount : ∀ j, (h : j < buckets.length) →
      count buckets[j] = as.countP fun a => q a && index a == some j)
    (hindex : ∀ a j, index a = some j → j < buckets.length) {i : ℕ} (hi : i ≤ buckets.length) :
    ((buckets.drop i).map count).sum = as.countP fun a => q a && (index a).any (i ≤ ·) := by
  induction hi using Nat.decreasingInduction with
  | self =>
    have hnone : ∀ a ∈ as, ¬(q a && (index a).any (buckets.length ≤ ·)) = true := by
      intro a _ ha
      rw [Bool.and_eq_true, Option.any_eq_true] at ha
      obtain ⟨-, j, hj, hle⟩ := ha
      have := hindex a j hj
      simp at hle
      omega
    simp [countP_eq_zero.2 hnone]
  | of_succ i hi ih =>
    rw [drop_eq_getElem_cons hi, map_cons, sum_cons, ih, hcount i hi]
    refine (countP_eq_add as fun a => ?_).symm
    cases q a with
    | false => simp
    | true =>
      cases index a with
      | none => simp
      | some j =>
        simp only [Bool.true_and, Option.any_some, Option.some_beq_some, beq_iff_eq,
          decide_eq_true_eq]
        split_ifs <;> omega

theorem getElem?_pooled (buckets : List ReliabilityBucket) {i : ℕ} (hi : i < buckets.length) :
    (pooled buckets)[i]? = some (((buckets.drop i).map (·.cases)).sum,
      ((buckets.drop i).map (·.confirmed)).sum) := by
  induction buckets generalizing i with
  | nil => simp at hi
  | cons bucket rest ih =>
    have hhead : (pooled rest).head?.getD (0, 0) =
        ((rest.map (·.cases)).sum, (rest.map (·.confirmed)).sum) := by
      cases rest with
      | nil => rfl
      | cons next rest =>
        have hfirst := ih (i := 0) (by simp)
        rw [List.head?_eq_getElem?, hfirst, Option.getD_some, drop_zero]
    cases i with
    | zero => simp [pooled, hhead, add_comm]
    | succ i => simpa [pooled] using ih (by simpa using hi)

end Counts

/-! ## The suggestion -/

section Suggestion

variable {bucketEdges : List ℚ} {cases cases' : List BacktestCase}
  {sampleFloor targetPrecision hardMinimum : ℚ}

theorem checkEdges_eq_ok (hunit : ∀ edge ∈ bucketEdges, 0 ≤ edge ∧ edge ≤ 1) (i : ℕ)
    {previous : Option ℚ} (hprevious : ∀ below ∈ previous, ∀ edge ∈ bucketEdges, below < edge)
    (hasc : bucketEdges.Pairwise (· < ·)) :
    checkEdges i previous bucketEdges = .ok () := by
  induction bucketEdges generalizing i previous with
  | nil => rfl
  | cons edge rest ih =>
    obtain ⟨hedge, hrest⟩ := pairwise_cons.1 hasc
    have hinside : (decide (0 ≤ edge) && decide (edge ≤ 1)) = true := by
      simpa using hunit edge mem_cons_self
    have hascends : previous.any (fun below => !decide (below < edge)) = false := by
      cases previous with
      | none => rfl
      | some below => simp [hprevious below rfl edge mem_cons_self]
    rw [checkEdges, hinside, hascends, Bool.not_true, if_neg Bool.false_ne_true,
      if_neg Bool.false_ne_true]
    refine ih (fun other hother => hunit other (mem_cons_of_mem _ hother)) (i + 1) ?_ hrest
    rintro below ⟨⟩ other hother
    exact hedge other hother

/-- The buckets of the cases. -/
def bucketsOf (cases : List BacktestCase) (bucketEdges : List ℚ) (sampleFloor : ℚ) :
    List ReliabilityBucket :=
  List.zipWith (bucketOf sampleFloor) (bucketEdges.zip bucketEdges.tail)
    (cases.foldl (countCase bucketEdges) (bucketEdges.dropLast.map fun _ => ⟨0, 0, 0⟩))

/-- What the suggestion reads of the bucket at a position: its floor, and its counts of the
cases. -/
theorem getElem?_bucketsOf (cases : List BacktestCase) (sampleFloor : ℚ) {j : ℕ}
    (hj : j + 1 < bucketEdges.length) :
    ∃ bucket, (bucketsOf cases bucketEdges sampleFloor)[j]? = some bucket ∧
      bucket.floor = bucketEdges[j] ∧
      bucket.cases = cases.countP (claimedIndex bucketEdges · == some j) ∧
      bucket.confirmed = cases.countP fun c => c.isConfirmed &&
        claimedIndex bucketEdges c == some j := by
  have hzip : (bucketEdges.zip bucketEdges.tail)[j]? =
      some (bucketEdges[j], bucketEdges[j + 1]) := by
    rw [List.getElem?_zip_eq_some, List.getElem?_tail, List.getElem?_eq_getElem (by omega),
      List.getElem?_eq_getElem hj]
    exact ⟨rfl, rfl⟩
  have hempty : (bucketEdges.dropLast.map fun _ => (⟨0, 0, 0⟩ : BucketCount))[j]? =
      some ⟨0, 0, 0⟩ := by
    simp [show j < bucketEdges.length - 1 by omega]
  have hcounts := getElem?_counts bucketEdges cases (bucketEdges.dropLast.map fun _ => ⟨0, 0, 0⟩) j
  rw [hempty, Option.map_some, Nat.zero_add, Nat.zero_add] at hcounts
  obtain ⟨count, hcount, heq⟩ := Option.map_eq_some_iff.1 hcounts
  refine ⟨bucketOf sampleFloor (bucketEdges[j], bucketEdges[j + 1]) count, ?_, rfl,
    congrArg Prod.fst heq,
    congrArg Prod.snd heq⟩
  rw [bucketsOf, List.getElem?_zipWith, hzip, hcount]

theorem length_countCases (counts : List BucketCount) :
    (cases.foldl (countCase bucketEdges) counts).length = counts.length := by
  induction cases generalizing counts with
  | nil => rfl
  | cons backtestCase cases ih =>
    rw [foldl_cons, ih, countCase]
    split <;> simp

theorem length_bucketsOf (cases : List BacktestCase) (bucketEdges : List ℚ) (sampleFloor : ℚ) :
    (bucketsOf cases bucketEdges sampleFloor).length = bucketEdges.length - 1 := by
  simp [bucketsOf, length_countCases]

/-- The buckets with their pools. -/
def candidates (cases : List BacktestCase) (bucketEdges : List ℚ) (sampleFloor : ℚ) :
    List (ReliabilityBucket × ℕ × ℕ) :=
  (bucketsOf cases bucketEdges sampleFloor).zip (pooled (bucketsOf cases bucketEdges sampleFloor))

/-- **What the suggestion judges a floor by**: the cases that the floor lets through. -/
theorem getElem?_candidates (hasc : bucketEdges.Pairwise (· < ·)) (sampleFloor : ℚ)
    (cases : List BacktestCase) {j : ℕ} (hj : j + 1 < bucketEdges.length) :
    ∃ bucket, (candidates cases bucketEdges sampleFloor)[j]? =
        some (bucket, (casesFrom cases bucketEdges bucketEdges[j]).length,
          (casesFrom cases bucketEdges bucketEdges[j]).countP (·.isConfirmed)) ∧
      bucket.floor = bucketEdges[j] := by
  have hlength := length_bucketsOf cases bucketEdges sampleFloor
  have hindex : ∀ backtestCase i, claimedIndex bucketEdges backtestCase = some i →
      i < (bucketsOf cases bucketEdges sampleFloor).length := fun backtestCase i h => by
    rw [hlength]
    exact claimedIndex_lt h (by omega)
  have hbucket : ∀ i, (h : i < (bucketsOf cases bucketEdges sampleFloor).length) →
      (bucketsOf cases bucketEdges sampleFloor)[i].cases =
        cases.countP (claimedIndex bucketEdges · == some i) ∧
      (bucketsOf cases bucketEdges sampleFloor)[i].confirmed =
        cases.countP fun c => c.isConfirmed && claimedIndex bucketEdges c == some i := by
    intro i hi
    obtain ⟨bucket, hbucket, -, hcases, hconfirmed⟩ :=
      getElem?_bucketsOf cases sampleFloor (show i + 1 < bucketEdges.length by omega)
    obtain ⟨_, rfl⟩ := List.getElem?_eq_some_iff.1 hbucket
    exact ⟨hcases, hconfirmed⟩
  obtain ⟨bucket, hfound, hfloor, -, -⟩ := getElem?_bucketsOf cases sampleFloor hj
  refine ⟨bucket, ?_, hfloor⟩
  rw [candidates, List.getElem?_zip_eq_some, getElem?_pooled _ (by omega),
    sum_drop_counts (q := fun _ => true) (fun i hi => by simpa using (hbucket i hi).1)
      hindex (by omega),
    sum_drop_counts (fun i hi => (hbucket i hi).2) hindex (by omega)]
  refine ⟨hfound, ?_⟩
  simp [claimedIndex_any_iff hasc hj, casesFrom, countP_eq_length_filter]

/-- The first of the members that are in the order of their keys. -/
theorem find?_key_eq_some_iff {α : Type*} {xs : List α} (key : α → ℚ) {p : α → Bool}
    (hasc : xs.Pairwise fun a b => key a < key b) (k : ℚ) :
    (xs.find? p).map key = some k ↔ IsLeast {l | ∃ x ∈ xs, p x = true ∧ key x = l} k := by
  induction xs with
  | nil => simp [IsLeast]
  | cons x xs ih =>
    obtain ⟨hx, hrest⟩ := pairwise_cons.1 hasc
    cases hp : p x with
    | true =>
      rw [List.find?_cons_of_pos hp, Option.map_some, Option.some.injEq]
      have hleast : IsLeast {l | ∃ y ∈ x :: xs, p y = true ∧ key y = l} (key x) := by
        refine ⟨⟨x, mem_cons_self, hp, rfl⟩, ?_⟩
        rintro - ⟨y, hy, -, rfl⟩
        rcases mem_cons.1 hy with rfl | hy
        · exact le_rfl
        · exact (hx y hy).le
      exact ⟨fun h => h ▸ hleast, fun h => hleast.unique h⟩
    | false =>
      rw [List.find?_cons_of_neg (by simp [hp]), ih hrest]
      have hsame : {l | ∃ y ∈ x :: xs, p y = true ∧ key y = l} =
          {l | ∃ y ∈ xs, p y = true ∧ key y = l} := by
        ext l
        simp [hp]
      rw [hsame]

theorem length_pooled (buckets : List ReliabilityBucket) :
    (pooled buckets).length = buckets.length := by
  induction buckets with
  | nil => rfl
  | cons bucket rest ih => simp [pooled, ih]

theorem length_candidates :
    (candidates cases bucketEdges sampleFloor).length = bucketEdges.length - 1 := by
  simp [candidates, length_pooled, length_bucketsOf]

theorem candidates_ascending (hasc : bucketEdges.Pairwise (· < ·)) (sampleFloor : ℚ)
    (cases : List BacktestCase) :
    (candidates cases bucketEdges sampleFloor).Pairwise fun a b => a.1.floor < b.1.floor := by
  rw [pairwise_iff_getElem]
  intro i j hi hj hij
  rw [length_candidates] at hi hj
  obtain ⟨a, ha, hfloor⟩ := getElem?_candidates hasc sampleFloor cases (j := i) (by omega)
  obtain ⟨b, hb, hfloor'⟩ := getElem?_candidates hasc sampleFloor cases (j := j) (by omega)
  rw [(List.getElem?_eq_some_iff.1 ha).2, (List.getElem?_eq_some_iff.1 hb).2, hfloor, hfloor']
  exact pairwise_iff_getElem.1 hasc i j (by omega) (by omega) hij

/-- The floors of the candidates that qualify. -/
theorem exists_qualifies_iff (hedges : 2 ≤ bucketEdges.length) (hasc : bucketEdges.Pairwise (· < ·))
    (floor : ℚ) :
    (∃ candidate ∈ candidates cases bucketEdges sampleFloor,
        qualifies sampleFloor targetPrecision hardMinimum candidate = true ∧
          candidate.1.floor = floor) ↔
      Supported cases bucketEdges sampleFloor targetPrecision hardMinimum floor := by
  constructor
  · rintro ⟨candidate, hmem, hqualifies, rfl⟩
    obtain ⟨j, hj, rfl⟩ := mem_iff_getElem.1 hmem
    rw [length_candidates] at hj
    obtain ⟨bucket, hbucket, hfloor⟩ :=
      getElem?_candidates hasc sampleFloor cases (j := j) (by omega)
    rw [(List.getElem?_eq_some_iff.1 hbucket).2] at hqualifies ⊢
    simp only [qualifies, hfloor, Bool.and_eq_true, Bool.not_eq_true', decide_eq_false_iff_not,
      not_lt, decide_eq_true_eq] at hqualifies ⊢
    refine ⟨?_, hqualifies.1.1, hqualifies.1.2, hqualifies.2⟩
    rw [mem_iff_getElem]
    exact ⟨j, by simpa using hj, getElem_dropLast _⟩
  · intro h
    obtain ⟨j, hj, rfl⟩ := mem_iff_getElem.1 h.isFloor
    rw [length_dropLast] at hj
    obtain ⟨bucket, hbucket, hfloor⟩ :=
      getElem?_candidates hasc sampleFloor cases (j := j) (by omega)
    refine ⟨_, mem_of_getElem? hbucket, ?_, by rw [getElem_dropLast, hfloor]⟩
    have hallowed := h.allowed
    have henough := h.enough
    have hprecise := h.precise
    rw [getElem_dropLast] at hallowed henough hprecise
    simp only [qualifies, hfloor, Bool.and_eq_true, Bool.not_eq_true', decide_eq_false_iff_not,
      not_lt, decide_eq_true_eq]
    exact ⟨⟨hallowed, henough⟩, hprecise⟩

/-- Cases that claim the same within the edges support the same floors. -/
theorem Supported.of_perm (hedges : 2 ≤ bucketEdges.length)
    (hasc : bucketEdges.Pairwise (· < ·)) {floor : ℚ}
    (hperm : (casesFrom cases' bucketEdges (bucketEdges.headD 0)).Perm
      (casesFrom cases bucketEdges (bucketEdges.headD 0)))
    (h : Supported cases bucketEdges sampleFloor targetPrecision hardMinimum floor) :
    Supported cases' bucketEdges sampleFloor targetPrecision hardMinimum floor := by
  obtain ⟨j, hj, hfloor⟩ := mem_iff_getElem.1 h.isFloor
  rw [length_dropLast] at hj
  have hfirst : bucketEdges.headD 0 ≤ floor := by
    rw [← hfloor, headD_eq hedges, getElem_dropLast]
    exact edge_le hasc (Nat.zero_le j) (by omega)
  have hnested : ∀ cases : List BacktestCase, casesFrom cases bucketEdges floor =
      (casesFrom cases bucketEdges (bucketEdges.headD 0)).filter
        (claimsWithin floor (bucketEdges.getLastD 0)) := by
    intro cases
    rw [casesFrom, casesFrom, filter_filter]
    refine filter_congr fun backtestCase _ => ?_
    unfold claimsWithin
    split
    · rw [Bool.eq_iff_iff]
      simp only [Bool.and_eq_true, decide_eq_true_eq]
      exact ⟨fun hclaim => ⟨hclaim, hfirst.trans hclaim.1, hclaim.2⟩, fun hclaim => hclaim.1⟩
    · rfl
  have hfrom : (casesFrom cases' bucketEdges floor).Perm (casesFrom cases bucketEdges floor) := by
    rw [hnested, hnested]
    exact hperm.filter _
  refine ⟨h.isFloor, h.allowed, ?_, ?_⟩
  · rw [hfrom.length_eq]
    exact h.enough
  · rw [hfrom.length_eq, hfrom.countP_eq]
    exact h.precise

theorem suggestThreshold_eq (hedges : 2 ≤ bucketEdges.length) (hasc : bucketEdges.Pairwise (· < ·))
    (hunit : ∀ edge ∈ bucketEdges, 0 ≤ edge ∧ edge ≤ 1) (hfloor : 1 ≤ sampleFloor)
    (htarget : 0 ≤ targetPrecision ∧ targetPrecision ≤ 1)
    (hminimum : 0 ≤ hardMinimum ∧ hardMinimum ≤ 1) (cases : List BacktestCase) :
    suggestThreshold cases bucketEdges sampleFloor targetPrecision hardMinimum =
      .ok (((candidates cases bucketEdges sampleFloor).find?
        (qualifies sampleFloor targetPrecision hardMinimum)).map (·.1.floor)) := by
  have hchecked : checkEdges 0 none bucketEdges = .ok () := checkEdges_eq_ok hunit 0 nofun hasc
  have hcurve : computeReliabilityCurve cases bucketEdges sampleFloor =
      .ok ⟨sampleFloor, bucketsOf cases bucketEdges sampleFloor⟩ := by
    rw [computeReliabilityCurve, if_neg (by omega), hchecked]
    simp [hfloor, bucketsOf]
  rw [suggestThreshold, hcurve]
  simp [bind, Except.bind, deriveThresholdSuggestion, htarget, hminimum, candidates]

/-- **The suggestion is the loosest floor that the cases support**, whatever buckets they fall
into. -/
theorem loosest_floor (cases : List BacktestCase) (bucketEdges : List ℚ)
    (sampleFloor targetPrecision hardMinimum : ℚ) (hedges : 2 ≤ bucketEdges.length)
    (hasc : bucketEdges.Pairwise (· < ·)) (hunit : ∀ edge ∈ bucketEdges, 0 ≤ edge ∧ edge ≤ 1)
    (hfloor : 1 ≤ sampleFloor) (htarget : 0 ≤ targetPrecision ∧ targetPrecision ≤ 1)
    (hminimum : 0 ≤ hardMinimum ∧ hardMinimum ≤ 1) :
    LoosestFloor cases bucketEdges sampleFloor targetPrecision hardMinimum := by
  have heq := suggestThreshold_eq hedges hasc hunit hfloor htarget hminimum
  have hleast : ∀ cases floor, ((candidates cases bucketEdges sampleFloor).find?
        (qualifies sampleFloor targetPrecision hardMinimum)).map (·.1.floor) = some floor ↔
      IsLeast {f |
        Supported cases bucketEdges sampleFloor targetPrecision hardMinimum f} floor := by
    intro cases floor
    rw [find?_key_eq_some_iff (fun candidate : ReliabilityBucket × ℕ × ℕ => candidate.1.floor)
      (candidates_ascending hasc sampleFloor cases)]
    simp only [exists_qualifies_iff hedges hasc]
  constructor
  · refine ⟨_, heq cases, hleast cases, ?_⟩
    rw [Option.map_eq_none_iff, List.find?_eq_none]
    constructor
    · intro hnone floor hsupported
      obtain ⟨candidate, hmem, hqualifies, -⟩ :=
        (exists_qualifies_iff hedges hasc floor).2 hsupported
      exact hnone candidate hmem hqualifies
    · intro hnone candidate hmem hqualifies
      exact hnone _ ((exists_qualifies_iff hedges hasc _).1 ⟨candidate, hmem, hqualifies, rfl⟩)
  · intro cases' hperm
    have hsame : ∀ floor,
        Supported cases' bucketEdges sampleFloor targetPrecision hardMinimum floor ↔
        Supported cases bucketEdges sampleFloor targetPrecision hardMinimum floor := fun floor =>
      ⟨Supported.of_perm hedges hasc hperm.symm, Supported.of_perm hedges hasc hperm⟩
    rw [heq, heq]
    refine congrArg Except.ok (Option.ext fun floor => ?_)
    rw [hleast, hleast]
    simp only [hsame]

/-- Six cases in two buckets, of which the lower one alone would be too thin. -/
theorem loosest_floor_sample :
    LoosestFloor [⟨.confirmed, .number (.finite (1 / 5))⟩, ⟨.confirmed, .number (.finite (3 / 5))⟩,
      ⟨.confirmed, .number (.finite 1)⟩, ⟨.reversed, .number (.finite (7 / 10))⟩,
        ⟨.confirmed, .undefined⟩,
      ⟨.reversed, .number .nan⟩] [0, 1 / 2, 1] 3 (3 / 5) 0 :=
  loosest_floor _ _ _ _ _ (by decide) (by norm_num) (by simp; norm_num) (by norm_num) (by norm_num)
    (by norm_num)

end Suggestion

end LoopOver.Reliability
