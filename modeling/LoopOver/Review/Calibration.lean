import LoopOver.Review.RiskControl
import Mathlib.Order.Bounds.Basic

/-!
# The calibrated threshold

`calibrateActThreshold` sorts the pairs and counts them while it drops one confidence after the
other. What it is for speaks of no order: a confidence *certifies* `alpha` if there are enough pairs
at or above it and the bound at their count and their errors is at most `alpha` (`Certifies`).
`CalibratedExactly` says that the result is the least such confidence with its counts, and a refusal
where there is none.

* `CountedAt` is the state of the loop before a candidate: the pairs that are left are those at or
  above it.
* `scanCandidates_eq` replaces the loop by `chooseThreshold`, which counts the pairs anew for each
  candidate. Counts do not depend on the order (`chooseThreshold_perm`).
-/

namespace LoopOver.RiskControl

open List

/-! ## What is to be found -/

def atLeast (pairs : List CalibrationPair) (lambda : ℚ) : List CalibrationPair :=
  pairs.filter (lambda ≤ ·.confidence)

/-- The number of different confidences. -/
def candidateCount (pairs : List CalibrationPair) : ℕ :=
  (pairs.map CalibrationPair.confidence).toFinset.card

variable (upperBound : ℕ → ℕ → ℚ → ℝ)

/-- The confidence was observed, and the pairs at or above it certify `alpha`. -/
structure Certifies (pairs : List CalibrationPair) (alpha delta lambda : ℚ) : Prop where
  observed : lambda ∈ pairs.map CalibrationPair.confidence
  enough : minimumCalibrationLabels alpha (delta / candidateCount pairs) ≤
    (atLeast pairs lambda).length
  bounded : upperBound (errorCount (atLeast pairs lambda)) (atLeast pairs lambda).length
    (delta / candidateCount pairs) ≤ alpha

structure CalibratedExactly (pairs : List CalibrationPair) (alpha delta : ℚ) : Prop where
  least : ∀ calibration, calibrateActThreshold upperBound pairs alpha delta =
    .calibrated calibration →
    IsLeast {lambda | Certifies upperBound pairs alpha delta lambda} calibration.lambda ∧
      calibration.nAtLambda = (atLeast pairs calibration.lambda).length ∧
      calibration.errorsAtLambda = errorCount (atLeast pairs calibration.lambda)
  refused : (∀ calibration, calibrateActThreshold upperBound pairs alpha delta ≠
    .calibrated calibration) ↔
    ∀ lambda, ¬ Certifies upperBound pairs alpha delta lambda
  unordered : ∀ pairs', pairs'.Perm pairs →
    calibrateActThreshold upperBound pairs' alpha delta =
      calibrateActThreshold upperBound pairs alpha delta
  /-- Confidences are probabilities. -/
  valid : (∀ pair ∈ pairs, 0 ≤ pair.confidence ∧ pair.confidence ≤ 1) →
    ∀ calibration, calibrateActThreshold upperBound pairs alpha delta = .calibrated calibration →
      validateCalibrationPayload (some calibration.payload) =
        some ⟨calibration.alpha, calibration.lambda, calibration.coverageAtLambda,
          calibration.nAtLambda,
          calibration.delta⟩

/-! ## The candidates -/

variable {lambda : ℚ}

section Candidates

variable {pairs pairs' : List CalibrationPair}

def sortedPairs (pairs : List CalibrationPair) : List CalibrationPair :=
  pairs.insertionSort fun a b => a.confidence ≤ b.confidence

theorem sortedPairs_perm (pairs : List CalibrationPair) : (sortedPairs pairs).Perm pairs :=
  perm_insertionSort _ _

theorem sortedPairs_sorted (pairs : List CalibrationPair) :
    (sortedPairs pairs).Pairwise fun a b => a.confidence ≤ b.confidence := by
  have : Std.Total fun a b : CalibrationPair => a.confidence ≤ b.confidence :=
    ⟨fun a b => le_total _ _⟩
  have : IsTrans CalibrationPair fun a b => a.confidence ≤ b.confidence := ⟨fun _ _ _ => le_trans⟩
  exact pairwise_insertionSort _ _

/-- Without its repetitions, a sorted list is strictly ascending. -/
theorem eraseDups_ascending {values : List ℚ} (h : values.Pairwise (· ≤ ·)) :
    values.eraseDups.Pairwise (· < ·) := by
  induction hlength : values.length using Nat.strong_induction_on generalizing values with
  | _ length ih =>
    subst hlength
    cases values with
    | nil => exact .nil
    | cons first rest =>
      obtain ⟨hfirst, hrest⟩ := pairwise_cons.1 h
      rw [eraseDups_cons, pairwise_cons]
      constructor
      · intro value hvalue
        obtain ⟨hmem, hne⟩ := mem_filter.1 (mem_eraseDups.1 hvalue)
        refine lt_of_le_of_ne (hfirst value hmem) ?_
        rintro rfl
        simp at hne
      · exact ih _ (Nat.lt_succ_of_le (length_filter_le _ _)) (hrest.filter _) rfl

def candidatesOf (pairs : List CalibrationPair) : List ℚ :=
  ((sortedPairs pairs).map CalibrationPair.confidence).eraseDups

theorem candidatesOf_ascending (pairs : List CalibrationPair) :
    (candidatesOf pairs).Pairwise (· < ·) :=
  eraseDups_ascending (pairwise_map.2 (sortedPairs_sorted pairs))

theorem mem_candidatesOf :
    lambda ∈ candidatesOf pairs ↔ lambda ∈ pairs.map CalibrationPair.confidence := by
  rw [candidatesOf, mem_eraseDups, ((sortedPairs_perm pairs).map _).mem_iff]

theorem length_candidatesOf (pairs : List CalibrationPair) :
    (candidatesOf pairs).length = candidateCount pairs := by
  have hnodup : (candidatesOf pairs).Nodup := (candidatesOf_ascending pairs).imp fun h => h.ne
  rw [candidateCount, ← toFinset_card_of_nodup hnodup]
  congr 1
  ext lambda
  rw [mem_toFinset, mem_toFinset, mem_candidatesOf]

theorem candidatesOf_perm (h : pairs'.Perm pairs) : candidatesOf pairs' = candidatesOf pairs := by
  refine (candidatesOf_ascending pairs').eq_of_mem_iff (candidatesOf_ascending pairs)
    fun lambda => ?_
  rw [mem_candidatesOf, mem_candidatesOf, (h.map _).mem_iff]

theorem candidateCount_perm (h : pairs'.Perm pairs) :
    candidateCount pairs' = candidateCount pairs := by
  rw [← length_candidatesOf, ← length_candidatesOf, candidatesOf_perm h]

theorem atLeast_perm (h : pairs'.Perm pairs) (lambda : ℚ) :
    (atLeast pairs' lambda).Perm (atLeast pairs lambda) :=
  h.filter _

theorem errorCount_perm (h : pairs'.Perm pairs) : errorCount pairs' = errorCount pairs :=
  h.countP_eq _

end Candidates

/-! ## The scan -/

section Scan

variable {sorted : List CalibrationPair} {set : Calibrating} {scan : Scan}

/-- The loop leaves the pairs above `lambda`, and counts the others. -/
theorem dropStratum_spec (lambda : ℚ) {remaining : List CalibrationPair} (dropped droppedErrors : ℕ)
    (hsorted : remaining.Pairwise fun a b => a.confidence ≤ b.confidence) :
    ∃ dropped' droppedErrors', dropStratum lambda dropped droppedErrors remaining =
        (dropped', droppedErrors', remaining.filter (lambda < ·.confidence)) ∧
      dropped' + (remaining.filter (lambda < ·.confidence)).length = dropped + remaining.length ∧
      droppedErrors' + errorCount (remaining.filter (lambda < ·.confidence)) =
        droppedErrors + errorCount remaining := by
  induction remaining generalizing dropped droppedErrors with
  | nil => exact ⟨dropped, droppedErrors, rfl, rfl, rfl⟩
  | cons pair rest ih =>
    obtain ⟨hpair, hrest⟩ := pairwise_cons.1 hsorted
    rw [dropStratum]
    split
    · next hle =>
      obtain ⟨dropped', droppedErrors', heq, hcount, herrors⟩ :=
        ih (dropped + 1) (if pair.correct then droppedErrors else droppedErrors + 1) hrest
      rw [filter_cons_of_neg (by simpa using hle)]
      refine ⟨dropped', droppedErrors', heq, by rw [hcount, length_cons]; omega, herrors.trans ?_⟩
      rw [errorCount, errorCount, countP_cons]
      cases pair.correct
      · simp
        omega
      · simp
    · next hlt =>
      have hall : ∀ other ∈ pair :: rest, decide (lambda < other.confidence) = true := by
        intro other hother
        obtain rfl | hmem := mem_cons.1 hother
        · exact decide_eq_true (not_le.1 hlt)
        · exact decide_eq_true ((not_le.1 hlt).trans_le (hpair other hmem))
      rw [filter_eq_self.2 hall]
      exact ⟨dropped, droppedErrors, rfl, rfl, rfl⟩

/-- Before the next candidate, the pairs above all candidates that are done are left and the others
counted. -/
structure CountedAt (sorted : List CalibrationPair) (done : List ℚ) (scan : Scan) : Prop where
  remaining : scan.remaining = sorted.filter fun pair => done.all (· < pair.confidence)
  dropped : scan.dropped + scan.remaining.length = sorted.length
  droppedErrors : scan.droppedErrors + errorCount scan.remaining = errorCount sorted

theorem CountedAt.next (hsorted : sorted.Pairwise fun a b => a.confidence ≤ b.confidence)
    {done : List ℚ} (h : CountedAt sorted done scan) (lambda : ℚ) :
    CountedAt sorted (done ++ [lambda]) (scan.next lambda) := by
  have hpairwise : scan.remaining.Pairwise fun a b => a.confidence ≤ b.confidence := by
    rw [h.remaining]
    exact hsorted.filter _
  obtain ⟨dropped, droppedErrors, heq, hcount, herrors⟩ :=
    dropStratum_spec lambda scan.dropped scan.droppedErrors hpairwise
  have hnext : scan.next lambda =
      { scan with dropped, droppedErrors, remaining :=
        scan.remaining.filter (lambda < ·.confidence) } := by
    rw [Scan.next, heq]
  rw [hnext]
  refine ⟨?_, hcount.trans h.dropped, herrors.trans h.droppedErrors⟩
  simp only [h.remaining, filter_filter, all_append, all_cons, all_nil, Bool.and_true]
  exact filter_congr fun pair _ => Bool.and_comm _ _

/-- The pairs that are left before a candidate are those at or above it. -/
theorem CountedAt.atLeast {done candidates : List ℚ} {lambda : ℚ} (h : CountedAt sorted done scan)
    (hascending : (done ++ lambda :: candidates).Pairwise (· < ·))
    (hall : ∀ pair ∈ sorted, pair.confidence ∈ done ++ lambda :: candidates) :
    scan.remaining = atLeast sorted lambda := by
  rw [h.remaining, RiskControl.atLeast]
  refine filter_congr fun pair hpair => ?_
  obtain ⟨-, hcandidates, hless⟩ := pairwise_append.1 hascending
  rw [Bool.eq_iff_iff, all_eq_true, decide_eq_true_iff]
  constructor
  · intro habove
    obtain hdone | hrest := mem_append.1 (hall pair hpair)
    · exact absurd (habove _ hdone) (by simp)
    · obtain heq | hlater := mem_cons.1 hrest
      · exact heq.ge
      · exact ((pairwise_cons.1 hcandidates).1 _ hlater).le
  · intro hle d hd
    exact decide_eq_true ((hless d hd lambda mem_cons_self).trans_le hle)

end Scan

/-! ## The choice, without the scan -/

section Choice

variable (set : Calibrating) (pairs : List CalibrationPair)

/-- The first candidate that passes, where each has its pairs counted. -/
noncomputable def chooseThreshold : List ℚ → Option ℚ → ℕ → WithTop ℝ → CalibrationResult
  | [], bestLambda, bestN, bestUpperBound =>
    .noCertifiableThreshold set.totalPairs bestN bestLambda bestUpperBound set.alpha set.delta
  | lambda :: candidates, bestLambda, bestN, bestUpperBound =>
    let n := (atLeast pairs lambda).length
    let errors := errorCount (atLeast pairs lambda)
    let bound := upperBound errors n set.testDelta
    if set.effectiveNeeded ≤ n then
      if bound ≤ set.alpha then
        .calibrated ⟨lambda, n / set.totalPairs, n, errors, set.alpha, set.delta, set.totalPairs,
          set.backfilledPairs⟩
      else if bound < bestUpperBound then chooseThreshold candidates lambda n bound
      else chooseThreshold candidates bestLambda bestN bestUpperBound
    else chooseThreshold candidates bestLambda bestN bestUpperBound

theorem scanCandidates_eq {sorted : List CalibrationPair} {set : Calibrating}
    (hsorted : sorted.Pairwise fun a b => a.confidence ≤ b.confidence)
    (htotal : set.totalPairs = sorted.length) (herrors : set.totalErrors = errorCount sorted)
    {done candidates : List ℚ} {scan : Scan} (h : CountedAt sorted done scan)
    (hascending : (done ++ candidates).Pairwise (· < ·))
    (hall : ∀ pair ∈ sorted, pair.confidence ∈ done ++ candidates) :
    scanCandidates upperBound set candidates scan =
      chooseThreshold upperBound set sorted candidates scan.bestLambda scan.bestN
        scan.bestUpperBound := by
  induction candidates generalizing done scan with
  | nil => rfl
  | cons lambda candidates ih =>
    have hleft := h.atLeast hascending hall
    have hn : set.totalPairs - scan.dropped = (atLeast sorted lambda).length := by
      rw [htotal, ← h.dropped, hleft, Nat.add_sub_cancel_left]
    have he : set.totalErrors - scan.droppedErrors = errorCount (atLeast sorted lambda) := by
      rw [herrors, ← h.droppedErrors, hleft, Nat.add_sub_cancel_left]
    have hrest : ∀ scan' : Scan, scan'.remaining = scan.remaining → scan'.dropped = scan.dropped →
        scan'.droppedErrors = scan.droppedErrors →
          scanCandidates upperBound set candidates (scan'.next lambda) =
          chooseThreshold upperBound set sorted candidates scan'.bestLambda scan'.bestN
            scan'.bestUpperBound := by
      intro scan' hremaining hdropped hdroppedErrors
      have hcounted : CountedAt sorted done scan' :=
        ⟨hremaining ▸ h.remaining, by rw [hremaining, hdropped, h.dropped],
          by rw [hremaining, hdroppedErrors, h.droppedErrors]⟩
      exact ih (hcounted.next hsorted lambda) (by simpa using hascending) (by simpa using hall)
    simp only [scanCandidates, chooseThreshold, hn, he]
    split
    · split
      · rfl
      · rw [hrest _ (by split <;> rfl) (by split <;> rfl) (by split <;> rfl)]
        split <;> rfl
    · exact hrest scan rfl rfl rfl

variable {set pairs}

/-- A candidate that the loop returns. -/
structure Passes (set : Calibrating) (pairs : List CalibrationPair) (lambda : ℚ) : Prop where
  enough : set.effectiveNeeded ≤ (atLeast pairs lambda).length
  bounded : upperBound (errorCount (atLeast pairs lambda)) (atLeast pairs lambda).length
    set.testDelta ≤ set.alpha

/-- The result for a candidate. -/
def calibrationAt (set : Calibrating) (pairs : List CalibrationPair) (lambda : ℚ) : Calibration :=
  ⟨lambda, (atLeast pairs lambda).length / set.totalPairs, (atLeast pairs lambda).length,
    errorCount (atLeast pairs lambda), set.alpha, set.delta, set.totalPairs, set.backfilledPairs⟩

/-- It is the first candidate that passes, or none passes. -/
theorem chooseThreshold_cases (candidates : List ℚ) (bestLambda : Option ℚ) (bestN : ℕ)
    (best : WithTop ℝ) :
    (∃ front lambda back, candidates = front ++ lambda :: back ∧
      (∀ mu ∈ front, ¬ Passes upperBound set pairs mu) ∧
      Passes upperBound set pairs lambda ∧
      chooseThreshold upperBound set pairs candidates bestLambda bestN best =
        .calibrated (calibrationAt set pairs lambda)) ∨
    (∀ lambda ∈ candidates, ¬ Passes upperBound set pairs lambda) ∧
      ∀ calibration,
        chooseThreshold upperBound set pairs candidates bestLambda bestN best ≠
          .calibrated calibration := by
  induction candidates generalizing bestLambda bestN best with
  | nil => exact .inr ⟨forall_mem_nil _, nofun⟩
  | cons lambda candidates ih =>
    by_cases hpasses : Passes upperBound set pairs lambda
    · refine .inl ⟨[], lambda, candidates, rfl, forall_mem_nil _, hpasses, ?_⟩
      simp only [chooseThreshold, if_pos hpasses.enough, if_pos hpasses.bounded]
      rfl
    · obtain ⟨bestLambda', bestN', best', hnext⟩ : ∃ bestLambda' bestN' best',
          chooseThreshold upperBound set pairs (lambda :: candidates) bestLambda bestN best =
            chooseThreshold upperBound set pairs candidates bestLambda' bestN' best' := by
        simp only [chooseThreshold]
        split
        · next henough =>
          rw [if_neg fun hbounded => hpasses ⟨henough, hbounded⟩]
          split
          · exact ⟨_, _, _, rfl⟩
          · exact ⟨_, _, _, rfl⟩
        · exact ⟨_, _, _, rfl⟩
      rw [hnext]
      obtain ⟨front, found, back, rfl, hfront, hfound, heq⟩ | ⟨hnone, hrefused⟩ :=
        ih bestLambda' bestN' best'
      · exact .inl ⟨lambda :: front, found, back, rfl, forall_mem_cons.2 ⟨hpasses, hfront⟩,
          hfound, heq⟩
      · exact .inr ⟨forall_mem_cons.2 ⟨hpasses, hnone⟩, hrefused⟩

theorem chooseThreshold_perm {pairs' : List CalibrationPair} (h : pairs'.Perm pairs)
    (candidates : List ℚ) (bestLambda : Option ℚ) (bestN : ℕ) (best : WithTop ℝ) :
    chooseThreshold upperBound set pairs' candidates bestLambda bestN best =
      chooseThreshold upperBound set pairs candidates bestLambda bestN best := by
  induction candidates generalizing bestLambda bestN best with
  | nil => rfl
  | cons lambda candidates ih =>
    simp only [chooseThreshold, (atLeast_perm h lambda).length_eq,
      errorCount_perm (atLeast_perm h lambda), ih]

end Choice

/-! ## The result -/

section Result

variable (pairs : List CalibrationPair) (alpha delta : ℚ)

/-- The numbers with which a list of pairs is calibrated. -/
noncomputable def calibratingOf (pairs : List CalibrationPair) (alpha delta : ℚ) : Calibrating :=
  ⟨alpha, delta, delta / candidateCount pairs,
    minimumCalibrationLabels alpha (delta / candidateCount pairs),
    pairs.length, errorCount pairs, pairs.countP CalibrationPair.backfilled⟩

theorem calibratingOf_perm {pairs pairs' : List CalibrationPair} (h : pairs'.Perm pairs) :
    calibratingOf pairs' alpha delta = calibratingOf pairs alpha delta := by
  rw [calibratingOf, calibratingOf, candidateCount_perm h, h.length_eq, errorCount_perm h,
    h.countP_eq]

theorem calibrateActThreshold_eq :
    calibrateActThreshold upperBound pairs alpha delta =
      if pairs.length < minimumCalibrationLabels alpha delta then
        .insufficientLabels (minimumCalibrationLabels alpha delta) pairs.length alpha delta
      else if pairs.length < (calibratingOf pairs alpha delta).effectiveNeeded then
        .insufficientLabels (calibratingOf pairs alpha delta).effectiveNeeded
          pairs.length alpha delta
      else
        chooseThreshold upperBound (calibratingOf pairs alpha delta) pairs (candidatesOf pairs)
          (candidatesOf pairs).head? pairs.length ⊤ := by
  have hlength := (sortedPairs_perm pairs).length_eq
  have hset : (⟨alpha, delta, delta / (candidatesOf pairs).length,
      minimumCalibrationLabels alpha (delta / (candidatesOf pairs).length),
        (sortedPairs pairs).length,
      errorCount (sortedPairs pairs),
        (sortedPairs pairs).countP CalibrationPair.backfilled⟩ : Calibrating) =
        calibratingOf pairs alpha delta := by
    rw [← calibratingOf_perm alpha delta (sortedPairs_perm pairs), calibratingOf,
      candidateCount_perm (sortedPairs_perm pairs), length_candidatesOf]
  have hstart : CountedAt (sortedPairs pairs) []
      ⟨0, 0, sortedPairs pairs, (candidatesOf pairs).head?, (sortedPairs pairs).length, ⊤⟩ :=
    ⟨(filter_true _).symm, Nat.zero_add _, Nat.zero_add _⟩
  have hall : ∀ pair ∈ sortedPairs pairs, pair.confidence ∈ [] ++ candidatesOf pairs :=
    fun pair hpair =>
    mem_candidatesOf.2 (mem_map_of_mem ((sortedPairs_perm pairs).subset hpair))
  have hscan := calc
    scanCandidates upperBound (calibratingOf pairs alpha delta) (candidatesOf pairs)
        ⟨0, 0, sortedPairs pairs, (candidatesOf pairs).head?, (sortedPairs pairs).length, ⊤⟩
      = chooseThreshold upperBound (calibratingOf pairs alpha delta) (sortedPairs pairs)
          (candidatesOf pairs)
          (candidatesOf pairs).head? (sortedPairs pairs).length ⊤ :=
        scanCandidates_eq upperBound (sortedPairs_sorted pairs) hlength.symm
          (errorCount_perm (sortedPairs_perm pairs)).symm hstart (candidatesOf_ascending pairs) hall
    _ = chooseThreshold upperBound (calibratingOf pairs alpha delta) pairs (candidatesOf pairs)
          (candidatesOf pairs).head? (sortedPairs pairs).length ⊤ :=
        chooseThreshold_perm upperBound (sortedPairs_perm pairs) _ _ _ _
  rw [← hlength, ← hscan, ← hset, hlength]
  simp only [calibrateActThreshold, ← hlength]
  rfl

/-- A smaller confidence level needs no fewer labels. -/
theorem minimumCalibrationLabels_mono {alpha delta delta' : ℚ} (halpha : 0 < alpha)
    (halpha' : alpha < 1) (hdelta' : 0 < delta') (hle : delta' ≤ delta) :
    minimumCalibrationLabels alpha delta ≤ minimumCalibrationLabels alpha delta' := by
  refine Int.ceil_mono (div_le_div_of_nonpos_of_le ?_ ?_)
  · refine (Real.log_neg ?_ ?_).le
    · have : (alpha : ℝ) < 1 := by exact_mod_cast halpha'
      linarith
    · have : (0 : ℝ) < alpha := by exact_mod_cast halpha
      linarith
  · exact Real.log_le_log (by exact_mod_cast hdelta') (by exact_mod_cast hle)

variable {pairs alpha delta}

theorem passes_iff (hmem : lambda ∈ candidatesOf pairs) :
    Passes upperBound (calibratingOf pairs alpha delta) pairs lambda ↔
      Certifies upperBound pairs alpha delta lambda :=
  ⟨fun h => ⟨mem_candidatesOf.1 hmem, h.enough, h.bounded⟩, fun h => ⟨h.enough, h.bounded⟩⟩

/-- The levels that the program accepts. -/
structure Accepted (alpha delta : ℚ) : Prop where
  alpha_pos : 0 < alpha
  alpha_le : alpha ≤ maxAlpha
  delta_pos : 0 < delta
  delta_le : delta ≤ 1

theorem Accepted.alpha_lt_one (h : Accepted alpha delta) : alpha < 1 :=
  h.alpha_le.trans_lt (by norm_num [maxAlpha])

/-- The labels that the split level needs are no fewer than those of the level itself. -/
theorem Certifies.needed_le (haccepted : Accepted alpha delta)
    (h : Certifies upperBound pairs alpha delta lambda) :
    minimumCalibrationLabels alpha delta ≤ (atLeast pairs lambda).length := by
  have hcount : 1 ≤ candidateCount pairs := by
    rw [← length_candidatesOf]
    exact length_pos_of_mem (mem_candidatesOf.2 h.observed)
  have hcount' : (1 : ℚ) ≤ candidateCount pairs := by exact_mod_cast hcount
  refine (minimumCalibrationLabels_mono haccepted.alpha_pos haccepted.alpha_lt_one ?_ ?_).trans
    h.enough
  · exact div_pos haccepted.delta_pos (by linarith)
  · exact div_le_self haccepted.delta_pos.le hcount'

/-- The result is the one for the least certifying confidence, or no confidence certifies. -/
theorem calibrateActThreshold_cases (haccepted : Accepted alpha delta) :
    (∃ lambda, IsLeast {lambda | Certifies upperBound pairs alpha delta lambda} lambda ∧
      calibrateActThreshold upperBound pairs alpha delta =
        .calibrated (calibrationAt (calibratingOf pairs alpha delta) pairs lambda)) ∨
    (∀ lambda, ¬ Certifies upperBound pairs alpha delta lambda) ∧
      ∀ calibration, calibrateActThreshold upperBound pairs alpha delta ≠
        .calibrated calibration := by
  have hle : ∀ lambda, ((atLeast pairs lambda).length : ℤ) ≤ pairs.length := fun lambda => by
    exact_mod_cast length_filter_le _ _
  rw [calibrateActThreshold_eq]
  split
  · next hfew =>
    refine .inr ⟨fun lambda h => ?_, nofun⟩
    exact absurd ((h.needed_le upperBound haccepted).trans (hle lambda)) (not_le.2 hfew)
  · split
    · next hfew =>
      refine .inr ⟨fun lambda h => ?_, nofun⟩
      exact absurd (h.enough.trans (hle lambda)) (not_le.2 hfew)
    · obtain ⟨front, lambda, back, hcandidates, hfront, hpasses, heq⟩ | ⟨hnone, hrefused⟩ :=
        chooseThreshold_cases upperBound (candidatesOf pairs) (candidatesOf pairs).head?
          pairs.length ⊤
      · have hmem : lambda ∈ candidatesOf pairs := by simp [hcandidates]
        refine .inl ⟨lambda, ⟨(passes_iff upperBound hmem).1 hpasses, fun mu hmu => ?_⟩, heq⟩
        have hmem' : mu ∈ candidatesOf pairs := mem_candidatesOf.2 hmu.observed
        have hascending := candidatesOf_ascending pairs
        rw [hcandidates] at hmem' hascending
        obtain hbefore | hafter := mem_append.1 hmem'
        · refine absurd ((passes_iff upperBound ?_).2 hmu) (hfront mu hbefore)
          exact mem_candidatesOf.2 hmu.observed
        · obtain rfl | hlater := mem_cons.1 hafter
          · exact le_rfl
          · exact ((pairwise_cons.1 (pairwise_append.1 hascending).2.1).1 mu hlater).le
      · refine .inr ⟨fun lambda h => ?_, hrefused⟩
        have hmem := mem_candidatesOf.2 h.observed
        exact hnone lambda hmem ((passes_iff upperBound hmem).2 h)

/-- A result within the range of probabilities passes the check. -/
theorem validate_calibrationAt (haccepted : Accepted alpha delta)
    (h : Certifies upperBound pairs alpha delta lambda) (hzero : 0 ≤ lambda) (hone : lambda ≤ 1) :
    validateCalibrationPayload
      (some (calibrationAt (calibratingOf pairs alpha delta) pairs lambda).payload) =
      some ⟨alpha, lambda, (atLeast pairs lambda).length / pairs.length,
        (atLeast pairs lambda).length, delta⟩ := by
  have hcoverage : (0 : ℚ) ≤ (atLeast pairs lambda).length / pairs.length := by positivity
  have hcoverage' : ((atLeast pairs lambda).length : ℚ) / pairs.length ≤ 1 :=
    div_le_one_of_le₀ (by exact_mod_cast length_filter_le _ _) (Nat.cast_nonneg _)
  have henough : ¬ ((atLeast pairs lambda).length : ℚ) < minimumCalibrationLabels alpha delta := by
    rw [not_lt]
    exact_mod_cast h.needed_le upperBound haccepted
  simp [validateCalibrationPayload, Calibration.payload, checkedNumber, calibrationAt,
    calibratingOf, haccepted.alpha_pos, haccepted.alpha_le, haccepted.delta_pos, haccepted.delta_le,
    hzero, hone, hcoverage, hcoverage', henough]

theorem act_threshold_exact (haccepted : Accepted alpha delta) :
    CalibratedExactly upperBound pairs alpha delta where
  least := by
    intro calibration h
    obtain ⟨lambda, hleast, heq⟩ | ⟨-, hrefused⟩ := calibrateActThreshold_cases upperBound haccepted
    · cases heq.symm.trans h
      exact ⟨hleast, rfl, rfl⟩
    · exact absurd h (hrefused calibration)
  refused := by
    obtain ⟨lambda, hleast, heq⟩ | ⟨hnone, hrefused⟩ :=
      calibrateActThreshold_cases upperBound haccepted
    · exact iff_of_false (fun h => h _ heq) fun h => h lambda hleast.1
    · exact iff_of_true hrefused hnone
  unordered := by
    intro pairs' hperm
    rw [calibrateActThreshold_eq, calibrateActThreshold_eq, calibratingOf_perm alpha delta hperm,
      candidatesOf_perm hperm, hperm.length_eq, chooseThreshold_perm upperBound hperm]
  valid := by
    intro hrange calibration h
    obtain ⟨lambda, hleast, heq⟩ | ⟨-, hrefused⟩ := calibrateActThreshold_cases upperBound haccepted
    · cases heq.symm.trans h
      obtain ⟨pair, hpair, rfl⟩ := mem_map.1 hleast.1.observed
      exact validate_calibrationAt upperBound haccepted hleast.1 (hrange pair hpair).1
        (hrange pair hpair).2
    · exact absurd h (hrefused calibration)

/-- Fifty clean labels at confidence `9 / 10`, and two at `3 / 5`, of which one is wrong. -/
def tiedPairs : List CalibrationPair :=
  [⟨3 / 5, true, true⟩, ⟨3 / 5, false, false⟩] ++ List.replicate 50 ⟨9 / 10, true, false⟩

/-- A bound that is the number of errors rejects the lower confidence. -/
theorem act_threshold_exact_tied :
    CalibratedExactly (fun errors _ _ => errors) tiedPairs (1 / 25) (1 / 2) ∧
      Certifies (fun errors _ _ => errors) tiedPairs (1 / 25) (1 / 2) (9 / 10) ∧
      ¬Certifies (fun errors _ _ => errors) tiedPairs (1 / 25) (1 / 2) (3 / 5) := by
  refine ⟨act_threshold_exact _ ⟨by norm_num, by norm_num [maxAlpha], by norm_num, by norm_num⟩, ?_,
    ?_⟩
  · have hcount : candidateCount tiedPairs = 2 := by decide +kernel
    have hlength : (atLeast tiedPairs (9 / 10)).length = 50 := by decide +kernel
    have herrors : errorCount (atLeast tiedPairs (9 / 10)) = 0 := by decide +kernel
    refine ⟨by decide +kernel, ?_, ?_⟩
    · rw [hcount, hlength, minimumCalibrationLabels, Int.ceil_le,
        div_le_iff_of_neg (Real.log_neg ?_ ?_)]
      · have hpow : ((1 / 25 : ℚ) : ℝ) = 1 / 25 := by norm_num
        have hdelta : ((1 / 2 / (2 : ℕ) : ℚ) : ℝ) = 1 / 4 := by norm_num
        rw [hpow, hdelta]
        have hlog := Real.log_le_log (by norm_num) (by norm_num : ((1 : ℝ) - 1 / 25) ^ 50 ≤ 1 / 4)
        rw [Real.log_pow] at hlog
        exact_mod_cast hlog
      · norm_num
      · norm_num
    · rw [herrors]
      norm_num
  · intro h
    have herrors : errorCount (atLeast tiedPairs (3 / 5)) = 1 := by decide +kernel
    have hbounded := h.bounded
    rw [herrors] at hbounded
    norm_num at hbounded

end Result

end LoopOver.RiskControl
