import LoopOver.Number
import Mathlib.Tactic.FieldSimp

/-!
# The reputation throttle

`packages/loopover-engine/src/governor/reputation-throttle.ts` slows the submissions to a repository
down by how many of the decided ones went against the miner: at full cadence below one ratio, at a
floor from another one on, and on a line between the two.

* `cadenceAt_slower`: on that line, a larger ratio is a slower cadence, whatever the thresholds are.
* **`selfReputationThrottle_slower`**: of two histories with as many decided outcomes, the one with
  more unfavourable ones is at the floor, or is no faster than the other and neither is at the
  floor.
-/

variable (thresholds : SelfReputationThresholds)

namespace LoopOver

open JsNumber

structure SelfReputationThresholds where
  minSampleSize : JsNumber
  throttleAtRatio : JsNumber
  floorAtRatio : JsNumber
  minCadenceFactor : JsNumber

def defaultSelfReputationThresholds : SelfReputationThresholds where
  minSampleSize := 5
  throttleAtRatio := .finite (1 / 2)
  floorAtRatio := .finite (9 / 10)
  minCadenceFactor := .finite (1 / 10)

/-- The outcomes of the miner's own submissions to one repository. -/
structure RepoOutcomeHistory where
  decided : JsNumber
  unfavorable : JsNumber

/-- Why the cadence is what it is. -/
inductive SelfReputationThrottleReason
  | insufficientHistory
  | clean
  | throttled
  | floored
  deriving DecidableEq

def SelfReputationThrottleReason.text : SelfReputationThrottleReason → String
  | .insufficientHistory => "insufficient_history"
  | .clean => "clean"
  | .throttled => "throttled"
  | .floored => "floored"

structure SelfReputationThrottleDecision where
  cadenceFactor : JsNumber
  throttled : Bool
  /-- `none` below the sample size. -/
  unfavorableRatio : Option JsNumber
  reason : SelfReputationThrottleReason
  deriving DecidableEq

/-- The cadence between the two ratios. -/
def cadenceAt (thresholds : SelfReputationThresholds) (ratio : JsNumber) : JsNumber :=
  let t := (ratio.sub thresholds.throttleAtRatio).div
    (thresholds.floorAtRatio.sub thresholds.throttleAtRatio)
  ((1 : JsNumber).sub (t.mul ((1 : JsNumber).sub thresholds.minCadenceFactor))).toFixed3

def selfReputationThrottle (history : RepoOutcomeHistory) (thresholds : SelfReputationThresholds) :
    SelfReputationThrottleDecision :=
  let decided := history.decided.finiteNonNegativeInt
  let unfavorable := min decided history.unfavorable.finiteNonNegativeInt
  if (finite decided).lt thresholds.minSampleSize then
    ⟨1, false, none, .insufficientHistory⟩
  else
    let ratio := (finite unfavorable).div (.finite decided)
    if ratio.lt thresholds.throttleAtRatio then ⟨1, false, some ratio.toFixed3, .clean⟩
    else if thresholds.floorAtRatio.le ratio then
      ⟨thresholds.minCadenceFactor, true, some ratio.toFixed3, .floored⟩
    else ⟨cadenceAt thresholds ratio, true, some ratio.toFixed3, .throttled⟩

/-- The factor by which a window is divided, never zero. -/
def safeFactor (cadenceFactor : JsNumber) : JsNumber :=
  if JsNumber.lt 0 cadenceFactor then cadenceFactor else .finite (1 / 1000)

/-! ## Slower cadences -/

/-- As soon as the one cadence is not full, the other is not either and divides by no more. -/
def Slower (slow fast : JsNumber) : Prop :=
  fast.lt 1 = true → slow.lt 1 = true ∧ (safeFactor slow).le (safeFactor fast) = true

theorem JsNumber.one_eq : (1 : JsNumber) = .finite 1 := congrArg finite Nat.cast_one

theorem JsNumber.zero_eq : (0 : JsNumber) = .finite 0 := congrArg finite Nat.cast_zero

theorem slower_full (slow : JsNumber) : Slower slow 1 := by
  intro hfast
  simp [JsNumber.lt] at hfast

theorem slower_refl (cadence : JsNumber) : Slower cadence cadence := by
  intro hcadence
  refine ⟨hcadence, ?_⟩
  rw [one_eq] at hcadence
  rw [safeFactor, zero_eq]
  split_ifs with hpositive
  · cases cadence with
    | finite value => rw [le_finite, decide_eq_true le_rfl]
    | infinite negative => cases negative <;> simp_all [JsNumber.lt]
    | nan => cases hcadence
  · rw [le_finite, decide_eq_true le_rfl]

/-- A cadence that is not full divides by a number that is at most one. -/
theorem safeFactor_of_lt_one {cadence : JsNumber} (hless : cadence.lt 1 = true) :
    ∃ factor : ℚ, safeFactor cadence = .finite factor ∧ 0 < factor ∧ factor ≤ 1 := by
  rw [one_eq] at hless
  rw [safeFactor, zero_eq]
  split_ifs with hpositive
  · cases cadence with
    | finite value =>
      rw [JsNumber.lt, decide_eq_true_eq] at hless hpositive
      exact ⟨value, rfl, hpositive, hless.le⟩
    | infinite negative => cases negative <;> simp_all [JsNumber.lt]
    | nan => cases hless
  · exact ⟨1 / 1000, rfl, by norm_num, by norm_num⟩

/-- Rounded numbers divide by more when they are larger. -/
theorem slower_threeDecimals {a b : ℚ} (hle : a ≤ b) :
    Slower (.finite (threeDecimals a)) (.finite (threeDecimals b)) := by
  have hrounded := threeDecimals_mono hle
  intro hless
  rw [one_eq, JsNumber.lt, decide_eq_true_eq] at hless
  refine ⟨by rw [one_eq, JsNumber.lt, decide_eq_true_eq]; exact hrounded.trans_lt hless,
    ?_⟩
  simp only [safeFactor, JsNumber.lt, decide_eq_true_eq]
  split_ifs with ha hb hb
  · rw [le_finite, decide_eq_true hrounded]
  · exact absurd (ha.trans_le hrounded) hb
  · rw [le_finite, decide_eq_true (thousandth_le_threeDecimals hb)]
  · rw [le_finite, decide_eq_true le_rfl]

/-- Where the cadence between two finite ratios is not full, the least cadence is below one. -/
theorem cadenceAt_finite {low high ratio : ℚ} (hlow : low ≤ ratio)
    (hhigh : ratio < high) (hthrottle : thresholds.throttleAtRatio = .finite low)
    (hfloor : thresholds.floorAtRatio = .finite high) :
    cadenceAt thresholds (.finite ratio) =
      ((1 : JsNumber).sub ((finite ((ratio - low) / (high - low))).mul
        ((1 : JsNumber).sub thresholds.minCadenceFactor))).toFixed3 := by
  have hspan : high - low ≠ 0 := by linarith
  rw [cadenceAt, hthrottle, hfloor]
  simp only [JsNumber.sub, JsNumber.add, ← sub_eq_add_neg, JsNumber.div, if_neg hspan]

/-- A cadence that is not full comes from two finite ratios. -/
theorem finite_of_cadenceAt_lt {thresholds : SelfReputationThresholds} {ratio : ℚ}
    (hless : (cadenceAt thresholds (.finite ratio)).lt 1 = true) :
    ∃ low high, thresholds.throttleAtRatio = .finite low ∧
      thresholds.floorAtRatio = .finite high := by
  rw [cadenceAt] at hless
  cases hthrottle : thresholds.throttleAtRatio with
  | nan =>
    simp [hthrottle, JsNumber.sub, JsNumber.div, JsNumber.mul, toFixed3, JsNumber.lt,
      one_eq, JsNumber.add] at hless
  | infinite negative =>
    cases hfloor : thresholds.floorAtRatio with
    | nan => simp [hthrottle, hfloor, JsNumber.sub, JsNumber.div, JsNumber.mul, toFixed3,
        JsNumber.lt,
        one_eq, JsNumber.add] at hless
    | infinite other =>
      cases negative <;> cases other <;> simp [hthrottle, hfloor, JsNumber.sub, JsNumber.div,
        JsNumber.mul,
        toFixed3, JsNumber.lt, one_eq, JsNumber.add] at hless
    | finite high =>
      simp [hthrottle, hfloor, JsNumber.sub, JsNumber.div, JsNumber.mul, toFixed3,
        JsNumber.lt, one_eq, JsNumber.add] at hless
  | finite low =>
    cases hfloor : thresholds.floorAtRatio with
    | nan => simp [hthrottle, hfloor, JsNumber.sub, JsNumber.div, JsNumber.mul, toFixed3,
        JsNumber.lt,
        one_eq, JsNumber.add] at hless
    | infinite other =>
      -- The ratio is nowhere on the way to an infinite one.
      cases hmin : thresholds.minCadenceFactor with
      | nan =>
        simp [hthrottle, hfloor, hmin, JsNumber.sub, JsNumber.div, JsNumber.mul, toFixed3,
          JsNumber.lt, one_eq, JsNumber.add] at hless
      | infinite negative =>
        simp [hthrottle, hfloor, hmin, JsNumber.sub, JsNumber.div, JsNumber.mul,
          toFixed3, JsNumber.lt, one_eq, zero_eq, JsNumber.add] at hless
      | finite least => simp [hthrottle, hfloor, hmin, JsNumber.sub, JsNumber.div, JsNumber.mul,
          toFixed3, JsNumber.lt, one_eq, zero_eq, JsNumber.add,
          threeDecimals_one] at hless
    | finite high => exact ⟨low, high, rfl, rfl⟩

/-- A larger ratio is a slower cadence. -/
theorem cadenceAt_slower {ratio larger : ℚ} (hle : ratio ≤ larger)
    (hthrottled : (finite ratio).lt thresholds.throttleAtRatio = false)
    (hfloored : thresholds.floorAtRatio.le (.finite larger) = false) :
    Slower (cadenceAt thresholds (.finite larger)) (cadenceAt thresholds (.finite ratio)) := by
  intro hless
  obtain ⟨low, high, hlow, hhigh⟩ := finite_of_cadenceAt_lt hless
  rw [hlow, JsNumber.lt, decide_eq_false_iff_not, not_lt] at hthrottled
  rw [hhigh, le_finite, decide_eq_false_iff_not, not_le] at hfloored
  have hspan : 0 < high - low := by linarith
  revert hless
  show Slower _ _
  rw [cadenceAt_finite thresholds hthrottled (hle.trans_lt hfloored) hlow hhigh,
    cadenceAt_finite thresholds (hthrottled.trans hle) hfloored hlow hhigh]
  have hway : (ratio - low) / (high - low) ≤ (larger - low) / (high - low) :=
    div_le_div_of_nonneg_right (by linarith) hspan.le
  have hstart : 0 ≤ (ratio - low) / (high - low) := div_nonneg (by linarith) hspan.le
  generalize (ratio - low) / (high - low) = t at hway hstart
  generalize (larger - low) / (high - low) = t' at hway
  rw [one_eq]
  cases thresholds.minCadenceFactor with
  | nan =>
    intro hless
    simp [JsNumber.sub, JsNumber.mul, toFixed3, JsNumber.lt] at hless
  | infinite negative =>
    intro hless
    cases negative with
    | false =>
      by_cases hzero : t = 0
      · simp [JsNumber.sub, JsNumber.add, JsNumber.mul, toFixed3, JsNumber.lt, hzero] at hless
      · simp [JsNumber.sub, JsNumber.add, JsNumber.mul, toFixed3, JsNumber.lt, hzero,
          hstart, one_eq] at hless
    | true =>
      by_cases hzero : t = 0
      · simp [JsNumber.sub, JsNumber.add, JsNumber.mul, toFixed3, JsNumber.lt, hzero] at hless
      · have hpositive : 0 < t := lt_of_le_of_ne hstart (Ne.symm hzero)
        have hlarger : 0 < t' := hpositive.trans_le hway
        simp [JsNumber.sub, JsNumber.add, JsNumber.mul, toFixed3, JsNumber.lt, hzero, hlarger.ne',
          not_lt.2 hlarger.le, hstart, one_eq, safeFactor, zero_eq, le_finite]
  | finite least =>
    have hcadence : ∀ s : ℚ, ((finite 1).sub ((finite s).mul
        ((finite 1).sub (.finite least)))).toFixed3 =
        .finite (threeDecimals (1 - s * (1 - least))) := by
      intro s
      simp only [JsNumber.sub, JsNumber.add, JsNumber.mul, toFixed3, ← sub_eq_add_neg]
    rw [hcadence, hcadence]
    by_cases hleast : least ≤ 1
    · apply slower_threeDecimals
      have := mul_le_mul_of_nonneg_right hway (sub_nonneg.2 hleast)
      linarith
    · -- A least cadence above one never slows anything down.
      intro hless
      have hproduct : t * (1 - least) ≤ 0 := mul_nonpos_of_nonneg_of_nonpos hstart (by linarith)
      have hone := threeDecimals_mono (a := 1) (b := 1 - t * (1 - least)) (by linarith)
      rw [threeDecimals_one] at hone
      rw [one_eq, JsNumber.lt, decide_eq_true_eq] at hless
      exact absurd hless (not_lt.2 hone)

/-! ## Two histories -/

/-- As many decided outcomes, and no fewer that went against the miner. -/
structure Worse (worse history : RepoOutcomeHistory) : Prop where
  decided : worse.decided.finiteNonNegativeInt = history.decided.finiteNonNegativeInt
  unfavorable : history.unfavorable.finiteNonNegativeInt ≤ worse.unfavorable.finiteNonNegativeInt

/-- **The worse of two histories is at the floor or no faster.** -/
theorem selfReputationThrottle_slower {worse history : RepoOutcomeHistory}
    (hworse : Worse worse history) :
    (selfReputationThrottle worse thresholds).reason = .floored ∨
      (selfReputationThrottle history thresholds).reason ≠ .floored ∧
      Slower (selfReputationThrottle worse thresholds).cadenceFactor
        (selfReputationThrottle history thresholds).cadenceFactor := by
  rw [selfReputationThrottle, selfReputationThrottle, hworse.decided]
  have hcounts := min_le_min_left history.decided.finiteNonNegativeInt hworse.unfavorable
  have hbelow :=
    min_le_left history.decided.finiteNonNegativeInt worse.unfavorable.finiteNonNegativeInt
  dsimp only
  generalize min history.decided.finiteNonNegativeInt history.unfavorable.finiteNonNegativeInt =
    u at hcounts
  generalize min history.decided.finiteNonNegativeInt worse.unfavorable.finiteNonNegativeInt =
    u' at hcounts hbelow
  generalize history.decided.finiteNonNegativeInt = decided at hbelow
  by_cases hsample : (finite decided).lt thresholds.minSampleSize
  · rw [if_pos hsample, if_pos hsample]
    exact Or.inr ⟨by simp, slower_refl _⟩
  rw [if_neg hsample, if_neg hsample]
  obtain rfl | hdecided := Nat.eq_zero_or_pos decided
  · -- Without a decided outcome the two are the same.
    obtain rfl : u' = 0 := by omega
    obtain rfl : u = 0 := by omega
    split_ifs with hclean hfloored
    · exact Or.inr ⟨by simp, slower_refl _⟩
    · exact Or.inl rfl
    · exact Or.inr ⟨by simp, slower_refl _⟩
  have hnonzero : (decided : ℚ) ≠ 0 := by exact_mod_cast hdecided.ne'
  have hratio : (u : ℚ) / decided ≤ u' / decided :=
    div_le_div_of_nonneg_right (by exact_mod_cast hcounts) (by positivity)
  simp only [JsNumber.div, if_neg hnonzero]
  generalize (u : ℚ) / decided = ratio at hratio
  generalize (u' : ℚ) / decided = larger at hratio
  have hlt : (finite larger).lt thresholds.throttleAtRatio = true →
      (finite ratio).lt thresholds.throttleAtRatio = true := by
    cases thresholds.throttleAtRatio with
    | finite low => simp only [JsNumber.lt, decide_eq_true_eq]; exact hratio.trans_lt
    | infinite negative => cases negative <;> simp [JsNumber.lt]
    | nan => simp [JsNumber.lt]
  have hle : thresholds.floorAtRatio.le (.finite ratio) = true →
      thresholds.floorAtRatio.le (.finite larger) = true := by
    cases thresholds.floorAtRatio with
    | finite high =>
      simp only [le_finite, decide_eq_true_eq]
      exact fun h => h.trans hratio
    | infinite negative => cases negative <;> simp [JsNumber.le, JsNumber.lt]
    | nan => simp [JsNumber.le, JsNumber.lt]
  by_cases hclean' : (finite larger).lt thresholds.throttleAtRatio
  · rw [if_pos hclean', if_pos (hlt hclean')]
    exact Or.inr ⟨by simp, slower_refl _⟩
  rw [if_neg hclean']
  by_cases hfloored' : thresholds.floorAtRatio.le (.finite larger)
  · rw [if_pos hfloored']
    exact Or.inl rfl
  rw [if_neg hfloored']
  right
  split_ifs with hclean hfloored
  · exact ⟨by simp, slower_full _⟩
  · exact absurd (hle hfloored) hfloored'
  · exact ⟨by simp,
      cadenceAt_slower thresholds hratio (by simpa using hclean) (by simpa using hfloored')⟩

end LoopOver
