import LoopOver.Foundations.Window
import LoopOver.Number
import LoopOver.Text
import Mathlib.Tactic.Linarith

/-!
# The write rate limits

`packages/loopover-engine/src/governor/rate-limit.ts` decides for one bucket whether a write is
allowed, and `write-rate-limit.ts` asks it twice for each write: for the bucket of the action class,
and for that of the action class in the repository. An allowed write is then counted in both.

* `evaluateLocalRateLimit_eq` and `incrementBucket_eq` say what the two functions do to a bucket
  that counts: they find the same window, which is that of `Window.current`.
* `evaluateLocalRateLimit_retry`: the wait of a refused write is long enough.
-/

namespace LoopOver

/-! ## One bucket -/

structure LocalRateLimitConfig where
  limit : JsNumber
  windowMs : JsNumber
  deriving DecidableEq

/-- The writes that a window has counted. -/
structure LocalRateBucket where
  count : JsNumber
  windowStartMs : JsNumber
  deriving DecidableEq

structure LocalRateLimitDecision where
  allowed : Bool
  limit : ℕ
  remaining : ℕ
  resetAtMs : ℚ
  retryAfterMs : ℚ

/-- The decision, once its inputs are numbers. -/
def evaluateWindow (limit count : ℕ) (windowMs windowStartMs now : ℚ) : LocalRateLimitDecision :=
  let windowElapsed : Bool := windowMs ≤ now - windowStartMs
  let effectiveCount := if windowElapsed then 0 else count
  let effectiveWindowStart := if windowElapsed then now else windowStartMs
  let resetAtMs := effectiveWindowStart + windowMs
  let allowed : Bool := effectiveCount < limit
  { allowed := allowed
    limit := limit
    remaining := if allowed then limit - effectiveCount - 1 else 0
    resetAtMs := resetAtMs
    -- A wait is never longer than the window, also when the clock went back.
    retryAfterMs := if allowed then 0 else min windowMs (max 0 (resetAtMs - now)) }

def evaluateLocalRateLimit (bucket : LocalRateBucket) (config : LocalRateLimitConfig)
    (nowMs : JsNumber) :
    LocalRateLimitDecision :=
  evaluateWindow config.limit.finiteNonNegativeInt bucket.count.finiteNonNegativeInt
    config.windowMs.finiteNonNegativeInt (bucket.windowStartMs.finiteOr 0) (nowMs.finiteOr 0)

def maxBackoffExponent : ℕ := 30

/-- The delay before a retry; the draw is what `randomFn` gives. -/
def jitteredBackoffMs (baseMs attempt rawDraw : JsNumber) : ℕ :=
  let safeBase := max 0 (baseMs.finiteOr 0)
  let exponent := match attempt with
    | .nan => 0
    | .infinite negative => if negative then 0 else maxBackoffExponent
    | .finite value => min maxBackoffExponent ⌊value⌋.toNat
  let exponential := safeBase * 2 ^ exponent
  let draw := match rawDraw with
    | .finite value => min (999999 / 1000000) (max 0 value)
    | _ => 0
  let rawDelay := exponential * (1 / 2 + draw)
  if JsNumber.overflows exponential || JsNumber.overflows rawDelay then 2 ^ 53 - 1
  else (JsNumber.round rawDelay).toNat

def emptyBucket (nowMs : JsNumber) : LocalRateBucket := ⟨0, nowMs⟩

def incrementBucket (bucket : LocalRateBucket) (config : LocalRateLimitConfig) (nowMs : JsNumber) :
    LocalRateBucket :=
  let windowMs : JsNumber := .finite config.windowMs.finiteNonNegativeInt
  let windowStartMs := match bucket.windowStartMs with
    | .finite start => .finite start
    | _ => nowMs
  let windowElapsed := windowMs.le (nowMs.sub windowStartMs)
  let effectiveCount := if windowElapsed then 0 else JsNumber.max 0 bucket.count.floor
  ⟨effectiveCount.add 1, if windowElapsed then nowMs else windowStartMs⟩

/-- A bucket that counts, as the source has it. -/
def bucketOf (bucket : Window.Bucket ℚ) : LocalRateBucket :=
  ⟨.finite bucket.count, .finite bucket.start⟩

/-- The length of the window, as both functions take it. -/
def LocalRateLimitConfig.window (config : LocalRateLimitConfig) : ℚ :=
  config.windowMs.finiteNonNegativeInt

/-- The limit, as a number of writes. -/
def LocalRateLimitConfig.ceiling (config : LocalRateLimitConfig) : ℕ :=
  config.limit.finiteNonNegativeInt

/-- The stored bucket, or the one that the first write finds. -/
def bucketAt (now : ℚ) (bucket : Option LocalRateBucket) : LocalRateBucket :=
  bucket.getD (emptyBucket (.finite now))

/-- The decision on a bucket whose window is the current one. -/
def decisionOf (config : LocalRateLimitConfig) (now : ℚ) (bucket : Window.Bucket ℚ) :
    LocalRateLimitDecision where
  allowed := bucket.count < config.ceiling
  limit := config.ceiling
  remaining := if bucket.count < config.ceiling then config.ceiling - bucket.count - 1 else 0
  resetAtMs := bucket.start + config.window
  retryAfterMs :=
    if bucket.count < config.ceiling then 0
      else min config.window (max 0 (bucket.start + config.window - now))

section Bucket

variable (config : LocalRateLimitConfig) (now : ℚ) (bucket : Option (Window.Bucket ℚ))

/-- An empty bucket that begins now counts as none. -/
theorem bucketAt_map :
    ∃ b, bucketAt now (bucket.map bucketOf) = bucketOf b ∧
      Window.current config.window now bucket = Window.current config.window now (some b) := by
  cases bucket with
  | none =>
    refine ⟨⟨0, now⟩, rfl, ?_⟩
    rw [Window.current, Window.current, ite_self]
  | some b => exact ⟨b, rfl, rfl⟩

theorem evaluateLocalRateLimit_eq :
    evaluateLocalRateLimit (bucketAt now (bucket.map bucketOf)) config (.finite now) =
      decisionOf config now (Window.current config.window now bucket) := by
  obtain ⟨b, hbucket, hcurrent⟩ := bucketAt_map config now bucket
  have hnumbers : evaluateLocalRateLimit (bucketOf b) config (.finite now) =
      evaluateWindow config.ceiling b.count config.window b.start now :=
    congrArg (evaluateWindow _ · _ _ _) (JsNumber.finiteNonNegativeInt_natCast b.count)
  rw [hbucket, hcurrent, hnumbers, Window.current]
  by_cases helapsed : config.window ≤ now - b.start
  · simp only [evaluateWindow, decide_eq_true helapsed, if_true, if_pos helapsed, decide_eq_true_eq]
    rfl
  · simp only [evaluateWindow, decide_eq_false helapsed, Bool.false_eq_true, if_false,
      if_neg helapsed, decide_eq_true_eq]
    rfl

theorem incrementBucket_eq :
    incrementBucket (bucketAt now (bucket.map bucketOf)) config (.finite now) =
      bucketOf (Window.record config.window now bucket) := by
  obtain ⟨b, hbucket, hcurrent⟩ := bucketAt_map config now bucket
  have hone : ∀ n : ℕ, (JsNumber.finite n).add 1 = .finite (n + 1 : ℕ) := by
    intro n
    exact congrArg JsNumber.finite (by push_cast; rfl)
  have helapsed : (JsNumber.finite config.windowMs.finiteNonNegativeInt).le
      ((JsNumber.finite now).sub (.finite b.start)) = decide (config.window ≤ now - b.start) := by
    rw [sub_eq_add_neg]
    exact JsNumber.le_finite _ _
  rw [hbucket, Window.record, hcurrent, Window.current]
  by_cases hover : config.window ≤ now - b.start
  · rw [decide_eq_true hover] at helapsed
    simp only [incrementBucket, bucketOf, helapsed, if_true, if_pos hover]
    exact congrArg₂ LocalRateBucket.mk (hone 0) rfl
  · rw [decide_eq_false hover] at helapsed
    simp only [incrementBucket, bucketOf, helapsed, Bool.false_eq_true, if_false,
      JsNumber.max_zero_floor, if_neg hover]
    exact congrArg₂ LocalRateBucket.mk (hone b.count) rfl

/-- Waiting for as long as the decision says is enough when the limit lets anything through. -/
theorem evaluateLocalRateLimit_retry {later : ℚ} (hceiling : 0 < config.ceiling)
    (hstarted : ∀ b ∈ bucket, b.start ≤ now) (hlater : now +
      (evaluateLocalRateLimit (bucketAt now (bucket.map bucketOf)) config
        (.finite now)).retryAfterMs ≤ later) :
    (evaluateLocalRateLimit (bucketAt later (bucket.map bucketOf)) config (.finite later)).allowed =
      true := by
  rw [evaluateLocalRateLimit_eq] at hlater ⊢
  apply decide_eq_true
  by_cases hless : (Window.current config.window now bucket).count < config.ceiling
  · have hwait : (decisionOf config now (Window.current config.window now bucket)).retryAfterMs =
        0 :=
      if_pos hless
    rw [hwait, add_zero] at hlater
    exact (Window.current_count_anti _ bucket hlater).trans_lt hless
  · -- The bucket is full, so its window is not over, and the wait is for its end.
    have hwait : (decisionOf config now (Window.current config.window now bucket)).retryAfterMs =
        min config.window
          (max 0 ((Window.current config.window now bucket).start + config.window - now)) :=
      if_neg hless
    rw [hwait] at hlater
    cases bucket with
    | none => exact absurd hceiling hless
    | some b =>
      have hopen : ¬config.window ≤ now - b.start := by
        intro helapsed
        rw [Window.current, if_pos helapsed] at hless
        exact hless hceiling
      have hstart := hstarted b rfl
      rw [Window.current, if_neg hopen, max_eq_right (by linarith),
        min_eq_right (by linarith)] at hlater
      have hend : b.start + config.window ≤ later := by linarith
      rw [Window.current_count_of_le hend]
      exact hceiling

end Bucket

/-! ## Stored buckets -/

/-- What `incrementBucket` goes on from: the bucket before the event is counted. -/
def countedBucket (bucket : LocalRateBucket) (config : LocalRateLimitConfig) (nowMs : JsNumber) :
    LocalRateBucket :=
  let windowMs : JsNumber := .finite config.windowMs.finiteNonNegativeInt
  let windowStartMs := match bucket.windowStartMs with
    | .finite start => .finite start
    | _ => nowMs
  let windowElapsed := windowMs.le (nowMs.sub windowStartMs)
  ⟨if windowElapsed then 0 else JsNumber.max 0 bucket.count.floor, if windowElapsed then nowMs
    else windowStartMs⟩

/-- What `evaluateLocalRateLimit` decides on: its `effectiveCount` and `effectiveWindowStart`. -/
def effectiveBucket (bucket : LocalRateBucket) (config : LocalRateLimitConfig) (now : ℚ) :
    Window.Bucket ℚ :=
  Window.current config.window now (some ⟨bucket.count.finiteNonNegativeInt,
    bucket.windowStartMs.finiteOr 0⟩)

/-- Rounded down, the count is a number of events. -/
def LocalRateBucket.Countable (bucket : LocalRateBucket) : Prop :=
  bucket.count ≠ .nan ∧ bucket.count ≠ .infinite false

/-- The bucket is read alike: one with a start of its window that is finite, if its window is over
or its count is a number of events. A missing start is the epoch for the evaluator, and the present
for the recorder. -/
def LocalRateBucket.ReadAlike (bucket : LocalRateBucket) (window now : ℚ) : Prop :=
  match bucket.windowStartMs with
  | .finite start => window ≤ now - start ∨ bucket.Countable
  | _ => (window ≤ now ∧ (window = 0 ∨ bucket.count.lt 1 = true)) ∨ (now = 0 ∧ bucket.Countable)

section Stored

variable (bucket : LocalRateBucket) (config : LocalRateLimitConfig) (now : ℚ)

/-- The recorder adds the event to the bucket that it goes on from. -/
theorem incrementBucket_counted (nowMs : JsNumber) :
    incrementBucket bucket config nowMs =
      ⟨(countedBucket bucket config nowMs).count.add 1,
        (countedBucket bucket config nowMs).windowStartMs⟩ :=
  rfl

/-- The evaluator decides on what it makes of a stored bucket, however malformed that is. -/
theorem evaluateLocalRateLimit_effective :
    evaluateLocalRateLimit bucket config (.finite now) =
      decisionOf config now (effectiveBucket bucket config now) := by
  have hread : evaluateLocalRateLimit bucket config (.finite now) =
      evaluateLocalRateLimit (bucketOf ⟨bucket.count.finiteNonNegativeInt,
        bucket.windowStartMs.finiteOr 0⟩) config
        (.finite now) :=
    congrArg (evaluateWindow _ · _ _ _) (JsNumber.finiteNonNegativeInt_natCast _).symm
  rw [hread, effectiveBucket, ← evaluateLocalRateLimit_eq]
  rfl

variable {bucket}

/-- Both take the same count from a number of events, and only from one. -/
theorem count_alike_iff :
    JsNumber.max 0 bucket.count.floor = .finite bucket.count.finiteNonNegativeInt ↔
      bucket.Countable := by
  rw [LocalRateBucket.Countable]
  cases bucket.count with
  | finite value => exact iff_of_true (JsNumber.max_zero_floor_finite value) ⟨nofun, nofun⟩
  | infinite negative => cases negative <;> decide
  | nan => decide

/-- The recorder takes no event from a count below one, and only from such a count. -/
theorem count_zero_iff :
    JsNumber.max 0 bucket.count.floor = .finite (0 : ℕ) ↔ bucket.count.lt 1 = true := by
  cases bucket.count with
  | finite value =>
    have hlt : (JsNumber.finite value).lt 1 = decide (value < (1 : ℕ)) := rfl
    rw [JsNumber.max_zero_floor_finite, hlt, decide_eq_true_iff, JsNumber.finite.injEq,
      Nat.cast_inj, JsNumber.finiteNonNegativeInt, Int.toNat_eq_zero, ← Int.lt_add_one_iff,
      zero_add, Int.floor_lt]
    norm_num
  | infinite negative => cases negative <;> decide
  | nan => decide

/-- The recorder finds the window over when the evaluator does, and else keeps what is stored. -/
theorem countedBucket_finite {start : ℚ} (hstart : bucket.windowStartMs = .finite start) :
    countedBucket bucket config (.finite now) =
      if config.window ≤ now - start then ⟨0, .finite now⟩
        else ⟨JsNumber.max 0 bucket.count.floor, .finite start⟩ := by
  have helapsed : (JsNumber.finite config.windowMs.finiteNonNegativeInt).le
      ((JsNumber.finite now).sub (.finite start)) = decide (config.window ≤ now - start) := by
    rw [sub_eq_add_neg]
    exact JsNumber.le_finite _ _
  simp only [countedBucket, hstart, helapsed, decide_eq_true_eq]
  split_ifs <;> rfl

/-- Without a start, the recorder begins a window, which is over at once only if it has no
length. -/
theorem countedBucket_not_finite (hstart : ∀ start, bucket.windowStartMs ≠ .finite start) :
    countedBucket bucket config (.finite now) =
      if config.window = 0 then ⟨0, .finite now⟩
        else ⟨JsNumber.max 0 bucket.count.floor, .finite now⟩ := by
  have hwindow : (0 : ℚ) ≤ config.window := Nat.cast_nonneg _
  have helapsed : (JsNumber.finite config.windowMs.finiteNonNegativeInt).le
      ((JsNumber.finite now).sub (.finite now)) = decide (config.window = 0) := by
    have hsub : (JsNumber.finite now).sub (.finite now) = .finite 0 :=
      congrArg JsNumber.finite (add_neg_cancel now)
    rw [hsub, JsNumber.le_finite]
    exact decide_eq_decide.2 hwindow.ge_iff_eq'
  cases hvalue : bucket.windowStartMs with
  | finite start => exact absurd hvalue (hstart start)
  | infinite _ | nan =>
    simp only [countedBucket, hvalue, helapsed, decide_eq_true_eq]
    split_ifs <;> rfl

/-- A bucket in which nothing is counted yet. -/
theorem bucketOf_zero : bucketOf ⟨0, now⟩ = ⟨0, .finite now⟩ :=
  congrArg (LocalRateBucket.mk · _) (congrArg JsNumber.finite Nat.cast_zero)

theorem counted_eq_effective_of_finite {start : ℚ} (hstart : bucket.windowStartMs = .finite start) :
    countedBucket bucket config (.finite now) = bucketOf (effectiveBucket bucket config now) ↔
      config.window ≤ now - start ∨ bucket.Countable := by
  rw [countedBucket_finite config now hstart, effectiveBucket, hstart, Window.current,
    JsNumber.finiteOr]
  by_cases helapsed : config.window ≤ now - start
  · rw [if_pos helapsed, if_pos helapsed, bucketOf_zero]
    exact iff_of_true rfl (Or.inl helapsed)
  · rw [if_neg helapsed, if_neg helapsed, or_iff_right helapsed, bucketOf, LocalRateBucket.mk.injEq,
      and_iff_left rfl]
    exact count_alike_iff

theorem counted_eq_effective_of_not_finite
    (hstart : ∀ start, bucket.windowStartMs ≠ .finite start) :
    countedBucket bucket config (.finite now) = bucketOf (effectiveBucket bucket config now) ↔
      (config.window ≤ now ∧ (config.window = 0 ∨ bucket.count.lt 1 = true)) ∨
        (now = 0 ∧ bucket.Countable) := by
  have hwindow : (0 : ℚ) ≤ config.window := Nat.cast_nonneg _
  have hepoch : bucket.windowStartMs.finiteOr 0 = 0 := by
    cases hvalue : bucket.windowStartMs with
    | finite start => exact absurd hvalue (hstart start)
    | infinite _ | nan => rfl
  rw [countedBucket_not_finite config now hstart, effectiveBucket, hepoch, Window.current, sub_zero]
  by_cases helapsed : config.window ≤ now
  · rw [if_pos helapsed, bucketOf_zero]
    by_cases hlength : config.window = 0
    · rw [if_pos hlength]
      exact iff_of_true rfl (Or.inl ⟨helapsed, Or.inl hlength⟩)
    · have hnow : now ≠ 0 := by
        rintro rfl
        exact hlength (le_antisymm helapsed hwindow)
      rw [if_neg hlength, ← bucketOf_zero, bucketOf, LocalRateBucket.mk.injEq, and_iff_left rfl,
        count_zero_iff]
      simp [helapsed, hlength, hnow]
  · rw [if_neg helapsed, bucketOf]
    by_cases hlength : config.window = 0
    · have hnow : now ≠ 0 := by
        rintro rfl
        exact helapsed hlength.le
      have hstart : JsNumber.finite now ≠ .finite 0 := fun h => hnow (JsNumber.finite.inj h)
      refine iff_of_false (fun h => hstart ?_) (by simp [helapsed, hnow])
      rw [if_pos hlength] at h
      exact congrArg LocalRateBucket.windowStartMs h
    · rw [if_neg hlength, LocalRateBucket.mk.injEq, count_alike_iff, JsNumber.finite.injEq]
      simp [helapsed, and_comm]

variable (bucket) in
/-- The recorder goes on from the bucket that the evaluator decided on exactly when both read it
alike. -/
theorem counted_eq_effective_iff :
    countedBucket bucket config (.finite now) = bucketOf (effectiveBucket bucket config now) ↔
      bucket.ReadAlike config.window now := by
  cases hvalue : bucket.windowStartMs with
  | finite start =>
    rw [counted_eq_effective_of_finite config now hvalue]
    unfold LocalRateBucket.ReadAlike
    rw [hvalue]
  | infinite _ | nan =>
    rw [counted_eq_effective_of_not_finite config now (by simp [hvalue])]
    unfold LocalRateBucket.ReadAlike
    rw [hvalue]

/-- A count that is not a number is read as none, and counted on as it is. -/
theorem counted_ne_effective :
    ¬∀ (bucket : LocalRateBucket) (config : LocalRateLimitConfig) (now : ℚ),
      countedBucket bucket config (.finite now) = bucketOf (effectiveBucket bucket config now) := by
  intro h
  have hwindow : LocalRateLimitConfig.window ⟨3, 60000⟩ = 60000 := by
    have hcast : LocalRateLimitConfig.window ⟨3, 60000⟩ = (60000 : ℕ) :=
      congrArg Nat.cast (JsNumber.finiteNonNegativeInt_natCast 60000)
    exact mod_cast hcast
  have hagree := h ⟨.nan, .finite 0⟩ ⟨3, 60000⟩ 1000
  rw [countedBucket_finite _ _ rfl, hwindow, if_neg (by norm_num)] at hagree
  exact absurd (congrArg LocalRateBucket.count hagree) nofun

end Stored

/-! ## The two scopes -/

/-- The tables are read by own property, so a missing key is missing. -/
structure WriteRateLimitPolicies where
  global : String → Option LocalRateLimitConfig
  perRepo : String → Option LocalRateLimitConfig
  backoffBaseMs : JsNumber

def permissiveConfig : LocalRateLimitConfig := ⟨1000000, 60000⟩

def defaultWriteRateLimitBackoffBaseMs : JsNumber := 1000

/-- The policies of a caller that gives none. -/
def defaultWriteRateLimitPolicies : WriteRateLimitPolicies where
  global actionClass := match actionClass with
    | "open_pr" => some ⟨30, 60000⟩
    | "comment" => some ⟨60, 60000⟩
    | _ => none
  perRepo actionClass := match actionClass with
    | "open_pr" => some ⟨3, 60000⟩
    | "comment" => some ⟨10, 60000⟩
    | _ => none
  backoffBaseMs := defaultWriteRateLimitBackoffBaseMs

structure WriteRateLimitBucketStore where
  global : String → Option LocalRateBucket
  perRepo : String → Option LocalRateBucket

/-- The bucket that refused. -/
inductive WriteRateLimitBlockedBy
  | global
  | perRepo
  deriving DecidableEq

structure WriteRateLimitVerdict where
  allowed : Bool
  blockedBy : Option WriteRateLimitBlockedBy
  global : LocalRateLimitDecision
  perRepo : LocalRateLimitDecision
  retryAfterMs : ℚ
  backoffAttempt : JsNumber
  reason : String

/-- Whose writes a bucket counts. -/
inductive RateScope
  | global
  | perRepo
  deriving DecidableEq

def policyFor (policies : WriteRateLimitPolicies) (actionClass : String) (scope : RateScope) :
    LocalRateLimitConfig :=
  let table := match scope with
    | .global => policies.global
    | .perRepo => policies.perRepo
  (table actionClass).getD permissiveConfig

structure WriteRateLimitInput where
  actionClass : String
  repoFullName : String
  buckets : WriteRateLimitBucketStore
  backoffAttempts : String → Option JsNumber
  policies : WriteRateLimitPolicies
  nowMs : JsNumber
  /-- What `randomFn` gives; half when the caller has none. -/
  draw : JsNumber

section Scopes

variable (rt : Runtime)

def writeRateLimitRepoKey (actionClass repoFullName : String) : String :=
  rt.trim actionClass ++ ":" ++ rt.toLowerCase (rt.trim repoFullName)

def evaluateWriteRateLimit (input : WriteRateLimitInput) : WriteRateLimitVerdict :=
  let nowMs : JsNumber := .finite (input.nowMs.finiteOr 0)
  let actionClass := rt.trim input.actionClass
  let repoKey := writeRateLimitRepoKey rt actionClass input.repoFullName
  let backoffAttempt := (input.backoffAttempts repoKey).getD 0
  let globalBucket := (input.buckets.global actionClass).getD (emptyBucket nowMs)
  let perRepoBucket := (input.buckets.perRepo repoKey).getD (emptyBucket nowMs)
  let globalConfig := policyFor input.policies actionClass .global
  let perRepoConfig := policyFor input.policies actionClass .perRepo
  let global := evaluateLocalRateLimit globalBucket globalConfig nowMs
  let perRepo := evaluateLocalRateLimit perRepoBucket perRepoConfig nowMs
  if global.allowed && perRepo.allowed then
    ⟨true, none, global, perRepo, 0, backoffAttempt, "under_limit"⟩
  else
    let blockedBy : WriteRateLimitBlockedBy := if global.allowed then .perRepo else .global
    let windowWait := max global.retryAfterMs perRepo.retryAfterMs
    let jitterWait := jitteredBackoffMs input.policies.backoffBaseMs backoffAttempt input.draw
    ⟨false, some blockedBy, global, perRepo, max windowWait jitterWait, backoffAttempt,
      if blockedBy = .global then "global_rate_limit" else "per_repo_rate_limit"⟩

/-- Record a permitted write against both scopes. -/
def recordWriteRateLimitAllowed (buckets : WriteRateLimitBucketStore)
    (actionClassInput repoFullName : String) (nowMs : JsNumber)
    (policies : WriteRateLimitPolicies) :
    WriteRateLimitBucketStore :=
  let actionClass := rt.trim actionClassInput
  let repoKey := writeRateLimitRepoKey rt actionClass repoFullName
  let globalConfig := policyFor policies actionClass .global
  let perRepoConfig := policyFor policies actionClass .perRepo
  let globalBucket := (buckets.global actionClass).getD (emptyBucket nowMs)
  let perRepoBucket := (buckets.perRepo repoKey).getD (emptyBucket nowMs)
  { global :=
      Function.update buckets.global actionClass (incrementBucket globalBucket globalConfig nowMs)
    perRepo :=
      Function.update buckets.perRepo repoKey (incrementBucket perRepoBucket perRepoConfig nowMs) }

end Scopes

end LoopOver
