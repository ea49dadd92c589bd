import LoopOver.Review.SubmitterReputation
import Mathlib.Tactic.FieldSimp
import Mathlib.Tactic.Linarith
import Mathlib.Tactic.Positivity

/-!
# How an outcome moves the reputation

One more outcome changes the counts of a submitter, and with them the signal of `signalFromCounts`.
Signals are ordered: low, neutral, trusted.

* `ratedSignal` is the part of the rule that looks at the successes and at the fail rate. It is
  monotone in the first and antitone in the second (`rank_ratedSignal`).
* `failRate_success` and `failRate_reject` say where the rate goes with a success and with a reject.
  A light failure brings it nearer to the weight of light failures, which may be up or down.
* **`signal_moves`**: a success never worsens the signal, a reject never improves it, and a light
  failure improves it exactly where it dilutes the rate over one of its bounds (`Dilutes`).
-/

namespace LoopOver.SubmitterReputation

def ReputationSignal.rank : ReputationSignal → ℕ
  | .low => 0
  | .neutral => 1
  | .trusted => 2

/-! ## The rule -/

section Rule

variable (c : ReputationCounts) (cfg : ReputationConfig)

/-- The failures, where light ones count for less. -/
def ReputationCounts.weightedFails : ℚ := c.qualityFail + c.qualityFailLight * cfg.lightFailWeight

def ReputationCounts.failRate : ℚ := c.weightedFails cfg / c.sample

/-- The rule for a sample that is large enough and has no injection in it. -/
def ratedSignal (success : ℕ) (failRate : ℚ) : ReputationSignal :=
  if cfg.qualityFailLowRate ≤ failRate ∧ (success : ℚ) < cfg.qualityFailLowMaxSuccess then .low
  else if cfg.trustedMinSuccess ≤ success ∧ failRate ≤ cfg.trustedMaxFailRate then .trusted
  else .neutral

/-- From the first rate to the second, the signal leaves low or gets to trusted. -/
def Crosses (success : ℕ) (before after : ℚ) : Prop :=
  ((success : ℚ) < cfg.qualityFailLowMaxSuccess ∧ cfg.qualityFailLowRate ≤ before ∧
    after < cfg.qualityFailLowRate) ∨
    (cfg.trustedMinSuccess ≤ success ∧ cfg.trustedMaxFailRate < before ∧
      after ≤ cfg.trustedMaxFailRate ∧
      ¬(cfg.qualityFailLowRate ≤ after ∧ (success : ℚ) < cfg.qualityFailLowMaxSuccess))

/-- **A light failure dilutes the rate**: averaged in, its weight takes the rate over a bound. -/
def Dilutes : Prop :=
  c.promptInjection = 0 ∧
    Crosses cfg c.success (c.failRate cfg)
      ((c.weightedFails cfg + cfg.lightFailWeight) / (c.sample + 1))

variable {cfg}

theorem rank_ratedSignal {success success' : ℕ} {failRate failRate' : ℚ}
    (hsuccess : success ≤ success') (hrate : failRate' ≤ failRate) :
    (ratedSignal cfg success failRate).rank ≤ (ratedSignal cfg success' failRate').rank := by
  have hcast : (success : ℚ) ≤ success' := Nat.cast_le.2 hsuccess
  rw [ratedSignal, ratedSignal]
  by_cases hlow : cfg.qualityFailLowRate ≤ failRate ∧ (success : ℚ) < cfg.qualityFailLowMaxSuccess
  · rw [if_pos hlow]
    exact Nat.zero_le _
  · have hlow' : ¬(cfg.qualityFailLowRate ≤ failRate' ∧
        (success' : ℚ) < cfg.qualityFailLowMaxSuccess) :=
      fun h => hlow ⟨h.1.trans hrate, hcast.trans_lt h.2⟩
    rw [if_neg hlow, if_neg hlow']
    by_cases htrusted : cfg.trustedMinSuccess ≤ success ∧ failRate ≤ cfg.trustedMaxFailRate
    · rw [if_pos htrusted, if_pos ⟨htrusted.1.trans hcast, hrate.trans htrusted.2⟩]
    · rw [if_neg htrusted]
      split_ifs
      · exact Nat.le_succ 1
      · exact le_rfl

/-- A change of the rate improves the signal only by crossing a bound. -/
theorem rank_le_iff_not_crosses (success : ℕ) (before after : ℚ) :
    (ratedSignal cfg success after).rank ≤ (ratedSignal cfg success before).rank ↔
      ¬Crosses cfg success before after := by
  rw [ratedSignal, ratedSignal, Crosses]
  by_cases hafter : cfg.qualityFailLowRate ≤ after ∧ (success : ℚ) < cfg.qualityFailLowMaxSuccess
  · -- Low is never an improvement.
    rw [if_pos hafter]
    refine iff_of_true (Nat.zero_le _) ?_
    rintro (⟨-, -, hbelow⟩ | ⟨-, -, -, hnot⟩)
    · exact absurd hafter.1 (not_le.2 hbelow)
    · exact hnot hafter
  · rw [if_neg hafter]
    by_cases hbefore : cfg.qualityFailLowRate ≤ before ∧
      (success : ℚ) < cfg.qualityFailLowMaxSuccess
    · rw [if_pos hbefore]
      have hleft : after < cfg.qualityFailLowRate := not_le.1 fun h => hafter ⟨h, hbefore.2⟩
      refine iff_of_false ?_ (not_not.2 (Or.inl ⟨hbefore.2, hbefore.1, hleft⟩))
      split_ifs <;> decide
    · have hstays : ¬((success : ℚ) < cfg.qualityFailLowMaxSuccess ∧
          cfg.qualityFailLowRate ≤ before ∧
          after < cfg.qualityFailLowRate) := fun h => hbefore ⟨h.2.1, h.1⟩
      rw [if_neg hbefore, or_iff_right hstays, and_iff_left hafter, ← not_le]
      split_ifs with htrusted htrusted' htrusted'
      · simp [htrusted'.2]
      · exact iff_of_false (by decide) (not_not.2 ⟨htrusted.1, fun h => htrusted' ⟨htrusted.1, h⟩,
          htrusted.2⟩)
      · exact iff_of_true (by decide) fun h => htrusted ⟨h.1, h.2.2⟩
      · exact iff_of_true le_rfl fun h => htrusted ⟨h.1, h.2.2⟩

theorem signalFromCounts_eq (hsample : cfg.minSample ≤ c.sample) :
    signalFromCounts c cfg = if 0 < c.promptInjection then .low
      else ratedSignal cfg c.success (c.failRate cfg) := by
  have hrate : (if 0 < c.sample then (c.qualityFail + c.qualityFailLight * cfg.lightFailWeight) /
      (c.sample : ℚ) else 0) =
      c.failRate cfg := by
    split_ifs with hpos
    · rfl
    · rw [ReputationCounts.failRate, Nat.eq_zero_of_not_pos hpos, Nat.cast_zero, div_zero]
  rw [signalFromCounts]
  simp only [hrate, if_neg (not_lt.2 hsample)]
  rfl

end Rule

/-! ## The rate -/

section Rate

variable {c : ReputationCounts} {cfg : ReputationConfig}

theorem weightedFails_nonneg (hlight : 0 ≤ cfg.lightFailWeight) : 0 ≤ c.weightedFails cfg :=
  add_nonneg (Nat.cast_nonneg _) (mul_nonneg (Nat.cast_nonneg _) hlight)

/-- No failure counts for more than one. -/
theorem weightedFails_le_sample (hlight : cfg.lightFailWeight ≤ 1) :
    c.weightedFails cfg ≤ c.sample := by
  have hweight : (c.qualityFailLight : ℚ) * cfg.lightFailWeight ≤ c.qualityFailLight :=
    mul_le_of_le_one_right (Nat.cast_nonneg _) hlight
  have hsuccess : (0 : ℚ) ≤ c.success := Nat.cast_nonneg _
  have hinjection : (0 : ℚ) ≤ c.promptInjection := Nat.cast_nonneg _
  rw [ReputationCounts.weightedFails, ReputationCounts.sample]
  push_cast
  linarith

/-- A success lowers the rate, if anything. -/
theorem failRate_success (hlight : 0 ≤ cfg.lightFailWeight) (hlight' : cfg.lightFailWeight ≤ 1) :
    c.weightedFails cfg / (c.sample + 1) ≤ c.failRate cfg := by
  have hfails := weightedFails_nonneg (c := c) hlight
  rw [ReputationCounts.failRate]
  rcases Nat.eq_zero_or_pos c.sample with hsample | hsample
  · have hzero : c.weightedFails cfg = 0 :=
      le_antisymm ((weightedFails_le_sample hlight').trans (by rw [hsample, Nat.cast_zero])) hfails
    rw [hzero, zero_div, zero_div]
  · exact div_le_div_of_nonneg_left hfails (Nat.cast_pos.2 hsample)
      (le_add_of_nonneg_right zero_le_one)

/-- A reject raises the rate, if anything. -/
theorem failRate_reject (hlight : 0 ≤ cfg.lightFailWeight) (hlight' : cfg.lightFailWeight ≤ 1) :
    c.failRate cfg ≤ (c.weightedFails cfg + 1) / (c.sample + 1) := by
  have hfails := weightedFails_nonneg (c := c) hlight
  have hbound := weightedFails_le_sample (c := c) hlight'
  rw [ReputationCounts.failRate]
  rcases Nat.eq_zero_or_pos c.sample with hsample | hsample
  · rw [hsample, Nat.cast_zero, div_zero]
    positivity
  · have hpos : (0 : ℚ) < c.sample := Nat.cast_pos.2 hsample
    rw [div_le_div_iff₀ hpos (by linarith)]
    linarith

end Rate

/-! ## One more outcome -/

section Outcome

variable {rows rows' : List StatusRow} {row : StatusRow} {cfg : ReputationConfig}

theorem countOutcomes_concat (rows : List StatusRow) (row : StatusRow) :
    countOutcomes (rows ++ [row]) = (countOutcomes rows).add row := List.foldl_concat ..

/-- Each row adds to a count of its own. -/
theorem ReputationCounts.add_right_comm (c : ReputationCounts) (row row' : StatusRow) :
    (c.add row).add row' = (c.add row').add row := by
  simp only [ReputationCounts.add]
  cases classifyOutcome row <;> cases classifyOutcome row' <;> rfl

theorem countOutcomes_perm (h : rows.Perm rows') : countOutcomes rows = countOutcomes rows' :=
  h.foldl_eq' (fun row _ row' _ c => c.add_right_comm row row') _

/-- The sample grows by the outcomes that are not excluded. -/
theorem ReputationCounts.sample_add (c : ReputationCounts) (row : StatusRow) :
    (c.add row).sample = if classifyOutcome row = .exclude then c.sample else c.sample + 1 := by
  unfold ReputationCounts.add ReputationCounts.sample
  cases classifyOutcome row <;> simp <;> omega

/-- The signal of a list of outcomes. -/
def signalOf (rows : List StatusRow) (cfg : ReputationConfig) : ReputationSignal :=
  signalFromCounts (countOutcomes rows) cfg

/-- The signal after one more outcome that is not excluded. -/
theorem signalOf_concat {c : ReputationCounts}
    (hsample : cfg.minSample ≤ (countOutcomes rows).sample)
    (hcounts : classifyOutcome row ≠ .exclude) (hadd : (countOutcomes rows).add row = c) :
    signalOf (rows ++ [row]) cfg = if 0 < c.promptInjection then .low
      else ratedSignal cfg c.success (c.weightedFails cfg / ((countOutcomes rows).sample + 1)) := by
  have hgrows : c.sample = (countOutcomes rows).sample + 1 := by
    rw [← hadd, ReputationCounts.sample_add, if_neg hcounts]
  have henough : cfg.minSample ≤ c.sample := hsample.trans (Nat.cast_le.2 (hgrows ▸ Nat.le_succ _))
  rw [signalOf, countOutcomes_concat, hadd, signalFromCounts_eq _ henough,
    ReputationCounts.failRate, hgrows, Nat.cast_succ]

variable (hlight : 0 ≤ cfg.lightFailWeight) (hlight' : cfg.lightFailWeight ≤ 1)
  (hsample : cfg.minSample ≤ (countOutcomes rows).sample)

include hlight hlight' hsample

theorem signal_success (hrow : classifyOutcome row = .success) :
    (signalOf rows cfg).rank ≤ (signalOf (rows ++ [row]) cfg).rank := by
  have hadd : (countOutcomes rows).add row =
      { countOutcomes rows with success := (countOutcomes rows).success + 1 } := by
    rw [ReputationCounts.add, hrow]
  rw [signalOf_concat hsample (by simp [hrow]) hadd, signalOf, signalFromCounts_eq _ hsample]
  dsimp only
  split_ifs
  · exact le_rfl
  · exact rank_ratedSignal (Nat.le_succ _) (failRate_success hlight hlight')

theorem signal_reject (hrow : classifyOutcome row = .qualityFail) :
    (signalOf (rows ++ [row]) cfg).rank ≤ (signalOf rows cfg).rank := by
  have hadd : (countOutcomes rows).add row =
      { countOutcomes rows with qualityFail := (countOutcomes rows).qualityFail + 1 } := by
    rw [ReputationCounts.add, hrow]
  have hfails : { countOutcomes rows with qualityFail := (countOutcomes rows).qualityFail +
      1 }.weightedFails cfg =
      (countOutcomes rows).weightedFails cfg + 1 := by
    rw [ReputationCounts.weightedFails, ReputationCounts.weightedFails, Nat.cast_succ,
      add_right_comm]
  rw [signalOf_concat hsample (by simp [hrow]) hadd, hfails, signalOf,
    signalFromCounts_eq _ hsample]
  dsimp only
  split_ifs
  · exact le_rfl
  · exact rank_ratedSignal le_rfl (failRate_reject hlight hlight')

omit hlight hlight' in
theorem signal_injection (hrow : classifyOutcome row = .promptInjection) :
    signalOf (rows ++ [row]) cfg = .low := by
  have hadd : (countOutcomes rows).add row =
      { countOutcomes rows with promptInjection := (countOutcomes rows).promptInjection + 1 } := by
    rw [ReputationCounts.add, hrow]
  rw [signalOf_concat hsample (by simp [hrow]) hadd, if_pos (Nat.succ_pos _)]

omit hlight hlight' in
theorem signal_light (hrow : classifyOutcome row = .qualityFailLight) :
    (signalOf (rows ++ [row]) cfg).rank ≤ (signalOf rows cfg).rank ↔
      ¬Dilutes (countOutcomes rows) cfg := by
  have hadd : (countOutcomes rows).add row =
      { countOutcomes rows with qualityFailLight :=
        (countOutcomes rows).qualityFailLight + 1 } := by
    rw [ReputationCounts.add, hrow]
  have hfails : { countOutcomes rows with
      qualityFailLight := (countOutcomes rows).qualityFailLight + 1 }.weightedFails cfg =
        (countOutcomes rows).weightedFails cfg + cfg.lightFailWeight := by
    rw [ReputationCounts.weightedFails, ReputationCounts.weightedFails, Nat.cast_succ, add_one_mul,
      add_assoc]
  rw [signalOf_concat hsample (by simp [hrow]) hadd, hfails, signalOf,
    signalFromCounts_eq _ hsample, Dilutes]
  dsimp only
  split_ifs with hinjection
  · exact iff_of_true le_rfl fun h => hinjection.ne' h.1
  · rw [and_iff_right (Nat.eq_zero_of_not_pos hinjection)]
    exact rank_le_iff_not_crosses _ _ _

/-- **Reputation moves the right way**, apart from light failures that dilute the rate of a worse
one. -/
theorem signal_moves (row : StatusRow) :
    (classifyOutcome row = .success → (signalOf rows cfg).rank ≤
      (signalOf (rows ++ [row]) cfg).rank) ∧
      (classifyOutcome row = .qualityFail ∨ classifyOutcome row = .promptInjection →
        (signalOf (rows ++ [row]) cfg).rank ≤ (signalOf rows cfg).rank) ∧
      (classifyOutcome row = .qualityFailLight →
        ((signalOf (rows ++ [row]) cfg).rank ≤ (signalOf rows cfg).rank ↔
          ¬Dilutes (countOutcomes rows) cfg)) ∧
      (classifyOutcome row = .exclude → signalOf (rows ++ [row]) cfg = signalOf rows cfg) ∧
      ∀ rows', rows.Perm rows' → signalOf rows' cfg = signalOf rows cfg := by
  refine ⟨signal_success hlight hlight' hsample, ?_, signal_light hsample, fun hrow => ?_,
    fun rows' hperm => ?_⟩
  · rintro (hrow | hrow)
    · exact signal_reject hlight hlight' hsample hrow
    · rw [signal_injection hsample hrow]
      exact Nat.zero_le _
  · rw [signalOf, countOutcomes_concat, ReputationCounts.add, hrow]
    rfl
  · rw [signalOf, signalOf, countOutcomes_perm hperm]

omit hlight hlight' hsample

/-! ## Two rejects and some failed checks -/

def rejectRow : StatusRow := ⟨some "closed", some "scope_failure"⟩

def checksFailedRow : StatusRow := ⟨some "closed", some "checks_failed"⟩

def sampleRows : List StatusRow :=
  [rejectRow, rejectRow, checksFailedRow, checksFailedRow, checksFailedRow]

theorem classifyOutcome_rejectRow : classifyOutcome rejectRow = .qualityFail := by decide

theorem classifyOutcome_checksFailedRow :
    classifyOutcome checksFailedRow = .qualityFailLight := by decide

theorem countOutcomes_sampleRows : countOutcomes sampleRows = ⟨0, 2, 3, 0⟩ := by
  simp [countOutcomes, sampleRows, ReputationCounts.add, classifyOutcome_rejectRow,
    classifyOutcome_checksFailedRow]

theorem minSample_le_sampleRows :
    defaultReputationConfig.minSample ≤ (countOutcomes sampleRows).sample := by
  rw [countOutcomes_sampleRows]
  norm_num [defaultReputationConfig, ReputationCounts.sample]

theorem signal_moves_sampleRows :
    (classifyOutcome rejectRow = .success → (signalOf sampleRows defaultReputationConfig).rank ≤
        (signalOf (sampleRows ++ [rejectRow]) defaultReputationConfig).rank) ∧
      (classifyOutcome rejectRow = .qualityFail ∨ classifyOutcome rejectRow = .promptInjection →
        (signalOf (sampleRows ++ [rejectRow]) defaultReputationConfig).rank ≤
          (signalOf sampleRows defaultReputationConfig).rank) ∧
      (classifyOutcome rejectRow = .qualityFailLight →
        ((signalOf (sampleRows ++ [rejectRow]) defaultReputationConfig).rank ≤
            (signalOf sampleRows defaultReputationConfig).rank ↔
          ¬Dilutes (countOutcomes sampleRows) defaultReputationConfig)) ∧
      (classifyOutcome rejectRow = .exclude →
        signalOf (sampleRows ++ [rejectRow]) defaultReputationConfig =
          signalOf sampleRows defaultReputationConfig) ∧
      ∀ rows', sampleRows.Perm rows' →
        signalOf rows' defaultReputationConfig = signalOf sampleRows defaultReputationConfig :=
  signal_moves (by norm_num [defaultReputationConfig]) (by norm_num [defaultReputationConfig])
    minSample_le_sampleRows
    rejectRow

/-- One more failed check takes the fail rate from seven in ten to two in three, and the signal from
low to neutral. -/
theorem light_failure_improves :
    ¬∀ (rows : List StatusRow) (row : StatusRow) (cfg : ReputationConfig),
      0 ≤ cfg.lightFailWeight ∧ cfg.lightFailWeight ≤ 1 →
        0 ≤ cfg.qualityFailLowRate ∧ cfg.qualityFailLowRate ≤ 1 →
      0 ≤ cfg.trustedMaxFailRate ∧ cfg.trustedMaxFailRate ≤ 1 →
        cfg.minSample ≤ (countOutcomes rows).sample →
      classifyOutcome row = .qualityFail ∨ classifyOutcome row = .qualityFailLight ∨
        classifyOutcome row = .promptInjection →
      (signalOf (rows ++ [row]) cfg).rank ≤ (signalOf rows cfg).rank := by
  intro h
  have hworse :=
    h sampleRows checksFailedRow defaultReputationConfig (by norm_num [defaultReputationConfig])
    (by norm_num [defaultReputationConfig]) (by norm_num [defaultReputationConfig])
      minSample_le_sampleRows
    (Or.inr (Or.inl classifyOutcome_checksFailedRow))
  rw [signal_light minSample_le_sampleRows classifyOutcome_checksFailedRow,
    countOutcomes_sampleRows] at hworse
  refine hworse ⟨rfl, Or.inl ?_⟩
  norm_num [defaultReputationConfig, ReputationCounts.failRate, ReputationCounts.weightedFails,
    ReputationCounts.sample]

end Outcome

end LoopOver.SubmitterReputation
