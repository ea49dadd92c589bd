import LoopOver.Scoring.ScoreCore

/-!
# The scenarios of a score preview

`buildScenarioPreviews` of `packages/loopover-engine/src/scoring/preview.ts` estimates a pull
request seven times: as it is, and after six cleanups, of which `bestReasonableCase` makes all those
that it supposes to be within reach.

* `scenarioInput` is the input of each scenario, from the gates of the current one.
* `below_best`: no scenario has a factor above the one of the best case.
* **`best_case_dominates`**: the best case is estimated highest, and what can still stop it.
* **`linked_issue_fixed_iff`**: fixing the linked issue lowers an estimate only by opening the issue
  lane to a history that does not pass it.
-/

namespace LoopOver.ScorePreview

/-! ## The scenarios -/

/-- The scenarios of a preview. -/
inductive ScenarioName
  | current
  | cleanGates
  | afterPendingMerges
  | afterApprovedPrsMerge
  | afterStalePrsClose
  | linkedIssueFixed
  | bestReasonableCase
  deriving DecidableEq

section Scenarios

variable (setting : ScoringSetting) (input : ScorePreviewInput) (gates : ScoreGates)

/-- Approved and pending merges are one set of pull requests. -/
def mergeReadyPending : ℚ :=
  max (nonNegative input.pendingMergedPrCount) (nonNegative input.approvedPrCount)

def userPendingCount : ℚ := mergeReadyPending input + nonNegative input.pendingClosedPrCount

def combinedPendingCount : ℚ :=
  userPendingCount input + nonNegative input.observedApprovedPrCount +
    nonNegative input.observedStalePrCount

def expectedOpenPrCountAfterMerge : ℚ :=
  match input.expectedOpenPrCountAfterMerge with
  | some count => nonNegative (some count)
  | none => max 0 (gates.openPrCount - userPendingCount input)

def projectedCredibility : ℚ :=
  match input.projectedCredibility with
  | some credibility => clamp credibility 0 1
  | none =>
    if 0 < userPendingCount input then max gates.credibilityObserved gates.credibilityFloor
      else gates.credibilityObserved

def observedApprovalCredibility : ℚ :=
  if 0 < nonNegative input.observedApprovedPrCount then
    max gates.credibilityObserved gates.credibilityFloor
  else gates.credibilityObserved

def withValidatedLinkedIssueScenario : ScorePreviewInput :=
  if input.linkedIssueMode.getD .none = .maintainer then input
  else
    { input with
      linkedIssueMode := some .standard
      linkedIssueContext := some (projectedContext input.linkedIssueContext) }

def cleanGatesInput : ScorePreviewInput :=
  { input with
    openPrCount := some ((JsNumber.finite gates.openPrCount).min gates.openPrThreshold)
    openIssueCount := some ((JsNumber.finite gates.openIssueCount).min gates.openIssueThreshold)
    credibility := some (max gates.credibilityObserved gates.credibilityFloor)
    mergedPullRequests :=
      (gates.mergedPullRequests.map fun count => .finite (max count gates.mergedPrFloor)).or
        input.mergedPullRequests
    validSolvedIssues :=
      (gates.validSolvedIssues.map fun count => .finite (max count gates.validSolvedIssuesFloor)).or
        input.validSolvedIssues
    issueCredibility :=
      (gates.issueCredibility.map fun credibility => max credibility gates.issueCredibilityFloor).or
        input.issueCredibility }

def afterPendingInput : ScorePreviewInput :=
  { input with
    openPrCount := some (.finite (expectedOpenPrCountAfterMerge input gates))
    credibility := some (projectedCredibility input gates)
    mergedPullRequests :=
      (gates.mergedPullRequests.map fun count =>
        .finite (nonNegative (some (.finite count)) + mergeReadyPending input)).or
          input.mergedPullRequests }

def afterApprovedInput : ScorePreviewInput :=
  { input with
    openPrCount :=
      some (.finite (max 0 (gates.openPrCount - nonNegative input.observedApprovedPrCount)))
    credibility := some (observedApprovalCredibility input gates) }

def afterStaleInput : ScorePreviewInput :=
  { input with
    openPrCount :=
      some (.finite (max 0 (gates.openPrCount - nonNegative input.observedStalePrCount)))
    credibility := some gates.credibilityObserved }

def bestReasonableInput : ScorePreviewInput :=
  { withValidatedLinkedIssueScenario input with
    openPrCount :=
      some ((JsNumber.finite
        (if input.expectedOpenPrCountAfterMerge.isSome then
          expectedOpenPrCountAfterMerge input gates
          else max 0 (gates.openPrCount - combinedPendingCount input))).min gates.openPrThreshold)
    openIssueCount := some ((JsNumber.finite gates.openIssueCount).min gates.openIssueThreshold)
    credibility :=
      some (max (max (projectedCredibility input gates) (observedApprovalCredibility input gates))
        gates.credibilityFloor)
    mergedPullRequests :=
      (gates.mergedPullRequests.map fun count =>
        .finite (max (nonNegative (some (.finite count)) + mergeReadyPending input)
          gates.mergedPrFloor)).or
        input.mergedPullRequests
    validSolvedIssues :=
      (gates.validSolvedIssues.map fun count => .finite (max count gates.validSolvedIssuesFloor)).or
        input.validSolvedIssues
    issueCredibility :=
      (gates.issueCredibility.map fun credibility => max credibility gates.issueCredibilityFloor).or
        input.issueCredibility }

/-- The input that a scenario is estimated from. -/
def scenarioInput : ScenarioName → ScorePreviewInput
  | .current => input
  | .cleanGates => cleanGatesInput input (scoreGates setting input)
  | .afterPendingMerges => afterPendingInput input (scoreGates setting input)
  | .afterApprovedPrsMerge => afterApprovedInput input (scoreGates setting input)
  | .afterStalePrsClose => afterStaleInput input (scoreGates setting input)
  | .linkedIssueFixed => withValidatedLinkedIssueScenario input
  | .bestReasonableCase => bestReasonableInput input (scoreGates setting input)

structure ScoreScenarioPreview where
  name : ScenarioName
  core : ScoreCore
  effectiveEstimatedScore : ℚ
  blockedBy : List ScoreGateBlocker

/-- `scenario`. -/
def scenarioPreview (name : ScenarioName) : ScoreScenarioPreview :=
  let own := scenarioInput setting input name
  let core := computeScoreCore setting own
  { name, core, effectiveEstimatedScore := core.scoreEstimate.estimatedMergedScore,
    blockedBy := blockedByFor setting own core }

def buildScenarioPreviews : List ScoreScenarioPreview :=
  [.current, .cleanGates, .afterPendingMerges, .afterApprovedPrsMerge, .afterStalePrsClose,
    .linkedIssueFixed,
    .bestReasonableCase].map (scenarioPreview setting input)

end Scenarios

/-- The constants that the estimates are compared under. -/
structure ReasonableConstants (constants : ScoringConstants) : Prop where
  credibility_pos : 0 < constant constants .minCredibility
  credibility_le : constant constants .minCredibility ≤ 1
  standard : 1 ≤ constant constants .standardIssueMultiplier
  maintainer : 1 ≤ constant constants .maintainerIssueMultiplier

/-! ## One factor -/

section Factors

variable {setting : ScoringSetting} {threshold : JsNumber} {count value floor : ℚ}

theorem nonNegative_nonneg (number : Option JsNumber) : 0 ≤ nonNegative number := by
  unfold nonNegative
  split
  · exact le_max_left _ _
  · exact le_rfl

theorem le_nonNegative (value : ℚ) : value ≤ nonNegative (some (.finite value)) := le_max_right _ _

theorem clamp_nonneg (value : ℚ) : 0 ≤ clamp value 0 1 := le_min zero_le_one (le_max_left _ _)

theorem clamp_le_one (value : ℚ) : clamp value 0 1 ≤ 1 := min_le_left _ _

theorem le_clamp (hfloor : floor ≤ 1) (h : floor ≤ value) : floor ≤ clamp value 0 1 :=
  le_min hfloor (h.trans (le_max_right _ _))

theorem highest_pos {first : ℚ} (h : 0 < first) (others : List ℚ) : 0 < highest first others := by
  induction others generalizing first with
  | nil => exact h
  | cons other others ih => exact ih (lt_max_of_lt_left h)

theorem isValidLabelMultiplier_pos {number : JsNumber}
    (h : isValidLabelMultiplier number = some value) : 0 < value := by
  cases number with
  | finite number =>
    rw [isValidLabelMultiplier] at h
    split at h
    case isTrue hpos => exact Option.some.inj h ▸ hpos
    case isFalse => exact absurd h (Option.some_ne_none _).symm
  | _ => exact absurd h (Option.some_ne_none _).symm

/-- An invalid multiplier of a label counts for nothing. -/
theorem selectLabelMultiplier_pos (setting : ScoringSetting) (labels : List String)
    (multipliers : List (String × JsNumber)) (fallback : JsNumber) :
    0 < selectLabelMultiplier setting labels multipliers fallback := by
  rw [selectLabelMultiplier]
  split
  case h_1 first others hmatched =>
    have hfirst := List.mem_cons_self (a := first) (l := others)
    rw [← hmatched, List.mem_filterMap] at hfirst
    obtain ⟨entry, -, hentry⟩ := hfirst
    exact highest_pos (isValidLabelMultiplier_pos (Option.filter_eq_some_iff.1 hentry).1) others
  case h_2 =>
    cases hfallback : isValidLabelMultiplier fallback with
    | none => exact one_pos
    | some value => exact isValidLabelMultiplier_pos hfallback

/-- Nothing is open that has no room. -/
theorem openMultiplier_le (threshold : JsNumber) (hcount : 0 ≤ count) :
    Rises (openMultiplier count threshold) (if (0 : JsNumber).le threshold then 1 else 0) := by
  have hzero : (0 : JsNumber) = .finite 0 := congrArg JsNumber.finite Nat.cast_zero
  rw [openMultiplier, Rises]
  by_cases hroom : (JsNumber.finite count).le threshold = true
  · have hfree : (0 : JsNumber).le threshold = true := by
      rw [hzero]
      cases threshold with
      | finite limit =>
        rw [JsNumber.le_finite, decide_eq_true_iff] at hroom ⊢
        exact hcount.trans hroom
      | infinite negative => cases negative <;> simp_all [JsNumber.le, JsNumber.lt]
      | nan => simp [JsNumber.le, JsNumber.lt] at hroom
    rw [if_pos hroom, if_pos hfree]
    exact ⟨zero_le_one, le_rfl⟩
  · rw [if_neg hroom]
    split
    · exact ⟨le_rfl, zero_le_one⟩
    · exact ⟨le_rfl, le_rfl⟩

/-- A count that is lowered to a threshold passes it, if anything does. -/
theorem openMultiplier_capped (count : ℚ) (threshold : JsNumber) :
    openMultiplier (nonNegative (some ((JsNumber.finite count).min threshold))) threshold =
      if (0 : JsNumber).le threshold then 1 else 0 := by
  have hzero : (0 : JsNumber) = .finite 0 := congrArg JsNumber.finite Nat.cast_zero
  by_cases hfree : (0 : JsNumber).le threshold = true
  · rw [if_pos hfree, openMultiplier, if_pos]
    cases threshold with
    | finite limit =>
      rw [hzero, JsNumber.le_finite, decide_eq_true_iff] at hfree
      rw [JsNumber.le_finite, decide_eq_true_iff, JsNumber.min, if_neg (by simp), JsNumber.lt]
      split
      case isTrue => exact max_le hfree le_rfl
      case isFalse hle => exact max_le hfree (not_lt.1 fun hlt => hle (decide_eq_true hlt))
    | infinite negative => cases negative <;> simp_all [JsNumber.le, JsNumber.lt]
    | nan => simp [hzero, JsNumber.le, JsNumber.lt] at hfree
  · have hle := openMultiplier_le threshold
      (nonNegative_nonneg (some ((JsNumber.finite count).min threshold)))
    rw [if_neg hfree] at hle ⊢
    exact le_antisymm hle.2 hle.1

theorem credibilityMultiplier_rises (hfloor : 0 < floor) (hvalue : 0 ≤ value) :
    Rises (credibilityMultiplier value floor) 1 := by
  rw [credibilityMultiplier, Rises]
  split
  case isTrue => exact ⟨zero_le_one, le_rfl⟩
  case isFalse hbelow => exact ⟨div_nonneg hvalue hfloor.le,
    (div_le_one hfloor).2 (not_le.1 hbelow).le⟩

theorem mergedHistoryMultiplier_rises (observed : Option ℚ) (floor : ℚ) :
    Rises (mergedHistoryMultiplier observed floor) 1 := by
  unfold mergedHistoryMultiplier
  split
  · exact ⟨zero_le_one, le_rfl⟩
  · split
    · exact ⟨zero_le_one, le_rfl⟩
    · exact ⟨le_rfl, zero_le_one⟩

/-- A history that is raised to its floor passes, and so does one that stays unknown. -/
theorem mergedHistoryMultiplier_raised {own : Option JsNumber}
    {evidence : Option ContributorEvidence} {raise : ℚ → ℚ}
    (hraise : ∀ count, floor ≤ raise count) :
    mergedHistoryMultiplier (resolveMergedPullRequests
      (((resolveMergedPullRequests own evidence).map fun count => .finite (raise count)).or own)
        evidence) floor = 1 := by
  cases hresolved : resolveMergedPullRequests own evidence with
  | some count => exact if_pos ((hraise count).trans (le_nonNegative _))
  | none =>
    show mergedHistoryMultiplier (resolveMergedPullRequests own evidence) floor = 1
    rw [hresolved]
    rfl

theorem credibilityMultiplier_raised (hfloor : floor ≤ 1) (h : floor ≤ value) :
    credibilityMultiplier (clamp value 0 1) floor = 1 := if_pos (le_clamp hfloor h)

theorem le_solved_raised {own : Option JsNumber} {count : ℚ}
    (h : ((((own.map fun count => nonNegative (some count)).map fun count =>
      JsNumber.finite (max count floor)).or own).map
      fun count => nonNegative (some count)) = some count) : floor ≤ count := by
  cases own with
  | none => exact absurd h (Option.some_ne_none _).symm
  | some own => exact Option.some.inj h ▸ (le_max_right _ _).trans (le_nonNegative _)

theorem le_credibility_raised {own : Option ℚ} {credibility : ℚ} (hfloor : floor ≤ 1)
    (h : ((((own.map fun credibility => clamp credibility 0 1).map fun credibility =>
      max credibility floor).or own).map
      fun credibility => clamp credibility 0 1) = some credibility) : floor ≤ credibility := by
  cases own with
  | none => exact absurd h (Option.some_ne_none _).symm
  | some own => exact Option.some.inj h ▸ le_clamp hfloor (le_max_right _ _)

variable {relevant : Bool} {solved credibility : Option ℚ} {solvedFloor credibilityFloor : ℚ}

theorem discovery_cases (relevant : Bool) (solved : Option ℚ) (solvedFloor : ℚ)
    (credibility : Option ℚ) (credibilityFloor : ℚ) :
    issueDiscoveryHistoryMultiplier relevant solved solvedFloor credibility credibilityFloor = 1 ∨
      issueDiscoveryHistoryMultiplier relevant solved solvedFloor credibility credibilityFloor = 0 ∧
        relevant = true ∧
        ∃ count own, solved = some count ∧ credibility = some own ∧
          (count < solvedFloor ∨ own < credibilityFloor) := by
  unfold issueDiscoveryHistoryMultiplier
  split
  case h_1 count own =>
    split
    case isTrue => exact Or.inl rfl
    case isFalse hnot =>
      rw [not_and_or, not_le, not_le] at hnot
      exact Or.inr ⟨rfl, rfl, count, own, rfl, rfl, hnot⟩
  case h_2 => exact Or.inl rfl

theorem discovery_zero_iff :
    issueDiscoveryHistoryMultiplier relevant solved solvedFloor credibility credibilityFloor = 0 ↔
      relevant = true ∧ ∃ count own, solved = some count ∧ credibility = some own ∧
        (count < solvedFloor ∨ own < credibilityFloor) := by
  constructor
  · intro hzero
    obtain hone | ⟨-, hgated⟩ :=
      discovery_cases relevant solved solvedFloor credibility credibilityFloor
    · exact absurd (hone.symm.trans hzero) one_ne_zero
    · exact hgated
  · rintro ⟨rfl, count, own, rfl, rfl, hbelow⟩
    rw [issueDiscoveryHistoryMultiplier, if_neg]
    rw [not_and_or, not_le, not_le]
    exact hbelow

theorem discovery_rises :
    Rises (issueDiscoveryHistoryMultiplier relevant solved solvedFloor credibility credibilityFloor)
      1 := by
  obtain hone | ⟨hzero, -⟩ :=
    discovery_cases relevant solved solvedFloor credibility credibilityFloor
  · rw [hone]
    exact ⟨zero_le_one, le_rfl⟩
  · rw [hzero]
    exact ⟨le_rfl, zero_le_one⟩

/-- A history that is raised to its floors passes where it passed before. -/
theorem discovery_le_raised (relevant : Bool) (solved : Option JsNumber) (solvedFloor : ℚ)
    (credibility : Option ℚ) (credibilityFloor : ℚ) :
    issueDiscoveryHistoryMultiplier relevant (solved.map fun count =>
      nonNegative (some count)) solvedFloor
        (credibility.map fun credibility => clamp credibility 0 1) credibilityFloor ≤
      issueDiscoveryHistoryMultiplier relevant
        ((((solved.map fun count => nonNegative (some count)).map fun count =>
          JsNumber.finite (max count solvedFloor)).or
          solved).map fun count => nonNegative (some count)) solvedFloor
        ((((credibility.map fun credibility => clamp credibility 0 1).map fun credibility =>
          max credibility credibilityFloor).or credibility).map fun credibility =>
            clamp credibility 0 1)
        credibilityFloor := by
  obtain hone | ⟨-, rfl, count, own, hcount, hown, hbelow⟩ := discovery_cases relevant
    ((((solved.map fun count => nonNegative (some count)).map fun count =>
      JsNumber.finite (max count solvedFloor)).or
      solved).map fun count => nonNegative (some count)) solvedFloor
    ((((credibility.map fun credibility => clamp credibility 0 1).map fun credibility =>
      max credibility credibilityFloor).or credibility).map fun credibility =>
        clamp credibility 0 1) credibilityFloor
  · rw [hone]
    exact discovery_rises.2
  · -- Only the credibility can still be too low, and then it was before.
    have hcredible := hbelow.resolve_left (not_lt.2 (le_solved_raised hcount))
    refine le_of_eq_of_le (discovery_zero_iff.2 ⟨rfl, ?_⟩) discovery_rises.1
    cases solved with
    | none => exact absurd hcount (Option.some_ne_none _).symm
    | some solved =>
      cases credibility with
      | none => exact absurd hown (Option.some_ne_none _).symm
      | some credibility =>
        refine ⟨_, _, rfl, rfl, Or.inr (not_le.1 fun hfloor => not_le.2 hcredible ?_)⟩
        rw [← Option.some.inj hown]
        exact le_clamp (hfloor.trans (clamp_le_one _)) (le_max_right _ _)

end Factors

/-! ## The best case -/

section Best

variable {setting : ScoringSetting} {input other : ScorePreviewInput}

theorem withValidated_unchanged (input : ScorePreviewInput) :
    (withValidatedLinkedIssueScenario input).toUnchangedInput = input.toUnchangedInput := by
  rw [withValidatedLinkedIssueScenario]
  split <;> rfl

/-- No scenario rewrites what the base score reads. -/
theorem scenarioInput_unchanged (setting : ScoringSetting) (input : ScorePreviewInput)
    (name : ScenarioName) :
    (scenarioInput setting input name).toUnchangedInput = input.toUnchangedInput := by
  cases name with
  | linkedIssueFixed => exact withValidated_unchanged input
  | bestReasonableCase => exact withValidated_unchanged input
  | _ => rfl

theorem issueMultiplier_nonneg (h : ReasonableConstants setting.constants)
    (input : ScorePreviewInput) :
    0 ≤ (linkedIssueDecision setting input).appliedMultiplier := by
  rw [linkedIssueDecision]
  cases input.linkedIssueMode.getD .none with
  | none => exact zero_le_one
  | maintainer => exact zero_le_one.trans h.maintainer
  | standard =>
    obtain hone | ⟨hfactor, -⟩ :=
      applied_standard setting.showNumber input.linkedIssueContext setting.constants
      (normalizeBranchEligibility input.linkedIssueMode input.branchEligibility)
    · rw [hone]
      exact zero_le_one
    · rw [hfactor]
      exact zero_le_one.trans h.standard

/-- Two inputs with the same unchanged part are compared by their gates and their issues. -/
theorem below_of_gates (h : ReasonableConstants setting.constants)
    (hunchanged : other.toUnchangedInput = input.toUnchangedInput)
    (hissue : (linkedIssueDecision setting other).appliedMultiplier ≤
      (linkedIssueDecision setting input).appliedMultiplier)
    (hcredibility : Rises (scoreFactors setting other).credibilityMultiplier
      (scoreFactors setting input).credibilityMultiplier)
    (hopenPr : Rises (scoreFactors setting other).openPrMultiplier
      (scoreFactors setting input).openPrMultiplier)
    (hopenIssue : Rises (scoreFactors setting other).openIssueMultiplier
      (scoreFactors setting input).openIssueMultiplier)
    (hmerged : Rises (scoreFactors setting other).mergedHistoryMultiplier
      (scoreFactors setting input).mergedHistoryMultiplier)
    (hdiscovery : Rises (scoreFactors setting other).issueDiscoveryHistoryMultiplier
      (scoreFactors setting input).issueDiscoveryHistoryMultiplier) :
    (scoreFactors setting other).Below (scoreFactors setting input) where
  base := by
    show Rises (setting.baseScore other.toUnchangedInput) (setting.baseScore input.toUnchangedInput)
    rw [hunchanged]
    exact Rises.refl (setting.baseScore_nonneg _)
  label := by
    rw [scoreFactors, scoreFactors, hunchanged]
    exact Rises.refl (selectLabelMultiplier_pos _ _ _ _).le
  issue := ⟨issueMultiplier_nonneg h other, hissue⟩
  credibility := hcredibility
  review := by
    rw [scoreFactors, scoreFactors, hunchanged]
    exact Rises.refl (clamp_nonneg _)
  openPr := hopenPr
  openIssue := hopenIssue
  merged := hmerged
  discovery := hdiscovery
  decay := by
    rw [scoreFactors, scoreFactors, hunchanged]
    refine Rises.refl ?_
    split
    · exact setting.calculateTimeDecay_nonneg _
    · exact zero_le_one

theorem openPrThreshold_congr (setting : ScoringSetting)
    (h : other.toUnchangedInput = input.toUnchangedInput) :
    (scoreGates setting other).openPrThreshold = (scoreGates setting input).openPrThreshold := by
  rw [scoreGates, scoreGates, h]

theorem openIssueThreshold_congr (setting : ScoringSetting)
    (h : other.toUnchangedInput = input.toUnchangedInput) :
    (scoreGates setting other).openIssueThreshold =
      (scoreGates setting input).openIssueThreshold := by
  rw [scoreGates, scoreGates, h]

/-! ### The factors of the best case -/

theorem best_openPr (setting : ScoringSetting) (input : ScorePreviewInput) :
    (scoreFactors setting (bestReasonableInput input (scoreGates setting input))).openPrMultiplier =
      if (0 : JsNumber).le (scoreGates setting input).openPrThreshold then 1 else 0 := by
  have hsame :=
    openPrThreshold_congr setting (scenarioInput_unchanged setting input .bestReasonableCase)
  show openMultiplier _
    (scoreGates setting (scenarioInput setting input .bestReasonableCase)).openPrThreshold = _
  rw [hsame]
  exact openMultiplier_capped _ _

theorem best_openIssue (setting : ScoringSetting) (input : ScorePreviewInput) :
    (scoreFactors setting
      (bestReasonableInput input (scoreGates setting input))).openIssueMultiplier =
      if (0 : JsNumber).le (scoreGates setting input).openIssueThreshold then 1 else 0 := by
  have hsame :=
    openIssueThreshold_congr setting (scenarioInput_unchanged setting input .bestReasonableCase)
  show openMultiplier _
    (scoreGates setting (scenarioInput setting input .bestReasonableCase)).openIssueThreshold = _
  rw [hsame]
  exact openMultiplier_capped _ _

theorem best_credibility (h : ReasonableConstants setting.constants) (input : ScorePreviewInput) :
    (scoreFactors setting
      (bestReasonableInput input (scoreGates setting input))).credibilityMultiplier = 1 :=
  credibilityMultiplier_raised h.credibility_le (le_max_right _ _)

theorem best_merged (setting : ScoringSetting) (input : ScorePreviewInput) :
    (scoreFactors setting
      (bestReasonableInput input (scoreGates setting input))).mergedHistoryMultiplier = 1 :=
  mergedHistoryMultiplier_raised fun _ => le_max_right _ _

/-- A floor above one is out of reach for a credibility. -/
theorem best_discovery (hfloor : constant setting.constants .minIssueCredibility ≤ 1)
    (input : ScorePreviewInput) :
    (scoreFactors setting (bestReasonableInput input
      (scoreGates setting input))).issueDiscoveryHistoryMultiplier = 1 := by
  obtain hone | ⟨-, -, count, credibility, hcount, hcredibility, hbelow⟩ := discovery_cases
    ((bestReasonableInput input (scoreGates setting input)).linkedIssueMode.getD .none == .standard)
    (scoreGates setting (bestReasonableInput input (scoreGates setting input))).validSolvedIssues
    (scoreGates setting
      (bestReasonableInput input (scoreGates setting input))).validSolvedIssuesFloor
    (scoreGates setting (bestReasonableInput input (scoreGates setting input))).issueCredibility
    (scoreGates setting
      (bestReasonableInput input (scoreGates setting input))).issueCredibilityFloor
  · exact hone
  · obtain hsolved | hcredible := hbelow
    · exact absurd (le_solved_raised hcount) (not_le.2 hsolved)
    · exact absurd (le_credibility_raised hfloor hcredibility) (not_le.2 hcredible)

/-- **No factor is above the one of the best case.** -/
theorem below_best (h : ReasonableConstants setting.constants)
    (hfloor : constant setting.constants .minIssueCredibility ≤ 1)
    (hunchanged : other.toUnchangedInput = input.toUnchangedInput)
    (hissue : (linkedIssueDecision setting other).appliedMultiplier ≤
      (linkedIssueDecision setting (withValidatedLinkedIssueScenario input)).appliedMultiplier) :
    (scoreFactors setting other).Below
      (scoreFactors setting (bestReasonableInput input (scoreGates setting input))) := by
  have hbest := scenarioInput_unchanged setting input .bestReasonableCase
  refine below_of_gates h (hunchanged.trans hbest.symm) hissue ?_ ?_ ?_ ?_ ?_
  · rw [best_credibility h]
    exact credibilityMultiplier_rises h.credibility_pos (clamp_nonneg _)
  · rw [best_openPr, ← openPrThreshold_congr setting hunchanged]
    exact openMultiplier_le _ (nonNegative_nonneg _)
  · rw [best_openIssue, ← openIssueThreshold_congr setting hunchanged]
    exact openMultiplier_le _ (nonNegative_nonneg _)
  · rw [best_merged]
    exact mergedHistoryMultiplier_rises _ _
  · rw [best_discovery hfloor]
    exact discovery_rises

theorem issue_le_validated (h : ReasonableConstants setting.constants) (input : ScorePreviewInput) :
    (linkedIssueDecision setting input).appliedMultiplier ≤
      (linkedIssueDecision setting (withValidatedLinkedIssueScenario input)).appliedMultiplier := by
  by_cases hmode : input.linkedIssueMode.getD .none = .maintainer
  · rw [withValidatedLinkedIssueScenario, if_pos hmode]
  · rw [withValidatedLinkedIssueScenario, if_neg hmode]
    exact applied_le_projected hmode h.standard rfl

theorem effective_le_best (h : ReasonableConstants setting.constants)
    (hfloor : constant setting.constants .minIssueCredibility ≤ 1) (input : ScorePreviewInput)
    (name : ScenarioName) :
    (scenarioPreview setting input name).effectiveEstimatedScore ≤
      (scenarioPreview setting input .bestReasonableCase).effectiveEstimatedScore := by
  refine score_mono (below_best h hfloor (scenarioInput_unchanged setting input name) ?_)
  -- Only the two scenarios with a validated issue have a multiplier of their own.
  cases name with
  | linkedIssueFixed => exact le_rfl
  | bestReasonableCase => exact le_rfl
  | _ => exact issue_le_validated h input

/-- Clean gates raise a history, and a floor out of reach stops it with them as without them. -/
theorem current_below_clean (h : ReasonableConstants setting.constants)
    (input : ScorePreviewInput) :
    (scoreFactors setting input).Below
      (scoreFactors setting (cleanGatesInput input (scoreGates setting input))) := by
  refine below_of_gates h rfl le_rfl ?_ ?_ ?_ ?_ ?_
  · have hclean : (scoreFactors setting
        (cleanGatesInput input (scoreGates setting input))).credibilityMultiplier = 1 :=
      credibilityMultiplier_raised h.credibility_le (le_max_right _ _)
    rw [hclean]
    exact credibilityMultiplier_rises h.credibility_pos (clamp_nonneg _)
  · have hclean : (scoreFactors setting
        (cleanGatesInput input (scoreGates setting input))).openPrMultiplier =
        if (0 : JsNumber).le (scoreGates setting input).openPrThreshold then 1 else 0 :=
          openMultiplier_capped _ _
    rw [hclean]
    exact openMultiplier_le _ (nonNegative_nonneg _)
  · have hclean : (scoreFactors setting
        (cleanGatesInput input (scoreGates setting input))).openIssueMultiplier =
        if (0 : JsNumber).le (scoreGates setting input).openIssueThreshold then 1 else 0 :=
          openMultiplier_capped _ _
    rw [hclean]
    exact openMultiplier_le _ (nonNegative_nonneg _)
  · have hclean : (scoreFactors setting
        (cleanGatesInput input (scoreGates setting input))).mergedHistoryMultiplier = 1 :=
      mergedHistoryMultiplier_raised fun _ => le_max_right _ _
    rw [hclean]
    exact mergedHistoryMultiplier_rises _ _
  · exact ⟨discovery_rises.1, discovery_le_raised _ _ _ _ _⟩

end Best

/-! ## What blocks the best case -/

/-- The scenario has a blocker of this code. -/
def ScoreScenarioPreview.BlockedBy (scenario : ScoreScenarioPreview) (code : ScoreGateCode) :
    Prop :=
  ∃ blocker ∈ scenario.blockedBy, blocker.code = code

section Results

variable {setting : ScoringSetting} {input : ScorePreviewInput} {name : ScenarioName}
  {code : ScoreGateCode}

theorem blockedBy_iff : (scenarioPreview setting input name).BlockedBy code ↔
    blockerApplies setting (scenarioInput setting input name)
      (computeScoreCore setting (scenarioInput setting input name))
      (normalizeBranchEligibility (scenarioInput setting input name).linkedIssueMode
        (scenarioInput setting input name).branchEligibility) code = true := by
  constructor
  · rintro ⟨blocker, hmem, rfl⟩
    exact (mem_blockedByFor.1 hmem).1
  · intro happlies
    exact ⟨⟨code, code.severity, blockerDetail setting _ _ _ code⟩,
      mem_blockedByFor.2 ⟨happlies, rfl, rfl⟩, rfl⟩

theorem multiplier_eq_zero_iff (free : Bool) :
    ((if free then (1 : ℚ) else 0) == 0) = true ↔ free = false := by
  cases free <;> decide

/-- **The best reasonable case dominates.** Clean gates never lower an estimate. The best case is
below no scenario if the floor of the issue credibility is within reach, and it is stopped by
thresholds alone that leave no room for anything. -/
theorem best_case_dominates (setting : ScoringSetting) (input : ScorePreviewInput)
    (h : ReasonableConstants setting.constants) :
    (scenarioPreview setting input .current).effectiveEstimatedScore ≤
        (scenarioPreview setting input .cleanGates).effectiveEstimatedScore ∧
      (constant setting.constants .minIssueCredibility ≤ 1 →
        (∀ other ∈ buildScenarioPreviews setting input, other.effectiveEstimatedScore ≤
            (scenarioPreview setting input .bestReasonableCase).effectiveEstimatedScore) ∧
          ¬(scenarioPreview setting input .bestReasonableCase).BlockedBy
            .issueDiscoveryValidityFloor) ∧
      ¬(scenarioPreview setting input .bestReasonableCase).BlockedBy .mergedPrHistoryFloor ∧
      ¬(scenarioPreview setting input .bestReasonableCase).BlockedBy .credibilityFloor ∧
      ((scenarioPreview setting input .bestReasonableCase).BlockedBy .openPrThreshold ↔
        (0 : JsNumber).le (scoreGates setting input).openPrThreshold = false) ∧
      ((scenarioPreview setting input .bestReasonableCase).BlockedBy .openIssueThreshold ↔
        (0 : JsNumber).le (scoreGates setting input).openIssueThreshold = false) := by
  refine ⟨score_mono (current_below_clean h input), fun hfloor => ⟨?_, ?_⟩, ?_, ?_, ?_, ?_⟩
  · rintro other hother
    obtain ⟨name, -, rfl⟩ := List.mem_map.1 hother
    exact effective_le_best h hfloor input name
  · rw [blockedBy_iff]
    intro happlies
    exact one_ne_zero ((best_discovery hfloor input).symm.trans (beq_iff_eq.1 happlies))
  · rw [blockedBy_iff]
    intro happlies
    exact one_ne_zero ((best_merged setting input).symm.trans (beq_iff_eq.1 happlies))
  · rw [blockedBy_iff]
    intro happlies
    exact not_lt.2 (le_clamp h.credibility_le (le_max_right _ _)) (of_decide_eq_true happlies)
  · rw [blockedBy_iff, ← multiplier_eq_zero_iff, ← best_openPr]
    rfl
  · rw [blockedBy_iff, ← multiplier_eq_zero_iff, ← best_openIssue]
    rfl

/-- A base score of 25 in an unregistered repository. -/
def flatSetting (constants : ScoringConstants) : ScoringSetting where
  repo := none
  activeModel := .pendingSaturationModel
  constants := constants
  contributorEvidence := none
  baseScore _ := 25
  calculateTimeDecay _ := 1
  baseScore_nonneg _ := by norm_num
  calculateTimeDecay_nonneg _ := zero_le_one
  toLowerCase text := text
  labelMatchesPattern label pattern := label == pattern
  showNumber _ := "?"

theorem reasonable_of_default {constants : ScoringConstants}
    (h : ∀ key, constants key ≠ none → key ≠ .minCredibility ∧ key ≠ .standardIssueMultiplier ∧
      key ≠ .maintainerIssueMultiplier) : ReasonableConstants constants := by
  have hdefault : ∀ key, (key = .minCredibility ∨ key = .standardIssueMultiplier ∨
      key = .maintainerIssueMultiplier) →
      constant constants key = defaultScoringConstants key := by
    intro key hkey
    have hnone : constants key = none := by
      by_contra hsome
      obtain ⟨h1, h2, h3⟩ := h key hsome
      exact hkey.elim h1 fun hkey => hkey.elim h2 h3
    rw [constant, hnone]
  constructor <;> rw [hdefault _ (by simp)] <;> norm_num [defaultScoringConstants]

/-- A contributor without solved issues, whose pull request has no linked issue. -/
def freshContributor : ScorePreviewInput where
  sourceTokenScore := some (.finite 60)
  credibility := some 1
  validSolvedIssues := some (.finite 0)
  issueCredibility := some (1 / 2)

theorem best_case_dominates_fresh :
    (scenarioPreview (flatSetting fun _ => none) freshContributor
      .current).effectiveEstimatedScore ≤
        (scenarioPreview (flatSetting fun _ => none) freshContributor
          .cleanGates).effectiveEstimatedScore ∧
      ∀ other ∈ buildScenarioPreviews (flatSetting fun _ => none) freshContributor,
        other.effectiveEstimatedScore ≤
        (scenarioPreview (flatSetting fun _ => none) freshContributor
          .bestReasonableCase).effectiveEstimatedScore :=
  have hdominates := best_case_dominates (flatSetting fun _ => none) freshContributor
    (reasonable_of_default fun _ h => absurd rfl h)
  have hfloor : constant (flatSetting fun _ => none).constants .minIssueCredibility ≤ 1 := by
    decide +kernel
  ⟨hdominates.1, (hdominates.2.1 hfloor).1⟩

/-- One constant of a snapshot, beside the defaults. -/
def onlyConstant (key : ScoringConstant) (value : ℚ) : ScoringConstants := fun other =>
  if other = key then some (.finite value) else none

/-- A floor of two is above every credibility, and the best case, which opens the issue lane, is
estimated at nothing. A negative threshold has no room for the pull request itself. -/
theorem best_case_dominated :
    (ReasonableConstants (onlyConstant .minIssueCredibility 2) ∧
      (scenarioPreview (flatSetting (onlyConstant .minIssueCredibility 2)) freshContributor
          .current).effectiveEstimatedScore = 25 ∧
      (scenarioPreview (flatSetting (onlyConstant .minIssueCredibility 2)) freshContributor
          .bestReasonableCase).effectiveEstimatedScore = 0 ∧
      (scenarioPreview (flatSetting (onlyConstant .minIssueCredibility 2)) freshContributor
          .bestReasonableCase).BlockedBy .issueDiscoveryValidityFloor) ∧
    ReasonableConstants (onlyConstant .maxOpenPrThreshold (-1)) ∧
      (scenarioPreview (flatSetting (onlyConstant .maxOpenPrThreshold (-1))) freshContributor
          .bestReasonableCase).BlockedBy .openPrThreshold := by
  have hreasonable : ∀ {key : ScoringConstant} {value : ℚ}, key ≠ .minCredibility ∧
      key ≠ .standardIssueMultiplier ∧
      key ≠ .maintainerIssueMultiplier → ReasonableConstants (onlyConstant key value) := by
    intro key value hkey
    refine reasonable_of_default fun other hother => ?_
    obtain rfl : other = key := by
      by_contra hne
      exact hother (if_neg hne)
    exact hkey
  refine ⟨⟨hreasonable (by decide), by decide +kernel, by decide +kernel, ?_⟩,
    hreasonable (by decide), ?_⟩
  · rw [blockedBy_iff]
    decide +kernel
  · rw [blockedBy_iff]
    decide +kernel

end Results

/-! ## A fixed issue -/

section Fixed

variable {setting : ScoringSetting} {input : ScorePreviewInput} {code : ScoreGateCode}

/-- Without a mode the issue lane is closed, and opening it meets a known history that is below a
floor. -/
def NewlyGated (setting : ScoringSetting) (input : ScorePreviewInput) : Prop :=
  input.linkedIssueMode.getD .none = .none ∧
    ∃ solved credibility, input.validSolvedIssues = some solved ∧
      input.issueCredibility = some credibility ∧
      (nonNegative (some solved) < constant setting.constants .minValidSolvedIssues ∨
        clamp credibility 0 1 < constant setting.constants .minIssueCredibility)

theorem scoreGates_validated (setting : ScoringSetting) (input : ScorePreviewInput) :
    scoreGates setting (withValidatedLinkedIssueScenario input) = scoreGates setting input := by
  rw [withValidatedLinkedIssueScenario]
  split <;> rfl

/-- The history multiplier of both states, by the mode. -/
theorem discovery_validated (setting : ScoringSetting) (input : ScorePreviewInput) :
    (scoreFactors setting
      (withValidatedLinkedIssueScenario input)).issueDiscoveryHistoryMultiplier =
        (scoreFactors setting input).issueDiscoveryHistoryMultiplier ∨
      input.linkedIssueMode.getD .none = .none ∧
        (scoreFactors setting input).issueDiscoveryHistoryMultiplier = 1 := by
  cases hmode : input.linkedIssueMode.getD .none with
  | none =>
    refine Or.inr ⟨rfl, ?_⟩
    show issueDiscoveryHistoryMultiplier (input.linkedIssueMode.getD .none == .standard) _ _ _ _ = 1
    rw [hmode]
    rfl
  | maintainer =>
    rw [withValidatedLinkedIssueScenario, if_pos hmode]
    exact Or.inl rfl
  | standard =>
    refine Or.inl ?_
    rw [withValidatedLinkedIssueScenario, if_neg (by rw [hmode]; decide)]
    show issueDiscoveryHistoryMultiplier true _ _ _ _ =
      issueDiscoveryHistoryMultiplier (input.linkedIssueMode.getD .none == .standard) _ _ _ _
    rw [hmode]
    rfl

theorem newlyGated_iff : NewlyGated setting input ↔
    input.linkedIssueMode.getD .none = .none ∧
      (scoreFactors setting
        (withValidatedLinkedIssueScenario input)).issueDiscoveryHistoryMultiplier = 0 := by
  rw [NewlyGated]
  refine and_congr_right fun hmode => ?_
  have hzero : (scoreFactors setting
      (withValidatedLinkedIssueScenario input)).issueDiscoveryHistoryMultiplier =
      issueDiscoveryHistoryMultiplier true (scoreGates setting input).validSolvedIssues
        (constant setting.constants .minValidSolvedIssues)
          (scoreGates setting input).issueCredibility
        (constant setting.constants .minIssueCredibility) := by
    rw [withValidatedLinkedIssueScenario, if_neg (by rw [hmode]; decide)]
    rfl
  rw [hzero, discovery_zero_iff]
  constructor
  · rintro ⟨solved, credibility, hsolved, hcredibility, hbelow⟩
    exact ⟨rfl, _, _, congrArg (Option.map _) hsolved, congrArg (Option.map _) hcredibility, hbelow⟩
  · rintro ⟨-, count, own, hcount, hown, hbelow⟩
    obtain ⟨solved, hsolved, rfl⟩ := Option.map_eq_some_iff.1 hcount
    obtain ⟨credibility, hcredibility, rfl⟩ := Option.map_eq_some_iff.1 hown
    exact ⟨solved, credibility, hsolved, hcredibility, hbelow⟩

/-- Apart from the history the scenario changes the issue's factor alone. -/
theorem current_below_validated (h : ReasonableConstants setting.constants)
    (hgated : ¬NewlyGated setting input) :
    (scoreFactors setting input).Below
      (scoreFactors setting (withValidatedLinkedIssueScenario input)) := by
  have hgates := scoreGates_validated setting input
  refine below_of_gates h (withValidated_unchanged input).symm (issue_le_validated h input)
    ?_ ?_ ?_ ?_ ?_
  · show Rises (credibilityMultiplier _ _)
      (credibilityMultiplier (scoreGates setting _).credibilityObserved
      (scoreGates setting _).credibilityFloor)
    rw [hgates]
    exact Rises.refl (credibilityMultiplier_rises h.credibility_pos (clamp_nonneg _)).1
  · show Rises (openMultiplier _ _) (openMultiplier (scoreGates setting _).openPrCount
      (scoreGates setting _).openPrThreshold)
    rw [hgates]
    exact Rises.refl (openMultiplier_le _ (nonNegative_nonneg _)).1
  · show Rises (openMultiplier _ _) (openMultiplier (scoreGates setting _).openIssueCount
      (scoreGates setting _).openIssueThreshold)
    rw [hgates]
    exact Rises.refl (openMultiplier_le _ (nonNegative_nonneg _)).1
  · show Rises (mergedHistoryMultiplier _ _)
      (mergedHistoryMultiplier (scoreGates setting _).mergedPullRequests
      (scoreGates setting _).mergedPrFloor)
    rw [hgates]
    exact Rises.refl (mergedHistoryMultiplier_rises _ _).1
  · obtain hsame | ⟨hmode, -⟩ := discovery_validated setting input
    · rw [hsame]
      exact Rises.refl discovery_rises.1
    · obtain hone | ⟨hzero, -⟩ := discovery_cases
        ((withValidatedLinkedIssueScenario input).linkedIssueMode.getD .none == .standard)
        (scoreGates setting (withValidatedLinkedIssueScenario input)).validSolvedIssues
        (scoreGates setting (withValidatedLinkedIssueScenario input)).validSolvedIssuesFloor
        (scoreGates setting (withValidatedLinkedIssueScenario input)).issueCredibility
        (scoreGates setting (withValidatedLinkedIssueScenario input)).issueCredibilityFloor
      · have hfixed : (scoreFactors setting
            (withValidatedLinkedIssueScenario input)).issueDiscoveryHistoryMultiplier = 1 := hone
        rw [hfixed]
        exact discovery_rises
      · exact absurd (newlyGated_iff.2 ⟨hmode, hzero⟩) hgated

variable {branch branch' : BranchEligibilityResult}

/-- The other gates that stop an estimate do not look at the issue. -/
theorem applies_validated (hseverity : code.severity = .blocker)
    (hother : code ≠ .issueDiscoveryValidityFloor) :
    blockerApplies setting (withValidatedLinkedIssueScenario input)
        (computeScoreCore setting (withValidatedLinkedIssueScenario input)) branch' code =
      blockerApplies setting input (computeScoreCore setting input) branch code := by
  rw [withValidatedLinkedIssueScenario]
  split
  · cases code <;> first | rfl | exact absurd hseverity (by decide)
  · cases code <;> first | rfl | exact absurd hseverity (by decide) | exact absurd rfl hother

theorem detail_validated (hseverity : code.severity = .blocker) :
    blockerDetail setting (withValidatedLinkedIssueScenario input)
        (computeScoreCore setting (withValidatedLinkedIssueScenario input)) branch' code =
      blockerDetail setting input (computeScoreCore setting input) branch code := by
  rw [withValidatedLinkedIssueScenario]
  split
  · cases code <;> first | rfl | exact absurd hseverity (by decide)
  · cases code <;> first | rfl | exact absurd hseverity (by decide)

/-- A blocker of the fixed state is new if the current state does not have it. -/
def NewBlocker (setting : ScoringSetting) (input : ScorePreviewInput) (blocker : ScoreGateBlocker) :
    Prop :=
  blocker ∈ (scenarioPreview setting input .linkedIssueFixed).blockedBy ∧
    blocker.severity = .blocker ∧
    blocker ∉ (scenarioPreview setting input .current).blockedBy

/-- **Only the history of solved issues can be new.** -/
theorem newBlocker_cases {blocker : ScoreGateBlocker} (h : NewBlocker setting input blocker) :
    blocker.code = .issueDiscoveryValidityFloor ∧ NewlyGated setting input := by
  obtain ⟨hmem, hseverity, hnew⟩ := h
  obtain ⟨happlies, hown, hdetail⟩ := mem_blockedByFor.1 hmem
  have hcode := hown.symm.trans hseverity
  have hstays : ∀ applies : blockerApplies setting input (computeScoreCore setting input)
      (normalizeBranchEligibility input.linkedIssueMode input.branchEligibility) blocker.code =
        true, False := fun applies =>
    hnew (mem_blockedByFor.2 ⟨applies, hown, hdetail.trans (detail_validated hcode)⟩)
  by_cases hother : blocker.code = .issueDiscoveryValidityFloor
  · refine ⟨hother, newlyGated_iff.2 ?_⟩
    rw [hother] at happlies hstays
    have hzero := beq_iff_eq.1 happlies
    obtain hsame | ⟨hmode, -⟩ := discovery_validated setting input
    · exact (hstays (beq_iff_eq.2 (hsame.symm.trans hzero))).elim
    · exact ⟨hmode, hzero⟩
  · exact (hstays ((applies_validated hcode hother).symm.trans happlies)).elim

theorem newBlocker_of_newlyGated (h : NewlyGated setting input) :
    ∃ blocker, NewBlocker setting input blocker := by
  obtain ⟨hmode, hzero⟩ := newlyGated_iff.1 h
  obtain ⟨blocker, hmem, hcode⟩ : (scenarioPreview setting input .linkedIssueFixed).BlockedBy
      .issueDiscoveryValidityFloor := blockedBy_iff.2 (beq_iff_eq.2 hzero)
  refine ⟨blocker, hmem, (mem_blockedByFor.1 hmem).2.1.trans (congrArg _ hcode), fun hcurrent => ?_⟩
  have happlies := (mem_blockedByFor.1 hcurrent).1
  rw [hcode] at happlies
  obtain hsame | ⟨-, hone⟩ := discovery_validated setting input
  · have hshut : (scoreFactors setting input).issueDiscoveryHistoryMultiplier = 1 := by
      show issueDiscoveryHistoryMultiplier (input.linkedIssueMode.getD .none == .standard) _ _ _ _ =
        1
      rw [hmode]
      rfl
    exact one_ne_zero (hshut.symm.trans (beq_iff_eq.1 happlies))
  · exact one_ne_zero (hone.symm.trans (beq_iff_eq.1 happlies))

/-- **Fixing the linked issue lowers an estimate only by opening the issue lane.** Elsewhere the
estimate is at least the current one, without a new blocker; where the lane opens to a history below
its floors, nothing is left of the estimate, and the history is the only new blocker. -/
theorem linked_issue_fixed (setting : ScoringSetting) (input : ScorePreviewInput)
    (h : ReasonableConstants setting.constants) :
    (¬NewlyGated setting input → (scenarioPreview setting input .current).effectiveEstimatedScore ≤
        (scenarioPreview setting input .linkedIssueFixed).effectiveEstimatedScore) ∧
      (NewlyGated setting input →
        (scenarioPreview setting input .linkedIssueFixed).effectiveEstimatedScore = 0) ∧
      ((∃ blocker, NewBlocker setting input blocker) ↔ NewlyGated setting input) ∧
      ∀ blocker, NewBlocker setting input blocker →
        blocker.code = .issueDiscoveryValidityFloor := by
  refine ⟨fun hgated => score_mono (current_below_validated h hgated), fun hgated => ?_, ?_,
      fun blocker hnew =>
    (newBlocker_cases hnew).1⟩
  · have hzero := (newlyGated_iff.1 hgated).2
    show ScoreFactors.estimatedMergedScore
      (scoreFactors setting (withValidatedLinkedIssueScenario input)) = 0
    rw [ScoreFactors.estimatedMergedScore, hzero, mul_zero, zero_mul]
    decide +kernel
  · exact ⟨fun ⟨_, hnew⟩ => (newBlocker_cases hnew).2, newBlocker_of_newlyGated⟩

theorem linked_issue_fixed_unknown :
    (scenarioPreview (flatSetting fun _ => none) { freshContributor with validSolvedIssues := none }
        .current).effectiveEstimatedScore ≤
      (scenarioPreview (flatSetting fun _ => none)
        { freshContributor with validSolvedIssues := none }
        .linkedIssueFixed).effectiveEstimatedScore :=
  (linked_issue_fixed (flatSetting fun _ => none)
    { freshContributor with validSolvedIssues := none }
    (reasonable_of_default fun _ h => absurd rfl h)).1 fun ⟨_, _, _, hsolved, _⟩ =>
      Option.some_ne_none _ hsolved.symm

/-- Under the default constants a contributor without solved issues has an estimate, and none with a
fixed issue. -/
theorem linked_issue_fixed_lowers :
    ReasonableConstants (flatSetting fun _ => none).constants ∧
      (scenarioPreview (flatSetting fun _ => none) freshContributor
        .current).effectiveEstimatedScore = 25 ∧
      (scenarioPreview (flatSetting fun _ => none) freshContributor
        .linkedIssueFixed).effectiveEstimatedScore = 0 ∧
      ∃ blocker, NewBlocker (flatSetting fun _ => none) freshContributor blocker := by
  refine ⟨reasonable_of_default fun _ h => absurd rfl h, by decide +kernel, by decide +kernel,
    newBlocker_of_newlyGated ⟨rfl, _, _, rfl, rfl, Or.inl ?_⟩⟩
  decide +kernel

end Fixed

end LoopOver.ScorePreview
