import LoopOver.Scoring.LinkedIssue
import LoopOver.Text

/-!
# The estimate of a pull request

`computeScoreCore` of `packages/loopover-engine/src/scoring/preview.ts` multiplies a base score by
the factors of the label, the linked issue, the credibility, the reviews, the gates of open and
merged work, and the age, and `blockedByFor` names the gates that stop or lower it.

* `ScorePreviewInput` keeps apart what no scenario rewrites, as `UnchangedInput`: the base score and
  the decay read nothing else.
* `scoreGates`, `scoreFactors` and `computeScoreCore` are the estimate.
* `ScoreFactors.Below` compares the factors one by one, and **`score_mono`** what comes of them.

Arithmetic is exact. Counts may be any number of the host, as `nonNegative` sorts out those that are
not finite; a credibility, which the source clamps as it is, is a rational.
-/

namespace LoopOver.ScorePreview

/-! ## Numbers -/

/-- What is no finite number counts as zero. -/
def nonNegative : Option JsNumber → ℚ
  | some (.finite value) => max 0 value
  | _ => 0

def clamp (value low high : ℚ) : ℚ := min high (max low value)

/-- Four decimals. -/
def roundScore (value : ℚ) : ℚ := JsNumber.round (value * 10000) / 10000

/-! ## Inputs -/

/-- The fields of a preview that no scenario rewrites. -/
structure UnchangedInput where
  labels : Option (List String) := none
  sourceTokenScore : Option JsNumber := none
  totalTokenScore : Option JsNumber := none
  sourceLines : Option JsNumber := none
  testTokenScore : Option JsNumber := none
  nonCodeTokenScore : Option JsNumber := none
  nonCodeLines : Option JsNumber := none
  existingContributorTokenScore : Option JsNumber := none
  changesRequestedCount : Option JsNumber := none
  fixedBaseScore : Option JsNumber := none
  metadataOnly : Bool := false
  pendingMergedPrCount : Option JsNumber := none
  pendingClosedPrCount : Option JsNumber := none
  approvedPrCount : Option JsNumber := none
  observedApprovedPrCount : Option JsNumber := none
  observedStalePrCount : Option JsNumber := none
  duplicateRiskCount : Option JsNumber := none
  expectedOpenPrCountAfterMerge : Option JsNumber := none
  projectedCredibility : Option ℚ := none
  branchEligibility : Option BranchEligibilityInput := none
  prAgeHours : Option JsNumber := none
  applyTimeDecay : Bool := false
  deriving DecidableEq

/-- What a preview is asked about. -/
structure ScorePreviewInput extends UnchangedInput where
  linkedIssueMode : Option LinkedIssueMode := none
  linkedIssueContext : Option LinkedIssueMultiplierContext := none
  openPrCount : Option JsNumber := none
  openIssueCount : Option JsNumber := none
  mergedPullRequests : Option JsNumber := none
  validSolvedIssues : Option JsNumber := none
  issueCredibility : Option ℚ := none
  credibility : Option ℚ := none
  deriving DecidableEq

/-- How a repository is registered. -/
structure RegistryConfig where
  emissionShare : ℚ
  labelMultipliers : List (String × JsNumber)
  defaultLabelMultiplier : Option JsNumber

/-- What is known of the repository. -/
structure RepositoryRecord where
  isRegistered : Bool
  registryConfig : Option RegistryConfig

/-- The scoring model of the snapshot. -/
inductive ActiveModel
  | currentDensityModel
  | pendingSaturationModel
  | exponentialSaturationModel
  | unknown
  deriving DecidableEq

/-- `contributorEvidence.payload`, each value as `Number` reads it. -/
structure ContributorEvidence where
  mergedPullRequests : Option JsNumber
  stalePullRequests : Option JsNumber
  unlinkedPullRequests : Option JsNumber

/-- What all scenarios of a preview share. -/
structure ScoringSetting where
  repo : Option RepositoryRecord
  activeModel : ActiveModel
  constants : ScoringConstants
  contributorEvidence : Option ContributorEvidence
  /-- The base score under this repository and this model. -/
  baseScore : UnchangedInput → ℚ
  /-- `calculateTimeDecay` under this repository and this model. -/
  calculateTimeDecay : ℚ → ℚ
  baseScore_nonneg : ∀ input, 0 ≤ baseScore input
  calculateTimeDecay_nonneg : ∀ hours, 0 ≤ calculateTimeDecay hours
  toLowerCase : String → String
  labelMatchesPattern : String → String → Bool
  /-- How the host writes a number into a text. -/
  showNumber : JsNumber → String

/-! ## The parts of the estimate -/

/-- Only a positive multiplier counts. -/
def isValidLabelMultiplier : JsNumber → Option ℚ
  | .finite value => if 0 < value then some value else none
  | _ => none

/-- `Math.max` of the numbers after the first one. -/
def highest (first : ℚ) (others : List ℚ) : ℚ := others.foldl max first

section Parts

variable (setting : ScoringSetting)

/-- The highest multiplier of a pattern that a label matches. -/
def selectLabelMultiplier (labels : List String) (multipliers : List (String × JsNumber))
    (fallback : JsNumber) : ℚ :=
  let normalized := labels.map setting.toLowerCase
  let matched := multipliers.filterMap fun entry =>
    (isValidLabelMultiplier entry.2).filter fun _ =>
      normalized.any fun label => setting.labelMatchesPattern label entry.1
  match matched with
  | first :: others => highest first others
  | [] => (isValidLabelMultiplier fallback).getD 1

/-- Merged pull requests raise it, stale and unlinked ones lower it. -/
def inferCredibility (evidence : Option ContributorEvidence) : ℚ :=
  match (evidence.bind (·.mergedPullRequests)).getD 0, (evidence.bind (·.stalePullRequests)).getD 0,
    (evidence.bind (·.unlinkedPullRequests)).getD 0 with
  | .finite merged, .finite stale, .finite unlinked =>
    clamp (3 / 4 + merged * (1 / 25) - stale * (3 / 100) - unlinked * (1 / 50)) (1 / 4) 1
  | _, _, _ => 4 / 5

/-- The count of the input comes before the evidence. -/
def resolveMergedPullRequests (own : Option JsNumber) (evidence : Option ContributorEvidence) :
    Option ℚ :=
  match own, evidence.bind (·.mergedPullRequests) with
  | some count, _ => some (nonNegative (some count))
  | none, some (.finite count) => some (nonNegative (some (.finite count)))
  | none, _ => none

/-- How many pull requests, or issues, may be open at a time. -/
def openThreshold (highest base tokensPerSlot : ScoringConstant) (tokens : ℚ) : JsNumber :=
  JsNumber.min (.finite (constant setting.constants highest))
    ((JsNumber.finite (constant setting.constants base)).add
      ((JsNumber.finite tokens).div (.finite (constant setting.constants tokensPerSlot))).floor)

/-- All or nothing at the threshold. -/
def openMultiplier (count : ℚ) (threshold : JsNumber) : ℚ :=
  if (JsNumber.finite count).le threshold then 1 else 0

/-- Below the floor it goes down in proportion. -/
def credibilityMultiplier (observed floor : ℚ) : ℚ :=
  if floor ≤ observed then 1 else observed / floor

/-- An unknown history passes. -/
def mergedHistoryMultiplier (observed : Option ℚ) (floor : ℚ) : ℚ :=
  match observed with
  | none => 1
  | some observed => if floor ≤ observed then 1 else 0

/-- All or nothing at both floors, where the history matters. -/
def issueDiscoveryHistoryMultiplier (relevant : Bool) (solved : Option ℚ) (solvedFloor : ℚ)
    (credibility : Option ℚ) (credibilityFloor : ℚ) : ℚ :=
  match relevant, solved, credibility with
  | true, some solved, some credibility =>
    if solvedFloor ≤ solved ∧ credibilityFloor ≤ credibility then 1 else 0
  | _, _, _ => 1

end Parts

/-! ## The estimate -/

/-- What the gates compare. -/
structure ScoreGates where
  baseTokenGatePassed : Bool
  openPrThreshold : JsNumber
  openPrCount : ℚ
  credibilityFloor : ℚ
  credibilityObserved : ℚ
  openIssueThreshold : JsNumber
  openIssueCount : ℚ
  mergedPrFloor : ℚ
  mergedPullRequests : Option ℚ
  validSolvedIssuesFloor : ℚ
  validSolvedIssues : Option ℚ
  issueCredibilityFloor : ℚ
  issueCredibility : Option ℚ

/-- What is multiplied, before anything is rounded. -/
structure ScoreFactors where
  baseScore : ℚ
  labelMultiplier : ℚ
  issueMultiplier : ℚ
  credibilityMultiplier : ℚ
  reviewPenaltyMultiplier : ℚ
  openPrMultiplier : ℚ
  openIssueMultiplier : ℚ
  mergedHistoryMultiplier : ℚ
  issueDiscoveryHistoryMultiplier : ℚ
  timeDecayMultiplier : ℚ

/-- The product of all factors. -/
def ScoreFactors.estimatedMergedScore (factors : ScoreFactors) : ℚ :=
  roundScore (factors.baseScore * factors.labelMultiplier * factors.issueMultiplier *
    factors.credibilityMultiplier *
    factors.reviewPenaltyMultiplier * factors.openPrMultiplier * factors.openIssueMultiplier *
    factors.mergedHistoryMultiplier * factors.issueDiscoveryHistoryMultiplier *
      factors.timeDecayMultiplier)

/-- The factors of an estimate, as they are shown. -/
structure ScoreEstimate extends ScoreFactors where
  estimatedMergedScore : ℚ

/-- The share, the estimate, the decision on the issue, and the gates. -/
structure ScoreCore where
  repoEmissionShare : ℚ
  scoreEstimate : ScoreEstimate
  linkedIssueMultiplier : LinkedIssueMultiplierDecision
  gates : ScoreGates

section Estimate

variable (setting : ScoringSetting) (input : ScorePreviewInput)

def scoreGates : ScoreGates :=
  let sourceTokenScore := nonNegative input.sourceTokenScore
  let tokens := nonNegative input.existingContributorTokenScore
  { baseTokenGatePassed :=
      if setting.activeModel = .pendingSaturationModel then decide (0 < sourceTokenScore)
      else decide (constant setting.constants .minTokenScoreForBaseScore ≤ sourceTokenScore)
    openPrThreshold :=
      openThreshold setting .maxOpenPrThreshold .excessivePrPenaltyBaseThreshold
        .openPrThresholdTokenScore tokens
    openPrCount := nonNegative input.openPrCount
    credibilityFloor := constant setting.constants .minCredibility
    credibilityObserved :=
      clamp (input.credibility.getD (inferCredibility setting.contributorEvidence)) 0 1
    openIssueThreshold :=
      openThreshold setting .maxOpenIssueThreshold .openIssueSpamBaseThreshold
        .openIssueSpamTokenScorePerSlot tokens
    openIssueCount := nonNegative input.openIssueCount
    mergedPrFloor := constant setting.constants .minValidMergedPrs
    mergedPullRequests :=
      resolveMergedPullRequests input.mergedPullRequests setting.contributorEvidence
    validSolvedIssuesFloor := constant setting.constants .minValidSolvedIssues
    validSolvedIssues := input.validSolvedIssues.map fun count => nonNegative (some count)
    issueCredibilityFloor := constant setting.constants .minIssueCredibility
    issueCredibility := input.issueCredibility.map fun credibility => clamp credibility 0 1 }

def linkedIssueDecision : LinkedIssueMultiplierDecision :=
  decideLinkedIssueMultiplier setting.showNumber (input.linkedIssueMode.getD .none)
    input.linkedIssueContext
    setting.constants (normalizeBranchEligibility input.linkedIssueMode input.branchEligibility)

def scoreFactors : ScoreFactors :=
  let config := setting.repo.bind (·.registryConfig)
  let gates := scoreGates setting input
  { baseScore := setting.baseScore input.toUnchangedInput
    labelMultiplier :=
      selectLabelMultiplier setting (input.labels.getD [])
        ((config.map (·.labelMultipliers)).getD [])
        ((config.bind (·.defaultLabelMultiplier)).getD 1)
    issueMultiplier := (linkedIssueDecision setting input).appliedMultiplier
    credibilityMultiplier := credibilityMultiplier gates.credibilityObserved gates.credibilityFloor
    reviewPenaltyMultiplier :=
      clamp (1 - nonNegative input.changesRequestedCount *
        constant setting.constants .reviewPenaltyRate) 0 1
    openPrMultiplier := openMultiplier gates.openPrCount gates.openPrThreshold
    openIssueMultiplier := openMultiplier gates.openIssueCount gates.openIssueThreshold
    mergedHistoryMultiplier := mergedHistoryMultiplier gates.mergedPullRequests gates.mergedPrFloor
    issueDiscoveryHistoryMultiplier :=
      issueDiscoveryHistoryMultiplier (input.linkedIssueMode.getD .none == .standard)
        gates.validSolvedIssues
        gates.validSolvedIssuesFloor gates.issueCredibility gates.issueCredibilityFloor
    timeDecayMultiplier :=
      if input.applyTimeDecay then setting.calculateTimeDecay (nonNegative input.prAgeHours)
        else 1 }

def computeScoreCore : ScoreCore :=
  let factors := scoreFactors setting input
  { repoEmissionShare :=
    clamp (((setting.repo.bind (·.registryConfig)).map (·.emissionShare)).getD 0) 0 1
    scoreEstimate :=
      { factors with
        baseScore := roundScore factors.baseScore
        credibilityMultiplier := roundScore factors.credibilityMultiplier
        reviewPenaltyMultiplier := roundScore factors.reviewPenaltyMultiplier
        timeDecayMultiplier := roundScore factors.timeDecayMultiplier
        estimatedMergedScore := factors.estimatedMergedScore }
    linkedIssueMultiplier := linkedIssueDecision setting input
    gates := scoreGates setting input }

end Estimate

/-! ## Blockers -/

/-- What can hold a score down. -/
inductive ScoreGateCode
  | repoNotRegistered
  | inactiveAllocation
  | metadataOnly
  | branchIneligible
  | branchEligibilityMissing
  | baseTokenGate
  | openPrThreshold
  | openIssueThreshold
  | mergedPrHistoryFloor
  | issueDiscoveryValidityFloor
  | credibilityFloor
  | reviewPenalty
  | linkedIssueInvalid
  | linkedIssueUnvalidated
  | staleWork
  | duplicateRisk
  deriving DecidableEq

/-- How much it does. -/
inductive Severity
  | blocker
  | reducer
  | context
  deriving DecidableEq

/-- A reason that holds the score down. -/
structure ScoreGateBlocker where
  code : ScoreGateCode
  severity : Severity
  detail : String
  deriving DecidableEq

/-- The codes, in the order of `blockedByFor`. -/
def scoreGateCodes : List ScoreGateCode :=
  [.repoNotRegistered, .inactiveAllocation, .metadataOnly, .branchIneligible,
    .branchEligibilityMissing, .baseTokenGate,
    .openPrThreshold, .openIssueThreshold, .mergedPrHistoryFloor, .issueDiscoveryValidityFloor,
      .credibilityFloor,
    .reviewPenalty, .linkedIssueInvalid, .linkedIssueUnvalidated, .staleWork, .duplicateRisk]

def ScoreGateCode.severity : ScoreGateCode → Severity
  | .repoNotRegistered | .inactiveAllocation | .baseTokenGate | .openPrThreshold |
    .openIssueThreshold
  | .mergedPrHistoryFloor | .issueDiscoveryValidityFloor => .blocker
  | .branchIneligible | .credibilityFloor | .reviewPenalty | .linkedIssueInvalid | .staleWork |
    .duplicateRisk => .reducer
  | .metadataOnly | .branchEligibilityMissing | .linkedIssueUnvalidated => .context

section Blockers

variable (setting : ScoringSetting) (input : ScorePreviewInput) (core : ScoreCore)

/-- The condition of each entry. -/
def blockerApplies (branch : BranchEligibilityResult) : ScoreGateCode → Bool
  | .repoNotRegistered => !setting.repo.any (·.isRegistered)
  | .inactiveAllocation => decide (core.repoEmissionShare ≤ 0)
  | .metadataOnly => input.metadataOnly
  | .branchIneligible => branch.required && branch.status == some .ineligible
  | .branchEligibilityMissing => branch.required && branch.status == some .unknown
  | .baseTokenGate => !core.gates.baseTokenGatePassed
  | .openPrThreshold => core.scoreEstimate.openPrMultiplier == 0
  | .openIssueThreshold => core.scoreEstimate.openIssueMultiplier == 0
  | .mergedPrHistoryFloor => core.scoreEstimate.mergedHistoryMultiplier == 0
  | .issueDiscoveryValidityFloor => core.scoreEstimate.issueDiscoveryHistoryMultiplier == 0
  | .credibilityFloor => decide (core.gates.credibilityObserved < core.gates.credibilityFloor)
  | .reviewPenalty => decide (core.scoreEstimate.reviewPenaltyMultiplier < 1)
  | .linkedIssueInvalid =>
    core.linkedIssueMultiplier.mode == .standard &&
      core.linkedIssueMultiplier.status == some .invalid
  | .linkedIssueUnvalidated =>
    core.linkedIssueMultiplier.mode == .standard &&
      (core.linkedIssueMultiplier.status == some .raw ||
        core.linkedIssueMultiplier.status == some .plausibleLink ||
        core.linkedIssueMultiplier.status == some .unavailable)
  | .staleWork => decide (0 < nonNegative input.observedStalePrCount)
  | .duplicateRisk => decide (0 < nonNegative input.duplicateRiskCount)

/-- A count in a text, where one that is absent is `undefined`. -/
def showCount (count : Option ℚ) : String :=
  (count.map fun count => setting.showNumber (.finite count)).getD "undefined"

/-- `roundScore` of a number in a text, where one that is absent is not a number. -/
def showRounded (value : Option ℚ) : String :=
  setting.showNumber ((value.map fun value => JsNumber.finite (roundScore value)).getD .nan)

/-- The reason in words. -/
def blockerDetail (branch : BranchEligibilityResult) : ScoreGateCode → String
  | .repoNotRegistered => "Repository is not registered in the local LoopOver cache."
  | .inactiveAllocation => "Repository has no active allocation in the current registry snapshot."
  | .metadataOnly => "Preview used metadata-only inputs, so token and density estimates are rough."
  | .branchIneligible => branchIneligibleWarning
  | .branchEligibilityMissing =>
    if branch.provided then branchUnknownWarning else branchMissingWarning
  | .baseTokenGate => "Source token score does not pass the current base-score token gate."
  | .openPrThreshold => "Open PR count " ++ setting.showNumber (.finite core.gates.openPrCount) ++
      " exceeds threshold " ++
      setting.showNumber core.gates.openPrThreshold ++ "."
  | .openIssueThreshold =>
    "Open issue count " ++ setting.showNumber (.finite core.gates.openIssueCount) ++
      " exceeds spam threshold " ++ setting.showNumber core.gates.openIssueThreshold ++ "."
  | .mergedPrHistoryFloor =>
    "Merged PR count " ++ showCount setting core.gates.mergedPullRequests ++
      " is below upstream floor " ++ setting.showNumber (.finite core.gates.mergedPrFloor) ++ "."
  | .issueDiscoveryValidityFloor =>
    "Issue-discovery history (" ++ showCount setting core.gates.validSolvedIssues ++
      " valid solved, credibility " ++ showRounded setting core.gates.issueCredibility ++
        ") is below upstream floors (" ++
      setting.showNumber (.finite core.gates.validSolvedIssuesFloor) ++ " valid solved, " ++
      setting.showNumber (.finite core.gates.issueCredibilityFloor) ++ " credibility)."
  | .credibilityFloor =>
    "Credibility " ++ showRounded setting (some core.gates.credibilityObserved) ++
      " is below floor " ++
      setting.showNumber (.finite core.gates.credibilityFloor) ++ "."
  | .reviewPenalty => "Change-request history reduces the estimate."
  | .linkedIssueInvalid => core.linkedIssueMultiplier.reason
  | .linkedIssueUnvalidated => core.linkedIssueMultiplier.reason
  | .staleWork => setting.showNumber (.finite (nonNegative input.observedStalePrCount)) ++
      " stale open PR(s) detected; consider closing stale work before opening new contributions."
  | .duplicateRisk => setting.showNumber (.finite (nonNegative input.duplicateRiskCount)) ++
      " duplicate-risk issue(s) or PR(s) detected; verify there is no conflicting work before proceeding."

/-- The reasons that apply, in the order of the codes. -/
def blockedByFor : List ScoreGateBlocker :=
  let branch := normalizeBranchEligibility input.linkedIssueMode input.branchEligibility
  (scoreGateCodes.filter (blockerApplies setting input core branch)).map fun code =>
    ⟨code, code.severity, blockerDetail setting input core branch code⟩

end Blockers

theorem mem_scoreGateCodes (code : ScoreGateCode) :
    code ∈ scoreGateCodes := by cases code <;> decide

theorem mem_blockedByFor {setting : ScoringSetting} {input : ScorePreviewInput} {core : ScoreCore}
    {blocker : ScoreGateBlocker} :
    blocker ∈ blockedByFor setting input core ↔
      let branch := normalizeBranchEligibility input.linkedIssueMode input.branchEligibility
      blockerApplies setting input core branch blocker.code = true ∧
        blocker.severity = blocker.code.severity ∧
        blocker.detail = blockerDetail setting input core branch blocker.code := by
  rw [blockedByFor, List.mem_map]
  constructor
  · rintro ⟨code, hcode, rfl⟩
    exact ⟨(List.mem_filter.1 hcode).2, rfl, rfl⟩
  · rintro ⟨happlies, hseverity, hdetail⟩
    refine ⟨blocker.code, List.mem_filter.2 ⟨mem_scoreGateCodes _, happlies⟩, ?_⟩
    rw [← hseverity, ← hdetail]

/-! ## Comparing estimates -/

/-- A factor that is not negative, and at most the other one. -/
def Rises (a b : ℚ) : Prop := 0 ≤ a ∧ a ≤ b

theorem Rises.mul {a b c d : ℚ} (h : Rises a b) (h' : Rises c d) : Rises (a * c) (b * d) :=
  ⟨mul_nonneg h.1 h'.1, mul_le_mul h.2 h'.2 h'.1 (h.1.trans h.2)⟩

theorem Rises.refl {a : ℚ} (h : 0 ≤ a) : Rises a a := ⟨h, le_rfl⟩

/-- The factors, one by one. -/
structure ScoreFactors.Below (a b : ScoreFactors) : Prop where
  base : Rises a.baseScore b.baseScore
  label : Rises a.labelMultiplier b.labelMultiplier
  issue : Rises a.issueMultiplier b.issueMultiplier
  credibility : Rises a.credibilityMultiplier b.credibilityMultiplier
  review : Rises a.reviewPenaltyMultiplier b.reviewPenaltyMultiplier
  openPr : Rises a.openPrMultiplier b.openPrMultiplier
  openIssue : Rises a.openIssueMultiplier b.openIssueMultiplier
  merged : Rises a.mergedHistoryMultiplier b.mergedHistoryMultiplier
  discovery : Rises a.issueDiscoveryHistoryMultiplier b.issueDiscoveryHistoryMultiplier
  decay : Rises a.timeDecayMultiplier b.timeDecayMultiplier

theorem roundScore_mono {a b : ℚ} (h : a ≤ b) : roundScore a ≤ roundScore b := by
  have hround : (JsNumber.round (a * 10000) : ℚ) ≤ JsNumber.round (b * 10000) :=
    Int.cast_le.2 (JsNumber.round_mono (by linarith))
  exact div_le_div_of_nonneg_right hround (by norm_num)

/-- **An estimate grows with its factors.** -/
theorem score_mono {a b : ScoreFactors} (h : a.Below b) :
    a.estimatedMergedScore ≤ b.estimatedMergedScore := by
  have hopen := ((((h.base.mul h.label).mul h.issue).mul h.credibility).mul h.review).mul h.openPr
  have hproduct := (((hopen.mul h.openIssue).mul h.merged).mul h.discovery).mul h.decay
  exact roundScore_mono hproduct.2

end LoopOver.ScorePreview
