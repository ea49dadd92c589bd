import LoopOver.Number
import Mathlib.Data.List.Dedup
import Mathlib.Data.List.Sort

/-!
# The linked-issue multiplier

`packages/loopover-engine/src/scoring/preview.ts` multiplies an estimate by a factor for the issue
that a pull request solves. The factor of the standard lane needs evidence that a pull request
solved the issue, and a branch that is known to be eligible; the one of the maintainer lane needs
neither.

* `decideLinkedIssueMultiplier` is the decision, with its reason and its warnings, and
  `normalizeBranchEligibility` what it reads of the branch.
* `projectedContext` is the context of `withValidatedLinkedIssueScenario`, which supposes the
  evidence.
* **`applied_le_projected`**: supposing the evidence never takes the factor away.
-/

namespace LoopOver.ScorePreview

/-! ## Constants -/

/-- The constants of a scoring model that gates and multipliers read. -/
inductive ScoringConstant
  | minValidMergedPrs
  | minCredibility
  | minValidSolvedIssues
  | minIssueCredibility
  | openIssueSpamBaseThreshold
  | openIssueSpamTokenScorePerSlot
  | maxOpenIssueThreshold
  | reviewPenaltyRate
  | standardIssueMultiplier
  | maintainerIssueMultiplier
  | excessivePrPenaltyBaseThreshold
  | openPrThresholdTokenScore
  | maxOpenPrThreshold
  | minTokenScoreForBaseScore
  deriving DecidableEq

/-- `DEFAULT_SCORING_CONSTANTS` of `scoring/model.ts`. -/
def defaultScoringConstants : ScoringConstant → ℚ
  | .minValidMergedPrs => 3
  | .minCredibility => 4 / 5
  | .minValidSolvedIssues => 3
  | .minIssueCredibility => 4 / 5
  | .openIssueSpamBaseThreshold => 2
  | .openIssueSpamTokenScorePerSlot => 300
  | .maxOpenIssueThreshold => 30
  | .reviewPenaltyRate => 3 / 20
  | .standardIssueMultiplier => 133 / 100
  | .maintainerIssueMultiplier => 166 / 100
  | .excessivePrPenaltyBaseThreshold => 2
  | .openPrThresholdTokenScore => 300
  | .maxOpenPrThreshold => 30
  | .minTokenScoreForBaseScore => 5

/-- `snapshot.constants`: what the snapshot has of each constant. -/
abbrev ScoringConstants := ScoringConstant → Option JsNumber

/-- What is no finite number in the snapshot has its default. -/
def constant (constants : ScoringConstants) (key : ScoringConstant) : ℚ :=
  match constants key with
  | some (.finite value) => value
  | _ => defaultScoringConstants key

/-! ## Branches -/

/-- The lane whose multiplier is asked for. -/
inductive LinkedIssueMode
  | none
  | standard
  | maintainer
  deriving DecidableEq

/-- Whether the branch may earn the multiplier. -/
inductive BranchStatus
  | eligible
  | ineligible
  | unknown
  deriving DecidableEq

/-- Where the status of a branch comes from. -/
inductive BranchSource
  | githubMetadata
  | localMetadata
  | registry
  | userSupplied
  deriving DecidableEq

/-- What the caller says of the branch. -/
structure BranchEligibilityInput where
  status : Option BranchStatus
  source : Option BranchSource := none
  stale : Bool := false
  deriving DecidableEq

/-- No status stands for `not_required`, and no source for `missing`. -/
structure BranchEligibilityResult where
  required : Bool
  status : Option BranchStatus
  provided : Bool
  source : Option BranchSource
  stale : Bool
  warnings : List String
  deriving DecidableEq

/-- Nothing is said of the branch. -/
def branchMissingWarning : String :=
  "Branch eligibility evidence is missing; refresh branch/base metadata before relying on linked-issue assumptions."

/-- The branch is known not to count. -/
def branchIneligibleWarning : String :=
  "Branch eligibility is confirmed ineligible; linked-issue multiplier assumptions are disabled."

/-- The branch is there, but not its status. -/
def branchUnknownWarning : String :=
  "Branch eligibility is unknown; refresh branch/base metadata before relying on linked-issue assumptions."

/-- The status is out of date. -/
def branchStaleWarning : String :=
  "Branch eligibility evidence is stale; refresh branch/base metadata before relying on linked-issue assumptions."

/-- Only the standard lane asks for the branch. -/
def normalizeBranchEligibility (mode : Option LinkedIssueMode)
    (supplied : Option BranchEligibilityInput) :
    BranchEligibilityResult :=
  if mode = some .standard then
    match supplied with
    | none => ⟨true, some .unknown, false, none, false, [branchMissingWarning]⟩
    | some supplied =>
      let status := supplied.status.getD .unknown
      ⟨true, some status, true, some (supplied.source.getD .userSupplied), supplied.stale,
        (if status = .ineligible then [branchIneligibleWarning] else []) ++
          (if status = .unknown then [branchUnknownWarning] else []) ++
          if supplied.stale then [branchStaleWarning] else []⟩
  else
    ⟨false, none, supplied.isSome, supplied.map fun supplied => supplied.source.getD .userSupplied,
      supplied.any (·.stale), []⟩

/-- The branch need not count, or it does by current evidence. -/
def isConfirmedBranchEligible (branch : BranchEligibilityResult) : Bool :=
  !branch.required || (branch.status == some .eligible && branch.provided && !branch.stale)

/-- Why a branch earns no multiplier, the strongest reason first. -/
def branchEligibilityFailureReason (branch : BranchEligibilityResult) : String :=
  if branch.status = some .ineligible then
    "Branch eligibility is confirmed ineligible; standard issue multiplier is not applied."
  else if !branch.provided then
    "Branch eligibility evidence is missing; standard issue multiplier is not applied."
  else if branch.status = some .unknown then
    "Branch eligibility is unknown; standard issue multiplier is not applied."
  else if branch.stale then
    "Branch eligibility evidence is stale; standard issue multiplier is not applied."
  else if branch.source = some .userSupplied then
    "Branch eligibility evidence is user-supplied; standard issue multiplier is not applied " ++
      "until verified metadata is available."
  else "Branch eligibility is not confirmed; standard issue multiplier is not applied."

/-! ## The decision -/

/-- How well the link to the issue is known. -/
inductive LinkedIssueStatus
  | raw
  /-- `plausible` -/
  | plausibleLink
  | validated
  | invalid
  | unavailable
  deriving DecidableEq

/-- Where the link comes from. -/
inductive LinkedIssueSource
  | userSupplied
  | officialMirror
  | githubCache
  | issueQuality
  | missing
  deriving DecidableEq

/-- How a source is written. -/
def LinkedIssueSource.name : LinkedIssueSource → String
  | .userSupplied => "user_supplied"
  | .officialMirror => "official_mirror"
  | .githubCache => "github_cache"
  | .issueQuality => "issue_quality"
  | .missing => "missing"

/-- What the caller says of the linked issues. -/
structure LinkedIssueMultiplierContext where
  status : Option LinkedIssueStatus := none
  source : Option LinkedIssueSource := none
  issueNumbers : Option (List JsNumber) := none
  solvedByPullRequests : Option (List JsNumber) := none
  reason : Option String := none
  warnings : Option (List String) := none
  /-- `PROJECTED_SOLVED_BY_PULL_REQUEST_VALIDATION`, which only a projection sets. -/
  projectedSolvedByPullRequestValidation : Bool := false
  deriving DecidableEq

/-- No status stands for `not_required`, and no source for `none`. -/
structure LinkedIssueMultiplierDecision where
  mode : LinkedIssueMode
  status : Option LinkedIssueStatus
  source : Option LinkedIssueSource
  eligible : Bool
  issueNumbers : List ℕ
  solvedByPullRequests : List ℕ
  baseMultiplier : ℚ
  appliedMultiplier : ℚ
  reason : String
  warnings : List String
  deriving DecidableEq

/-- The number, where it is a positive integer. -/
def positiveInt : JsNumber → Option ℕ
  | .finite value => if value.den = 1 ∧ 0 < value then some value.num.toNat else none
  | _ => none

/-- The positive integers among the numbers, each once and in order. -/
def uniquePositiveInts (values : List JsNumber) : List ℕ :=
  (values.filterMap positiveInt).dedup.insertionSort (· ≤ ·)

/-- The multiplier of a lane, if it is earned. -/
def selectIssueMultiplier (mode : LinkedIssueMode) (constants : ScoringConstants) : ℚ :=
  match mode with
  | .maintainer => constant constants .maintainerIssueMultiplier
  | .standard => constant constants .standardIssueMultiplier
  | .none => 1

/-- What is wrong with a link that is not validated. -/
def linkedIssueWarnings : LinkedIssueStatus → List String
  | .validated => []
  | .invalid => ["Linked issue context is invalid; standard issue multiplier is not applied."]
  | .unavailable =>
    ["Linked issue mirror/cache data is unavailable; standard issue multiplier is not applied " ++
      "until validation is available."]
  | .plausibleLink =>
    ["Linked issue context is plausible but not solved-by-PR validated; standard issue multiplier is not applied."]
  | .raw =>
    ["Raw linked issue reference has no solved-by-PR evidence; standard issue multiplier is not applied."]

section Decision

-- How the host writes a number into a text.
variable (showNumber : JsNumber → String)

/-- `numbers.map((number) => '#' + number).join(", ")`. -/
def showReferences (numbers : List ℕ) : String :=
  ", ".intercalate (numbers.map fun number => "#" ++ showNumber (.finite number))

/-- The reason of the decision in words. -/
def linkedIssueReason (status : LinkedIssueStatus) (source : LinkedIssueSource)
    (issueNumbers solvedByPullRequests : List ℕ) : String :=
  let issues :=
    if issueNumbers.isEmpty then "" else " for issue(s) " ++ showReferences showNumber issueNumbers
  match status with
  | .validated =>
    let solvers := if solvedByPullRequests.isEmpty then ""
      else " via solved-by-PR " ++ showReferences showNumber solvedByPullRequests
    "Linked issue context is solved-by-PR validated" ++ issues ++ solvers ++ "."
  | .invalid =>
    "Linked issue context is invalid" ++ issues ++ "; standard issue multiplier is not applied."
  | .plausibleLink =>
    "Linked issue context is plausible" ++ issues ++
      ", but solved-by-PR validation is not available yet."
  | .unavailable => "Linked issue mirror/cache data is unavailable" ++ issues ++
    "; standard issue multiplier is not applied until validation is available."
  | .raw => "Raw linked issue reference" ++ issues ++ " has no solved-by-PR validation from " ++
    source.name ++ "."

/-- The status that the standard lane asks for. -/
def requestedStatus (context : Option LinkedIssueMultiplierContext)
    (issueNumbers solvedByPullRequests : List ℕ) :
    LinkedIssueStatus :=
  (context.bind (·.status)).getD
    (if !solvedByPullRequests.isEmpty then .validated else if !issueNumbers.isEmpty then .raw
      else .unavailable)

/-- The standard lane needs a validated issue, a pull request that solved it, and an eligible
branch. -/
def decideLinkedIssueMultiplier (mode : LinkedIssueMode)
    (context : Option LinkedIssueMultiplierContext) (constants : ScoringConstants)
    (branchEligibility : BranchEligibilityResult) : LinkedIssueMultiplierDecision :=
  let baseMultiplier := selectIssueMultiplier mode constants
  let issueNumbers := uniquePositiveInts ((context.bind (·.issueNumbers)).getD [])
  let solvedByPullRequests := uniquePositiveInts ((context.bind (·.solvedByPullRequests)).getD [])
  match mode with
  | .none =>
    { mode := .none, status := none, source := none, eligible := false, issueNumbers,
      solvedByPullRequests,
      baseMultiplier, appliedMultiplier := 1, reason :=
        "No linked-issue multiplier mode was requested.", warnings := [] }
  | .maintainer =>
    { mode := .maintainer, status := none, source := context.bind (·.source), eligible := true,
      issueNumbers,
      solvedByPullRequests, baseMultiplier, appliedMultiplier := baseMultiplier,
      reason := "Maintainer-lane multiplier does not require solved-by-PR issue linkage.",
      warnings := (context.bind (·.warnings)).getD [] }
  | .standard =>
    let requested := requestedStatus context issueNumbers solvedByPullRequests
    let hasSolvedByPullRequestEvidence :=
      !solvedByPullRequests.isEmpty || context.any (·.projectedSolvedByPullRequestValidation)
    let status :=
      if requested = .validated ∧ !hasSolvedByPullRequestEvidence then
        if issueNumbers.isEmpty then .unavailable else .raw
      else requested
    let source :=
      (context.bind (·.source)).getD (if status = .unavailable then .missing else .userSupplied)
    let branchEligible := isConfirmedBranchEligible branchEligibility
    let eligible := status == .validated && hasSolvedByPullRequestEvidence && branchEligible
    let ownReason := linkedIssueReason showNumber status source issueNumbers solvedByPullRequests
    { mode := .standard, status := some status, source := some source, eligible, issueNumbers,
      solvedByPullRequests,
      baseMultiplier, appliedMultiplier := if eligible then baseMultiplier else 1,
      reason :=
        if branchEligible ∨ status ≠ .validated then
          if status = requested then (context.bind (·.reason)).getD ownReason else ownReason
        else branchEligibilityFailureReason branchEligibility,
      warnings :=
        (linkedIssueWarnings status ++ branchEligibility.warnings ++
          (context.bind (·.warnings)).getD []).eraseDups }

end Decision

/-- The context of `withValidatedLinkedIssueScenario`. -/
def projectedContext (context : Option LinkedIssueMultiplierContext) :
    LinkedIssueMultiplierContext where
  status := some .validated
  source := some ((context.bind (·.source)).getD .userSupplied)
  issueNumbers :=
    some ((uniquePositiveInts ((context.bind (·.issueNumbers)).getD [])).map fun number =>
      .finite number)
  solvedByPullRequests :=
    some ((uniquePositiveInts ((context.bind (·.solvedByPullRequests)).getD [])).map fun number =>
      .finite number)
  reason := context.bind (·.reason)
  warnings := some []
  projectedSolvedByPullRequestValidation := true

/-! ## The factor -/

section Factor

variable {showNumber : JsNumber → String} {mode : LinkedIssueMode}
  {context : Option LinkedIssueMultiplierContext}
  {constants : ScoringConstants} {branch : BranchEligibilityResult}

/-- The standard factor applies on a confirmed branch only. -/
theorem applied_standard (showNumber : JsNumber → String)
    (context : Option LinkedIssueMultiplierContext) (constants : ScoringConstants)
    (branch : BranchEligibilityResult) :
    (decideLinkedIssueMultiplier showNumber .standard context constants branch).appliedMultiplier =
      1 ∨
      (decideLinkedIssueMultiplier showNumber .standard context constants
        branch).appliedMultiplier =
          constant constants .standardIssueMultiplier ∧
        isConfirmedBranchEligible branch = true := by
  obtain heligible | heligible :=
    Bool.eq_false_or_eq_true (decideLinkedIssueMultiplier showNumber .standard context constants
      branch).eligible
  · exact Or.inr ⟨if_pos heligible, (Bool.and_eq_true_iff.1 heligible).2⟩
  · exact Or.inl (if_neg (Bool.eq_false_iff.1 heligible))

/-- Under the projection the branch alone decides. -/
theorem applied_projected :
    (decideLinkedIssueMultiplier showNumber .standard (some (projectedContext context)) constants
      branch).appliedMultiplier =
      if isConfirmedBranchEligible branch then constant constants .standardIssueMultiplier
        else 1 := by
  have heligible : (decideLinkedIssueMultiplier showNumber .standard
      (some (projectedContext context)) constants
      branch).eligible = isConfirmedBranchEligible branch := by
    simp [decideLinkedIssueMultiplier, projectedContext, requestedStatus]
  rw [← heligible]
  rfl

/-- **Supposing the evidence takes no factor away.** -/
theorem applied_le_projected (hmode : mode ≠ .maintainer)
    (hfactor : 1 ≤ constant constants .standardIssueMultiplier)
    {supplied : Option BranchEligibilityInput} {own : Option LinkedIssueMode}
    (hown : own.getD .none = mode) :
    (decideLinkedIssueMultiplier showNumber mode context constants
        (normalizeBranchEligibility own supplied)).appliedMultiplier ≤
      (decideLinkedIssueMultiplier showNumber .standard (some (projectedContext context)) constants
        (normalizeBranchEligibility (some .standard) supplied)).appliedMultiplier := by
  rw [applied_projected]
  have hone : (1 : ℚ) ≤ if isConfirmedBranchEligible
      (normalizeBranchEligibility (some .standard) supplied) then
      constant constants .standardIssueMultiplier else 1 := by
    split
    · exact hfactor
    · exact le_rfl
  cases mode with
  | none => exact hone
  | maintainer => exact absurd rfl hmode
  | standard =>
    -- A mode that is absent is `none`, so this one was given.
    obtain rfl : own = some .standard := by
      cases own with
      | none => exact absurd hown (by decide)
      | some own => exact congrArg some hown
    obtain happlied | ⟨happlied, hbranch⟩ := applied_standard showNumber context constants
      (normalizeBranchEligibility (some .standard) supplied)
    · rw [happlied]
      exact hone
    · rw [happlied, if_pos hbranch]

end Factor

end LoopOver.ScorePreview
