import LoopOver.Number
import LoopOver.Planner.Input

/-!
# The gate check

`evaluateGateCheck` turns the findings of an advisory and the policy of a repository into the
verdict of the gate. The repository has it twice, in `src/rules/advisory.ts` for the host and in
`packages/loopover-engine/src/advisory/gate-advisory.ts` for the engine package. This module has
what the two copies share word for word: the data, the helpers and the stages of the evaluation. A
copy is a value of `GateRules`, the three functions in which the two texts differ.

* `evaluateGateCheckCore` is the evaluation and `evaluateGateCheck` adds the verdict of a dry run.
* `conclusion_eq` says which stage decides the conclusion.
-/

namespace LoopOver

open List

/-! ## Scores -/

/-- A score is rounded, half up, and clamped to `0..100`; what is no finite number is no score. -/
def normalizeScore : Option JsNumber → Option ℤ
  | some (.finite value) => some (max 0 (min 100 ⌊value + 1 / 2⌋))
  | _ => none

/-! ## Findings and policies -/

/-- How grave a finding is. -/
inductive AdvisorySeverity
  | info
  | warning
  | critical
  deriving DecidableEq

/-- A finding, with the fields that the gate reads or writes. -/
structure AdvisoryFinding where
  code : String
  title : String
  severity : AdvisorySeverity
  detail : String
  action : Option String := none
  confidence : Option JsNumber := none
  deriving DecidableEq

/-- What a rule does where it applies. -/
inductive GateRuleMode
  | off
  | advisory
  | block
  deriving DecidableEq

/-- What happens to an AI finding below the confidence floor. -/
inductive AiReviewLowConfidenceDisposition
  | oneShot
  | holdForReview
  | advisoryOnly
  deriving DecidableEq

/-- A changed path and the guardrail it matched. -/
structure GuardrailPathMatch where
  path : String
  glob : String
  deriving DecidableEq

/-- The policy of a repository; `none` is a field that is not set. -/
structure GateCheckPolicy where
  linkedIssueGateMode : Option GateRuleMode := none
  duplicatePrGateMode : Option GateRuleMode := none
  qualityGateMode : Option GateRuleMode := none
  qualityGateMinScore : Option JsNumber := none
  aiReviewGateMode : Option GateRuleMode := none
  aiReviewCloseConfidence : Option JsNumber := none
  aiReviewLowConfidenceDisposition : Option AiReviewLowConfidenceDisposition := none
  readinessScore : Option JsNumber := none
  slopGateMode : Option GateRuleMode := none
  slopGateMinScore : Option JsNumber := none
  slopRisk : Option JsNumber := none
  mergeReadinessGateMode : Option GateRuleMode := none
  manifestPolicyGateMode : Option GateRuleMode := none
  selfAuthoredLinkedIssueGateMode : Option GateRuleMode := none
  linkedIssueSatisfactionGateMode : Option GateRuleMode := none
  contentLaneDeliverableGateMode : Option GateRuleMode := none
  backtestRegressionGateMode : Option GateRuleMode := none
  claGateMode : Option GateRuleMode := none
  sizeGateMode : Option GateRuleMode := none
  sizeGateMaxFiles : Option JsNumber := none
  sizeGateMaxLines : Option JsNumber := none
  lockfileIntegrityGateMode : Option GateRuleMode := none
  changedFileCount : Option JsNumber := none
  changedLineCount : Option JsNumber := none
  guardrailHit : Bool := false
  guardrailMatches : List GuardrailPathMatch := []
  dryRun : Bool := false

/-- The inputs of an evaluation, kept for a later replay. -/
structure GateReplay where
  findings : List AdvisoryFinding
  policy : GateCheckPolicy

/-- The verdict, with the findings behind it. -/
structure GateCheckEvaluation where
  enabled : Bool := true
  conclusion : GateCheckConclusion
  displayConclusion : Option GateCheckConclusion := none
  title : String
  summary : String
  blockers : List AdvisoryFinding
  warnings : List AdvisoryFinding
  replay : Option GateReplay := none

/-- The text functions of the gate: `sanitizeForCheckRun`, a chain of redactions that both copies
have byte for byte, and the text of a number in a template. -/
structure GateText where
  sanitizeForCheckRun : String → String
  numberText : JsNumber → String

/-! ## The helpers of the two copies -/

/-- Fails closed: only a mode that is missing where no default was given reads as `block`. -/
def gateMode (value : Option GateRuleMode) : GateRuleMode := value.getD .block

/-- `gateMode(mode ?? defaultMode)`. -/
def gateModeOr (mode : Option GateRuleMode) (defaultMode : GateRuleMode) : GateRuleMode :=
  gateMode (some (mode.getD defaultMode))

@[simp] theorem gateModeOr_eq (mode : Option GateRuleMode) (defaultMode : GateRuleMode) :
    gateModeOr mode defaultMode = mode.getD defaultMode := rfl

/-- The merge-readiness composite, unless it is off, overrides three of the sub-gates. -/
def applyMergeReadinessGate (policy : GateCheckPolicy) : GateCheckPolicy :=
  let composite := gateModeOr policy.mergeReadinessGateMode .off
  if composite = .off then policy
  else
    { policy with
      linkedIssueGateMode := some composite
      duplicatePrGateMode := some composite
      slopGateMode := some composite }

/-- The mode that the composite leaves to one of the three sub-gates. -/
def compositeOr (composite own : Option GateRuleMode) : Option GateRuleMode :=
  if gateModeOr composite .off = .off then own else some (gateModeOr composite .off)

theorem applyMergeReadinessGate_linkedIssueGateMode (policy : GateCheckPolicy) :
    (applyMergeReadinessGate policy).linkedIssueGateMode =
      compositeOr policy.mergeReadinessGateMode policy.linkedIssueGateMode := by
  unfold applyMergeReadinessGate compositeOr
  dsimp only
  split <;> rfl

/-- A dry run looks at the policy with the AI review enforced. -/
def promoteAdvisoryToBlock (policy : GateCheckPolicy) : GateCheckPolicy :=
  { policy with
    dryRun := false
    aiReviewGateMode :=
      if policy.aiReviewGateMode = some .advisory then some .block else policy.aiReviewGateMode }

/-- The codes that say that the pull request cannot be evaluated yet. -/
def isEvaluationBlocker (code : String) (policy : GateCheckPolicy) : Bool :=
  if code == "repo_not_cached" || code == "repo_not_seen" || code == "pr_not_cached" ||
      code == "pre_merge_check_unresolved" then true
  else if code == "cla_check_unresolved" then policy.claGateMode == some .block
  else false

/-- The readiness warning, from the mode in force. -/
def qualityWarning (mode : GateRuleMode) (policy : GateCheckPolicy) : Option AdvisoryFinding :=
  if mode = .off then none
  else
    match normalizeScore policy.readinessScore, normalizeScore policy.qualityGateMinScore with
    | some score, some minScore =>
      if score ≥ minScore then none
      else some
        { code := "readiness_score_below_threshold"
          severity := .warning
          title := "Readiness score is below the configured threshold"
          detail := "The public readiness score is " ++ toString score ++
            "/100, below the repository threshold of " ++ toString minScore ++ "/100."
          action := some
            "Use the readiness panel as advisory maintainer context; the score does not block this PR." }
    | _, _ => none

def defaultSlopBlockThreshold : ℤ := 60

def buildSlopGateBlocker (policy : GateCheckPolicy) : Option AdvisoryFinding :=
  if gateModeOr policy.slopGateMode .advisory ≠ .block then none
  else
    match normalizeScore policy.slopRisk with
    | none => none
    | some risk =>
      let minScore := (normalizeScore policy.slopGateMinScore).getD defaultSlopBlockThreshold
      if risk < minScore then none
      else some
        { code := "slop_risk_above_threshold"
          severity := .warning
          title := "Slop risk is above the configured threshold"
          detail := "The deterministic slop risk is " ++ toString risk ++
            "/100, at or above the repository threshold of " ++ toString minScore ++ "/100."
          action := some
            "Reduce whitespace-only churn, add test evidence, or describe the change, then re-run the gate." }

def sizeHoldDefaultMaxFiles : JsNumber := 10
def sizeHoldDefaultMaxLines : JsNumber := 1000

/-- The hold of an oversized pull request. -/
def buildSizeHoldFinding (text : GateText) (policy : GateCheckPolicy) : Option AdvisoryFinding :=
  if policy.sizeGateMode = none ∨ policy.sizeGateMode = some .off then none
  else
    let files := policy.changedFileCount.getD 0
    let lines := policy.changedLineCount.getD 0
    let maxFiles := policy.sizeGateMaxFiles.getD sizeHoldDefaultMaxFiles
    let maxLines := policy.sizeGateMaxLines.getD sizeHoldDefaultMaxLines
    if files.lt maxFiles && lines.lt maxLines then none
    else some
      { code := "oversized_pr"
        severity := .warning
        title := "Large change — held for manual review"
        detail := "This PR changes " ++ text.numberText files ++ " file(s) / " ++
          text.numberText lines ++ " line(s) (hold threshold: " ++ text.numberText maxFiles ++
          " files or " ++ text.numberText maxLines ++ " lines)."
        action := some
          "Split this into smaller, focused PRs, or a maintainer reviews and merges it manually." }

/-- The hold of a pull request that touches a guarded path. -/
def buildGuardrailHoldFinding (guardrailMatches : List GuardrailPathMatch) : AdvisoryFinding where
  code := "guardrail_hold"
  severity := .warning
  title := "Touches a guarded path — held for manual review"
  detail :=
    if guardrailMatches.length > 0 then
      "This PR changes guardrail-protected path(s): " ++
        ", ".intercalate ((guardrailMatches.take 5).map fun m =>
          "`" ++ m.path ++ "` (matched `" ++ m.glob ++ "`)") ++
        (if guardrailMatches.length > 5 then
          ", and " ++ toString (guardrailMatches.length - 5) ++ " more" else "") ++ "."
    else
      "This PR changes a guardrail-protected path, or the changed-file list could not be " ++
        "verified while guardrails are configured."
  action := some "A maintainer must review and merge this change."

/-! ## The evaluation -/

/-- What the two copies of the gate define each for itself. -/
structure GateRules where
  isConfiguredGateBlocker : AdvisoryFinding → GateCheckPolicy → Bool
  buildQualityGateWarning : GateCheckPolicy → Option AdvisoryFinding
  /-- The codes of a blocker that holds instead of failing. -/
  isDuplicateOnly : String → Bool

def loopoverGateCheckName : String := "LoopOver Orb Review Agent"

/-- `findings.map(title).join("; ")`, redacted. -/
def titlesOf (text : GateText) (findings : List AdvisoryFinding) : String :=
  "; ".intercalate (findings.map fun finding => text.sanitizeForCheckRun finding.title)

def warningsOf (findings : List AdvisoryFinding) : List AdvisoryFinding :=
  findings.filter fun finding => finding.severity == .warning

/-- The two manual-review holds. -/
def manualHolds (text : GateText) (policy : GateCheckPolicy) : List AdvisoryFinding :=
  (buildSizeHoldFinding text policy).toList ++
    (if policy.guardrailHit then [buildGuardrailHoldFinding policy.guardrailMatches] else [])

/-- The verdict when nothing blocks: one of the holds, or a pass. -/
def unblockedVerdict (text : GateText) (findings : List AdvisoryFinding)
    (effective : GateCheckPolicy) (gateWarnings : List AdvisoryFinding) : GateCheckEvaluation :=
  let secretScanIncompleteFindings :=
    findings.filter fun finding => finding.code == "secret_scan_incomplete"
  let holds := manualHolds text effective
  if gateModeOr effective.aiReviewGateMode .advisory = .block ∧
      findings.any (fun finding => finding.code == "ai_review_inconclusive") = true then
    { conclusion := .neutral
      title := loopoverGateCheckName ++ " — held for human review"
      summary :=
        "The AI review could not be completed for this change, so the gate is held for a human " ++
          "reviewer rather than passed automatically. It re-evaluates on the next update."
      blockers := []
      warnings := gateWarnings }
  else if secretScanIncompleteFindings.length > 0 then
    { conclusion := .neutral
      title := loopoverGateCheckName ++ " — held for human review"
      summary := titlesOf text secretScanIncompleteFindings
      blockers := []
      warnings := gateWarnings ++ secretScanIncompleteFindings }
  else if holds.length > 0 then
    { conclusion := .neutral
      title := loopoverGateCheckName ++ " — held for manual review"
      summary := titlesOf text holds
      blockers := []
      warnings := gateWarnings ++ holds }
  else
    { conclusion := .success
      title := loopoverGateCheckName ++ " passed"
      summary := "No configured hard blocker was found. Advisory findings, if any, stay advisory."
      blockers := []
      warnings := gateWarnings }

/-- The title of a failed gate names its only blocker, or counts them. -/
def failureTitleDetail (text : GateText) : List AdvisoryFinding → String
  | [blocker] => text.sanitizeForCheckRun blocker.title
  | blockers => toString blockers.length ++ " blockers"

/-- One blocker and the way to fix it. -/
def failureSummary (text : GateText) (finding : AdvisoryFinding) : String :=
  text.sanitizeForCheckRun finding.title ++
    match truthy finding.action with
    | some action => " — " ++ text.sanitizeForCheckRun action
    | none => ""

/-- The verdict over some blockers: a hold when all of them are duplicates, else a failure.
`otherWarnings` are the warnings of the advisory that are no blockers. -/
def blockedVerdict (rules : GateRules) (text : GateText)
    (blockers otherWarnings : List AdvisoryFinding) :
    GateCheckEvaluation :=
  if blockers.all fun blocker => rules.isDuplicateOnly blocker.code then
    { conclusion := .neutral
      title := loopoverGateCheckName ++ " — held for manual review"
      summary := titlesOf text blockers
      blockers := []
      warnings := otherWarnings ++ blockers }
  else
    { conclusion := .failure
      title := loopoverGateCheckName ++ ": " ++ failureTitleDetail text blockers
      summary := "; ".intercalate (blockers.map (failureSummary text))
      blockers := blockers
      warnings := otherWarnings }

namespace GateRules

variable (rules : GateRules) (text : GateText) (findings : List AdvisoryFinding)
  (policy : GateCheckPolicy)

/-- The blockers among the findings, and the slop blocker that the gate adds itself. -/
def blockers (effective : GateCheckPolicy) : List AdvisoryFinding :=
  findings.filter (rules.isConfiguredGateBlocker · effective) ++
    (buildSlopGateBlocker effective).toList

/-- The warnings that are no blockers. The source compares objects: a warning of the advisory is
among the blockers exactly when it is a configured blocker, and the quality warning is a new
object. -/
def otherWarnings (effective : GateCheckPolicy) : List AdvisoryFinding :=
  (warningsOf findings).filter (fun finding => !rules.isConfiguredGateBlocker finding effective) ++
    (rules.buildQualityGateWarning effective).toList

def evaluateGateCheckCore : GateCheckEvaluation :=
  if findings.any fun finding => isEvaluationBlocker finding.code policy then
    { conclusion := .neutral
      title := loopoverGateCheckName ++ " — not evaluated yet"
      summary :=
        "LoopOver has not finished syncing this repo/PR. The gate stays advisory and " ++
          "re-evaluates automatically; no action is needed."
      blockers := []
      warnings := warningsOf findings }
  else
    let effective := applyMergeReadinessGate policy
    let blockers := rules.blockers findings effective
    if blockers.length = 0 then
      unblockedVerdict text findings effective
        (warningsOf findings ++ (rules.buildQualityGateWarning effective).toList)
    else blockedVerdict rules text blockers (rules.otherWarnings findings effective)

/-- The evaluation; a dry run also shows the conclusion with the AI review enforced. -/
def evaluateGateCheck : GateCheckEvaluation :=
  let result := rules.evaluateGateCheckCore text findings policy
  if !policy.dryRun then result
  else
    let wouldBe := rules.evaluateGateCheckCore text findings (promoteAdvisoryToBlock policy)
    { result with displayConclusion := some wouldBe.conclusion }

/-! ## Which stage decides -/

/-- One of the holds for a gate that nothing blocks. -/
def isHeld (effective : GateCheckPolicy) : Bool :=
  (gateModeOr effective.aiReviewGateMode .advisory == .block &&
      findings.any fun finding => finding.code == "ai_review_inconclusive") ||
    (findings.any fun finding => finding.code == "secret_scan_incomplete") ||
    (manualHolds text effective).length > 0

theorem unblockedVerdict_conclusion {effective : GateCheckPolicy}
    {gateWarnings : List AdvisoryFinding} :
    (unblockedVerdict text findings effective gateWarnings).conclusion =
      if isHeld text findings effective then .neutral else .success := by
  have hscan : ((findings.filter fun finding => finding.code == "secret_scan_incomplete").length >
      0) ↔
      (findings.any fun finding => finding.code == "secret_scan_incomplete") = true := by
    simp [length_pos_iff_exists_mem]
  simp only [unblockedVerdict, hscan, isHeld, Bool.or_eq_true, Bool.and_eq_true, beq_iff_eq,
    decide_eq_true_eq]
  split_ifs <;> first | rfl | tauto

theorem blockedVerdict_conclusion {blockers otherWarnings : List AdvisoryFinding} :
    (blockedVerdict rules text blockers otherWarnings).conclusion =
      if blockers.all fun blocker => rules.isDuplicateOnly blocker.code then .neutral
      else .failure := by
  unfold blockedVerdict
  split <;> rfl

@[simp] theorem evaluateGateCheck_conclusion :
    (rules.evaluateGateCheck text findings policy).conclusion =
      (rules.evaluateGateCheckCore text findings policy).conclusion := by
  unfold evaluateGateCheck
  split <;> rfl

/-- **The stages of the conclusion**, in their order. -/
theorem conclusion_eq :
    (rules.evaluateGateCheckCore text findings policy).conclusion =
      if findings.any fun finding => isEvaluationBlocker finding.code policy then .neutral
      else if rules.blockers findings (applyMergeReadinessGate policy) = [] then
        if isHeld text findings (applyMergeReadinessGate policy) then .neutral else .success
      else if (rules.blockers findings (applyMergeReadinessGate policy)).all
          fun blocker => rules.isDuplicateOnly blocker.code then .neutral
      else .failure := by
  simp only [evaluateGateCheckCore, length_eq_zero_iff]
  split
  · rfl
  · split
    · exact unblockedVerdict_conclusion text findings
    · exact blockedVerdict_conclusion rules text

variable {rules text findings policy}

/-- What keeps a gate from passing. -/
theorem conclusion_ne_success_iff :
    (rules.evaluateGateCheckCore text findings policy).conclusion ≠ .success ↔
      (∃ finding ∈ findings, isEvaluationBlocker finding.code policy = true) ∨
      rules.blockers findings (applyMergeReadinessGate policy) ≠ [] ∨
      isHeld text findings (applyMergeReadinessGate policy) = true := by
  rw [conclusion_eq, ← any_eq_true]
  split_ifs <;> simp_all

/-- What fails a gate: a blocker other than a duplicate, once the pull request can be evaluated. -/
theorem conclusion_eq_failure_iff :
    (rules.evaluateGateCheckCore text findings policy).conclusion = .failure ↔
      (∀ finding ∈ findings, isEvaluationBlocker finding.code policy = false) ∧
      ∃ blocker ∈ rules.blockers findings (applyMergeReadinessGate policy),
        rules.isDuplicateOnly blocker.code = false := by
  have hany : (findings.any fun finding => isEvaluationBlocker finding.code policy) = true ↔
      ¬∀ finding ∈ findings, isEvaluationBlocker finding.code policy = false := by simp
  have hall : ((rules.blockers findings (applyMergeReadinessGate policy)).all
      fun blocker => rules.isDuplicateOnly blocker.code) = true ↔
      ¬∃ blocker ∈ rules.blockers findings (applyMergeReadinessGate policy),
        rules.isDuplicateOnly blocker.code = false := by simp
  have hnil : rules.blockers findings (applyMergeReadinessGate policy) = [] →
      ¬∃ blocker ∈ rules.blockers findings (applyMergeReadinessGate policy),
        rules.isDuplicateOnly blocker.code = false := by
    intro h
    simp [h]
  rw [conclusion_eq]
  simp only [hany, hall]
  split_ifs <;> first | tauto | simp_all

/-- A gate lists no blocker that its rules do not name. -/
theorem mem_blockers_of_mem_evaluation {finding : AdvisoryFinding}
    (h : finding ∈ (rules.evaluateGateCheck text findings policy).blockers) :
    finding ∈ rules.blockers findings (applyMergeReadinessGate policy) := by
  have hcore : finding ∈ (rules.evaluateGateCheckCore text findings policy).blockers := by
    unfold evaluateGateCheck at h
    split at h <;> exact h
  unfold evaluateGateCheckCore at hcore
  split at hcore
  · cases hcore
  · dsimp only at hcore
    split at hcore
    · unfold unblockedVerdict at hcore
      dsimp only at hcore
      split_ifs at hcore <;> cases hcore
    · unfold blockedVerdict at hcore
      split at hcore
      · cases hcore
      · exact hcore

/-- A failed gate lists all its blockers. -/
theorem evaluation_blockers_eq (text : GateText)
    (hevaluated : (findings.any fun finding => isEvaluationBlocker finding.code policy) = false)
    (hblockers : rules.blockers findings (applyMergeReadinessGate policy) ≠ [])
    (hother : ((rules.blockers findings (applyMergeReadinessGate policy)).all
      fun blocker => rules.isDuplicateOnly blocker.code) = false) :
    (rules.evaluateGateCheck text findings policy).blockers =
      rules.blockers findings (applyMergeReadinessGate policy) := by
  have hcore : (rules.evaluateGateCheckCore text findings policy).blockers =
      rules.blockers findings (applyMergeReadinessGate policy) := by
    simp [evaluateGateCheckCore, hevaluated, hblockers, blockedVerdict, hother]
  rw [← hcore]
  unfold evaluateGateCheck
  split <;> rfl

/-- Two copies that block on the same findings of the list evaluate it alike. -/
theorem evaluateGateCheckCore_congr {other : GateRules}
    (hquality : rules.buildQualityGateWarning = other.buildQualityGateWarning)
    (hduplicate : rules.isDuplicateOnly = other.isDuplicateOnly)
    (hblocks : ∀ finding ∈ findings,
      rules.isConfiguredGateBlocker finding (applyMergeReadinessGate policy) =
        other.isConfiguredGateBlocker finding (applyMergeReadinessGate policy)) :
    rules.evaluateGateCheckCore text findings policy =
      other.evaluateGateCheckCore text findings policy := by
  have hblockers : rules.blockers findings (applyMergeReadinessGate policy) =
      other.blockers findings (applyMergeReadinessGate policy) := by
    rw [blockers, blockers, filter_congr hblocks]
  have hwarnings : rules.otherWarnings findings (applyMergeReadinessGate policy) =
      other.otherWarnings findings (applyMergeReadinessGate policy) := by
    have hfilter : (warningsOf findings).filter (fun finding =>
        !rules.isConfiguredGateBlocker finding (applyMergeReadinessGate policy)) =
        (warningsOf findings).filter fun finding =>
          !other.isConfiguredGateBlocker finding (applyMergeReadinessGate policy) := by
      refine filter_congr fun finding hmem => ?_
      rw [hblocks finding (mem_of_mem_filter hmem)]
    rw [otherWarnings, otherWarnings, hfilter, hquality]
  simp only [evaluateGateCheckCore, hblockers, hwarnings, hquality, blockedVerdict, hduplicate]

end GateRules

end LoopOver
