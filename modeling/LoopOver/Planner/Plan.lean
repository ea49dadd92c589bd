import LoopOver.Foundations.Accumulate
import LoopOver.Planner.Input

/-!
# The planner

`planAgentMaintenanceActions` of `src/settings/agent-actions.ts`: from the gate verdict, the state
of the pull request and the repository's autonomy, the actions to take on one pull request.

The source is one function of some nine hundred lines. Here it is cut where its comments number it:

* the short circuits, each a deterministic close ahead of any review (`planShortCircuit`);
* the two actions planned while CI may still be pending (`planEarly`);
* the stages of the disposition, each reading the actions pushed so far (`dispositionStages`), run
  in order by `accumulate`.

`reachesDisposition` says which inputs get past the early returns.
-/

namespace LoopOver

/-! ## Concrete evidence -/

/-- `CONCRETE_EVIDENCE_BLOCKER_CODES`. -/
def concreteEvidenceBlockerCodes : List String :=
  ["secret_leak", "duplicate_pr_risk", "surface_lane_reject", "manifest_missing_tests",
    "manifest_linked_issue_required", "pre_merge_check_required", "lockfile_tamper_risk",
    "missing_linked_issue", "linked_issue_superseded", "self_authored_linked_issue",
    "content_lane_deliverable_missing"]

/-- `AI_JUDGMENT_BLOCKER_CODES`. -/
def aiJudgmentBlockerCodes : List String := ["ai_consensus_defect", "ai_review_split"]

/-- The blocker codes that are concrete evidence for a close. -/
def concreteCloseEvidenceCodes (input : AgentActionPlanInput) : List String :=
  (input.gateBlockerCodes.getD []).filter fun code =>
    concreteEvidenceBlockerCodes.contains code && !aiJudgmentBlockerCodes.contains code

/-- Red CI, a base conflict or a concrete blocker code. -/
def hasConcreteCloseEvidence (input : AgentActionPlanInput) (ciFailed isConflict : Bool) : Bool :=
  ciFailed || isConflict || !(concreteCloseEvidenceCodes input).isEmpty

/-! ## Close comments -/

def closeMessage (reasons : List String) : String :=
  "LoopOver is closing this pull request on the maintainer's behalf (" ++
    "; ".intercalate reasons ++ "). This is an automated maintenance action — to pursue this " ++
    "change, please open a new pull request with the issues resolved. Closed PRs may be analyzed " ++
    "later to improve review accuracy, but they are not automatically reopened or re-reviewed."

def blacklistCloseMessage : String :=
  "LoopOver is closing this pull request on the maintainer's behalf. This account is blocked from " ++
  "contributing to this repository, so the change was not reviewed on its merits. This is an " ++
  "automated maintenance action."

def contributorCapCloseMessage (cap : ContributorCapMatch) : String :=
  let scopeDescription :=
    if cap.scope = some .install then
      "this install's configured limit (across every repository it gates, combined)"
    else "this repository's configured limit"
  "LoopOver closed this because @" ++ cap.authorLogin ++ " has " ++ toString cap.openCount ++
    " open " ++ cap.itemKind.noun ++ ", above " ++ scopeDescription ++ " of " ++
    toString cap.cap ++
      ". Close or merge an existing one to open a new one. This is an automated " ++
    "maintenance action."

def reviewNagCloseMessage (nag : ReviewNagMatch) : String :=
  "LoopOver closed this because @" ++ nag.authorLogin ++ " pinged @loopover " ++
    toString nag.pingCount ++ " times, above this repository's configured limit of " ++
    toString nag.maxPings ++ ". Please wait for the cooldown window to pass before requesting " ++
    "review again. This is an automated maintenance action."

def copycatCloseMessage (matchedPullNumber : Nat) : String :=
  "LoopOver is closing this pull request on the maintainer's behalf. Its added code overlaps prior " ++
  "art already submitted in #" ++ toString matchedPullNumber ++ " above this repository's " ++
  "configured threshold. This is an automated maintenance action — to pursue original work, please " ++
  "open a new pull request."

def screenshotTableCloseMessage (reason : String) : String :=
  reason ++ " This is an automated maintenance action."

def advisoryHoldReason (holds : List CheckRunNote) : String :=
  "advisory check-run held for manual review: " ++ "; ".intercalate (holds.map fun h =>
    "\"" ++ h.name ++ "\" (" ++ h.appSlug ++ ") concluded " ++ h.conclusion)

def advisoryHoldComment (holds : List CheckRunNote) : String :=
  "Held for manual review: a maintainer-configured advisory check-run reported a non-passing " ++
  "result — " ++ "; ".intercalate (holds.map fun h =>
    "`" ++ h.name ++ "` (from `" ++ h.appSlug ++ "`) concluded `" ++ h.conclusion ++ "`") ++
    ". This does not block CI, but a maintainer should review it. This is an automated maintenance " ++
    "action."

section Stages

variable (text : Text) (input : AgentActionPlanInput)

/-! ## Short circuits -/

/-- The close of a deterministic short circuit followed by the label coupled to it, both authorized
by `close`. The label comes second so that the executor knows how the close went. -/
def shortCircuitClose (reason comment : String) (closeKind : CloseKind) (label : Option String) :
    List PlannedAgentAction :=
  if input.acting .close then
    { actionClass := .close
      requiresApproval := input.approval .close
      reason
      closeReasons := some [reason]
      closeComment := some (text.sanitizePublicComment comment)
      closeKind := some closeKind
      expectedHeadSha := truthy input.pr.headSha } ::
    (label.map fun label =>
      { actionClass := .label
        autonomyClass := some .close
        closeKind := some closeKind
        requiresApproval := input.approval .close
        reason
        label := some label
        labelOp := some .add : PlannedAgentAction }).toList
  else []

/-- The short circuit for a blacklisted contributor. -/
def planBlacklistClose : Option (List PlannedAgentAction) :=
  if input.blacklistMatched && input.isContributor then
    some (shortCircuitClose text input "blacklisted contributor" blacklistCloseMessage .blacklist
      (resolveNullableLabel input.blacklistLabel defaultBlacklistLabel))
  else none

/-- The short circuit for a contributor over the open-item cap. -/
def planContributorCapClose : Option (List PlannedAgentAction) :=
  match input.contributorCapMatch with
  | some cap =>
    if cap.matched && input.isContributor then
      some (shortCircuitClose text input "over the per-contributor open-item cap"
        (contributorCapCloseMessage cap) .contributorCap
        (resolveNullableLabel input.contributorCapLabel defaultContributorCapLabel))
    else none
  | none => none

/-- The short circuit for review nagging. -/
def planReviewNagClose : Option (List PlannedAgentAction) :=
  match input.reviewNagMatch with
  | some nag =>
    if nag.matched && input.isContributor then
      some (shortCircuitClose text input "review-nag cooldown" (reviewNagCloseMessage nag)
        .reviewNag (resolveNullableLabel input.reviewNagLabel defaultReviewNagLabel))
    else none
  | none => none

/-- The short circuit for a copycat match, in `block` mode only. -/
def planCopycatClose : Option (List PlannedAgentAction) :=
  match input.copycatMatch with
  | some copy =>
    if copy.matched && input.isContributor && input.copycatGateMode == some .block then
      some (shortCircuitClose text input "copycat containment above threshold"
        (copycatCloseMessage copy.matchedPullNumber) .copycat
        (resolveNullableLabel input.copycatLabel defaultCopycatLabel))
    else none
  | none => none

/-- The screenshot-table gate: unresolved evidence plans nothing at all, a violation closes without
a label. -/
def planScreenshotTableClose : Option (List PlannedAgentAction) :=
  if input.screenshotTableEvidenceUnresolved && input.isContributor then some []
  else
    match input.screenshotTableMatch with
    | some shot =>
      if shot.matched && input.isContributor then
        some (shortCircuitClose text input "missing before/after screenshot table"
          (screenshotTableCloseMessage
            (shot.reason.getD "missing a before/after screenshot table")) .screenshotTable none)
      else none
    | none => none

/-- The first short circuit that applies, if any. -/
def planShortCircuit : Option (List PlannedAgentAction) :=
  planBlacklistClose text input <|> planContributorCapClose text input <|>
    planReviewNagClose text input <|> planCopycatClose text input <|>
    planScreenshotTableClose text input

/-! ## Actions independent of CI -/

/-- `maybePlanAssign`: assign the opening contributor. -/
def maybePlanAssign : List PlannedAgentAction :=
  match truthy input.pr.authorLogin with
  | some login =>
    pushWhen (input.acting .assign)
      { actionClass := .assign
        requiresApproval := input.approval .assign
        reason := "auto-assign PR opener"
        assignee := some login }
  | none => []

/-- `maybePlanCopycatLabel`: the `label` tier of the copycat gate. -/
def maybePlanCopycatLabel : List PlannedAgentAction :=
  match resolveNullableLabel input.copycatLabel defaultCopycatLabel with
  | some label =>
    pushWhen
      (input.copycatGateMode == some .label && input.copycatMatch.any (·.matched) &&
        input.isContributor && input.acting .label)
      { actionClass := .label
        closeKind := some .copycat
        requiresApproval := input.approval .label
        reason := "copycat containment above threshold"
        label := some label
        labelOp := some .add }
  | none => []

/-- What is planned before CI has to settle. -/
def planEarly : List PlannedAgentAction := maybePlanAssign input ++ maybePlanCopycatLabel input

/-! ## Manual-review label -/

/-- Add the manual-review label, authorized by `merge`, when `guard` holds a review-good pull
request and the label is not on it or planned already. -/
def manualReviewHoldLabel (guard : Bool) (reason : String) (comment : Option String)
    (actions : List PlannedAgentAction) : List PlannedAgentAction :=
  match input.labels.manualReview with
  | some label =>
    pushWhen
      (input.reviewGood && guard && input.acting .merge &&
        !hasLabelOrPlanned text input.pr.labels actions label)
      { actionClass := .label
        autonomyClass := some .merge
        requiresApproval := input.approval .merge
        reason := input.verdictReason reason
        label := some label
        labelOp := some .add
        comment := comment.map text.sanitizePublicComment }
  | none => []

/-- 1) The hold of a guarded path that no escalated review cleared. -/
def guardrailHoldLabel : List PlannedAgentAction → List PlannedAgentAction :=
  manualReviewHoldLabel text input
    (input.guardrailHit text && !input.guardrailEscalationCleared text)
    (input.guardrailReason text) none

/-- 1b) Lift a hold that the planner itself applied and nothing wants any more. -/
def manualReviewRelease (_actions : List PlannedAgentAction) : List PlannedAgentAction :=
  match input.labels.manualReview with
  | some label =>
    pushWhen
      (input.noManualReviewHoldWanted text && input.manualReviewLabelAppliedSha.isSome &&
        hasLabel text input.pr.labels label)
      { actionClass := .label
        autonomyClass := some .merge
        requiresApproval := input.approval .merge
        reason := "manual-review hold resolved — clearing the \"" ++ label ++
          "\" label the bot applied"
        label := some label
        labelOp := some .remove }
  | none => []

/-- 1c) A migration collision, where no review-state label will show it. -/
def migrationCollisionHoldLabel (actions : List PlannedAgentAction) : List PlannedAgentAction :=
  match input.migrationCollisionHold with
  | some hold =>
    manualReviewHoldLabel text input (!input.acting .reviewStateLabel) hold.reason
      (some hold.comment) actions
  | none => []

/-- 1d) An unlinked-issue match, where no review-state label will show it. -/
def unlinkedIssueMatchHoldLabel (actions : List PlannedAgentAction) : List PlannedAgentAction :=
  match input.unlinkedIssueMatchHold with
  | some hold =>
    manualReviewHoldLabel text input (!input.acting .reviewStateLabel) hold.reason
      (some hold.comment) actions
  | none => []

/-- Missing screenshot evidence in the gate's `block` tier. -/
def screenshotEvidenceHoldLabel (actions : List PlannedAgentAction) : List PlannedAgentAction :=
  match input.screenshotEvidenceHold with
  | some hold => manualReviewHoldLabel text input true hold.reason (some hold.comment) actions
  | none => []

/-- 1d-priority) A priority issue whose eligibility window has not elapsed. -/
def priorityEligibilityHoldLabel (actions : List PlannedAgentAction) : List PlannedAgentAction :=
  match input.priorityEligibilityHold with
  | some hold => manualReviewHoldLabel text input true hold.reason (some hold.comment) actions
  | none => []

/-- 1e) A repeat unlinked-issue match that `close` cannot act on. -/
def unlinkedIssueMatchCloseHoldLabel (actions : List PlannedAgentAction) :
    List PlannedAgentAction :=
  match input.unlinkedIssueMatchClose with
  | some hold =>
    manualReviewHoldLabel text input (!input.acting .close && !input.acting .reviewStateLabel)
      hold.reason (some hold.comment) actions
  | none => []

/-! ## Review-state labels -/

/-- The disposition label of this pass. An unstable merge state gets none. -/
def reviewStateLabel : Option String :=
  if input.linkedIssueCloseInFlight text || input.unlinkedIssueMatchViolated ||
      !input.reviewGood then
    input.labels.changesRequested
  else if input.migrationCollisionHold.isSome then input.labels.migrationCollision
  else if input.heldForManualReview text || input.mergeTerminallyBlocked then
    input.labels.manualReview
  else if (input.disposition text).heldForUnstableMergeState then none
  else input.labels.readyToMerge

/-- The reason recorded with the disposition label. -/
def reviewStateReason : String :=
  if input.linkedIssueCloseInFlight text then
    "linked-issue hard rule: " ++
      (input.linkedIssueHardRule.bind (·.reason)).getD "ineligible linked issue"
  else if !input.reviewGood && !input.unlinkedIssueMatchViolated then input.notGoodReason
  else
    -- A violated repeat match is named first; otherwise the holds in the order the source checks
    -- them.
    match (if input.unlinkedIssueMatchViolated then input.unlinkedIssueMatchClose else none) with
    | some close => input.verdictReason close.reason
    | none =>
      match input.migrationCollisionHold <|> input.unlinkedIssueMatchHold <|>
          input.unlinkedIssueMatchClose with
      | some hold => input.verdictReason hold.reason
      | none =>
        if input.advisoryCheckHeld then
          input.verdictReason (advisoryHoldReason (input.advisoryCheckHold.getD []))
        else if input.heldForManualReview text then
          input.verdictReason (input.guardrailReason text)
        else if input.mergeTerminallyBlocked then
          input.verdictReason ("CI green, but a prior merge attempt failed and is held: " ++
            input.pr.mergeBlockedReason.getD "reason unrecorded")
        else input.verdictReason "CI green"

/-- The comment a hold posts with its disposition label. -/
def reviewStateComment : Option String :=
  if !input.linkedIssueCloseInFlight text && !input.unlinkedIssueMatchViolated &&
      input.reviewGood then
    match input.migrationCollisionHold <|> input.unlinkedIssueMatchHold <|>
        input.unlinkedIssueMatchClose with
    | some hold => some (text.sanitizePublicComment hold.comment)
    | none =>
      if input.advisoryCheckHeld then
        some (text.sanitizePublicComment (advisoryHoldComment (input.advisoryCheckHold.getD [])))
      else
        input.screenshotEvidenceHold.map fun hold => text.sanitizePublicComment hold.comment
  else none

/-- 2) Add the disposition label of this pass. -/
def reviewStateLabelAdd (actions : List PlannedAgentAction) : List PlannedAgentAction :=
  match reviewStateLabel text input with
  | some label =>
    pushWhen
      (input.acting .reviewStateLabel &&
        !hasLabelOrPlanned text input.pr.labels actions label)
      { actionClass := .label
        autonomyClass := some .reviewStateLabel
        requiresApproval := input.approval .reviewStateLabel
        reason := reviewStateReason text input
        label := some label
        comment := reviewStateComment text input }
  | none => []

/-- The sibling labels to clear: those live on the pull request other than the one chosen, each name
once. `handled` holds the lowered names already cleared. -/
def staleSiblings (live : List String) (chosen : Option String) :
    List (Option String) → List String → List String
  | [], _ => []
  | none :: rest, handled => staleSiblings live chosen rest handled
  | some stale :: rest, handled =>
    if some stale = chosen || handled.contains (text.toLowerCase stale) ||
        !(live.map text.toLowerCase).contains (text.toLowerCase stale) then
      staleSiblings live chosen rest handled
    else stale :: staleSiblings live chosen rest (text.toLowerCase stale :: handled)

/-- Clear the disposition labels of earlier passes. The manual-review label is not among them: it is
also how a maintainer freezes a pull request. -/
def staleDispositionCleanup (_actions : List PlannedAgentAction) : List PlannedAgentAction :=
  if input.acting .reviewStateLabel then
    (staleSiblings text input.pr.labels (reviewStateLabel text input)
      [input.labels.readyToMerge, input.labels.migrationCollision, input.labels.changesRequested]
      []).map fun stale =>
        { actionClass := .label
          autonomyClass := some .reviewStateLabel
          requiresApproval := input.approval .reviewStateLabel
          reason := "disposition resolved — clearing the stale \"" ++ stale ++ "\" label"
          label := some stale
          labelOp := some .remove }
  else []

/-- Pass 1 of the linked-issue double check: the pending-closure flag with its warning. -/
def pendingClosureFlag (_actions : List PlannedAgentAction) : List PlannedAgentAction :=
  match input.labels.pendingClosure with
  | some label =>
    let ruleReason := (input.linkedIssueHardRule.bind (·.reason)).getD
      "the linked issue is not eligible for a community PR"
    let window := if 0 < input.closeDelaySeconds then "~" ++ toString input.closeDelaySeconds ++ "s"
      else "the next verification"
    pushWhen (input.acting .reviewStateLabel && input.flagForLinkedIssue text)
      { actionClass := .label
        autonomyClass := some .reviewStateLabel
        closeKind := some .linkedIssueHardRule
        requiresApproval := input.approval .reviewStateLabel
        reason := "linked-issue hard rule (flagged for verification): " ++ ruleReason
        label := some label
        labelOp := some .add
        comment := some ("⚠️ This PR links an ineligible issue (" ++ ruleReason ++
          ") and will be closed on re-verification in " ++ window ++
          " unless the linked issue changes.") }
  | none => []

/-- The violation cleared: remove the flag of an earlier pass. -/
def pendingClosureClear (_actions : List PlannedAgentAction) : List PlannedAgentAction :=
  match input.labels.pendingClosure with
  | some label =>
    pushWhen (input.acting .reviewStateLabel && input.clearLinkedIssueFlag text)
      { actionClass := .label
        autonomyClass := some .reviewStateLabel
        closeKind := some .linkedIssueHardRule
        requiresApproval := input.approval .reviewStateLabel
        reason := "linked-issue hard rule resolved — clearing the pending-closure flag"
        label := some label
        labelOp := some .remove
        comment := some
          "✓ The linked-issue hard-rule violation is resolved — this PR is no longer pending closure." }
  | none => []

/-! ## Review -/

/-- The pull request earns an approval that was not given yet. -/
def approves : Bool :=
  (input.disposition text).wouldApprove && !input.linkedIssueCloseInFlight text &&
    input.acting .approve && input.pr.reviewDecision != some "APPROVED" &&
    !input.alreadyApprovedThisHead

/-- The bot approved another head, and nothing in this pass makes that moot. -/
def retractsApproval : Bool :=
  input.pr.approvedHeadSha.isSome && input.pr.headSha.isSome &&
    input.pr.approvedHeadSha != input.pr.headSha && input.acting .approve &&
    !input.canMerge text && !input.willClose text && !input.willCloseForLinkedIssue text

/-- 3) Approve, or retract an approval that went stale. -/
def reviewActions (_actions : List PlannedAgentAction) : List PlannedAgentAction :=
  if approves text input then
    [{ actionClass := .approve
       requiresApproval := input.approval .approve
       reason := "gate passed, CI green"
       reviewBody := some "LoopOver approves — the gate is satisfied and CI is green."
       expectedHeadSha := truthy input.pr.headSha }]
  else
    pushWhen (retractsApproval text input)
      { actionClass := .approve
        requiresApproval := input.approval .approve
        reason := "stale approval retracted — a newer commit no longer qualifies for approval"
        dismissStaleApproval := some true
        expectedHeadSha := input.pr.headSha }

/-! ## Disposition -/

/-- `DEFAULT_SLOP_GATE_MIN_SCORE`. -/
def defaultSlopGateMinScore : Nat := 60

/-- Every signal that speaks for a heuristic close, as its comment lists them. -/
def heuristicCloseReasons : List String :=
  let slopGateMinScore := input.slopGateMinScore.getD defaultSlopGateMinScore
  let reasons :=
    pushWhen input.ciFailed input.ciReason ++
    pushWhen (input.isConflict text)
      "conflicts with the base branch — resolve and open a fresh PR" ++
    input.blockerTitles ++
    (match input.pr.slopRisk with
      | some slopRisk =>
        pushWhen (decide (slopGateMinScore ≤ slopRisk))
          ("slop score " ++ toString slopRisk ++ " ≥ " ++ toString slopGateMinScore)
      | none => []) ++
    pushWhen (decide (0 < input.pr.linkedDuplicateCount.getD 0))
      (match input.pr.linkedDuplicateWinnerNumber with
        | some winner => "duplicate of open PR #" ++ toString winner
        | none => "duplicate of another open PR")
  if reasons.isEmpty then ["the review gate is not satisfied"] else reasons

/-- The close of a violated linked-issue rule. -/
def linkedIssueClose : PlannedAgentAction :=
  let reason := (input.linkedIssueHardRule.bind (·.reason)).getD
    "the linked issue is not eligible for a community PR"
  { actionClass := .close
    requiresApproval := input.approval .close
    reason
    closeReasons := some [reason]
    closeComment := some (closeMessage [reason])
    closeKind := some .linkedIssueHardRule
    expectedHeadSha := truthy input.pr.headSha }

/-- The close of a repeat unlinked-issue match. -/
def unlinkedIssueClose (close : HoldNote) : PlannedAgentAction where
  actionClass := .close
  requiresApproval := input.approval .close
  reason := close.reason
  closeReasons := some [close.reason]
  closeComment := some (closeMessage [close.reason])
  closeKind := some .heuristic
  closeRequiresCiState := some .notRequired
  expectedHeadSha := truthy input.pr.headSha

/-- The merge, pinned to the reviewed head. -/
def mergeAction : PlannedAgentAction where
  actionClass := .merge
  requiresApproval := input.approval .merge
  reason := "gate passed, CI green, mergeable, " ++
    toString input.maintainPolicy.requireApprovals ++ " approval(s) satisfied"
  mergeMethod := some input.maintainPolicy.mergeMethod
  expectedHeadSha := truthy input.pr.headSha

/-- The close of a pull request with a real adverse signal. -/
def heuristicClose : PlannedAgentAction :=
  let closeReasons := heuristicCloseReasons text input
  { actionClass := .close
    requiresApproval := input.approval .close
    reason := "; ".intercalate closeReasons
    closeReasons := some closeReasons
    closeComment := some (closeMessage closeReasons)
    closeKind := some .heuristic
    closeConcreteEvidence :=
      some (hasConcreteCloseEvidence input input.ciFailed (input.isConflict text))
    closeConcreteEvidenceCodes := some (concreteCloseEvidenceCodes input)
    expectedHeadSha := truthy input.pr.headSha
    closeRequiresCiState := some (if input.ciFailed then .failed else .notRequired)
    closeRequiresMergeableState := some (input.isConflict text)
    closeRequiresThreadResolved := some input.isReviewThreadJustified
    closeRequiresDuplicateStillOpen := some (decide (0 < input.pr.linkedDuplicateCount.getD 0))
    duplicateWinnerPrNumber := input.pr.linkedDuplicateWinnerNumber }

/-- 4) The disposition: flag-hold, linked-issue close, repeat-match close, merge, close, or hold. -/
def dispositionAction (_actions : List PlannedAgentAction) : List PlannedAgentAction :=
  if input.flagForLinkedIssue text then []
  else if input.willCloseForLinkedIssue text then [linkedIssueClose input]
  else
    match (if input.unlinkedIssueMatchViolated then input.unlinkedIssueMatchClose else none) with
    | some close => [unlinkedIssueClose input close]
    | none =>
      if input.canMerge text then [mergeAction input]
      else pushWhen (input.willClose text) (heuristicClose text input)

/-! ## Fallback hold -/

/-- The class that authorizes the fallback hold and its release. -/
def manualHoldAutonomyClass : AgentActionClass := if input.reviewGood then .merge else .close

/-- The hold that is left when neither merge nor close was planned. -/
def manualHoldFallback (actions : List PlannedAgentAction) : List PlannedAgentAction :=
  match input.manualHoldReason text, input.labels.manualReview with
  | some reason, some label =>
    pushWhen
      (!(actions.any fun action => action.isMergeOrClose) &&
        !hasLabelOrPlanned text input.pr.labels actions label)
      { actionClass := .label
        autonomyClass := some (manualHoldAutonomyClass input)
        requiresApproval := input.approval (manualHoldAutonomyClass input)
        reason
        label := some label
        labelOp := some .add
        comment := if input.reviewGood then none
          else input.aiReviewLowConfidenceHold.map fun hold =>
            text.sanitizePublicComment hold.comment }
  | _, _ => []

/-- Lift a hold that only a lost review lock had caused. -/
def lockContentionRelease (actions : List PlannedAgentAction) : List PlannedAgentAction :=
  match input.labels.manualReview with
  | some label =>
    pushWhen
      (input.manualReviewLockContentionResolved && (input.manualHoldReason text).isNone &&
        hasLabel text input.pr.labels label &&
        !(actions.any fun action => action.actionClass == .label && action.isAbout text label))
      { actionClass := .label
        autonomyClass := some (manualHoldAutonomyClass input)
        requiresApproval := input.approval (manualHoldAutonomyClass input)
        reason := "AI-review lock contention has cleared and nothing else currently holds this " ++
          "PR — removing the transient manual-review hold"
        label := some label
        labelOp := some .remove }
  | none => []

/-! ## The plan -/

/-- The stages of the disposition, in the order the source runs them. -/
def dispositionStages : List (List PlannedAgentAction → List PlannedAgentAction) :=
  [guardrailHoldLabel text input,
    manualReviewRelease text input,
    migrationCollisionHoldLabel text input,
    unlinkedIssueMatchHoldLabel text input,
    screenshotEvidenceHoldLabel text input,
    priorityEligibilityHoldLabel text input,
    unlinkedIssueMatchCloseHoldLabel text input,
    reviewStateLabelAdd text input,
    staleDispositionCleanup text input,
    pendingClosureFlag text input,
    pendingClosureClear text input,
    reviewActions text input,
    dispositionAction text input,
    manualHoldFallback text input,
    lockContentionRelease text input]

/-- Pending CI holds back the disposition, unless a terminal close reason is known. -/
def settlesFirst : Bool :=
  input.ciPending && !input.pendingCiMayStillCloseForTerminalReason text

/-- The actions for one pull request. -/
def planAgentMaintenanceActions : List PlannedAgentAction :=
  match planShortCircuit text input with
  | some actions => actions
  | none =>
    if input.conclusion = .skipped then []
    else if settlesFirst text input then planEarly input
    else accumulate (dispositionStages text input) (planEarly input)

end Stages

end LoopOver
