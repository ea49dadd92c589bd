import LoopOver.Planner.Action
import LoopOver.Settings.PrDisposition
import LoopOver.Signals.ChangeGuardrail

/-!
# The planner's input and what is read off it

`AgentActionPlanInput` of `src/settings/agent-actions.ts` and the constants that
`planAgentMaintenanceActions` computes from it before it plans anything: who the author is, what CI
and the gate say, which holds stand, and which of merge and close the pull request has earned. Each
constant of the source is a function of the input here, under the same name.
-/

namespace LoopOver

/-! ## Data -/

/-- `GateCheckConclusion`. -/
inductive GateCheckConclusion
  | success
  | failure
  | actionRequired
  | neutral
  | skipped
  deriving DecidableEq, Repr

/-- The spelling of a conclusion in reasons. -/
def GateCheckConclusion.name : GateCheckConclusion → String
  | success => "success"
  | failure => "failure"
  | actionRequired => "action_required"
  | neutral => "neutral"
  | skipped => "skipped"

/-- The live CI aggregate over all checks of the pull request. -/
inductive CiState
  | passed
  | failed
  | pending
  | unverified
  deriving DecidableEq, Repr

/-- A resolved hold or close, with the reason for the record and the comment for the contributor. -/
structure HoldNote where
  reason : String
  comment : String
  deriving DecidableEq, Repr

/-- The verdict of a deterministic rule on the pull request's linked issues. -/
structure LinkedIssueHardRule where
  violated : Bool
  reason : Option String
  deriving DecidableEq, Repr

/-- The flag-then-close double check of the linked-issue rule. -/
structure LinkedIssueVerify where
  verifyBeforeClose : Bool
  closeDelaySeconds : Nat
  deriving DecidableEq, Repr

/-- What an over-cap contributor has too many of. -/
inductive CapItemKind
  | pullRequests
  | issues
  | pullRequestsAndIssues
  deriving DecidableEq, Repr

def CapItemKind.noun : CapItemKind → String
  | pullRequests => "pull requests"
  | issues => "issues"
  | pullRequestsAndIssues => "pull requests and issues"

/-- Where an open-item cap counts. -/
inductive CapScope
  | repository
  | install
  deriving DecidableEq, Repr

structure ContributorCapMatch where
  matched : Bool
  authorLogin : String
  openCount : Nat
  cap : Nat
  itemKind : CapItemKind
  scope : Option CapScope
  deriving DecidableEq, Repr

structure ReviewNagMatch where
  matched : Bool
  authorLogin : String
  pingCount : Nat
  maxPings : Nat
  deriving DecidableEq, Repr

structure CopycatMatch where
  matched : Bool
  matchedPullNumber : Nat
  deriving DecidableEq, Repr

/-- What the gate does with a copy. -/
inductive CopycatGateMode
  | off
  | warn
  | label
  | block
  deriving DecidableEq, Repr

structure ScreenshotTableMatch where
  matched : Bool
  reason : Option String
  deriving DecidableEq, Repr

/-- A check run named with its app and its conclusion. -/
structure CheckRunNote where
  name : String
  appSlug : String
  conclusion : String
  deriving DecidableEq, Repr

/-- What a clean review leads to. -/
inductive OnCleanReview
  | hold
  | proceed
  deriving DecidableEq, Repr

/-- The pull request as the planner sees it. -/
structure PlanPullRequest where
  mergeableState : Option String := none
  reviewDecision : Option String := none
  slopRisk : Option Nat := none
  labels : List String := []
  linkedDuplicateCount : Option Nat := none
  linkedDuplicateWinnerNumber : Option Nat := none
  headSha : Option String := none
  mergeBlockedSha : Option String := none
  mergeBlockedReason : Option String := none
  approvedHeadSha : Option String := none
  authorLogin : Option String := none
  deriving DecidableEq, Repr

/-- The gate verdict, the state of the pull request and the repository's settings. -/
structure AgentActionPlanInput extends AgentDispositionLabelSettings where
  conclusion : GateCheckConclusion
  blockerTitles : List String := []
  gateBlockerCodes : Option (List String) := none
  autonomy : Option AutonomyPolicy
  autoMaintain : Option AutoMaintainPolicy := none
  slopGateMinScore : Option Nat := none
  changedPaths : List String := []
  hardGuardrailGlobs : List String := []
  guardrailEscalationOnCleanReview : Option OnCleanReview := none
  guardrailEscalationEffort : Option String := none
  guardrailEscalationSelfConsistencyRuns : Option Nat := none
  guardrailEscalationModel : Option String := none
  guardrailEscalationProvider : Option String := none
  manualReviewLabelAppliedSha : Option String := none
  manualReviewLockContentionResolved : Bool := false
  authorIsOwner : Bool := false
  authorIsAdmin : Bool := false
  authorIsAutomationBot : Bool := false
  closeOwnerAuthors : Bool := false
  ciState : CiState
  ciHasPending : Bool := false
  failingCheckNames : Option (List String) := none
  linkedIssueHardRule : Option LinkedIssueHardRule := none
  blacklistMatched : Bool := false
  blacklistLabel : LabelSetting := none
  contributorCapMatch : Option ContributorCapMatch := none
  contributorCapLabel : LabelSetting := none
  reviewNagMatch : Option ReviewNagMatch := none
  reviewNagLabel : LabelSetting := none
  copycatMatch : Option CopycatMatch := none
  copycatGateMode : Option CopycatGateMode := none
  copycatLabel : LabelSetting := none
  linkedIssueVerify : Option LinkedIssueVerify := none
  migrationCollisionHold : Option HoldNote := none
  advisoryCheckHold : Option (List CheckRunNote) := none
  ignoredCheckNonPassing : Option (List CheckRunNote) := none
  /-- The names of the non-required failing checks; only whether there are any is read. -/
  nonRequiredCheckFailures : Option (List String) := none
  unlinkedIssueMatchHold : Option HoldNote := none
  priorityEligibilityHold : Option HoldNote := none
  screenshotEvidenceHold : Option HoldNote := none
  unlinkedIssueMatchClose : Option HoldNote := none
  aiReviewLowConfidenceHold : Option HoldNote := none
  screenshotTableMatch : Option ScreenshotTableMatch := none
  screenshotTableEvidenceUnresolved : Bool := false
  pr : PlanPullRequest := {}

namespace AgentActionPlanInput

variable (text : Text) (input : AgentActionPlanInput)

/-! ## Autonomy and author -/

def level (actionClass : AgentActionClass) : AutonomyLevel :=
  resolveAutonomy input.autonomy actionClass

def acting (actionClass : AgentActionClass) : Bool :=
  isActingAutonomyLevel (input.level actionClass)

def approval (actionClass : AgentActionClass) : Bool :=
  autonomyRequiresApproval (input.level actionClass)

/-- Neither owner, admin nor automation bot. -/
def isContributor : Bool :=
  !input.authorIsOwner && !input.authorIsAdmin && !input.authorIsAutomationBot

/-- Contributors, and owners and admins where the repository opted in. -/
def closeEligible : Bool :=
  input.isContributor || ((input.authorIsOwner || input.authorIsAdmin) && input.closeOwnerAuthors)

/-! ## CI, gate and mergeable state -/

def ciPassed : Bool := input.ciState == .passed

def ciFailed : Bool := input.ciState == .failed

def ciUnverified : Bool := input.ciState == .unverified

def ciPending : Bool := input.ciState == .pending || input.ciHasPending

def isConflict : Bool := assessMergeableState text input.pr.mergeableState == .conflict

/-- `REVIEW_THREAD_BLOCKER_CODE` is among the gate's blockers. -/
def isReviewThreadJustified : Bool :=
  (input.gateBlockerCodes.getD []).contains "review_thread_unresolved"

/-- A terminal close reason is known already, whatever is still pending. -/
def pendingCiMayStillCloseForTerminalReason : Bool :=
  input.closeEligible && input.acting .close &&
    (input.conclusion == .failure || input.isConflict text || input.ciFailed)

def reviewGood : Bool := input.conclusion == .success && input.ciPassed

/-! ## Guardrails -/

def guardrailHit : Bool := isGuardrailHit text input.changedPaths input.hardGuardrailGlobs

/-- `guardrailHoldReason`: up to three of the guarded paths, by name. -/
def guardrailHoldReason : String :=
  let hits := changedPathsHittingGuardrail text input.changedPaths input.hardGuardrailGlobs
  if hits.isEmpty then "guarded path -> manual review (changed-file list unavailable)"
  else
    let visible := ", ".intercalate ((hits.take 3).map fun path => "`" ++ path ++ "`")
    let more := if 3 < hits.length then ", and " ++ toString (hits.length - 3) ++ " more" else ""
    "guarded path -> manual review (" ++ visible ++ more ++ ")"

def guardrailReason : String :=
  if input.guardrailHit text then input.guardrailHoldReason text
  else "guarded path -> manual review"

/-- At least one knob of the escalated review is set. -/
def escalationConfigured : Bool :=
  input.guardrailEscalationEffort.isSome || input.guardrailEscalationSelfConsistencyRuns.isSome ||
    input.guardrailEscalationModel.isSome || input.guardrailEscalationProvider.isSome

def guardrailEscalationCleared : Bool :=
  input.guardrailHit text && input.reviewGood && input.escalationConfigured &&
    input.guardrailEscalationOnCleanReview == some .proceed

/-! ## The shared disposition -/

/-- `advisoryCheckHold !== undefined && advisoryCheckHold.length > 0`. -/
def advisoryCheckHeld : Bool := input.advisoryCheckHold.any fun holds => !holds.isEmpty

/-- An unstable state explained by ignored checks alone. -/
def unstableExplainedByIgnoredChecks : Bool :=
  (input.ignoredCheckNonPassing.any fun checks => !checks.isEmpty) &&
    (input.nonRequiredCheckFailures.getD []).isEmpty && input.ciState != .failed

/-- The hold inputs, as `buildPrDispositionInput` resolves them. -/
def mergeHold : MergeHoldInput → Bool
  | .guardrailHit => input.guardrailHit text
  | .migrationCollisionHold => input.migrationCollisionHold.isSome
  | .unlinkedIssueMatchHold => input.unlinkedIssueMatchHold.isSome
  | .advisoryCheckHold => input.advisoryCheckHeld
  | .priorityEligibilityHold => input.priorityEligibilityHold.isSome
  | .screenshotEvidenceHold => input.screenshotEvidenceHold.isSome
  | .unlinkedIssueMatchCloseWithoutCloseActing =>
    input.unlinkedIssueMatchClose.isSome && !input.acting .close

def buildPrDispositionInput : PrDispositionInput where
  hold := input.mergeHold text
  mergeableState := input.pr.mergeableState
  reviewGood := input.reviewGood
  unstableExplainedByIgnoredChecks := input.unstableExplainedByIgnoredChecks
  guardrailEscalationCleared := input.guardrailEscalationCleared text

def disposition : PrDisposition := derivePrDisposition text (input.buildPrDispositionInput text)

def heldForManualReview : Bool := (input.disposition text).heldForManualReview

def labels : ResolvedAgentDispositionLabels :=
  resolveAgentDispositionLabels input.toAgentDispositionLabelSettings

/-! ## Merge -/

def maintainPolicy : AutoMaintainPolicy := input.autoMaintain.getD defaultAutoMaintainPolicy

def approvalsSatisfied : Bool :=
  input.maintainPolicy.requireApprovals == 0 || input.pr.reviewDecision == some "APPROVED"

/-- A merge of this very head already failed for good. -/
def mergeTerminallyBlocked : Bool :=
  input.pr.mergeBlockedSha.isSome && input.pr.mergeBlockedSha == input.pr.headSha

/-- This very head already carries the bot's approval. -/
def alreadyApprovedThisHead : Bool :=
  input.pr.approvedHeadSha.isSome && input.pr.approvedHeadSha == input.pr.headSha

def canMerge : Bool :=
  (input.disposition text).wouldMerge && input.acting .merge && input.approvalsSatisfied &&
    !input.mergeTerminallyBlocked

/-! ## Close -/

/-- A real adverse signal closes; unverified CI and a neutral gate do not. -/
def willClose : Bool :=
  input.closeEligible && input.acting .close &&
    (input.ciFailed ||
      (input.conclusion == .failure && input.aiReviewLowConfidenceHold.isNone) ||
      input.isConflict text)

def unlinkedIssueMatchViolated : Bool :=
  input.unlinkedIssueMatchClose.isSome && input.closeEligible && input.acting .close

/-- `linkedIssueHardRule?.violated === true`. -/
def linkedIssueRuleViolated : Bool := input.linkedIssueHardRule.any (·.violated)

def linkedIssueViolated : Bool :=
  input.linkedIssueRuleViolated && input.closeEligible && input.acting .close

def verifyBeforeClose : Bool := input.linkedIssueVerify.any (·.verifyBeforeClose)

def closeDelaySeconds : Nat := (input.linkedIssueVerify.map (·.closeDelaySeconds)).getD 0

def pendingClosureLabelPresent : Bool :=
  input.labels.pendingClosure.any fun label => hasLabel text input.pr.labels label

/-- The pending-closure label can be written in this pass. -/
def canApplyPendingClosureFlagNow : Bool :=
  input.labels.pendingClosure.isSome && input.acting .reviewStateLabel &&
    !input.approval .reviewStateLabel

/-- Pass 1 of the double check: flag, do not close. -/
def flagForLinkedIssue : Bool :=
  input.linkedIssueViolated && input.verifyBeforeClose && !input.pendingClosureLabelPresent text &&
    input.canApplyPendingClosureFlagNow

/-- Close now: no double check, or its second pass, or its flag cannot be written. -/
def willCloseForLinkedIssue : Bool :=
  input.linkedIssueViolated &&
    (!input.verifyBeforeClose || input.pendingClosureLabelPresent text ||
      !input.canApplyPendingClosureFlagNow)

def clearLinkedIssueFlag : Bool :=
  !input.linkedIssueRuleViolated && input.pendingClosureLabelPresent text

def linkedIssueCloseInFlight : Bool :=
  input.flagForLinkedIssue text || input.willCloseForLinkedIssue text

/-! ## Reasons -/

def ciReason : String :=
  if input.ciFailed then
    let checks := input.failingCheckNames.getD []
    "CI is failing" ++ (if checks.isEmpty then "" else " (" ++ ", ".intercalate checks ++ ")")
  else if input.ciUnverified then "CI could not be verified"
  else ""

/-- `verdict=${conclusion}` followed by the reason. -/
def verdictReason (reason : String) : String :=
  "verdict=" ++ input.conclusion.name ++ "; " ++ reason

/-- The verdict with the CI reason, where there is one. -/
def notGoodReason : String :=
  if input.ciReason = "" then "verdict=" ++ input.conclusion.name
  else input.verdictReason input.ciReason

/-- Why the pull request waits for a human, if it does. -/
def manualHoldReason : Option String :=
  if input.guardrailHit text && !input.guardrailEscalationCleared text then
    some (input.verdictReason (input.guardrailReason text))
  else if input.ciUnverified then some "CI could not be verified"
  else if input.conclusion == .actionRequired then some "review requires maintainer action"
  else if !input.reviewGood && !input.willClose text &&
      (!input.closeEligible || input.acting .close) then
    some input.notGoodReason
  else none

/-- Nothing the planner knows of still wants the manual-review label. -/
def noManualReviewHoldWanted : Bool :=
  (input.manualHoldReason text).isNone && input.migrationCollisionHold.isNone &&
    input.unlinkedIssueMatchHold.isNone && input.priorityEligibilityHold.isNone &&
    input.screenshotEvidenceHold.isNone && input.unlinkedIssueMatchClose.isNone &&
    !input.heldForManualReview text && !input.mergeTerminallyBlocked

end AgentActionPlanInput

end LoopOver
