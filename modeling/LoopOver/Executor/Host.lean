import LoopOver.Executor.Failure
import LoopOver.Foundations.Interaction
import LoopOver.Planner.Input
import LoopOver.Review.MergeTrain
import LoopOver.Settings.AgentExecution

/-!
# The executor and its host

The data of `src/services/agent-action-executor.ts`: the context a pull request is maintained in,
the outcomes the executor reports, its state, and the calls it makes to the database, to GitHub and
to the notification channels (`HostCall`). A call the source lets throw replies with an `Except`;
one that never throws, because its own body catches, replies with a plain value (`HostReply`).

All calls are about the repository and the pull request of the context unless they carry a number of
their own. The GitHub writes that carry out a planned action are kept apart from all other calls, in
`GitHubWrite`: they are the mutations the gates guard.
-/

namespace LoopOver

/-! ## Context and outcomes -/

/-- Whether the merge train waits, only says so, or neither. -/
inductive MergeTrainMode
  | off
  | audit
  | enforce
  deriving DecidableEq, Repr

/-- What the caller resolves before it hands a plan to the executor. -/
structure AgentActionExecutionContext where
  installationId : Nat
  repoFullName : String
  pullNumber : Nat
  headSha : Option String := none
  expectedBaseRef : Option String
  autonomy : Option AutonomyPolicy
  agentPaused : Bool := false
  agentDryRun : Bool := false
  installationPermissions : Option InstallationPermissions
  authorLogin : Option String
  contributorCapCancelCi : Bool := false
  /-- Whether the caller supplied a cap re-check to run before a merge. -/
  contributorCapMergeRecheck : Bool := false
  manualReviewLabel : LabelSetting := none
  mergeTrainMode : Option MergeTrainMode := none
  pullRequestCreatedAt : Option String := none
  pullRequestLinkedIssues : List Nat := []
  pullRequestChangedFiles : Option (List String) := none
  /-- `decisionRecord.managedByCaller`. -/
  decisionManagedByCaller : Bool := false
  /-- `decisionRecord.reasonCode`. -/
  decisionReasonCode : Option String := none

/-- `${repoFullName}#${pullNumber}`. -/
def AgentActionExecutionContext.targetKey (ctx : AgentActionExecutionContext) : String :=
  ctx.repoFullName ++ "#" ++ toString ctx.pullNumber

/-- How one planned action ended. -/
inductive ActionOutcome
  | completed
  | queued
  | denied
  | error
  | dryRun
  deriving DecidableEq, Repr

def ActionOutcome.name : ActionOutcome → String
  | completed => "completed"
  | queued => "queued"
  | denied => "denied"
  | error => "error"
  | dryRun => "dry_run"

/-- The audit row has no outcome of its own for a dry run. -/
def ActionOutcome.audited : ActionOutcome → AuditOutcome
  | completed | dryRun => .completed
  | queued => .queued
  | denied => .denied
  | error => .error

/-- What became of one planned action. -/
structure AgentActionOutcome where
  actionClass : AgentActionClass
  outcome : ActionOutcome
  detail : String
  deriving DecidableEq, Repr

/-- The outcomes pushed so far, and the two cooldown maps the module keeps between calls, in
insertion order. -/
structure ExecutorState where
  outcomes : List AgentActionOutcome := []
  writePermissionDenialCooldown : List (String × Int) := []
  installationHealthRefreshAttempts : List (Nat × Int) := []
  deriving DecidableEq, Repr

/-! ## Data of the calls -/

/-- The audit rows the executor writes, by their event types. -/
inductive AuditEvent
  /-- `agent.action.<class>`, the record of one planned action. -/
  | agentAction (audit : AgentActionAudit)
  /-- `agent.action.merge_train_blocked`. -/
  | mergeTrainBlocked (targetKey : String) (blockingPr : Nat) (mode : MergeTrainMode)
  /-- `agent.action.merge_train_wait_comment`. -/
  | mergeTrainWaitComment (targetKey : String) (blockingPr : Nat)
  /-- `agent.action.merge_train_would_wait`. -/
  | mergeTrainWouldWait (targetKey : String) (blockingPr : Nat)
  /-- `agent.action.merge_blocked`. -/
  | mergeBlocked (targetKey headSha reason : String) (scope : MergeFailureScope)
      (expiresAt : Option Int)
  /-- `github_app.<kind>_ci_cancelled`. -/
  | ciCancelled (kind : CloseKind) (headSha : String) (cancelledCount totalFound : Nat)
  /-- `github_app.<kind>_ci_cancel_permission_missing` or `github_app.<kind>_ci_cancel_failed`. -/
  | ciCancelFailed (kind : CloseKind) (headSha : String) (permissionMissing : Bool)
      (warning : String)

/-- `AgentPendingActionParams`: what a staged action needs to run once it is accepted. -/
structure AgentPendingActionParams where
  autonomyClass : Option AgentActionClass
  label : Option String
  labelOp : Option LabelOp
  comment : Option String
  reviewBody : Option String
  mergeMethod : Option AutoMergeMethod
  assignee : Option String
  closeComment : Option String
  closeReasons : Option (List String)
  expectedHeadSha : Option String
  dismissStaleApproval : Option Bool
  closeKind : Option CloseKind
  closeRequiresCiState : Option CloseCiRequirement
  closeRequiresMergeableState : Option Bool
  closeRequiresThreadResolved : Option Bool
  closeRequiresDuplicateStillOpen : Option Bool
  duplicateWinnerPrNumber : Option Nat
  closeConcreteEvidence : Option Bool
  deriving DecidableEq, Repr

/-- The payload of a planned action that is persisted with it. -/
def actionParams (action : PlannedAgentAction) : AgentPendingActionParams where
  autonomyClass := action.autonomyClass
  label := action.label
  labelOp := action.labelOp
  comment := action.comment
  reviewBody := action.reviewBody
  mergeMethod := action.mergeMethod
  assignee := action.assignee
  closeComment := action.closeComment
  closeReasons := action.closeReasons.map boundStructuredCloseReasonsForPersistence
  expectedHeadSha := action.expectedHeadSha
  dismissStaleApproval := action.dismissStaleApproval
  closeKind := action.closeKind
  closeRequiresCiState := action.closeRequiresCiState
  closeRequiresMergeableState := action.closeRequiresMergeableState
  closeRequiresThreadResolved := action.closeRequiresThreadResolved
  closeRequiresDuplicateStillOpen := action.closeRequiresDuplicateStillOpen
  duplicateWinnerPrNumber := action.duplicateWinnerPrNumber
  closeConcreteEvidence := action.closeConcreteEvidence

/-- A row of the approval queue. -/
structure PendingAction where
  actionClass : AgentActionClass
  autonomyLevel : AutonomyLevel
  params : AgentPendingActionParams
  reason : String

structure NotificationDelivery where
  dedupKey : String
  recipientLogin : String
  title : String
  body : String
  deeplink : String

/-- What inserting a delivery reports: whether it is new, whether it is pending, and its id. -/
structure DeliveryInsert where
  created : Bool
  pending : Bool
  id : String

/-- What the executor reads of a live pull request payload. -/
structure LivePullRequest where
  /-- The state, when it is a string. -/
  state : Option String
  headSha : Option String
  baseRef : Option String
  /-- The names of the labels, where they have one. -/
  labels : List (Option String) := []
  deriving DecidableEq, Repr

/-- The answer of a live read. -/
inductive LivePullRequestFetchResult
  | ok (data : LivePullRequest)
  | error (detail : String)
  deriving DecidableEq, Repr

/-- A stored open pull request of the repository. -/
structure OpenPullRequest where
  number : Nat
  createdAt : Option String := none
  mergeableState : Option String := none
  linkedIssues : List Nat := []
  labels : List String := []
  isDraft : Option Bool := none

/-- The audit rows that are counted, by event type. -/
inductive CountedAuditEvent
  | mergeTrainBlocked
  | mergeTrainWaitComment

/-- The answer to a claim of the lock. -/
structure LockClaim where
  acquired : Bool
  ownerToken : Option String

/-- How a pull request ends. -/
inductive TerminalOutcome
  | merged
  | closed

inductive CancelWorkflowRunsOutcome
  | cancelled (cancelledCount totalFound : Nat)
  | permissionMissing (warning : String)
  | error (warning : String)
  | suppressed

/-- What a notification tells. -/
inductive NotifyOutcome
  | merged
  | closed
  | manual

structure NotifyParams where
  outcome : NotifyOutcome
  summary : String
  submitter : Option String

/-- What a review says. -/
inductive ReviewEvent
  | requestChanges
  | approve

/-- The GitHub writes by which a planned action is carried out. -/
inductive GitHubWrite
  | removePullRequestLabel (label : String)
  | ensurePullRequestLabel (label : String)
  | createIssueComment (body : String)
  | createPullRequestReview (event : ReviewEvent) (body : String) (commitId : Option String)
  | dismissLatestBotApproval (message : String)
  | mergePullRequest (mergeMethod : AutoMergeMethod) (sha : Option String)
  | createOrUpdateCloseExplanationComment (body : String) (closeKind : Option CloseKind)
  | closePullRequest
  | updatePullRequestBranch (sha : Option String)
  | ensurePullRequestAssignee (login : String)

/-- A merge reports whether it was suppressed, an assignment whether it was applied. -/
abbrev GitHubWrite.Answer : GitHubWrite → Type
  | mergePullRequest _ _ => Bool
  | ensurePullRequestAssignee _ => Bool
  | _ => Unit

/-! ## Calls -/

/-- The calls of the executor to its host. -/
inductive HostCall
  | isGlobalAgentFrozen
  /-- `Date.now()`. -/
  | now
  | recordAuditEvent (event : AuditEvent)
  | createPendingAgentActionIfAbsent (row : PendingAction)
  | insertNotificationDeliveryIfAbsent (delivery : NotificationDelivery)
  /-- `env.JOBS.send` of a `notify-deliver` job. -/
  | sendNotifyDeliver (deliveryId : String)
  | createInstallationToken
  /-- With the installation's own token the read may mint a new one. -/
  | fetchLivePullRequestResult (token : String) (ownToken : Bool)
  | fetchLiveCiAggregate (headSha : Option String) (token : Option String)
  | fetchLivePullRequestMergeState (token : Option String)
  | fetchLiveReviewThreadBlockers (token : Option String)
  | fetchLivePullRequestState (pullNumber : Nat) (token : Option String)
  | listOtherOpenPullRequests
  | listRepoPullRequestFilePaths (pullNumbers : List Nat)
  | countRecentAuditEventsForActorAndTarget (event : CountedAuditEvent) (targetKey : String)
      (sinceMs : Int)
  | triggerPagerDutyIncident (summary dedupKey : String)
  /-- The comment that tells a contributor about the merge train; no planned action's write. -/
  | createIssueComment (body : String)
  | claimContributorCapLock (authorLogin : String)
  /-- The closure the caller supplied. -/
  | contributorCapMergeRecheck
  | releaseContributorCapLock (authorLogin : String) (ownerToken : Option String)
  /-- A write that carries out the planned action. -/
  | mutate (write : GitHubWrite)
  | recordTerminalActionOutcome (decision : TerminalOutcome)
  | clearPullRequestManualReviewLabelProvenance
  | markPullRequestManualReviewLabelApplied (headSha reason : String)
  | recordCompletedDecision (actionClass : AgentActionClass) (headSha reasonCode : String)
  | cancelInFlightWorkflowRunsForHeadSha (headSha : String)
  | markPullRequestApproved (headSha : String)
  | resolveDispositionReason (fallback : String)
  | notifyActionToDiscord (params : NotifyParams)
  | notifyActionToSlack (params : NotifyParams)
  | bumpPullRequestMergeAttempt (headSha : String)
  | markPullRequestMergeBlocked (headSha reason : String) (expiresAt : Option Int)
  | refreshInstallationHealthForInstallation
  | applyModerationEscalationForRule (authorLogin : String) (rule : CloseKind)

/-- What a call may reply. -/
abbrev HostReply : HostCall → Type
  | .isGlobalAgentFrozen => Bool
  | .now => Int
  | .recordAuditEvent _ => Except HostError Unit
  | .createPendingAgentActionIfAbsent _ => Except HostError Bool
  | .insertNotificationDeliveryIfAbsent _ => Except HostError DeliveryInsert
  | .sendNotifyDeliver _ => Except HostError Unit
  | .createInstallationToken => Except HostError String
  | .fetchLivePullRequestResult _ _ => LivePullRequestFetchResult
  | .fetchLiveCiAggregate _ _ => Except HostError CiState
  | .fetchLivePullRequestMergeState _ => Option String
  | .fetchLiveReviewThreadBlockers _ => List String
  | .fetchLivePullRequestState _ _ => Except HostError (Option String)
  | .listOtherOpenPullRequests => Except HostError (List OpenPullRequest)
  | .listRepoPullRequestFilePaths _ => Except HostError (List (Nat × String))
  | .countRecentAuditEventsForActorAndTarget _ _ _ => Except HostError Nat
  | .triggerPagerDutyIncident _ _ => Except HostError Unit
  | .createIssueComment _ => Except HostError Unit
  | .claimContributorCapLock _ => Except HostError LockClaim
  | .contributorCapMergeRecheck => Except HostError Bool
  | .releaseContributorCapLock _ _ => Except HostError Unit
  | .mutate write => Except HostError write.Answer
  | .recordTerminalActionOutcome _ => Unit
  | .clearPullRequestManualReviewLabelProvenance => Except HostError Unit
  | .markPullRequestManualReviewLabelApplied _ _ => Except HostError Unit
  | .recordCompletedDecision _ _ _ => Except HostError Unit
  | .cancelInFlightWorkflowRunsForHeadSha _ => CancelWorkflowRunsOutcome
  | .markPullRequestApproved _ => Except HostError Unit
  | .resolveDispositionReason _ => String
  | .notifyActionToDiscord _ => Except HostError Unit
  | .notifyActionToSlack _ => Except HostError Unit
  | .bumpPullRequestMergeAttempt _ => Except HostError Nat
  | .markPullRequestMergeBlocked _ _ _ => Except HostError Unit
  | .refreshInstallationHealthForInstallation => Except HostError Unit
  | .applyModerationEscalationForRule _ _ => Except HostError Unit

/-- The executor's scripts. -/
abbrev Exec := Script HostReply ExecutorState HostError

abbrev HostEvent := Event HostReply

/-- Call the host. -/
abbrev ask (call : HostCall) : Exec (HostReply call) := Script.ask call

end LoopOver
