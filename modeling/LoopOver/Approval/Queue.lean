import LoopOver.Approval.Staged
import LoopOver.Contract.Digest
import LoopOver.Executor.Execute
import LoopOver.Foundations.Interleaving

/-!
# The approval queue

`src/services/agent-approval-queue.ts`: a maintainer accepts or rejects a staged action
(`decidePendingAgentAction`), and a sweep reminds of the rows that nobody decides and expires them
(`sweepStaleApprovalQueue`). A decision first claims the row, by an update that only finds it
pending. An accept then looks again at everything the action rests on, and hands it to the executor.

* `ApprovalCall` are the calls to the database, to GitHub and to the executor.
* `revalidate` is all that happens between the claim of an accept and the executor: the reasons for
  which the row is superseded instead (`Supersession`), and what is executed otherwise
  (`Execution`).
* `AgentPendingActionRecord.answers` is what the calls do to one row of the queue.
-/

namespace LoopOver

open Script

/-! ## Data -/

/-- Where a staged action stands. -/
inductive AgentPendingActionStatus
  | pending
  | accepted
  | rejected
  | errored
  | expired
  deriving DecidableEq, Repr

/-- A row of the approval queue. -/
structure AgentPendingActionRecord where
  id : String
  repoFullName : String
  pullNumber : ℕ
  installationId : ℕ
  actionClass : AgentActionClass
  autonomyLevel : AutonomyLevel
  params : AgentPendingActionParams
  reason : Option String
  status : AgentPendingActionStatus
  decidedBy : Option String
  decidedAt : Option String
  createdAt : String
  updatedAt : String
  deriving DecidableEq

/-- `${repoFullName}#${pullNumber}`. -/
def AgentPendingActionRecord.targetKey (row : AgentPendingActionRecord) : String :=
  row.repoFullName ++ "#" ++ toString row.pullNumber

structure ContributorBlacklistEntry where
  login : String
  githubId : Option ℕ := none

/-- The settings of a repository that an accept reads. -/
structure RepositorySettings extends AgentDispositionLabelSettings where
  autonomy : Option AutonomyPolicy
  agentPaused : Bool := false
  agentDryRun : Bool := false
  mergeTrainMode : Option MergeTrainMode := none
  /-- `autoMaintain.mergeMethod`. -/
  mergeMethod : Option AutoMergeMethod := none
  expectedCiContexts : List String := []
  closeOwnerAuthors : Option Bool := none
  contributorBlacklist : List ContributorBlacklistEntry := []
  contributorOpenPrCap : Option ℕ := none
  autoCloseExemptLogins : List String := []
  accountAgeThresholdDays : Option ℕ := none
  contributorCapCancelCi : Option Bool := none

/-- A stored pull request. -/
structure PullRequestRecord where
  headSha : Option String := none
  baseRef : Option String := none
  authorLogin : Option String := none
  authorGithubId : Option ℕ := none
  body : Option String := none
  linkedIssues : List ℕ := []
  createdAt : Option String := none
  changedFiles : Option (List String) := none

/-- The environment variables the queue reads. -/
structure ApprovalEnv where
  /-- `protectedAutocloseAuthors`, in lower case. -/
  protectedAutocloseAuthors : List String
  /-- `CONTRIBUTOR_CAP_CANCEL_CI_DEFAULT` is `"true"`. -/
  contributorCapCancelCiDefault : Bool := false

/-- An audit row of the queue. -/
structure ApprovalAuditEvent where
  eventType : String
  actor : String
  targetKey : String
  outcome : AuditOutcome
  detail : String
  metadata : List (String × Json)

/-- What a maintainer decides. -/
inductive ApprovalDecision
  | accept
  | reject
  deriving DecidableEq

/-- What became of a decision. -/
inductive ApprovalDecisionStatus
  | accepted
  | errored
  | rejected
  | alreadyDecided
  | notFound
  deriving DecidableEq

structure ApprovalDecisionResult where
  status : ApprovalDecisionStatus
  action : Option AgentPendingActionRecord := none
  /-- For an accept, the outcome of running the action. -/
  executionOutcome : Option String := none

/-! ## Calls -/

/-- The calls of the queue. Those without a pull request number are about the one of the row. -/
inductive ApprovalCall
  | getPendingAgentAction (id : String)
  /-- With the status `pending` and the limit 500. -/
  | listPendingAgentActions
  /-- `UPDATE … WHERE id = ? AND status = 'pending'`; the reply says whether it found the row. -/
  | claimPendingAgentActionDecision (id : String) (status : AgentPendingActionStatus)
      (decidedBy : String)
  /-- `UPDATE … WHERE id = ?`. -/
  | setPendingAgentActionStatus (id : String) (status : AgentPendingActionStatus)
      (decidedBy : String)
  | recordAuditEvent (event : ApprovalAuditEvent)
  | latestCompletedAuditEventDetail (actor eventType targetKey : String)
  | resolveRepositorySettings (repoFullName : String)
  | getPullRequest (repoFullName : String) (pullNumber : ℕ)
  | getInstallation (installationId : ℕ)
  | createInstallationToken (installationId : ℕ)
  | loadLinkedIssueHardRules (repoFullName : String)
  | resolveLinkedIssueHardRule (config : Json) (pr : PullRequestRecord) (token : Option String)
  | fetchRequiredStatusContexts (baseRef token : Option String)
  | fetchLiveCiAggregate (headSha token : Option String) (requiredContexts : Option (List String))
  | fetchLivePullRequestMergeState (token : Option String)
  | fetchLivePullRequestReviewDecision (token : Option String)
  | fetchLiveReviewThreadBlockers (token : Option String)
  | fetchLivePullRequestState (pullNumber : ℕ) (token : Option String)
  | isHoldOnly (repoFullName : String)
  | isCloseHoldOnly (repoFullName : String)
  | readUntrustworthyRuleCodes
  | isPerTenantAdmin (installationId : ℕ) (repoFullName login : String)
  | isBelowAccountAgeThreshold (installationId : ℕ) (login : String) (thresholdDays : Option ℕ)
  /-- The executor runs a plan. -/
  | executeAgentMaintenanceActions (ctx : AgentActionExecutionContext)
      (plan : List PlannedAgentAction)
  | insertNotificationDeliveryIfAbsent (delivery : NotificationDelivery)
  /-- `env.JOBS.send` of a `notify-deliver` job. -/
  | sendNotifyDeliver (deliveryId : String)

/-- A row of the queue with the given id. -/
abbrev RowWithId (id : String) : Type := { row : AgentPendingActionRecord // row.id = id }

/-- What a call may reply; an error is thrown. -/
abbrev ApprovalReply : ApprovalCall → Type
  | .getPendingAgentAction id => Except HostError (Option (RowWithId id))
  | .listPendingAgentActions => Except HostError (List AgentPendingActionRecord)
  | .claimPendingAgentActionDecision _ _ _ => Except HostError Bool
  | .setPendingAgentActionStatus _ _ _ => Except HostError Unit
  | .recordAuditEvent _ => Except HostError Unit
  | .latestCompletedAuditEventDetail _ _ _ => Except HostError (Option String)
  | .resolveRepositorySettings _ => Except HostError RepositorySettings
  | .getPullRequest _ _ => Except HostError (Option PullRequestRecord)
  | .getInstallation _ => Except HostError (Option InstallationPermissions)
  | .createInstallationToken _ => Except HostError String
  | .loadLinkedIssueHardRules _ => Except HostError Json
  | .resolveLinkedIssueHardRule _ _ _ => Except HostError (Option LinkedIssueHardRule)
  | .fetchRequiredStatusContexts _ _ => Except HostError (Option (List String))
  | .fetchLiveCiAggregate _ _ _ => Except HostError CiState
  | .fetchLivePullRequestMergeState _ => Except HostError (Option String)
  | .fetchLivePullRequestReviewDecision _ => Except HostError (Option String)
  | .fetchLiveReviewThreadBlockers _ => Except HostError (List String)
  | .fetchLivePullRequestState _ _ => Except HostError (Option String)
  | .isHoldOnly _ => Bool
  | .isCloseHoldOnly _ => Bool
  | .readUntrustworthyRuleCodes => List String
  | .isPerTenantAdmin _ _ _ => Except HostError Bool
  | .isBelowAccountAgeThreshold _ _ _ => Except HostError Bool
  | .executeAgentMaintenanceActions _ _ => Except HostError (List AgentActionOutcome)
  | .insertNotificationDeliveryIfAbsent _ => Except HostError DeliveryInsert
  | .sendNotifyDeliver _ => Except HostError Unit

abbrev ApprovalScript := Script ApprovalReply Unit HostError

abbrev ApprovalEvent := Event ApprovalReply

/-- Make a call. -/
abbrev request (call : ApprovalCall) : ApprovalScript (ApprovalReply call) := Script.ask call

/-! ## What an accept looks at again -/

/-- Why an accepted row is superseded instead of executed. -/
structure Supersession where
  detail : String
  /-- What the audit row adds to the fields of every audit row. -/
  metadata : List (String × Json) := []
  executionOutcome : String

section Checks

variable (rt : Runtime) (env : ApprovalEnv) (pending : AgentPendingActionRecord)
  (settings : RepositorySettings) (pr : Option PullRequestRecord)

/-- A label that goes with a close. -/
def isCoupledLabel : Bool :=
  pending.actionClass == .label && pending.params.autonomyClass == some .close &&
    pending.params.closeKind.isSome

def pairedCloseSupersession : Supersession where
  detail := "superseded " ++ (pending.params.closeKind.map CloseKind.name).getD "" ++
    " label: its paired close has not completed — applying it would brand a PR that remains open"
  executionOutcome := "paired_close_not_completed"

/-- The head that was reviewed when the action was staged. -/
def stagedHead : Option String := truthy pending.params.expectedHeadSha

/-- The head of the stored pull request. -/
def storedHead : Option String := truthy (pr.bind PullRequestRecord.headSha)

/-- The stored pull request has moved on from the staged head. -/
def headMoved : Option Supersession :=
  match stagedHead pending, storedHead pr with
  | some staged, some live =>
    if staged ≠ live then some
      { detail := "superseded " ++ pending.actionClass.name ++ ": staged head " ++
          sliceText 12 staged ++ " no longer matches live head " ++ sliceText 12 live ++
          " (force-push after staging)"
        metadata := [("stagedHeadSha", .string staged), ("liveHeadSha", .string live)]
        executionOutcome := "head_moved" }
    else none
  | _, _ => none

/-- An approval, a merge or a close that names no reviewed head. -/
def isUnpinnedRatifyingAction : Bool :=
  (stagedHead pending).isNone &&
    ((pending.actionClass == .approve && pending.params.dismissStaleApproval != some true) ||
      pending.actionClass == .merge || pending.actionClass == .close)

def unpinned : Option Supersession :=
  if isUnpinnedRatifyingAction pending then some
    { detail := "superseded " ++ pending.actionClass.name ++
        ": staged with no reviewed-head pin, so " ++
        "freshness cannot be verified — re-stage from a fresh sweep"
      executionOutcome := "unpinned_legacy_action" }
  else none

def findBlacklistEntry (login : Option String) (entries : List ContributorBlacklistEntry)
    (githubId : Option ℕ) : Option ContributorBlacklistEntry :=
  entries.find? fun entry =>
    (githubId.isSome && entry.githubId == githubId) ||
      (truthy login).any fun login => rt.sameText entry.login login

/-- A blacklist close of a contributor who is on the list no longer. -/
def noLongerBlacklisted : Option Supersession :=
  match pr with
  | none => none
  | some pr =>
    if pending.actionClass = .close ∧ pending.params.closeKind = some .blacklist ∧
        (findBlacklistEntry rt pr.authorLogin settings.contributorBlacklist
          pr.authorGithubId).isNone then
      some
        { detail := "superseded blacklist close: contributor is no longer on the blacklist"
          executionOutcome := "no_longer_blacklisted" }
    else none

/-- The owner of a repository, from its full name. -/
def repoOwner (repoFullName : String) : String :=
  if repoFullName.toList.contains '/' then String.ofList (repoFullName.toList.takeWhile (· ≠ '/'))
  else ""

def authorIsOwner (login : Option String) : Bool :=
  login.getD "" != "" && rt.sameText (login.getD "") (repoOwner pending.repoFullName)

def isProtectedAutomationAuthor (login : Option String) : Bool :=
  login.any fun login => env.protectedAutocloseAuthors.contains (rt.toLowerCase login)

/-- Whether the author's pull requests may be closed. -/
def isCloseEligible (pr : PullRequestRecord) : Bool :=
  (!authorIsOwner rt pending pr.authorLogin &&
    !isProtectedAutomationAuthor rt env pr.authorLogin) ||
    (authorIsOwner rt pending pr.authorLogin && settings.closeOwnerAuthors == some true)

def linkedIssueCloseSupersession (closeEligible : Bool) : Supersession :=
  if closeEligible then
    { detail := "superseded linked-issue hard-rule close: the linked issue is no longer ineligible"
      executionOutcome := "linked_issue_no_longer_violated" }
  else
    { detail :=
        "superseded linked-issue hard-rule close: the author is no longer close-eligible " ++
        "(owner/automation exemption now applies)"
      executionOutcome := "no_longer_close_eligible" }

def linkedIssueMergeSupersession (rule : LinkedIssueHardRule) : Supersession where
  detail := "superseded merge: linked-issue hard rule now violated — " ++
    rule.reason.getD "ineligible linked issue"
  metadata := [("linkedIssueReason", (rule.reason.map Json.string).getD .null)]
  executionOutcome := "linked_issue_hard_rule"

/-! ### Live disposition -/

/-- A heuristic close that rests on a base conflict, or may do so. -/
def isMergeableRecheck : Bool :=
  pending.actionClass == .close && pending.params.closeKind == some .heuristic &&
    pending.params.closeRequiresMergeableState != some false

/-- A heuristic close that rests on an unresolved review thread. -/
def isThreadRecheck : Bool :=
  pending.actionClass == .close && pending.params.closeKind == some .heuristic &&
    pending.params.closeRequiresThreadResolved == some true

def shouldRecheckLiveDisposition : Bool :=
  (storedHead pr).isSome &&
    (pending.actionClass == .merge || isMergeableRecheck pending || isThreadRecheck pending)

/-- The duplicate whose winner a heuristic close rests on. -/
def recheckedDuplicateWinner : Option ℕ :=
  if pending.actionClass = .close ∧ pending.params.closeKind = some .heuristic ∧
      pending.params.closeRequiresDuplicateStillOpen = some true then
    pending.params.duplicateWinnerPrNumber
  else none

/-- The live reads, each of them settled on its own; a read that was not made or that failed is
absent. -/
structure LiveDisposition where
  ciState : Option CiState := none
  mergeableState : Option String := none
  reviewDecision : Option (Option String) := none
  threadBlockers : Option (List String) := none
  duplicateWinnerState : Option String := none

/-- `REVIEW_DECISION_UNREADABLE`. -/
def reviewDecisionUnreadable : String := "__loopover_review_decision_unreadable__"

/-- The conflict that a close rests on has cleared, and nobody has requested changes. -/
def mergeableNowCleared (live : LiveDisposition) : Bool :=
  isMergeableRecheck pending && live.mergeableState == some "clean" &&
    live.reviewDecision.any fun decision =>
      decision != some "CHANGES_REQUESTED" && decision != some reviewDecisionUnreadable

/-- Why the live state no longer justifies the action. -/
def dispositionStaleReason (live : LiveDisposition) : Option String :=
  if pending.actionClass = .merge then
    match live.ciState with
    | some .failed => some "live CI is no longer passing (now: failed)"
    | some .pending => some "live CI is no longer passing (now: pending)"
    | some .unverified => some "live CI is no longer passing (now: unverified)"
    | _ =>
      if live.mergeableState = some "dirty" then
        some "the base branch now conflicts (mergeable_state: dirty)"
      else if live.reviewDecision = some (some "CHANGES_REQUESTED") then
        some "a reviewer has since requested changes"
      else none
  else if mergeableNowCleared pending live then
    some "the conflict that justified this close has since cleared"
  else if isThreadRecheck pending && live.threadBlockers == some [] then
    some "the review thread(s) that justified this close are now all resolved"
  else
    match recheckedDuplicateWinner pending, live.duplicateWinnerState with
    | some winner, some state =>
      if state ≠ "open" then
        some ("duplicate-cluster winner #" ++ toString winner ++ " is no longer open")
      else none
    | _, _ => none

def jsonText (value : Option String) : Json := (value.map Json.string).getD .null

def staleSupersession (live : LiveDisposition) (staleReason : String) : Supersession where
  detail := "superseded " ++ pending.actionClass.name ++ ": " ++ staleReason ++ " since staging"
  metadata := [("ciState", jsonText (live.ciState.map CiState.name)),
    ("mergeableState", jsonText live.mergeableState),
    ("reviewDecision", jsonText live.reviewDecision.join),
    ("liveThreadBlockerCount",
      (live.threadBlockers.map fun blockers => Json.number (toString blockers.length)).getD .null),
    ("duplicateWinnerState", jsonText live.duplicateWinnerState)]
  executionOutcome := "stale_disposition"

/-- `mergeRequiredCiContexts`: those of the branch protection and those the settings expect. -/
def mergeRequiredCiContexts (branchProtectionContexts : Option (List String)) :
    Option (List String) :=
  let expected := (settings.expectedCiContexts.map rt.trim).filter (· ≠ "")
  let contexts := (branchProtectionContexts.getD [] ++ expected).eraseDups
  if contexts = [] then none else some contexts

/-- The live reads for the action. -/
def readLiveDisposition : ApprovalScript LiveDisposition := do
  let disposition := shouldRecheckLiveDisposition pending pr
  let token := (← request (.createInstallationToken pending.installationId)).toOption
  let contexts ← askWhen disposition
    (ApprovalCall.fetchRequiredStatusContexts (pr.bind PullRequestRecord.baseRef) token)
  let requiredContexts := contexts.bind Except.toOption
  let ci ← askWhen requiredContexts.isSome
    (ApprovalCall.fetchLiveCiAggregate (pr.bind PullRequestRecord.headSha) token
      (mergeRequiredCiContexts rt settings requiredContexts.join))
  let mergeable ← askWhen disposition (ApprovalCall.fetchLivePullRequestMergeState token)
  let review ← askWhen disposition (ApprovalCall.fetchLivePullRequestReviewDecision token)
  let threads ← askWhen (isThreadRecheck pending)
    (ApprovalCall.fetchLiveReviewThreadBlockers token)
  let winner ← askWhen (recheckedDuplicateWinner pending).isSome
    (ApprovalCall.fetchLivePullRequestState ((recheckedDuplicateWinner pending).getD 0) token)
  pure
    { ciState := ci.bind Except.toOption
      mergeableState := (mergeable.bind Except.toOption).join
      reviewDecision := review.bind Except.toOption
      threadBlockers := threads.bind Except.toOption
      duplicateWinnerState := (winner.bind Except.toOption).join }

/-! ### The checks in turn -/

/-- A coupled label waits for its close. -/
def checkPairedClose : ApprovalScript (Option Supersession) :=
  if isCoupledLabel pending then do
    let completed ← ofExcept (← request
      (.latestCompletedAuditEventDetail "loopover" "agent.action.close" pending.targetKey))
    pure (if completed.isNone then some (pairedCloseSupersession pending) else none)
  else pure none

/-- The linked-issue rule as it stands now. -/
def currentLinkedIssueRule (pr : PullRequestRecord) :
    ApprovalScript (Option LinkedIssueHardRule) := do
  let config ← ofExcept (← request (.loadLinkedIssueHardRules pending.repoFullName))
  let token := (← request (.createInstallationToken pending.installationId)).toOption
  ofExcept (← request (.resolveLinkedIssueHardRule config pr token))

/-- A close for the linked-issue rule needs a rule that is still violated. -/
def checkLinkedIssueClose : ApprovalScript (Option Supersession) :=
  match pr with
  | none => pure none
  | some pr =>
    if pending.actionClass = .close ∧ pending.params.closeKind = some .linkedIssueHardRule then
      if isCloseEligible rt env pending settings pr then do
        let rule ← currentLinkedIssueRule pending pr
        pure (if rule.any LinkedIssueHardRule.violated then none
          else some (linkedIssueCloseSupersession true))
      else pure (some (linkedIssueCloseSupersession false))
    else pure none

/-- The parameters to run with, when the live state still justifies the action. -/
def checkLiveDisposition : ApprovalScript (Except Supersession AgentPendingActionParams) :=
  if shouldRecheckLiveDisposition pending pr || (recheckedDuplicateWinner pending).isSome then do
    let live ← readLiveDisposition rt pending settings pr
    match dispositionStaleReason pending live with
    | some staleReason => pure (.error (staleSupersession pending live staleReason))
    | none => pure (.ok { pending.params with
        mergeMethod := settings.mergeMethod.or pending.params.mergeMethod })
  else pure (.ok pending.params)

/-- The action as the circuit breakers leave it. -/
def planAccepted (liveParams : AgentPendingActionParams) :
    ApprovalScript (List PlannedAgentAction) := do
  let holdOnly ← request (.isHoldOnly pending.repoFullName)
  let closeHoldOnly ← request (.isCloseHoldOnly pending.repoFullName)
  let untrustworthyRuleCodes ← request .readUntrustworthyRuleCodes
  let plan := [pendingActionToPlanned pending.actionClass liveParams pending.reason]
  pure (downgradeCloseToHold
    (downgradeMergeToHold plan holdOnly settings.toAgentDispositionLabelSettings) closeHoldOnly
    settings.toAgentDispositionLabelSettings untrustworthyRuleCodes)

/-- A merge needs a linked-issue rule that is not violated. -/
def checkLinkedIssueMerge (plan : List PlannedAgentAction) : ApprovalScript (Option Supersession) :=
  match pr with
  | none => pure none
  | some pr =>
    if (plan.any fun action => action.actionClass == .merge) &&
        isCloseEligible rt env pending settings pr then do
      let rule ← currentLinkedIssueRule pending pr
      pure ((rule.filter LinkedIssueHardRule.violated).map linkedIssueMergeSupersession)
    else pure none

def isAutoCloseExempt (login : String) : Bool :=
  settings.autoCloseExemptLogins.any fun entry => rt.sameText entry login

/-- Whether the executor gets a check of the contributor cap for the merge. -/
def contributorCapRechecked (plan : List PlannedAgentAction) : ApprovalScript Bool :=
  match pr.bind fun pr => truthy pr.authorLogin with
  | none => pure false
  | some login =>
    if (plan.any fun action => action.actionClass == .merge) &&
        settings.contributorOpenPrCap.isSome &&
        !isAutoCloseExempt rt settings login then do
      let authorIsAdmin ← ofExcept (← request
        (.isPerTenantAdmin pending.installationId pending.repoFullName login))
      if !rt.sameText login (repoOwner pending.repoFullName) && !authorIsAdmin &&
          !isProtectedAutomationAuthor rt env (some login) then do
        let _ ← ofExcept (← request (.isBelowAccountAgeThreshold pending.installationId login
          settings.accountAgeThresholdDays))
        pure true
      else pure false
    else pure false

/-- The context that the executor runs in. -/
def acceptContext (installation : Option InstallationPermissions) (capRechecked : Bool) :
    AgentActionExecutionContext where
  installationId := pending.installationId
  repoFullName := pending.repoFullName
  pullNumber := pending.pullNumber
  headSha := pr.bind PullRequestRecord.headSha
  expectedBaseRef := pr.bind PullRequestRecord.baseRef
  autonomy := settings.autonomy
  agentPaused := settings.agentPaused
  agentDryRun := settings.agentDryRun
  installationPermissions := installation
  authorLogin := pr.bind PullRequestRecord.authorLogin
  contributorCapCancelCi := settings.contributorCapCancelCi.getD env.contributorCapCancelCiDefault
  contributorCapMergeRecheck := capRechecked
  manualReviewLabel := settings.manualReviewLabel
  mergeTrainMode := settings.mergeTrainMode
  pullRequestCreatedAt := pr.bind PullRequestRecord.createdAt
  pullRequestLinkedIssues := (pr.map PullRequestRecord.linkedIssues).getD []
  pullRequestChangedFiles := pr.bind PullRequestRecord.changedFiles

end Checks

/-- What an accept hands to the executor. -/
structure Execution where
  ctx : AgentActionExecutionContext
  plan : List PlannedAgentAction

section Scripts

variable (rt : Runtime) (env : ApprovalEnv) (pending : AgentPendingActionRecord)

/-- The checks that need the settings and the pull request, and what is executed when they pass. -/
def revalidateAgainst (settings : RepositorySettings)
    (pr : Option PullRequestRecord) (installation : Option InstallationPermissions) :
    ApprovalScript (Except Supersession Execution) := do
  match headMoved pending pr <|> unpinned pending <|> noLongerBlacklisted rt pending
    settings pr with
  | some supersession => pure (.error supersession)
  | none =>
    match ← checkLinkedIssueClose rt env pending settings pr with
    | some supersession => pure (.error supersession)
    | none =>
      match ← checkLiveDisposition rt pending settings pr with
      | .error supersession => pure (.error supersession)
      | .ok liveParams =>
        let plan ← planAccepted pending settings liveParams
        match ← checkLinkedIssueMerge rt env pending settings pr plan with
        | some supersession => pure (.error supersession)
        | none =>
          let token := (← request (.createInstallationToken pending.installationId)).toOption
          -- the contexts go into a field of the executor's context that the model leaves out
          let _ ← request (.fetchRequiredStatusContexts (pr.bind PullRequestRecord.baseRef) token)
          let capRechecked ← contributorCapRechecked rt env pending settings pr plan
          pure (.ok ⟨acceptContext env pending settings pr installation capRechecked, plan⟩)

/-- Everything between the claim of an accept and the executor. -/
def revalidate :
    ApprovalScript (Except Supersession Execution) := do
  match ← checkPairedClose pending with
  | some supersession => pure (.error supersession)
  | none =>
    let settings ← ofExcept (← request (.resolveRepositorySettings pending.repoFullName))
    let pr ← ofExcept (← request (.getPullRequest pending.repoFullName pending.pullNumber))
    let installation ← ofExcept (← request (.getInstallation pending.installationId))
    revalidateAgainst rt env pending settings pr installation

/-! ## Decisions -/

/-- The fields of every audit row about a decision. -/
def baseMetadata : List (String × Json) :=
  [("pendingId", .string pending.id), ("repoFullName", .string pending.repoFullName),
    ("pullNumber", .number (toString pending.pullNumber)),
    ("actionClass", .string pending.actionClass.name),
    ("autonomyLevel", .string pending.autonomyLevel.name)]

/-- The row as a decision reports it. -/
def AgentPendingActionRecord.decidedAs
    (status : AgentPendingActionStatus) (decidedBy : String) : AgentPendingActionRecord :=
  { pending with status := status, decidedBy := some decidedBy }

/-- Reject an accepted row that is no longer justified. -/
def supersede (decidedBy : String) (supersession : Supersession) :
    ApprovalScript ApprovalDecisionResult := do
  ofExcept (← request (.setPendingAgentActionStatus pending.id .rejected decidedBy))
  ofExcept (← request (.recordAuditEvent
    { eventType := "agent.pending_action.superseded"
      actor := decidedBy
      targetKey := pending.targetKey
      outcome := .denied
      detail := supersession.detail
      metadata := baseMetadata pending ++ supersession.metadata }))
  pure
    { status := .rejected
      action := some (pending.decidedAs .rejected decidedBy)
      executionOutcome := some supersession.executionOutcome }

/-- Run the action, and record how it went. -/
def executeAccepted (decidedBy : String) (execution : Execution) :
    ApprovalScript ApprovalDecisionResult := do
  let outcomes ← ofExcept
    (← request (.executeAgentMaintenanceActions execution.ctx execution.plan))
  let outcome := outcomes.head?.map AgentActionOutcome.outcome
  let execOutcome := (outcome.map ActionOutcome.name).getD "no_outcome"
  let errored := outcome = some .error
  let finalStatus := if errored then AgentPendingActionStatus.errored else .accepted
  ofExcept (← request (.setPendingAgentActionStatus pending.id finalStatus decidedBy))
  ofExcept (← request (.recordAuditEvent
    { eventType := "agent.pending_action.accepted"
      actor := decidedBy
      targetKey := pending.targetKey
      outcome := (outcome.map ActionOutcome.audited).getD .error
      detail := "accepted " ++ pending.actionClass.name ++ " → " ++ execOutcome
      metadata := baseMetadata pending ++ [("executionOutcome", .string execOutcome)] }))
  pure
    { status := if errored then .errored else .accepted
      action := some (pending.decidedAs finalStatus decidedBy)
      executionOutcome := some execOutcome }

/-- The answer of a call that lost the claim: the row as it is now. -/
def reportDecided : ApprovalScript ApprovalDecisionResult := do
  let current ← ofExcept (← request (.getPendingAgentAction pending.id))
  pure { status := .alreadyDecided, action := some ((current.map Subtype.val).getD pending) }

/-- Decide a row that was read as pending. -/
def decidePending (decision : ApprovalDecision)
    (decidedBy : String) : ApprovalScript ApprovalDecisionResult :=
  match decision with
  | .reject => do
    let claimed ← ofExcept
      (← request (.claimPendingAgentActionDecision pending.id .rejected decidedBy))
    if claimed then do
      ofExcept (← request (.recordAuditEvent
        { eventType := "agent.pending_action.rejected"
          actor := decidedBy
          targetKey := pending.targetKey
          outcome := .completed
          detail := "rejected " ++ pending.actionClass.name
          metadata := baseMetadata pending }))
      pure { status := .rejected, action := some (pending.decidedAs .rejected decidedBy) }
    else reportDecided pending
  | .accept => do
    let claimed ← ofExcept
      (← request (.claimPendingAgentActionDecision pending.id .accepted decidedBy))
    if claimed then do
      match ← revalidate rt env pending with
      | .error supersession => supersede pending decidedBy supersession
      | .ok execution => executeAccepted pending decidedBy execution
    else reportDecided pending

/-- Decide a staged action. -/
def decidePendingAgentAction (id : String) (decision : ApprovalDecision) (decidedBy : String) :
    ApprovalScript ApprovalDecisionResult := do
  match ← ofExcept (← request (.getPendingAgentAction id)) with
  | none => pure { status := .notFound }
  | some ⟨pending, _⟩ =>
    if pending.status ≠ .pending then pure { status := .alreadyDecided, action := some pending }
    else decidePending rt env pending decision decidedBy

/-! ## The sweep -/

/-- `APPROVAL_REMINDER_INTERVAL_MS`. -/
def approvalReminderIntervalMs : ℤ := 24 * 60 * 60 * 1000

/-- `APPROVAL_EXPIRY_MS`. -/
def approvalExpiryMs : ℤ := 7 * 24 * 60 * 60 * 1000

/-- What a sweep does with a row. -/
inductive ApprovalQueueMaintenance
  | none
  | remind (bucket : ℤ)
  | expire
  deriving DecidableEq

/-- What a pending row is due for. -/
def planApprovalQueueMaintenance (createdAt : String) (nowMs : ℤ) : ApprovalQueueMaintenance :=
  match rt.dateParse createdAt with
  | .none => .none
  | some staged =>
    if nowMs - staged ≥ approvalExpiryMs then .expire
    else if (nowMs - staged) / approvalReminderIntervalMs ≥ 1 then
      .remind ((nowMs - staged) / approvalReminderIntervalMs)
    else .none

/-- The badge that reminds of a row. -/
def reminderDelivery (row : AgentPendingActionRecord) (bucket : ℤ) : NotificationDelivery where
  dedupKey :=
    "agent.pending_action.reminder:" ++ row.targetKey ++ ":" ++ row.actionClass.name ++ ":" ++
    toString bucket
  recipientLogin := String.ofList (row.repoFullName.toList.takeWhile (· ≠ '/'))
  title :=
    "Still waiting: a " ++ row.actionClass.spaced ++ " staged " ++ toString bucket ++ " day" ++
    (if bucket = 1 then "" else "s") ++ " ago needs your approval"
  body := row.reason.getD "A staged action" ++
    " — accept to execute it, or reject to cancel. It expires after 7 days."
  deeplink := "https://github.com/" ++ row.repoFullName ++ "/pull/" ++ toString row.pullNumber

/-- What a sweep reports. -/
structure SweepCounts where
  reminded : ℕ := 0
  expired : ℕ := 0
  deriving DecidableEq

/-- Remind of the row, once in every interval. -/
def remindOf (row : AgentPendingActionRecord) (bucket : ℤ) (counts : SweepCounts) :
    ApprovalScript SweepCounts := do
  match ← request (.insertNotificationDeliveryIfAbsent (reminderDelivery row bucket)) with
  | .error _ => pure counts
  | .ok inserted =>
    if inserted.created then do
      let _ ← askWhen inserted.pending (ApprovalCall.sendNotifyDeliver inserted.id)
      pure { counts with reminded := counts.reminded + 1 }
    else pure counts

/-- Expire the row, unless somebody decides it first. -/
def expireRow (row : AgentPendingActionRecord) (counts : SweepCounts) :
    ApprovalScript SweepCounts := do
  match ← request (.claimPendingAgentActionDecision row.id .expired "loopover") with
  | .ok true =>
    let _ ← request (.recordAuditEvent
      { eventType := "agent.pending_action.expired"
        actor := "loopover"
        targetKey := row.targetKey
        outcome := .denied
        detail := "staged " ++ row.actionClass.name ++ " expired unapproved after 7 days"
        metadata := [("repoFullName", .string row.repoFullName),
          ("pullNumber", .number (toString row.pullNumber)),
          ("actionClass", .string row.actionClass.name), ("stagedAt", .string row.createdAt)] })
    pure { counts with expired := counts.expired + 1 }
  | _ => pure counts

/-- The loop body: do what the row is due for. -/
def maintainRow (nowMs : ℤ) (row : AgentPendingActionRecord) (counts : SweepCounts) :
    ApprovalScript SweepCounts :=
  match planApprovalQueueMaintenance rt row.createdAt nowMs with
  | .none => pure counts
  | .remind bucket => remindOf row bucket counts
  | .expire => expireRow row counts

/-- The loop over the rows. -/
def sweepRows (nowMs : ℤ) : List AgentPendingActionRecord → SweepCounts → ApprovalScript SweepCounts
  | [], counts => pure counts
  | row :: rows, counts => do
    let next ← maintainRow rt nowMs row counts
    sweepRows nowMs rows next

/-- Remind of the rows that nobody has decided, and expire the oldest. -/
def sweepStaleApprovalQueue (nowMs : ℤ) : ApprovalScript SweepCounts := do
  let pending ← ofExcept (← request .listPendingAgentActions)
  sweepRows rt nowMs pending {}

end Scripts

/-! ## One row under the calls -/

namespace AgentPendingActionRecord

/-- The row after an update of its status. -/
def updated (row : AgentPendingActionRecord) (status : AgentPendingActionStatus)
    (decidedBy decidedAt updatedAt : String) : AgentPendingActionRecord :=
  { row with
    status := status
    decidedBy := some decidedBy
    decidedAt := some decidedAt
    updatedAt := updatedAt }

/-- What the calls do to one row of the queue; the other rows may be anything. The claim finds the
row only while it is pending, an update that fails leaves it as it is, and no other call touches
it. -/
def answers : Answers ApprovalReply AgentPendingActionRecord
  | row, .getPendingAgentAction id, reply, row' =>
    row' = row ∧ (id = row.id → ∀ found, reply = .ok found → found.map Subtype.val = some row)
  | row, .listPendingAgentActions, reply, row' =>
    row' = row ∧ ∀ rows, reply = .ok rows → rows.length ≤ 500 ∧ (rows.map id).Nodup ∧
      ∀ listed ∈ rows, listed.status = .pending ∧ (listed.id = row.id → listed = row)
  | row, .claimPendingAgentActionDecision id status decidedBy, .ok true, row' =>
    if id = row.id then
      row.status = .pending ∧
        ∃ decidedAt updatedAt, row' = row.updated status decidedBy decidedAt updatedAt
    else row' = row
  | row, .claimPendingAgentActionDecision id _ _, .ok false, row' =>
    row' = row ∧ (id = row.id → row.status ≠ .pending)
  | row, .setPendingAgentActionStatus id status decidedBy, .ok _, row' =>
    if id = row.id then ∃ decidedAt updatedAt,
      row' = row.updated status decidedBy decidedAt updatedAt
    else row' = row
  | row, _, _, row' => row' = row

end AgentPendingActionRecord

end LoopOver
