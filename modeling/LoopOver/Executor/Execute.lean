import LoopOver.Executor.Gates

/-!
# Executing a plan

`executeAgentMaintenanceActions` of `src/services/agent-action-executor.ts`. Every planned action
runs through the same stack of early exits: pause, autonomy, dry run, approval, write permission and
then the live gates. What passes all of them is carried out, a merge under the contributor-cap lock
where the caller supplied a re-check (`performUnderCapLock`).

Every exit pushes an outcome and writes an audit record (`audit`), in this order: a record that
cannot be written leaves its outcome pushed. Metrics, logs and error reports are left out.
-/

namespace LoopOver

open Script

/-! ## Cooldown maps -/

section Cooldown

variable {κ : Type} [DecidableEq κ]

/-- `Map.prototype.set`: a key that is present keeps its place. -/
def mapSet (entries : List (κ × Int)) (key : κ) (value : Int) : List (κ × Int) :=
  if entries.any fun entry => entry.1 == key then
    entries.map fun entry => if entry.1 = key then (key, value) else entry
  else entries ++ [(key, value)]

def mapGet (entries : List (κ × Int)) (key : κ) : Option Int :=
  (entries.find? fun entry => entry.1 == key).map Prod.snd

end Cooldown

/-- `PR_WRITE_DENIAL_COOLDOWN_MS`. -/
def prWriteDenialCooldownMs : Int := 15 * 60 * 1000

/-- `PR_WRITE_DENIAL_COOLDOWN_MAX_ENTRIES`. -/
def prWriteDenialCooldownMaxEntries : Nat := 1024

def pruneWritePermissionDenialCooldown (nowMs : Int) (entries : List (String × Int)) :
    List (String × Int) :=
  entries.filter fun entry => decide (nowMs - entry.2 < prWriteDenialCooldownMs)

/-- Whether this denial was already audited within the cooldown. -/
def shouldSuppressWritePermissionDenial (key : String) (nowMs : Int)
    (entries : List (String × Int)) : Bool :=
  (mapGet entries key).any fun lastDeniedMs =>
    decide (nowMs - lastDeniedMs < prWriteDenialCooldownMs)

/-- Arm the cooldown, dropping the oldest entry when the map is full. -/
def markWritePermissionDenialAudited (key : String) (nowMs : Int) (entries : List (String × Int)) :
    List (String × Int) :=
  let pruned := pruneWritePermissionDenialCooldown nowMs entries
  let kept := if prWriteDenialCooldownMaxEntries ≤ pruned.length then pruned.drop 1 else pruned
  mapSet kept key nowMs

/-- `INSTALLATION_HEALTH_REFRESH_COOLDOWN_MS`. -/
def installationHealthRefreshCooldownMs : Int := 5 * 60 * 1000

/-- Whether a failed write looks like a permission the installation has lost. -/
def looksLikeLostPermission (rt : Runtime) (error : HostError) : Bool :=
  githubErrorStatus error == some 403 && !isGitHubRateLimitedError rt error &&
    mentions rt (errorMessage error) ["resource not accessible by integration",
      "not have permission"]

/-- Whether the installation's health was not refreshed within the cooldown. -/
def healthRefreshDue (installationId : Nat) (nowMs : Int) (attempts : List (Nat × Int)) : Bool :=
  !(mapGet attempts installationId).any fun lastAttemptMs =>
    decide (nowMs - lastAttemptMs < installationHealthRefreshCooldownMs)

/-- `PR_WRITE_CLASSES`: the classes that need an elevated write permission. -/
def prWriteClasses : List AgentActionClass :=
  [.requestChanges, .approve, .merge, .close, .updateBranch]

section Execute

variable (rt : Runtime) (env : AgentEnv) (ctx : AgentActionExecutionContext)
  (mode : AgentActionMode)

/-! ## Outcomes and audit records -/

/-- Push an outcome. -/
def pushOutcome (action : PlannedAgentAction) (outcome : ActionOutcome) (detail : String) :
    Exec Unit :=
  Script.modify fun s =>
    { s with outcomes := s.outcomes ++ [⟨action.actionClass, outcome, detail⟩] }

/-- The audit record of an action that ended with the outcome. -/
def actionAudit (action : PlannedAgentAction) (outcome : ActionOutcome) (detail : String) :
    AgentActionAudit :=
  buildAgentActionAudit action.actionClass (resolveAutonomy ctx.autonomy action.governingClass) mode
    outcome.audited ctx.targetKey detail (closeReasonsForAudit action)

/-- Push the outcome, then write its record. -/
def audit (action : PlannedAgentAction) (outcome : ActionOutcome) (detail : String) :
    Exec Unit := do
  pushOutcome action outcome (boundAuditReason detail)
  ofExcept (← ask (.recordAuditEvent
    (.agentAction (actionAudit ctx mode action outcome (boundAuditReason detail)))))

/-! ## Approval queue -/

/-- `actionClass.replace(/_/g, " ")`. -/
def AgentActionClass.spaced (actionClass : AgentActionClass) : String :=
  String.ofList (actionClass.name.toList.map fun c => if c = '_' then ' ' else c)

/-- The badge that tells the maintainer about a staged action. -/
def pendingActionDelivery (action : PlannedAgentAction) : NotificationDelivery where
  dedupKey := "agent.pending_action:" ++ ctx.targetKey ++ ":" ++ action.actionClass.name
  recipientLogin := String.ofList ((pathSegments ctx.repoFullName.toList).headD [])
  title := "LoopOver staged a " ++ action.actionClass.spaced ++ " for your approval"
  body := action.reason ++ ". Accept to execute it, or reject to cancel."
  deeplink := "https://github.com/" ++ ctx.repoFullName ++ "/pull/" ++ toString ctx.pullNumber

/-- Stage the action and notify the maintainer, once: a row that is already there is left alone. -/
def stageForApproval (action : PlannedAgentAction) : Exec Bool := do
  let created ← ofExcept (← ask (.createPendingAgentActionIfAbsent
    ⟨action.actionClass, resolveAutonomy ctx.autonomy action.governingClass, actionParams action,
      action.reason⟩))
  if created then do
    let delivery ← ofExcept
      (← ask (.insertNotificationDeliveryIfAbsent (pendingActionDelivery ctx action)))
    let _ ← askWhen (delivery.created && delivery.pending)
      (HostCall.sendNotifyDeliver delivery.id)
    pure true
  else pure false

/-- Step 4. The record is written only when the action was staged now. -/
def stage (action : PlannedAgentAction) : Exec Unit := do
  let staged ← stageForApproval ctx action
  if staged then audit ctx mode action .queued ("awaiting maintainer approval — " ++ action.reason)
  else pure ()

/-! ## Write permission -/

/-- Step 5: deny, without a second record while the cooldown lasts. -/
def denyWritePermission (action : PlannedAgentAction) : Exec Unit := do
  let key := toString ctx.installationId ++ ":" ++ ctx.repoFullName ++ ":" ++
    toString ctx.pullNumber ++ ":" ++ action.actionClass.name
  let denial :=
    formatAgentPermissionDenial ctx.autonomy ctx.installationPermissions action.actionClass
  let nowMs ← ask .now
  Script.modify fun s => { s with
    writePermissionDenialCooldown :=
      pruneWritePermissionDenialCooldown nowMs s.writePermissionDenialCooldown }
  let s ← Script.get
  if shouldSuppressWritePermissionDenial key nowMs s.writePermissionDenialCooldown then
    pushOutcome action .denied (denial true)
  else do
    audit ctx mode action .denied (denial false)
    let auditedMs ← ask .now
    Script.modify fun s => { s with
      writePermissionDenialCooldown :=
        markWritePermissionDenialAudited key auditedMs s.writePermissionDenialCooldown }

/-! ## The mutation -/

/-- Write to GitHub for the action; a failed write throws. -/
def githubWrite (write : GitHubWrite) : Exec write.Answer := do
  ofExcept (← ask (.mutate write))

/-- Whether the action is about the manual-review label the repository configured by name. -/
def isConfiguredManualReviewLabel (action : PlannedAgentAction) : Bool :=
  (truthy ctx.manualReviewLabel.join).any fun label => action.label == some label

/-- Add or remove the label, keeping the provenance of the manual-review label. -/
def performLabel (action : PlannedAgentAction) : Exec Unit :=
  if action.labelOp = some .remove then do
    let _ ← githubWrite (.removePullRequestLabel (action.label.getD ""))
    runWhen (isConfiguredManualReviewLabel ctx action)
      (Script.tell HostCall.clearPullRequestManualReviewLabelProvenance)
  else do
    let _ ← githubWrite (.ensurePullRequestLabel (action.label.getD ""))
    match truthy ctx.headSha with
    | none => pure ()
    | some headSha =>
      runWhen (isConfiguredManualReviewLabel ctx action)
        (Script.tell (HostCall.markPullRequestManualReviewLabelApplied headSha action.reason))

/-- Post the comment, unless it is absent or empty. -/
def writeComment (comment : Option String) (write : String → GitHubWrite) : Exec Unit :=
  match truthy comment with
  | none => pure ()
  | some body => do
    let _ ← githubWrite (write body)
    pure ()

/-- Carry the action out; a result overrides the detail of its record. -/
def performAction (action : PlannedAgentAction) : Exec (Option String) :=
  match action.actionClass with
  | .label => do
    performLabel ctx action
    writeComment action.comment .createIssueComment
    pure none
  | .requestChanges => do
    let _ ← githubWrite
      (.createPullRequestReview .requestChanges (action.reviewBody.getD "") none)
    pure none
  | .approve =>
    if action.dismissStaleApproval = some true then do
      let _ ← githubWrite (.dismissLatestBotApproval
        "LoopOver retracted this approval — a newer commit no longer qualifies.")
      pure none
    else do
      let _ ← githubWrite (.createPullRequestReview .approve (action.reviewBody.getD "")
        (action.expectedHeadSha <|> ctx.headSha))
      pure none
  | .merge => do
    let suppressed ← githubWrite
      (.mergePullRequest (action.mergeMethod.getD .squash) (pinnedHead ctx action))
    if suppressed = true then
      pure (some ("merge suppressed by the instance-wide dry-run/paused kill switch — " ++
        "no GitHub write attempted"))
    else do
      let _ ← ask (.recordTerminalActionOutcome .merged)
      pure none
  | .close => do
    writeComment action.closeComment fun body =>
      .createOrUpdateCloseExplanationComment body action.closeKind
    let _ ← githubWrite .closePullRequest
    let _ ← ask (.recordTerminalActionOutcome .closed)
    pure none
  | .updateBranch => do
    let _ ← githubWrite (.updatePullRequestBranch (action.expectedHeadSha <|> ctx.headSha))
    pure none
  | .assign =>
    match truthy action.assignee with
    | none => pure none
    | some login => do
      let applied ← githubWrite (.ensurePullRequestAssignee login)
      if applied = true then pure none
      else do
        let _ ← githubWrite (.ensurePullRequestLabel ("by:" ++ login))
        pure (some ("assignee refused by GitHub — fell back to a by:" ++ login ++ " label"))
  | .review | .reviewStateLabel => pure none

/-! ## After the mutation -/

/-- Cancel the CI runs of a pull request that was just closed, and record how that went. -/
def recordCiCancelOutcome (kind : CloseKind) (headSha : String) : Exec Unit := do
  match ← ask (.cancelInFlightWorkflowRunsForHeadSha headSha) with
  | .cancelled cancelledCount totalFound =>
    Script.tell (HostCall.recordAuditEvent (.ciCancelled kind headSha cancelledCount totalFound))
  | .permissionMissing warning =>
    Script.tell (HostCall.recordAuditEvent (.ciCancelFailed kind headSha true warning))
  | .error warning =>
    Script.tell (HostCall.recordAuditEvent (.ciCancelFailed kind headSha false warning))
  | .suppressed => pure ()

/-- The kind of close whose CI runs are cancelled: a blacklist one always, a cap one where the
repository opted in. -/
def ciCancelKind (action : PlannedAgentAction) : Option CloseKind :=
  if action.actionClass = .close then
    match action.closeKind with
    | some .contributorCap => if ctx.contributorCapCancelCi then some .contributorCap else none
    | some .blacklist => some .blacklist
    | _ => none
  else none

def cancelCiRuns (action : PlannedAgentAction) : Exec Unit :=
  match ciCancelKind ctx action, truthy ctx.headSha with
  | some kind, some headSha => recordCiCancelOutcome kind headSha
  | _, _ => pure ()

/-- Remember the head that was approved, so that it is not approved again. -/
def rememberApproval (action : PlannedAgentAction) : Exec Unit :=
  match truthy ctx.headSha with
  | none => pure ()
  | some headSha =>
    runWhen action.isApproval (Script.tell (HostCall.markPullRequestApproved headSha))

def notifyOutcome (action : PlannedAgentAction) : Option NotifyOutcome :=
  match action.actionClass with
  | .merge => some .merged
  | .close => some .closed
  | .requestChanges => some .manual
  | _ => none

/-- `policy_close:<kind>` for a tagged close, `success` otherwise. -/
def defaultDecisionRecordReasonCode (action : PlannedAgentAction) : String :=
  (action.closeKind.map fun kind => "policy_close:" ++ kind.name).getD "success"

/-- Tell the channels about a visible action. -/
def notifyAction (action : PlannedAgentAction) : Exec Unit :=
  match notifyOutcome action with
  | none => pure ()
  | some outcome => do
    let summary ← ask (.resolveDispositionReason action.reason)
    Script.tell (HostCall.notifyActionToDiscord ⟨outcome, summary, ctx.authorLogin⟩)
    Script.tell (HostCall.notifyActionToSlack ⟨outcome, summary, ctx.authorLogin⟩)

/-- The best-effort steps that follow the record of a completed action. -/
def afterCompletion (action : PlannedAgentAction) : Exec Unit := do
  runWhen (action.isMergeOrClose && !ctx.decisionManagedByCaller)
    (Script.tell (HostCall.recordCompletedDecision action.actionClass
      ((action.expectedHeadSha <|> ctx.headSha).getD "unknown")
      (ctx.decisionReasonCode.getD (defaultDecisionRecordReasonCode action))))
  cancelCiRuns ctx action
  rememberApproval ctx action
  notifyAction ctx action

/-- The body of the `try`: mutate, record, follow up. -/
def mutateAndRecord (action : PlannedAgentAction) : Exec Unit := do
  let detailOverride ← performAction ctx action
  audit ctx mode action .completed (detailOverride.getD action.reason)
  afterCompletion ctx action

/-- Why the merge is held from now on: it failed for good, or once too often. -/
def mergeHoldReason (headSha : String) (error : HostError) : Exec (Option String) :=
  if (classifyMergeFailure rt error).terminal then
    pure (some (classifyMergeFailure rt error).reason)
  else do
    let attempts ← ofExcept (← ask (.bumpPullRequestMergeAttempt headSha))
    pure (if mergeRetryCap ≤ attempts then
      some ("merge could not complete after " ++ toString attempts ++ " attempt(s): " ++
        errorMessage error) else none)

/-- Hold a merge that failed for good, and count one that may still go through. -/
def handleMergeFailure (headSha : String) (error : HostError) : Exec Unit := do
  let scope := (classifyMergeFailure rt error).scope
  match ← mergeHoldReason rt headSha error with
  | none => pure ()
  | some reason => do
    let nowMs ← askWhen (scope == .infra) HostCall.now
    let expiresAt := nowMs.map fun (ms : Int) => ms + infraMergeBlockTtlMs
    ofExcept (← ask (.markPullRequestMergeBlocked headSha reason expiresAt))
    Script.tell (HostCall.recordAuditEvent
      (.mergeBlocked ctx.targetKey headSha reason scope expiresAt))

/-- Refresh the installation's health after a write that looks like a lost permission. -/
def refreshHealthAfterFailure (error : HostError) : Exec Unit := do
  let nowMs ← ask .now
  let s ← Script.get
  if looksLikeLostPermission rt error &&
      healthRefreshDue ctx.installationId nowMs s.installationHealthRefreshAttempts then do
    Script.modify fun s => { s with
      installationHealthRefreshAttempts :=
        mapSet s.installationHealthRefreshAttempts ctx.installationId nowMs }
    Script.tell HostCall.refreshInstallationHealthForInstallation
  else pure ()

/-- A failed merge of a known head is classified; other failed actions have no retry. -/
def afterFailedMerge (action : PlannedAgentAction) (error : HostError) : Exec Unit :=
  match action.actionClass, truthy ctx.headSha with
  | .merge, some headSha => handleMergeFailure rt ctx headSha error
  | _, _ => pure ()

/-- The body of the `catch`. -/
def recordFailure (action : PlannedAgentAction) (error : HostError) : Exec Unit := do
  audit ctx mode action .error (errorMessage error)
  afterFailedMerge rt ctx action error
  runWhen (prWriteClasses.contains action.actionClass)
    (refreshHealthAfterFailure rt ctx error)

/-- Step 9. -/
def performMutation (action : PlannedAgentAction) : Exec Unit := do
  match ← (mutateAndRecord ctx mode action).attempt with
  | .ok () => pure ()
  | .error error => recordFailure rt ctx mode action error

/-- Step 8c: re-check the cap and merge, holding the author's lock over both. -/
def performUnderCapLock (action : PlannedAgentAction) : Exec Unit := do
  let authorLogin := ctx.authorLogin.getD ""
  let claim ← ofExcept (← ask (.claimContributorCapLock authorLogin))
  if claim.acquired then
    andFinally
      (do
        let stillUnderCap ← ofExcept (← ask .contributorCapMergeRecheck)
        if stillUnderCap then performMutation rt ctx mode action
        else audit ctx mode action .denied ("contributor cap re-check confirmed " ++ authorLogin ++
          " is now over cap on " ++ ctx.repoFullName ++ " — action not executed"))
      (do ofExcept (← ask (.releaseContributorCapLock authorLogin claim.ownerToken)))
  else audit ctx mode action .denied ("contributor cap lock contended for " ++ ctx.repoFullName ++
    " author " ++ authorLogin ++ " — action not executed")

/-- Carry out an action that passed every gate. -/
def actuate (action : PlannedAgentAction) : Exec Unit :=
  if action.actionClass = .merge ∧ ctx.contributorCapMergeRecheck = true then
    performUnderCapLock rt ctx mode action
  else performMutation rt ctx mode action

/-! ## The loop -/

/-- Whether the action lacks the write permission its class needs. -/
def lacksWritePermission (action : PlannedAgentAction) : Bool :=
  prWriteClasses.contains action.actionClass &&
    resolveAgentPermissionReadiness ctx.autonomy ctx.installationPermissions action.actionClass !=
      .ready

/-- Steps 6 to 9: the first gate with a reason denies the action. -/
def actuateThroughGates (planned : List PlannedAgentAction) (action : PlannedAgentAction) :
    Exec Unit := do
  let s ← Script.get
  match ← firstSome
      (liveGates rt env ctx action (pairedCloseOutcome planned s.outcomes action)) with
  | some reason => audit ctx mode action .denied reason
  | none => actuate rt ctx mode action

/-- One iteration of the loop. -/
def executeAction (planned : List PlannedAgentAction) (action : PlannedAgentAction) : Exec Unit :=
  let level := resolveAutonomy ctx.autonomy action.governingClass
  if mode = .paused then audit ctx mode action .denied "agent actions paused"
  else if isActingAutonomyLevel level = false then
    audit ctx mode action .denied ("autonomy for " ++ action.actionClass.name ++ " is " ++
      level.name ++ " — action not currently enabled")
  else if mode = .dryRun then
    audit ctx mode action .dryRun ("dry-run: would " ++ action.actionClass.name ++ " — " ++
      action.reason)
  else if action.requiresApproval then stage ctx mode action
  else if lacksWritePermission ctx action then denyWritePermission ctx mode action
  else actuateThroughGates rt env ctx mode planned action

/-- The kill switch is not read when the environment already pauses. -/
def globalPaused : Exec Bool :=
  if isGlobalAgentPause rt env then pure true else ask .isGlobalAgentFrozen

/-- The mode of the whole run. -/
def resolveMode : Exec AgentActionMode := do
  let paused ← globalPaused rt env
  pure (resolveAgentActionMode paused ctx.agentPaused ctx.agentDryRun
    (forcedSelfhostMode rt env))

/-! ## Moderation -/

/-- `MODERATION_RULE_TYPES`, as far as a planned close can carry one. -/
def isModerationRule : CloseKind → Bool
  | .contributorCap | .blacklist | .reviewNag | .copycat => true
  | _ => false

/-- The first moderated close that completed, taking `outcomes[i]` for the outcome of
`planned[i]`. -/
def completedModeratedClose (planned : List PlannedAgentAction)
    (outcomes : List AgentActionOutcome) : Option CloseKind :=
  (planned.zip outcomes).findSome? fun entry =>
    if entry.1.actionClass = .close ∧ entry.2.outcome = .completed then
      entry.1.closeKind.filter isModerationRule
    else none

/-- Count a completed anti-abuse close against its author. -/
def maybeEscalateModeration (planned : List PlannedAgentAction)
    (outcomes : List AgentActionOutcome) : Exec Unit :=
  match truthy ctx.authorLogin, mode, completedModeratedClose planned outcomes with
  | some authorLogin, .live, some rule => do
    ofExcept (← ask (.applyModerationEscalationForRule authorLogin rule))
  | _, _, _ => pure ()

/-- Execute a plan on one pull request. -/
def executeAgentMaintenanceActions (planned : List PlannedAgentAction) :
    Exec (List AgentActionOutcome) := do
  Script.modify fun s => { s with outcomes := [] }
  let mode ← resolveMode rt env ctx
  forEach (executeAction rt env ctx mode planned) planned
  let s ← Script.get
  maybeEscalateModeration ctx mode planned s.outcomes
  pure s.outcomes

end Execute

end LoopOver
