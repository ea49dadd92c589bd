import LoopOver.Executor.Freshness

/-!
# The live gates

The checks that `executeAgentMaintenanceActions` makes on the live pull request before it carries
out an action (steps 6, 7, 7b, 8 and 8b of `src/services/agent-action-executor.ts`). A gate is a
script that gives the reason for which the action is denied, or none; the executor audits the first
reason and carries the action out when there is none.

* `pairedCloseDenial`: a label coupled to a close of the same list is not applied when that close
  was denied or failed (`coupledCloseOutcome`).
* `freshnessGate`: the live pull request is open at the pinned head and on the expected base, and an
  approve or a merge finds no manual-review label on it.
* `liveRecheckGate`: what justified a merge, a heuristic close or an approve still holds.
* `mergeTrainGate`: a merge waits for older overlapping siblings.

No gate writes to GitHub on behalf of the action or touches the executor's state
(`liveGates_quiet`), and each has one lemma that says what is known once it gave no reason.
-/

namespace LoopOver

open List Script

/-! ## Coupled labels -/

/-- The outcome of the close of this kind among the actions already processed, taking `outcomes[i]`
for the outcome of `planned[i]`. -/
def coupledCloseOutcome : List PlannedAgentAction → List AgentActionOutcome → CloseKind →
    Option ActionOutcome
  | action :: planned, outcome :: outcomes, kind =>
    if action.actionClass = .close ∧ action.closeKind = some kind then some outcome.outcome
    else coupledCloseOutcome planned outcomes kind
  | _, _, _ => none

/-- The kind of close a label is coupled to. -/
def PlannedAgentAction.coupledTo (action : PlannedAgentAction) : Option CloseKind :=
  if action.actionClass = .label then action.closeKind else none

/-- The outcome of the close a label is coupled to. -/
def pairedCloseOutcome (planned : List PlannedAgentAction) (outcomes : List AgentActionOutcome)
    (action : PlannedAgentAction) : Option ActionOutcome :=
  action.coupledTo.bind (coupledCloseOutcome planned outcomes)

/-- Step 6: the coupled close was denied or failed. -/
def pairedCloseDenial (action : PlannedAgentAction) (paired : Option ActionOutcome) :
    Option String :=
  match action.coupledTo, paired with
  | some kind, some outcome =>
    if outcome = .denied ∨ outcome = .error then
      some ("paired " ++ kind.name ++ " close did not complete (" ++ outcome.name ++
        ") — skipping the companion label so the PR isn't mislabeled while still open")
    else none
  | _, _ => none

section Gates

variable (rt : Runtime) (env : AgentEnv) (ctx : AgentActionExecutionContext)

/-! ## Freshness -/

variable (action : PlannedAgentAction)

/-- `action.expectedHeadSha ?? ctx.headSha`, where it is not empty. -/
def pinnedHead : Option String :=
  truthy (action.expectedHeadSha <|> ctx.headSha)

/-- The manual-review label in force, if any. -/
def manualReviewLabelName : Option String :=
  resolveNullableLabel ctx.manualReviewLabel agentLabelNeedsReview

/-- Step 7b: an approve or a merge must not override a standing manual-review hold. -/
def manualReviewDenial (liveLabels : List String) : Option String :=
  if action.actionClass = .approve ∨ action.actionClass = .merge then
    (manualReviewLabelName ctx).bind fun label =>
      if hasLabel rt.toText liveLabels label then
        some ("manual-review label \"" ++ label ++ "\" is present on the live PR — " ++
          action.actionClass.name ++ " not executed")
      else none
  else none

/-- Step 7: the live read, which a label skips when its close just completed. -/
def freshnessGate (paired : Option ActionOutcome) :
    Exec (Option String) :=
  if action.coupledTo.isSome && paired == some .completed then pure none
  else
    match pinnedHead ctx action with
    | none => pure (some "live PR head guard unavailable — action not executed")
    | some pin => do
      let freshness ← fetchPullRequestFreshness rt env pin ctx.expectedBaseRef
      match freshness with
      | .stale .. =>
        pure (some (pullRequestFreshnessDetail freshness ++ " — action not executed"))
      | .current _ _ liveLabels => pure (manualReviewDenial rt ctx action liveLabels)

/-! ## Live re-checks -/

def CiState.name : CiState → String
  | passed => "passed"
  | failed => "failed"
  | pending => "pending"
  | unverified => "unverified"

def isHeuristicClose : Bool :=
  action.actionClass == .close && action.closeKind == some .heuristic

/-- A heuristic close staged before it recorded whether it depends on CI. -/
def isAmbiguousLegacyHeuristicClose : Bool :=
  isHeuristicClose action && action.closeRequiresCiState == none

/-- A close that stands only while CI is red. -/
def closeRequiresFailedCi : Bool :=
  (action.actionClass == .close && action.closeRequiresCiState == some .failed) ||
    isAmbiguousLegacyHeuristicClose action

def requiresLiveCiRecheck : Bool :=
  action.actionClass == .merge || closeRequiresFailedCi action

def requiresLiveMergeableRecheck : Bool :=
  isHeuristicClose action && action.closeRequiresMergeableState == some true

def requiresLiveThreadRecheck : Bool :=
  isHeuristicClose action && action.closeRequiresThreadResolved == some true

/-- The winning sibling whose state a duplicate close depends on. -/
def liveDuplicateRecheck : Option Nat :=
  if isHeuristicClose action && action.closeRequiresDuplicateStillOpen == some true then
    action.duplicateWinnerPrNumber
  else none

def requiresLiveApproveMergeableRecheck : Bool :=
  action.actionClass == .approve

/-- What was read live; a read that was not needed or failed is `none`. -/
structure LiveReads where
  ci : Option CiState
  mergeableState : Option String
  threadBlockers : Option (List String)
  winnerState : Option String

/-- A merge needs CI passed exactly, a CI-driven close needs it still failed. -/
def ciStaleReason (reads : LiveReads) : Option String :=
  if requiresLiveCiRecheck action then
    reads.ci.bind fun ci =>
      if action.actionClass = .merge then
        if ci = .passed then none
        else some ("live CI is no longer passing (now: " ++ ci.name ++ ")")
      -- the requirement such a close recorded is `failed`, as is the default of a legacy one
      else if ci = .failed then none
      else some ("CI state changed since planning (now: " ++ ci.name ++ ")")
  else none

/-- Only a confirmed clean state clears a conflict. -/
def mergeableStaleReason (reads : LiveReads) : Option String :=
  if requiresLiveMergeableRecheck action && reads.mergeableState == some "clean" then
    some "the base-branch conflict that justified this close has since cleared"
  else none

/-- Only a confirmed empty list clears the threads. -/
def threadStaleReason (reads : LiveReads) : Option String :=
  if requiresLiveThreadRecheck action && reads.threadBlockers == some [] then
    some "the review thread(s) that justified this close are now all resolved"
  else none

/-- Only a confirmed state other than open clears a duplicate. -/
def duplicateStaleReason (reads : LiveReads) : Option String :=
  (liveDuplicateRecheck action).bind fun winner =>
    reads.winnerState.bind fun state =>
      if state = "open" then none
      else some ("duplicate-cluster winner #" ++ toString winner ++ " is no longer open")

/-- Only a confirmed bad state stops an approve. -/
def approveMergeableStaleReason (reads : LiveReads) :
    Option String :=
  if requiresLiveApproveMergeableRecheck action then
    reads.mergeableState.bind fun state =>
      if state = "dirty" ∨ state = "unstable" then
        some ("live mergeable_state is now \"" ++ state ++
          "\" — the planner never approves this state")
      else none
  else none

def staleReason (reads : LiveReads) : Option String :=
  ciStaleReason action reads <|> mergeableStaleReason action reads <|>
    threadStaleReason action reads <|> duplicateStaleReason action reads <|>
    approveMergeableStaleReason action reads

/-- The reads the action needs, all made before a failed one throws. -/
def readLive : Exec LiveReads := do
  let token := (← ask .createInstallationToken).toOption
  let ci ← askWhen (requiresLiveCiRecheck action)
    (HostCall.fetchLiveCiAggregate (pinnedHead ctx action) token)
  let mergeableState ← askWhen
    (requiresLiveMergeableRecheck action || requiresLiveApproveMergeableRecheck action)
    (HostCall.fetchLivePullRequestMergeState token)
  let threadBlockers ← askWhen (requiresLiveThreadRecheck action)
    (HostCall.fetchLiveReviewThreadBlockers token)
  let winnerState ← askWhen (liveDuplicateRecheck action).isSome
    (HostCall.fetchLivePullRequestState ((liveDuplicateRecheck action).getD 0) token)
  let ci ← ofExcept (match ci with
    | none => .ok none
    | some reply => reply.map some)
  pure { ci, mergeableState := mergeableState.join, threadBlockers,
         winnerState := winnerState.bind fun reply => reply.toOption.join }

/-- Step 8: re-read what the action rests on, when it rests on something live. -/
def liveRecheckGate : Exec (Option String) :=
  if requiresLiveCiRecheck action || requiresLiveMergeableRecheck action ||
      requiresLiveThreadRecheck action || (liveDuplicateRecheck action).isSome ||
      requiresLiveApproveMergeableRecheck action then do
    let reads ← readLive ctx action
    pure ((staleReason action reads).map (· ++ " — action not executed"))
  else pure none

/-! ## Merge train -/

/-- `MERGE_TRAIN_WEDGE_ALERT_THRESHOLD`. -/
def mergeTrainWedgeAlertThreshold : Nat := 5

/-- `MERGE_TRAIN_WEDGE_WINDOW_MS`. -/
def mergeTrainWedgeWindowMs : Int := 60 * 60 * 1000

/-- The stored paths of one pull request, where there are any. -/
def pathsOf (filePaths : List (Nat × String)) (pullNumber : Nat) : Option (List String) :=
  let paths := (filePaths.filter fun row => row.1 == pullNumber).map Prod.snd
  if paths.isEmpty then none else some paths

/-- The question the executor puts to the merge train. -/
def mergeTrainInput (siblings : List OpenPullRequest) (filePaths : List (Nat × String))
    (nowMs : Int) : ShouldWaitForOlderSiblingsInput where
  thisPrNumber := ctx.pullNumber
  thisPrCreatedAt := ctx.pullRequestCreatedAt
  thisPrLinkedIssues := ctx.pullRequestLinkedIssues
  thisPrChangedFiles := pathsOf filePaths ctx.pullNumber <|> ctx.pullRequestChangedFiles
  siblings := siblings.map fun sibling =>
    { number := sibling.number
      createdAt := sibling.createdAt
      mergeableState := sibling.mergeableState
      linkedIssues := sibling.linkedIssues
      changedFiles := pathsOf filePaths sibling.number
      heldForManualReview :=
        (manualReviewLabelName ctx).any fun label => hasLabel rt.toText sibling.labels label
      isDraft := sibling.isDraft.getD false }
  nowMs := nowMs

/-- Record the wait against the blocking sibling, and page when it has blocked many merges. -/
def recordMergeTrainWedge (mode : MergeTrainMode) (blockingPr : Nat) : Exec Unit := do
  let wedgeTargetKey := ctx.repoFullName ++ "#merge-train-blocked-by-" ++ toString blockingPr
  let _ ← ask (.recordAuditEvent (.mergeTrainBlocked wedgeTargetKey blockingPr mode))
  if env.pagerDutyEnabled then do
    let nowMs ← ask .now
    match ← ask (.countRecentAuditEventsForActorAndTarget .mergeTrainBlocked wedgeTargetKey
        (nowMs - mergeTrainWedgeWindowMs)) with
    | .error _ => pure ()
    | .ok recentDenials =>
      let _ ← askWhen (decide (mergeTrainWedgeAlertThreshold ≤ recentDenials))
        (HostCall.triggerPagerDutyIncident
          ("merge train wedged: #" ++ toString blockingPr ++ " has blocked " ++
            toString recentDenials ++ " merge attempt(s) in the last hour")
          wedgeTargetKey)
      pure ()
  else pure ()

/-- What the contributor is told about the wait. -/
def mergeTrainWaitComment (blockingPr : Nat) (queueAhead : List Nat) : String :=
  (if 1 < queueAhead.length then
    "Queued in the merge train at position " ++ toString (queueAhead.length + 1) ++ ", behind " ++
      toString queueAhead.length ++ " overlapping PRs opened before this one (" ++
      ", ".intercalate (queueAhead.map fun pr => "#" ++ toString pr) ++ "). The nearest is #" ++
      toString blockingPr ++
      ". This PR merges automatically as they complete (or leave the train). No action needed. "
  else
    "Queued in the merge train behind #" ++ toString blockingPr ++
      ", which touches overlapping work and was opened first. This PR merges automatically once #" ++
      toString blockingPr ++ " completes (or leaves the train). No action needed. ") ++
    "This is an automated maintenance action."

/-- Tell the contributor once for each blocking sibling. -/
def tellMergeTrainWait (blockingPr : Nat) (queueAhead : List Nat) : Exec Unit := do
  let waitCommentTargetKey :=
    ctx.targetKey ++ ":merge-train-wait-comment-for-" ++ toString blockingPr
  let nowMs ← ask .now
  let alreadyTold ← ask (.countRecentAuditEventsForActorAndTarget .mergeTrainWaitComment
    waitCommentTargetKey (nowMs - mergeTrainMaxWaitMs))
  if alreadyTold.toOption.getD 0 = 0 then do
    match ← ask (.createIssueComment (mergeTrainWaitComment blockingPr queueAhead)) with
    | .error _ => pure ()
    | .ok () =>
      let _ ← ask (.recordAuditEvent (.mergeTrainWaitComment waitCommentTargetKey blockingPr))
      pure ()
  else pure ()

/-- Step 8b: ask the merge train. Only `enforce` holds the merge back. -/
def boardMergeTrain (mode : MergeTrainMode) : Exec (Option String) := do
  let siblings ← ofExcept (← ask .listOtherOpenPullRequests)
  let filePaths ← ofExcept
    (← ask (.listRepoPullRequestFilePaths (ctx.pullNumber :: siblings.map OpenPullRequest.number)))
  let nowMs ← ask .now
  match shouldWaitForOlderSiblings rt (mergeTrainInput rt ctx siblings filePaths nowMs) with
  | .go => pure none
  | .wait blockingPr queueAhead => do
    recordMergeTrainWedge env ctx mode blockingPr
    if mode = .enforce then do
      tellMergeTrainWait ctx blockingPr queueAhead
      pure (some ("merge train: waiting for older mergeable sibling #" ++ toString blockingPr ++
        " — action not executed"))
    else do
      let _ ← ask (.recordAuditEvent (.mergeTrainWouldWait ctx.targetKey blockingPr))
      pure none

def mergeTrainGate : Exec (Option String) :=
  match action.actionClass, ctx.mergeTrainMode with
  | .merge, some .audit => boardMergeTrain rt env ctx .audit
  | .merge, some .enforce => boardMergeTrain rt env ctx .enforce
  | _, _ => pure none

/-- Steps 6 to 8b, in order. -/
def liveGates (paired : Option ActionOutcome) :
    List (Exec (Option String)) :=
  [pure (pairedCloseDenial action paired), freshnessGate rt env ctx action paired,
    liveRecheckGate ctx action, mergeTrainGate rt env ctx action]

end Gates

/-! ## Gates only read -/

/-- A call that neither writes for the action, nor stages it, nor audits it, nor gives up the cap
lock. -/
def HostCall.quiet : HostCall → Bool
  | mutate _ => false
  | createPendingAgentActionIfAbsent _ => false
  | releaseContributorCapLock _ _ => false
  | recordAuditEvent (.agentAction _) => false
  | _ => true

/-- A script that makes quiet calls only and leaves the state as it is. -/
abbrev Quiet {α : Type} (p : Exec α) : Prop := Script.Respects (fun call => call.quiet = true) Eq p

variable {rt : Runtime} {env : AgentEnv} {ctx : AgentActionExecutionContext}

theorem fetchPullRequestFreshness_quiet (pin : String) (base : Option String) :
    Quiet (fetchPullRequestFreshness rt env pin base) := by
  refine respects_bind (respects_ask rfl) fun reply => ?_
  dsimp only
  split
  · exact respects_pure _
  · refine respects_bind (respects_ask rfl) fun result => ?_
    split <;> exact respects_pure _

theorem freshnessGate_quiet (action : PlannedAgentAction) (paired : Option ActionOutcome) :
    Quiet (freshnessGate rt env ctx action paired) := by
  refine respects_ite (fun _ => respects_pure _) fun _ => ?_
  split
  · exact respects_pure _
  · refine respects_bind (fetchPullRequestFreshness_quiet _ _) fun freshness => ?_
    split <;> exact respects_pure _

theorem readLive_quiet (action : PlannedAgentAction) : Quiet (readLive ctx action) := by
  refine respects_bind (respects_ask rfl) fun token => ?_
  refine respects_bind (respects_askWhen rfl) fun ci => ?_
  refine respects_bind (respects_askWhen rfl) fun mergeableState => ?_
  refine respects_bind (respects_askWhen rfl) fun threadBlockers => ?_
  refine respects_bind (respects_askWhen rfl) fun winnerState => ?_
  exact respects_bind (respects_ofExcept _) fun ci => respects_pure _

theorem liveRecheckGate_quiet (action : PlannedAgentAction) :
    Quiet (liveRecheckGate ctx action) := by
  refine respects_ite (fun _ => ?_) fun _ => respects_pure _
  exact respects_bind (readLive_quiet action) fun reads => respects_pure _

theorem recordMergeTrainWedge_quiet (mode : MergeTrainMode) (blockingPr : Nat) :
    Quiet (recordMergeTrainWedge env ctx mode blockingPr) := by
  refine respects_bind (respects_ask rfl) fun _ => ?_
  refine respects_ite (fun _ => ?_) fun _ => respects_pure _
  refine respects_bind (respects_ask rfl) fun nowMs => ?_
  refine respects_bind (respects_ask rfl) fun count => ?_
  split
  · exact respects_pure _
  · exact respects_bind (respects_askWhen rfl) fun _ => respects_pure _

theorem tellMergeTrainWait_quiet (blockingPr : Nat) (queueAhead : List Nat) :
    Quiet (tellMergeTrainWait ctx blockingPr queueAhead) := by
  refine respects_bind (respects_ask rfl) fun nowMs => ?_
  refine respects_bind (respects_ask rfl) fun alreadyTold => ?_
  refine respects_ite (fun _ => ?_) fun _ => respects_pure _
  refine respects_bind (respects_ask rfl) fun posted => ?_
  split
  · exact respects_pure _
  · exact respects_bind (respects_ask rfl) fun _ => respects_pure _

theorem boardMergeTrain_quiet (mode : MergeTrainMode) :
    Quiet (boardMergeTrain rt env ctx mode) := by
  refine respects_bind (respects_ask rfl) fun listed => ?_
  refine respects_bind (respects_ofExcept _) fun siblings => ?_
  refine respects_bind (respects_ask rfl) fun paths => ?_
  refine respects_bind (respects_ofExcept _) fun filePaths => ?_
  refine respects_bind (respects_ask rfl) fun nowMs => ?_
  split
  · exact respects_pure _
  next blockingPr queueAhead _ =>
    refine respects_bind (recordMergeTrainWedge_quiet mode blockingPr) fun _ => ?_
    refine respects_ite (fun _ => ?_) fun _ => ?_
    · exact respects_bind (tellMergeTrainWait_quiet blockingPr queueAhead) fun _ =>
        respects_pure _
    · exact respects_bind (respects_ask rfl) fun _ => respects_pure _

theorem mergeTrainGate_quiet (action : PlannedAgentAction) :
    Quiet (mergeTrainGate rt env ctx action) := by
  unfold mergeTrainGate
  split
  · exact boardMergeTrain_quiet _
  · exact boardMergeTrain_quiet _
  · exact respects_pure _

/-- **The gates only read**: none of them writes for the action or changes the state. -/
theorem liveGates_quiet (action : PlannedAgentAction) (paired : Option ActionOutcome) :
    Quiet (firstSome (liveGates rt env ctx action paired)) := by
  refine respects_firstSome fun gate hgate => ?_
  simp only [liveGates, mem_cons, not_mem_nil, or_false] at hgate
  obtain rfl | rfl | rfl | rfl := hgate
  · exact respects_pure _
  · exact freshnessGate_quiet action paired
  · exact liveRecheckGate_quiet action
  · exact mergeTrainGate_quiet action

/-! ## What is known once a gate gave no reason -/

section Specs

variable {action : PlannedAgentAction} {s s' : ExecutorState} {t : List HostEvent}

/-- The live pull request was read, found current, and carries no manual-review label that would
hold an approve or a merge back. -/
structure ReadCurrent (rt : Runtime) (ctx : AgentActionExecutionContext)
    (action : PlannedAgentAction) (pin : String) (live : LivePullRequest) : Prop
    extends live.IsCurrent rt pin ctx.expectedBaseRef where
  unheld : action.actionClass = .approve ∨ action.actionClass = .merge →
    ∀ label, manualReviewLabelName ctx = some label →
      hasLabel rt.toText live.labelNames label = false

theorem freshnessGate_none {paired : Option ActionOutcome}
    (h : (freshnessGate rt env ctx action paired).Ends s t (.ok none) s') :
    (action.coupledTo.isSome = true ∧ paired = some .completed) ∨
      ∃ pin token own live, pinnedHead ctx action = some pin ∧
        ⟨.fetchLivePullRequestResult token own, .ok live⟩ ∈ t ∧
        ReadCurrent rt ctx action pin live := by
  rcases ends_ite.1 h with ⟨hskip, -⟩ | ⟨-, hgate⟩
  · rw [Bool.and_eq_true, beq_iff_eq] at hskip
    exact Or.inl hskip
  · right
    cases hpin : pinnedHead ctx action with
    | none =>
      rw [hpin] at hgate
      obtain ⟨-, hr, -⟩ := ends_pure.1 hgate
      cases hr
    | some pin =>
      rw [hpin] at hgate
      obtain ⟨front, freshness, s₁, back, hfetch, hjudge, rfl⟩ := ends_bind_ok.1 hgate
      split at hjudge
      · obtain ⟨-, hr, -⟩ := ends_pure.1 hjudge
        cases hr
      next head state labels =>
        obtain ⟨-, hr, -⟩ := ends_pure.1 hjudge
        obtain ⟨token, own, live, hmem, hcurrent, rfl⟩ := fetchPullRequestFreshness_current hfetch
        refine ⟨pin, token, own, live, rfl, mem_append_left _ hmem, hcurrent, ?_⟩
        intro hclass label hlabel
        have hdenial := (Except.ok.inj hr).symm
        simp only [manualReviewDenial, hclass, if_true, hlabel, Option.bind_some] at hdenial
        split at hdenial
        · cases hdenial
        next hnot => exact Bool.not_eq_true _ ▸ hnot

/-- Every read the action needs is in the trace. -/
structure LiveReads.From (reads : LiveReads) (ctx : AgentActionExecutionContext)
    (action : PlannedAgentAction) (t : List HostEvent) : Prop where
  ci : requiresLiveCiRecheck action = true → ∃ token ci,
    ⟨.fetchLiveCiAggregate (pinnedHead ctx action) token, .ok ci⟩ ∈ t ∧ reads.ci = some ci
  mergeable : (requiresLiveMergeableRecheck action ||
      requiresLiveApproveMergeableRecheck action) = true → ∃ token state,
    ⟨.fetchLivePullRequestMergeState token, state⟩ ∈ t ∧ reads.mergeableState = state
  threads : requiresLiveThreadRecheck action = true → ∃ token blockers,
    ⟨.fetchLiveReviewThreadBlockers token, blockers⟩ ∈ t ∧ reads.threadBlockers = some blockers
  winner : ∀ winner, liveDuplicateRecheck action = some winner → ∃ token reply,
    ⟨.fetchLivePullRequestState winner token, reply⟩ ∈ t ∧
      reads.winnerState = reply.toOption.join

theorem readLive_from {reads : LiveReads} (h : (readLive ctx action).Ends s t (.ok reads) s') :
    reads.From ctx action t := by
  obtain ⟨minted, t₁, rfl, h₁⟩ := ends_ask_bind.1 h
  obtain ⟨tci, ci, s₂, t₂, hci, h₂, rfl⟩ := ends_bind_ok.1 h₁
  obtain ⟨tmerge, mergeable, s₃, t₃, hmerge, h₃, rfl⟩ := ends_bind_ok.1 h₂
  obtain ⟨tthread, threads, s₄, t₄, hthread, h₄, rfl⟩ := ends_bind_ok.1 h₃
  obtain ⟨twinner, winner, s₅, t₅, hwinner, h₅, rfl⟩ := ends_bind_ok.1 h₄
  rcases ends_ofExcept_bind.1 h₅ with ⟨e, -, -, hr, -⟩ | ⟨ciState, hsettled, h₆⟩
  · cases hr
  obtain ⟨rfl, hreads, -⟩ := ends_pure.1 h₆
  obtain rfl := Except.ok.inj hreads
  refine ⟨fun hreq => ?_, fun hreq => ?_, fun hreq => ?_, fun n hn => ?_⟩
  · rcases ends_askWhen.1 hci with ⟨-, reply, rfl, hreply, -⟩ | ⟨hnot, -⟩
    · obtain rfl := Except.ok.inj hreply
      cases reply with
      | error e => cases hsettled
      | ok state =>
        obtain rfl := Except.ok.inj hsettled
        exact ⟨_, state, mem_cons_of_mem _ (mem_append_left _ mem_cons_self), rfl⟩
    · rw [hreq] at hnot
      cases hnot
  · rcases ends_askWhen.1 hmerge with ⟨-, reply, rfl, hreply, -⟩ | ⟨hnot, -⟩
    · obtain rfl := Except.ok.inj hreply
      exact ⟨_, reply, mem_cons_of_mem _ (mem_append_right _
        (mem_append_left _ mem_cons_self)), rfl⟩
    · rw [hreq] at hnot
      cases hnot
  · rcases ends_askWhen.1 hthread with ⟨-, reply, rfl, hreply, -⟩ | ⟨hnot, -⟩
    · obtain rfl := Except.ok.inj hreply
      exact ⟨_, reply, mem_cons_of_mem _ (mem_append_right _ (mem_append_right _
        (mem_append_left _ mem_cons_self))), rfl⟩
    · rw [hreq] at hnot
      cases hnot
  · rcases ends_askWhen.1 hwinner with ⟨-, reply, rfl, hreply, -⟩ | ⟨hnot, -⟩
    · obtain rfl := Except.ok.inj hreply
      rw [hn]
      exact ⟨_, reply, mem_cons_of_mem _ (mem_append_right _ (mem_append_right _
        (mem_append_right _ (mem_append_left _ mem_cons_self)))), rfl⟩
    · rw [hn] at hnot
      cases hnot

/-- Every live re-check the action requires was made and did not clear what it rests on. -/
structure LiveRechecked (ctx : AgentActionExecutionContext) (action : PlannedAgentAction)
    (seen : List HostEvent) : Prop where
  /-- A merge found CI passed. -/
  mergeCi : action.actionClass = .merge → ∃ token,
    ⟨.fetchLiveCiAggregate (pinnedHead ctx action) token, .ok .passed⟩ ∈ seen
  /-- A CI-driven close found CI still failed. -/
  closeCi : closeRequiresFailedCi action = true → ∃ token,
    ⟨.fetchLiveCiAggregate (pinnedHead ctx action) token, .ok .failed⟩ ∈ seen
  /-- A conflict-driven close did not find the conflict cleared. -/
  conflict : requiresLiveMergeableRecheck action = true → ∃ token state,
    ⟨.fetchLivePullRequestMergeState token, state⟩ ∈ seen ∧ state ≠ some "clean"
  /-- A thread-driven close found unresolved threads. -/
  threads : requiresLiveThreadRecheck action = true → ∃ token blockers,
    ⟨.fetchLiveReviewThreadBlockers token, blockers⟩ ∈ seen ∧ blockers ≠ []
  /-- A duplicate-driven close did not find its winner in another state than open. -/
  duplicate : ∀ winner, liveDuplicateRecheck action = some winner → ∃ token reply,
    ⟨.fetchLivePullRequestState winner token, reply⟩ ∈ seen ∧
      ∀ state, reply = .ok (some state) → state = "open"
  /-- An approve did not find the pull request conflicted or unstable. -/
  approve : action.actionClass = .approve → ∃ token state,
    ⟨.fetchLivePullRequestMergeState token, state⟩ ∈ seen ∧ state ≠ some "dirty" ∧
      state ≠ some "unstable"

theorem LiveRechecked.mono {seen seen' : List HostEvent} (h : LiveRechecked ctx action seen)
    (hsub : seen ⊆ seen') : LiveRechecked ctx action seen' where
  mergeCi hm := (h.mergeCi hm).imp fun _ he => hsub he
  closeCi hc := (h.closeCi hc).imp fun _ he => hsub he
  conflict hc := (h.conflict hc).imp fun _ hs => hs.imp fun _ he => ⟨hsub he.1, he.2⟩
  threads ht := (h.threads ht).imp fun _ hs => hs.imp fun _ he => ⟨hsub he.1, he.2⟩
  duplicate n hn := (h.duplicate n hn).imp fun _ hs => hs.imp fun _ he => ⟨hsub he.1, he.2⟩
  approve ha := (h.approve ha).imp fun _ hs => hs.imp fun _ he => ⟨hsub he.1, he.2⟩

theorem orElse_eq_none {α : Type} {a b : Option α} : (a <|> b) = none ↔ a = none ∧ b = none := by
  cases a <;> simp

/-- Reads that make nothing stale confirm everything the action rests on. -/
theorem LiveReads.From.rechecked {reads : LiveReads} (h : reads.From ctx action t)
    (hstale : staleReason action reads = none) : LiveRechecked ctx action t := by
  simp only [staleReason, orElse_eq_none] at hstale
  obtain ⟨hci, hmergeable, hthreads, hduplicate, happrove⟩ := hstale
  refine ⟨fun hm => ?_, fun hc => ?_, fun hc => ?_, fun ht => ?_, fun n hn => ?_, fun ha => ?_⟩
  · have hreq : requiresLiveCiRecheck action = true := by simp [requiresLiveCiRecheck, hm]
    obtain ⟨token, ci, hmem, hread⟩ := h.ci hreq
    have hpassed : ci = .passed := by simpa [ciStaleReason, hreq, hread, hm] using hci
    exact ⟨token, hpassed ▸ hmem⟩
  · have hreq : requiresLiveCiRecheck action = true := by simp [requiresLiveCiRecheck, hc]
    have hclass : action.actionClass = .close := by
      simp only [closeRequiresFailedCi, isAmbiguousLegacyHeuristicClose, isHeuristicClose,
        Bool.or_eq_true, Bool.and_eq_true, beq_iff_eq] at hc
      obtain ⟨hclose, -⟩ | ⟨⟨hclose, -⟩, -⟩ := hc <;> exact hclose
    obtain ⟨token, ci, hmem, hread⟩ := h.ci hreq
    have hfailed : ci = .failed := by simpa [ciStaleReason, hreq, hread, hclass] using hci
    exact ⟨token, hfailed ▸ hmem⟩
  · obtain ⟨token, state, hmem, hread⟩ := h.mergeable (by simp [hc])
    refine ⟨token, state, hmem, fun hclean => ?_⟩
    simp [mergeableStaleReason, hc, hread, hclean] at hmergeable
  · obtain ⟨token, blockers, hmem, hread⟩ := h.threads ht
    refine ⟨token, blockers, hmem, fun hnil => ?_⟩
    simp [threadStaleReason, ht, hread, hnil] at hthreads
  · obtain ⟨token, reply, hmem, hread⟩ := h.winner n hn
    refine ⟨token, reply, hmem, fun state hstate => ?_⟩
    rw [hstate] at hread
    simpa [duplicateStaleReason, hn, hread, Except.toOption] using hduplicate
  · have hreq : requiresLiveApproveMergeableRecheck action = true := by
      simp [requiresLiveApproveMergeableRecheck, ha]
    obtain ⟨token, state, hmem, hread⟩ := h.mergeable (by simp [hreq])
    refine ⟨token, state, hmem, fun hdirty => ?_, fun hunstable => ?_⟩
    · simp [approveMergeableStaleReason, hreq, hread, hdirty] at happrove
    · simp [approveMergeableStaleReason, hreq, hread, hunstable] at happrove

theorem liveRecheckGate_none (h : (liveRecheckGate ctx action).Ends s t (.ok none) s') :
    LiveRechecked ctx action t := by
  rcases ends_ite.1 h with ⟨-, hgate⟩ | ⟨hnone, -⟩
  · obtain ⟨front, reads, s₁, back, hread, hjudge, rfl⟩ := ends_bind_ok.1 hgate
    obtain ⟨rfl, hr, -⟩ := ends_pure.1 hjudge
    have hstale : staleReason action reads = none :=
      Option.map_eq_none_iff.1 (Except.ok.inj hr).symm
    rw [append_nil]
    exact (readLive_from hread).rechecked hstale
  · -- nothing the action rests on is live, so none of the re-checks is required
    simp only [Bool.or_eq_true, not_or, Bool.not_eq_true] at hnone
    obtain ⟨⟨⟨⟨hci, hmergeable⟩, hthreads⟩, hduplicate⟩, happrove⟩ := hnone
    have hcis : action.actionClass ≠ .merge ∧ closeRequiresFailedCi action = false := by
      simpa [requiresLiveCiRecheck] using hci
    refine ⟨fun hm => absurd hm hcis.1, fun hc => ?_, fun hc => ?_, fun ht => ?_, fun n hn => ?_,
      fun ha => ?_⟩
    · rw [hcis.2] at hc
      cases hc
    · rw [hmergeable] at hc
      cases hc
    · rw [hthreads] at ht
      cases ht
    · rw [hn] at hduplicate
      cases hduplicate
    · simp [requiresLiveApproveMergeableRecheck, ha] at happrove

/-- The merge train was asked and said that no older sibling holds the merge back. -/
def MergeTrainClear (rt : Runtime) (ctx : AgentActionExecutionContext) (seen : List HostEvent) :
    Prop :=
  ∃ siblings filePaths nowMs, ⟨.listOtherOpenPullRequests, .ok siblings⟩ ∈ seen ∧
    ⟨.listRepoPullRequestFilePaths (ctx.pullNumber :: siblings.map OpenPullRequest.number),
      .ok filePaths⟩ ∈ seen ∧ ⟨.now, nowMs⟩ ∈ seen ∧
    shouldWaitForOlderSiblings rt (mergeTrainInput rt ctx siblings filePaths nowMs) = .go

theorem boardMergeTrain_none (h : (boardMergeTrain rt env ctx .enforce).Ends s t (.ok none) s') :
    MergeTrainClear rt ctx t := by
  obtain ⟨listed, t₁, rfl, h₁⟩ := ends_ask_bind.1 h
  rcases ends_ofExcept_bind.1 h₁ with ⟨e, -, -, hr, -⟩ | ⟨siblings, rfl, h₂⟩
  · cases hr
  obtain ⟨paths, t₂, rfl, h₃⟩ := ends_ask_bind.1 h₂
  rcases ends_ofExcept_bind.1 h₃ with ⟨e, -, -, hr, -⟩ | ⟨filePaths, rfl, h₄⟩
  · cases hr
  obtain ⟨nowMs, t₃, rfl, h₅⟩ := ends_ask_bind.1 h₄
  split at h₅
  next hgo => exact ⟨siblings, filePaths, nowMs, by simp, by simp, by simp, hgo⟩
  next blockingPr queueAhead _ =>
    obtain ⟨_, _, _, _, -, h₆, -⟩ := ends_bind_ok.1 h₅
    obtain ⟨_, _, _, _, -, h₇, -⟩ := ends_bind_ok.1 (by simpa using h₆)
    obtain ⟨-, hr, -⟩ := ends_pure.1 h₇
    cases hr

theorem mergeTrainGate_none (h : (mergeTrainGate rt env ctx action).Ends s t (.ok none) s')
    (hmerge : action.actionClass = .merge) (henforce : ctx.mergeTrainMode = some .enforce) :
    MergeTrainClear rt ctx t := by
  rw [mergeTrainGate, hmerge, henforce] at h
  exact boardMergeTrain_none h

end Specs

end LoopOver
