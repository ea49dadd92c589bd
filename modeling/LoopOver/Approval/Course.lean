import LoopOver.Approval.Queue

/-!
# What a call does to a staged row

An accept, a reject and a sweep each do few things that matter to a row of the approval queue, and
in a fixed order.

* `Revalidated` is what an accept has checked before the executor runs, and
  `revalidateAgainst_pinned` what that says of the head.
* `RowEffect` is what a call has done that matters to the row, and `TaskCourse` the order in which a
  call can do these things.
* `task_course_of_follows` reads the course of a call off its script, at any point of its run.
* `decide_run` and `sweepStaleApprovalQueue_run` are what a call reports at its end.
-/

namespace LoopOver

open List Script

/-! ## Pins -/

/-- What the executor is handed is pinned to the head of the stored pull request: a head that an
action names is that one, and an approval, a merge or a close names a head. -/
structure Execution.PinnedTo (execution : Execution) (pr : Option PullRequestRecord) : Prop where
  head_eq : execution.ctx.headSha = pr.bind PullRequestRecord.headSha
  same : ∀ action ∈ execution.plan, ∀ pin head, truthy action.expectedHeadSha = some pin →
    storedHead pr = some head → pin = head
  pinned : ∀ action ∈ execution.plan, action.isApproval || action.isMergeOrClose →
    (truthy action.expectedHeadSha).isSome

section Plan

variable {planned : List PlannedAgentAction} {labelSettings : AgentDispositionLabelSettings}
  {template action : PlannedAgentAction}

/-- A hold label, which names no head. -/
structure PlannedAgentAction.IsUnpinnedLabel (action : PlannedAgentAction) : Prop where
  label : action.actionClass = .label
  unpinned : action.expectedHeadSha = none

theorem mem_withManualReviewHoldLabel_cases (htemplate : template.expectedHeadSha = none)
    (h : action ∈ withManualReviewHoldLabel planned labelSettings template) :
    action ∈ planned ∨ action.IsUnpinnedLabel := by
  unfold withManualReviewHoldLabel at h
  split at h
  · exact Or.inl h
  · dsimp only at h
    split at h
    · exact Or.inl (mem_filter.1 h).1
    · rcases mem_append.1 h with hkept | hadded
      · exact Or.inl (mem_filter.1 hkept).1
      · obtain rfl := mem_singleton.1 hadded
        exact Or.inr ⟨rfl, htemplate⟩

/-- A circuit breaker leaves an action as it is, or puts a hold in its place. -/
theorem mem_downgradeMergeToHold {holdOnly : Bool}
    (h : action ∈ downgradeMergeToHold planned holdOnly labelSettings) :
    action ∈ planned ∨ action.IsUnpinnedLabel := by
  unfold downgradeMergeToHold at h
  split at h
  · exact Or.inl h
  · have hmem := (mem_filter.1 h).1
    rcases mem_withManualReviewHoldLabel_cases rfl hmem with hkept | hlabel
    · exact Or.inl (mem_filter.1 hkept).1
    · exact Or.inr hlabel

theorem mem_downgradeCloseToHold {closeHoldOnly : Bool} {untrustworthyRuleCodes : List String}
    (h : action ∈ downgradeCloseToHold planned closeHoldOnly labelSettings untrustworthyRuleCodes) :
    action ∈ planned ∨ action.IsUnpinnedLabel := by
  unfold downgradeCloseToHold at h
  dsimp only at h
  split at h
  · exact Or.inl h
  · rcases mem_withManualReviewHoldLabel_cases rfl h with hkept | hlabel
    · exact Or.inl (mem_filter.1 hkept).1
    · exact Or.inr hlabel

end Plan

section Pins

variable {rt : Runtime} {env : ApprovalEnv} {pending : AgentPendingActionRecord}
  {settings : RepositorySettings} {pr : Option PullRequestRecord} {t : List ApprovalEvent}
  {s s' : Unit}

theorem eq_of_headMoved (h : headMoved pending pr = none) {pin head : String}
    (hpin : stagedHead pending = some pin) (hhead : storedHead pr = some head) : pin = head := by
  unfold headMoved at h
  rw [hpin, hhead] at h
  by_contra hne
  simp [hne] at h

theorem stagedHead_of_unpinned (h : unpinned pending = none)
    (hratifying : (pending.actionClass == .approve &&
      pending.params.dismissStaleApproval != some true) ||
      pending.actionClass == .merge || pending.actionClass == .close) :
    (stagedHead pending).isSome := by
  have hpinned : isUnpinnedRatifyingAction pending = false := by
    by_contra htrue
    simp [unpinned, htrue] at h
  rw [isUnpinnedRatifyingAction, hratifying, Bool.and_true] at hpinned
  simpa using hpinned

variable {liveParams : AgentPendingActionParams}

/-- The parameters that the action runs with keep the staged head. -/
theorem checkLiveDisposition_params
    (h : (checkLiveDisposition rt pending settings pr).Ends s t (.ok (.ok liveParams)) s') :
    liveParams.expectedHeadSha = pending.params.expectedHeadSha ∧
      liveParams.dismissStaleApproval = pending.params.dismissStaleApproval := by
  rcases ends_ite.1 h with ⟨-, hrecheck⟩ | ⟨-, hskip⟩
  · obtain ⟨front, live, s₁, back, -, hback, -⟩ := ends_bind_ok.1 hrecheck
    dsimp only at hback
    split at hback
    · obtain ⟨-, hresult, -⟩ := ends_pure.1 hback
      cases hresult
    · obtain ⟨-, hresult, -⟩ := ends_pure.1 hback
      cases hresult
      exact ⟨rfl, rfl⟩
  · obtain ⟨-, hresult, -⟩ := ends_pure.1 hskip
    cases hresult
    exact ⟨rfl, rfl⟩

/-- The plan is the staged action, or a hold in its place. -/
theorem planAccepted_mem {plan : List PlannedAgentAction}
    (h : (planAccepted pending settings liveParams).Ends s t (.ok plan) s')
    {action : PlannedAgentAction} (haction : action ∈ plan) :
    action = pendingActionToPlanned pending.actionClass liveParams pending.reason ∨
      action.IsUnpinnedLabel := by
  obtain ⟨holdOnly, t₁, -, h₁⟩ := ends_ask_bind.1 h
  obtain ⟨closeHoldOnly, t₂, -, h₂⟩ := ends_ask_bind.1 h₁
  obtain ⟨codes, t₃, -, h₃⟩ := ends_ask_bind.1 h₂
  obtain ⟨-, hplan, -⟩ := ends_pure.1 h₃
  cases hplan
  rcases mem_downgradeCloseToHold haction with hmem | hlabel
  · rcases mem_downgradeMergeToHold hmem with hstaged | hlabel
    · exact Or.inl (mem_singleton.1 hstaged)
    · exact Or.inr hlabel
  · exact Or.inr hlabel

end Pins

/-! ## What a call does to the row -/

/-- What a call has done that matters to the row: it won the claim, it read the pull request, it ran
the executor, it set the status. -/
inductive RowEffect
  | claimed (status : AgentPendingActionStatus)
  | read (repoFullName : String) (pullNumber : ℕ) (pr : Option PullRequestRecord)
  | executed (execution : Execution)
  | set (status : AgentPendingActionStatus)

/-- The effect of an event on the row with the given id. -/
def rowEffect (id : String) : ApprovalEvent → Option RowEffect
  | ⟨.claimPendingAgentActionDecision target status _, .ok true⟩ =>
    if target = id then some (.claimed status) else none
  | ⟨.getPullRequest repoFullName pullNumber, .ok pr⟩ => some (.read repoFullName pullNumber pr)
  | ⟨.executeAgentMaintenanceActions ctx plan, _⟩ => some (.executed ⟨ctx, plan⟩)
  | ⟨.setPendingAgentActionStatus target status _, .ok _⟩ =>
    if target = id then some (.set status) else none
  | _ => none

/-- The effects of the events, in their order. -/
def rowEffects (id : String) (events : List ApprovalEvent) : List RowEffect :=
  events.filterMap (rowEffect id)

theorem rowEffects_append (id : String) (front back : List ApprovalEvent) :
    rowEffects id (front ++ back) = rowEffects id front ++ rowEffects id back := filterMap_append

/-- A call that has no effect on any row. -/
def ApprovalCall.quiet : ApprovalCall → Bool
  | claimPendingAgentActionDecision _ _ _ => false
  | getPullRequest _ _ => false
  | executeAgentMaintenanceActions _ _ => false
  | setPendingAgentActionStatus _ _ _ => false
  | _ => true

theorem rowEffects_of_quiet {id : String} {t : List ApprovalEvent}
    (h : ∀ e ∈ t, e.call.quiet = true) : rowEffects id t = [] := by
  refine filterMap_eq_nil_iff.2 fun e he => ?_
  have hquiet := h e he
  obtain ⟨call, reply⟩ := e
  cases call with
  | claimPendingAgentActionDecision | getPullRequest | executeAgentMaintenanceActions
  | setPendingAgentActionStatus => cases hquiet
  | _ => rfl

/-- A script that makes quiet calls only. -/
abbrev Unobtrusive {α : Type} (p : ApprovalScript α) : Prop :=
  Script.Respects (fun call => call.quiet = true) Eq p

theorem Unobtrusive.rowEffects_eq {α : Type} {p : ApprovalScript α} (hp : Unobtrusive p)
    {id : String} {t : List ApprovalEvent} {r : Except HostError α} {s s' : Unit}
    (h : p.Ends s t r s') :
    rowEffects id t = [] :=
  rowEffects_of_quiet (hp s t r s' h).1

section Unobtrusive

variable {rt : Runtime} {env : ApprovalEnv} (pending : AgentPendingActionRecord)
  (settings : RepositorySettings) (pr : Option PullRequestRecord)

theorem checkPairedClose_unobtrusive : Unobtrusive (checkPairedClose pending) := by
  refine respects_ite (fun _ => ?_) fun _ => respects_pure _
  refine respects_bind (respects_ask rfl) fun reply => ?_
  exact respects_bind (respects_ofExcept _) fun _ => respects_pure _

theorem currentLinkedIssueRule_unobtrusive (pr : PullRequestRecord) :
    Unobtrusive (currentLinkedIssueRule pending pr) := by
  refine respects_bind (respects_ask rfl) fun reply => ?_
  refine respects_bind (respects_ofExcept _) fun config => ?_
  refine respects_bind (respects_ask rfl) fun token => ?_
  exact respects_bind (respects_ask rfl) fun rule => respects_ofExcept _

theorem checkLinkedIssueClose_unobtrusive :
    Unobtrusive (checkLinkedIssueClose rt env pending settings pr) := by
  unfold checkLinkedIssueClose
  split
  · exact respects_pure _
  · refine respects_ite (fun _ => ?_) fun _ => respects_pure _
    refine respects_ite (fun _ => ?_) fun _ => respects_pure _
    exact respects_bind (currentLinkedIssueRule_unobtrusive pending _) fun _ =>
      respects_pure _

theorem readLiveDisposition_unobtrusive :
    Unobtrusive (readLiveDisposition rt pending settings pr) := by
  refine respects_bind (respects_ask rfl) fun token => ?_
  refine respects_bind (respects_askWhen rfl) fun contexts => ?_
  refine respects_bind (respects_askWhen rfl) fun ci => ?_
  refine respects_bind (respects_askWhen rfl) fun mergeable => ?_
  refine respects_bind (respects_askWhen rfl) fun review => ?_
  refine respects_bind (respects_askWhen rfl) fun threads => ?_
  exact respects_bind (respects_askWhen rfl) fun winner => respects_pure _

theorem checkLiveDisposition_unobtrusive :
    Unobtrusive (checkLiveDisposition rt pending settings pr) := by
  refine respects_ite (fun _ => ?_) fun _ => respects_pure _
  refine respects_bind (readLiveDisposition_unobtrusive pending settings pr) fun live => ?_
  split <;> exact respects_pure _

theorem planAccepted_unobtrusive (liveParams : AgentPendingActionParams) :
    Unobtrusive (planAccepted pending settings liveParams) := by
  refine respects_bind (respects_ask rfl) fun holdOnly => ?_
  refine respects_bind (respects_ask rfl) fun closeHoldOnly => ?_
  exact respects_bind (respects_ask rfl) fun codes => respects_pure _

theorem checkLinkedIssueMerge_unobtrusive (plan : List PlannedAgentAction) :
    Unobtrusive (checkLinkedIssueMerge rt env pending settings pr plan) := by
  unfold checkLinkedIssueMerge
  split
  · exact respects_pure _
  · refine respects_ite (fun _ => ?_) fun _ => respects_pure _
    exact respects_bind (currentLinkedIssueRule_unobtrusive pending _) fun _ =>
      respects_pure _

theorem contributorCapRechecked_unobtrusive (plan : List PlannedAgentAction) :
    Unobtrusive (contributorCapRechecked rt env pending settings pr plan) := by
  unfold contributorCapRechecked
  split
  · exact respects_pure _
  · refine respects_ite (fun _ => ?_) fun _ => respects_pure _
    refine respects_bind (respects_ask rfl) fun reply => ?_
    refine respects_bind (respects_ofExcept _) fun authorIsAdmin => ?_
    refine respects_ite (fun _ => ?_) fun _ => respects_pure _
    refine respects_bind (respects_ask rfl) fun reply => ?_
    exact respects_bind (respects_ofExcept _) fun _ => respects_pure _

theorem revalidateAgainst_unobtrusive (installation : Option InstallationPermissions) :
    Unobtrusive (revalidateAgainst rt env pending settings pr installation) := by
  unfold revalidateAgainst
  split
  · exact respects_pure _
  refine respects_bind (checkLinkedIssueClose_unobtrusive pending settings pr) fun close => ?_
  split
  · exact respects_pure _
  refine respects_bind (checkLiveDisposition_unobtrusive pending settings pr) fun live => ?_
  split
  · exact respects_pure _
  refine respects_bind (planAccepted_unobtrusive pending settings _) fun plan => ?_
  refine respects_bind (checkLinkedIssueMerge_unobtrusive pending settings pr plan) fun merge => ?_
  split
  · exact respects_pure _
  refine respects_bind (respects_ask rfl) fun token => ?_
  refine respects_bind (respects_ask rfl) fun contexts => ?_
  exact respects_bind (contributorCapRechecked_unobtrusive pending settings pr plan) fun _ =>
    respects_pure _

end Unobtrusive

variable {execution : Execution}

section Revalidate

variable {rt : Runtime} {env : ApprovalEnv} {pending : AgentPendingActionRecord}
  {t : List ApprovalEvent} {s s' : Unit}

/-- The checks that what is executed has passed, each in its part of the run. -/
structure Revalidated (rt : Runtime) (env : ApprovalEnv) (pending : AgentPendingActionRecord)
    (settings : RepositorySettings) (pr : Option PullRequestRecord)
    (installation : Option InstallationPermissions) (t : List ApprovalEvent)
    (execution : Execution) :
    Prop where
  unmoved : headMoved pending pr = none
  pinned : unpinned pending = none
  close : ∃ t₁, t₁ ⊆ t ∧ (checkLinkedIssueClose rt env pending settings pr).Ends () t₁ (.ok none) ()
  planned : ∃ liveParams t₂ t₃,
    (checkLiveDisposition rt pending settings pr).Ends () t₂ (.ok (.ok liveParams)) () ∧
    (planAccepted pending settings liveParams).Ends () t₃ (.ok execution.plan) ()
  merge : ∃ t₄, t₄ ⊆ t ∧
    (checkLinkedIssueMerge rt env pending settings pr execution.plan).Ends () t₄ (.ok none) ()
  ctx : ∃ capRechecked,
    execution.ctx = acceptContext env pending settings pr installation capRechecked

variable {installation : Option InstallationPermissions} {settings : RepositorySettings}
variable {pr : Option PullRequestRecord}

theorem revalidateAgainst_revalidated
    (h : (revalidateAgainst rt env pending settings pr installation).Ends s t
      (.ok (.ok execution)) s') :
    Revalidated rt env pending settings pr installation t execution := by
  unfold revalidateAgainst at h
  split at h
  · obtain ⟨-, hresult, -⟩ := ends_pure.1 h
    cases hresult
  rename_i hpassed
  obtain ⟨hmoved, hunpinned, -⟩ : headMoved pending pr = none ∧ unpinned pending = none ∧
      noLongerBlacklisted rt pending settings pr = none := by
    simpa [Option.orElse_eq_or] using hpassed
  obtain ⟨t₁, close, s₁, back, hclose, h₁, rfl⟩ := ends_bind_ok.1 h
  split at h₁
  · obtain ⟨-, hresult, -⟩ := ends_pure.1 h₁
    cases hresult
  obtain ⟨t₂, live, s₂, back, hlive, h₂, rfl⟩ := ends_bind_ok.1 h₁
  split at h₂
  · obtain ⟨-, hresult, -⟩ := ends_pure.1 h₂
    cases hresult
  rename_i liveParams
  obtain ⟨t₃, plan, s₃, back, hplan, h₃, rfl⟩ := ends_bind_ok.1 h₂
  obtain ⟨t₄, merge, s₄, back, hmerge, h₄, rfl⟩ := ends_bind_ok.1 h₃
  split at h₄
  · obtain ⟨-, hresult, -⟩ := ends_pure.1 h₄
    cases hresult
  obtain ⟨token, t₅, rfl, h₅⟩ := ends_ask_bind.1 h₄
  obtain ⟨contexts, t₆, rfl, h₆⟩ := ends_ask_bind.1 h₅
  obtain ⟨t₇, capRechecked, s₅, back, -, h₇, rfl⟩ := ends_bind_ok.1 h₆
  obtain ⟨-, hresult, -⟩ := ends_pure.1 h₇
  cases hresult
  refine ⟨hmoved, hunpinned, ⟨t₁, subset_append_left _ _, hclose⟩,
    ⟨liveParams, t₂, t₃, hlive, hplan⟩,
    ⟨t₄, fun e he => ?_, hmerge⟩, capRechecked, rfl⟩
  simp [he]

/-- What passes the checks is pinned to the stored head, and is about the pull request of the
row. -/
theorem revalidateAgainst_pinned
    (h : (revalidateAgainst rt env pending settings pr installation).Ends s t
      (.ok (.ok execution)) s') :
    execution.PinnedTo pr ∧ execution.ctx.repoFullName = pending.repoFullName ∧
      execution.ctx.pullNumber = pending.pullNumber := by
  obtain ⟨hmoved, hunpinned, -, ⟨liveParams, t₂, t₃, hlive, hplan⟩, -, capRechecked, hctx⟩ :=
    revalidateAgainst_revalidated h
  obtain ⟨hpin, hdismiss⟩ := checkLiveDisposition_params hlive
  rw [hctx]
  refine ⟨⟨by rw [hctx]; rfl, ?_, ?_⟩, rfl, rfl⟩
  · intro action haction pin head haction_pin hhead
    rcases planAccepted_mem hplan haction with rfl | hlabel
    · refine eq_of_headMoved hmoved ?_ hhead
      rw [stagedHead, ← hpin]
      exact haction_pin
    · rw [hlabel.unpinned] at haction_pin
      cases haction_pin
  · intro action haction hratifying
    rcases planAccepted_mem hplan haction with rfl | hlabel
    · have hstaged : (stagedHead pending).isSome := by
        refine stagedHead_of_unpinned hunpinned ?_
        rw [← hdismiss]
        simpa [PlannedAgentAction.isApproval, PlannedAgentAction.isMergeOrClose,
          pendingActionToPlanned, or_assoc] using hratifying
      rw [stagedHead, ← hpin] at hstaged
      exact hstaged
    · simp [PlannedAgentAction.isApproval, PlannedAgentAction.isMergeOrClose,
        hlabel.label] at hratifying

/-- What the checks of an accept have done to the row, for each way they end. -/
def RevalidationEffects (effects : List RowEffect) :
    Except HostError (Except Supersession Execution) → Prop
  | .error _ => ∃ repoFullName pullNumber pr, effects <+: [.read repoFullName pullNumber pr]
  | .ok (.error _) => effects = [] ∨ ∃ repoFullName pullNumber pr,
      effects = [.read repoFullName pullNumber pr]
  | .ok (.ok execution) => ∃ pr,
      effects = [.read execution.ctx.repoFullName execution.ctx.pullNumber pr] ∧
        execution.PinnedTo pr

theorem revalidate_effects {r : Except HostError (Except Supersession Execution)}
    (h : (revalidate rt env pending).Ends s t r s') (id : String) :
    RevalidationEffects (rowEffects id t) r := by
  rw [revalidate] at h
  rcases ends_bind.1 h with ⟨e, hpaired, rfl⟩ | ⟨front, paired, s₁, t₁, hpaired, h₁, rfl⟩
  · rw [(checkPairedClose_unobtrusive pending).rowEffects_eq hpaired]
    exact ⟨"", 0, none, nil_prefix⟩
  rw [rowEffects_append, (checkPairedClose_unobtrusive pending).rowEffects_eq hpaired, nil_append]
  cases paired with
  | some supersession =>
    obtain ⟨rfl, rfl, -⟩ := ends_pure.1 h₁
    exact Or.inl rfl
  | none =>
    obtain ⟨settingsReply, t₂, rfl, h₂⟩ := ends_ask_bind.1 h₁
    rcases ends_ofExcept_bind.1 h₂ with ⟨e, -, rfl, rfl, -⟩ | ⟨settings, -, h₃⟩
    · exact ⟨"", 0, none, nil_prefix⟩
    obtain ⟨prReply, t₃, rfl, h₄⟩ := ends_ask_bind.1 h₃
    rcases ends_ofExcept_bind.1 h₄ with ⟨e, rfl, rfl, rfl, -⟩ | ⟨pr, rfl, h₅⟩
    · exact ⟨"", 0, none, nil_prefix⟩
    obtain ⟨installationReply, t₄, rfl, h₆⟩ := ends_ask_bind.1 h₅
    -- of the three reads only that of the pull request counts
    change RevalidationEffects
      (.read pending.repoFullName pending.pullNumber pr :: rowEffects id t₄) r
    rcases ends_ofExcept_bind.1 h₆ with ⟨e, -, rfl, rfl, -⟩ | ⟨installation, -, h₇⟩
    · exact ⟨_, _, pr, prefix_rfl⟩
    rw [(revalidateAgainst_unobtrusive pending settings pr installation).rowEffects_eq h₇]
    match r, h₇ with
    | .error e, _ => exact ⟨_, _, pr, prefix_rfl⟩
    | .ok (.error supersession), _ => exact Or.inr ⟨_, _, pr, rfl⟩
    | .ok (.ok execution), h₇ =>
      obtain ⟨hpinned, hrepo, hnumber⟩ := revalidateAgainst_pinned h₇
      rw [← hrepo, ← hnumber]
      exact ⟨pr, rfl, hpinned⟩

end Revalidate

/-! ## The course of a call -/

/-- A call that runs at the same time as others. -/
inductive ApprovalTask
  | decide (decision : ApprovalDecision) (decidedBy : String)
  | sweep (nowMs : ℤ)

/-- What a call returns. -/
inductive ApprovalReport
  | decided (result : ApprovalDecisionResult)
  | swept (counts : SweepCounts)

/-- The script of a call on the row with the given id. -/
def ApprovalTask.script (rt : Runtime) (env : ApprovalEnv) (id : String) :
    ApprovalTask → ApprovalScript ApprovalReport
  | .decide decision decidedBy => do
    let result ← decidePendingAgentAction rt env id decision decidedBy
    pure (.decided result)
  | .sweep nowMs => do
    let counts ← sweepStaleApprovalQueue rt nowMs
    pure (.swept counts)

/-- The effects of an accept that has won the claim and runs to its end. -/
inductive AcceptCourse : List RowEffect → Prop
  | unread : AcceptCourse [.claimed .accepted, .set .rejected]
  | superseded (repoFullName : String) (pullNumber : ℕ) (pr : Option PullRequestRecord) :
      AcceptCourse [.claimed .accepted, .read repoFullName pullNumber pr, .set .rejected]
  | executed {pr : Option PullRequestRecord} {execution : Execution}
      {status : AgentPendingActionStatus}
      (hpinned : execution.PinnedTo pr) (hstatus : status ≠ .pending) :
      AcceptCourse [.claimed .accepted,
        .read execution.ctx.repoFullName execution.ctx.pullNumber pr,
        .executed execution, .set status]

/-- The effects that a call can have so far. -/
def TaskCourse (effects : List RowEffect) : ApprovalTask → Prop
  | .decide .accept _ => ∃ course, AcceptCourse course ∧ effects <+: course
  | .decide .reject _ => effects <+: [.claimed .rejected]
  | .sweep _ => ∀ effect ∈ effects, effect = .claimed .expired

theorem TaskCourse.of_append {front back : List RowEffect} {task : ApprovalTask}
    (h : TaskCourse (front ++ back) task) : TaskCourse front task := by
  match task, h with
  | .decide .accept _, ⟨course, hcourse, hinitial⟩ =>
    exact ⟨course, hcourse, (prefix_append _ _).trans hinitial⟩
  | .decide .reject _, hinitial =>
    have hwhole : front ++ back <+: [.claimed .rejected] := hinitial
    exact (prefix_append _ _).trans hwhole
  | .sweep _, hall => exact fun effect hmem => hall effect (mem_append_left _ hmem)

theorem rowEffects_claimed (id : String) (status : AgentPendingActionStatus) (decidedBy : String)
    (back : List ApprovalEvent) :
    rowEffects id (⟨.claimPendingAgentActionDecision id status decidedBy, .ok true⟩ :: back) =
      .claimed status :: rowEffects id back :=
  filterMap_cons_some (if_pos rfl)

theorem rowEffects_claimed_other {target id : String} (hne : target ≠ id)
    (status : AgentPendingActionStatus) (decidedBy : String) (back : List ApprovalEvent) :
    rowEffects id (⟨.claimPendingAgentActionDecision target status decidedBy, .ok true⟩ :: back) =
      rowEffects id back :=
  filterMap_cons_none (if_neg hne)

theorem rowEffects_set (id : String) (status : AgentPendingActionStatus) (decidedBy : String)
    (back : List ApprovalEvent) :
    rowEffects id (⟨.setPendingAgentActionStatus id status decidedBy, .ok ()⟩ :: back) =
      .set status :: rowEffects id back :=
  filterMap_cons_some (if_pos rfl)

/-! ### Decisions -/

/-- The error of a read or of a claim of the row. -/
def rowError : ApprovalEvent → Option HostError
  | ⟨.getPendingAgentAction _, .error e⟩ => some e
  | ⟨.claimPendingAgentActionDecision _ _ _, .error e⟩ => some e
  | _ => none

/-- How a decision ends that has not won the claim: it reports that the row is decided, or it has
not found the row, or a read or the claim of the row has thrown. -/
inductive LostDecision (id : String) (t : List ApprovalEvent) :
    Except HostError ApprovalDecisionResult → Prop
  | alreadyDecided {result : ApprovalDecisionResult} (hstatus : result.status = .alreadyDecided) :
      LostDecision id t (.ok result)
  | notFound {r : Except HostError ApprovalDecisionResult}
      (hmissing : ⟨.getPendingAgentAction id, .ok none⟩ ∈ t) : LostDecision id t r
  | threw {event : ApprovalEvent} {e : HostError} (hmem : event ∈ t)
      (herror : rowError event = some e) :
      LostDecision id t (.error e)

theorem LostDecision.mono {id : String} {t t' : List ApprovalEvent}
    {r : Except HostError ApprovalDecisionResult} (h : LostDecision id t r) (hsubset : t ⊆ t') :
    LostDecision id t' r := by
  cases h with
  | alreadyDecided hstatus => exact .alreadyDecided hstatus
  | notFound hmissing => exact .notFound (hsubset hmissing)
  | threw hmem herror => exact .threw (hsubset hmem) herror

variable {decision : ApprovalDecision}

section Courses

variable {rt : Runtime} {env : ApprovalEnv} {pending : AgentPendingActionRecord}
  {decidedBy : String}
  {t : List ApprovalEvent} {s s' : Unit} {r : Except HostError ApprovalDecisionResult}

variable {status : AgentPendingActionStatus}

/-- Setting the status and recording an audit row, as both ends of an accept do it. -/
theorem setStatus_effects {event : ApprovalAuditEvent}
    {result : ApprovalDecisionResult}
    (h : (do
      ofExcept (← request (.setPendingAgentActionStatus pending.id status decidedBy))
      ofExcept (← request (.recordAuditEvent event))
      pure result : ApprovalScript ApprovalDecisionResult).Ends s t r s') :
    rowEffects pending.id t <+: [.set status] := by
  obtain ⟨reply, t₁, rfl, h₁⟩ := ends_ask_bind.1 h
  rcases ends_ofExcept_bind.1 h₁ with ⟨e, rfl, rfl, -, -⟩ | ⟨_, rfl, h₂⟩
  · exact nil_prefix
  obtain ⟨audited, t₂, rfl, h₃⟩ := ends_ask_bind.1 h₂
  have hrest : t₂ = [] := by
    rcases ends_ofExcept_bind.1 h₃ with ⟨e, -, ht, -, -⟩ | ⟨_, -, h₄⟩
    · exact ht
    · exact (ends_pure.1 h₄).1
  rw [rowEffects_set, hrest]
  exact prefix_rfl

theorem supersede_effects {supersession : Supersession}
    (h : (supersede pending decidedBy supersession).Ends s t r s') :
    rowEffects pending.id t <+: [.set .rejected] := setStatus_effects h

theorem executeAccepted_effects (h : (executeAccepted pending decidedBy execution).Ends s t r s') :
    ∃ status, status ≠ .pending ∧
      rowEffects pending.id t <+: [.executed execution, .set status] := by
  obtain ⟨reply, t₁, rfl, h₁⟩ := ends_ask_bind.1 h
  change ∃ status, status ≠ .pending ∧
    .executed execution :: rowEffects pending.id t₁ <+: [.executed execution, .set status]
  rcases ends_ofExcept_bind.1 h₁ with ⟨e, -, rfl, -, -⟩ | ⟨outcomes, -, h₂⟩
  · exact ⟨.accepted, by decide, cons_prefix_cons.2 ⟨rfl, nil_prefix⟩⟩
  · refine ⟨_, ?_, cons_prefix_cons.2 ⟨rfl, setStatus_effects h₂⟩⟩
    split <;> decide

theorem reportDecided_effects (id : String) (h : (reportDecided pending).Ends s t r s') :
    rowEffects id t = [] := by
  have hquiet : Unobtrusive (reportDecided pending) := by
    refine respects_bind (respects_ask rfl) fun reply => ?_
    exact respects_bind (respects_ofExcept _) fun current => respects_pure _
  exact hquiet.rowEffects_eq h

/-- An accept that has won the claim. -/
theorem acceptClaimed_course
    (h : (do
      match ← revalidate rt env pending with
      | .error supersession => supersede pending decidedBy supersession
      | .ok execution => executeAccepted pending decidedBy execution :
        ApprovalScript ApprovalDecisionResult).Ends s t r s') :
    ∃ course, AcceptCourse course ∧ .claimed .accepted :: rowEffects pending.id t <+: course := by
  rcases ends_bind.1 h with ⟨e, hchecks, rfl⟩ | ⟨front, verdict, s₁, back, hchecks, h₁, rfl⟩
  · obtain ⟨repoFullName, pullNumber, pr, hinitial⟩ := revalidate_effects hchecks pending.id
    refine ⟨_, .superseded repoFullName pullNumber pr,
      cons_prefix_cons.2 ⟨rfl, hinitial.trans ?_⟩⟩
    exact prefix_append [RowEffect.read repoFullName pullNumber pr] [RowEffect.set .rejected]
  rw [rowEffects_append]
  have hchecked := revalidate_effects hchecks pending.id
  cases verdict with
  | error supersession =>
    have hset := supersede_effects h₁
    rcases hchecked with hnone | ⟨repoFullName, pullNumber, pr, hread⟩
    · rw [hnone]
      exact ⟨_, .unread, cons_prefix_cons.2 ⟨rfl, hset⟩⟩
    · rw [hread]
      exact ⟨_, .superseded repoFullName pullNumber pr,
        cons_prefix_cons.2 ⟨rfl, cons_prefix_cons.2 ⟨rfl, hset⟩⟩⟩
  | ok execution =>
    obtain ⟨pr, hread, hpinned⟩ := hchecked
    obtain ⟨status, hstatus, hset⟩ := executeAccepted_effects h₁
    rw [hread]
    exact ⟨_, .executed hpinned hstatus,
      cons_prefix_cons.2 ⟨rfl, cons_prefix_cons.2 ⟨rfl, hset⟩⟩⟩

/-- A run of a decision: its effects are in order, and it has won the claim or reports that it has
not. -/
structure DecisionRun (id : String) (decision : ApprovalDecision) (decidedBy : String)
    (t : List ApprovalEvent) (r : Except HostError ApprovalDecisionResult) : Prop where
  course : TaskCourse (rowEffects id t) (.decide decision decidedBy)
  report : (∃ status, .claimed status ∈ rowEffects id t) ∨ LostDecision id t r

/-- A run that has no effect. -/
theorem DecisionRun.of_no_effects {id : String}
    (hnone : rowEffects id t = []) (hlost : LostDecision id t r) :
    DecisionRun id decision decidedBy t r := by
  refine ⟨?_, Or.inr hlost⟩
  rw [hnone]
  cases decision with
  | accept => exact ⟨_, .unread, nil_prefix⟩
  | reject => exact nil_prefix

theorem reportDecided_lost (h : (reportDecided pending).Ends s t r s') :
    LostDecision pending.id t r := by
  obtain ⟨reply, t₁, rfl, h₁⟩ := ends_ask_bind.1 h
  rcases ends_ofExcept_bind.1 h₁ with ⟨e, rfl, -, rfl, -⟩ | ⟨current, -, h₂⟩
  · exact .threw mem_cons_self rfl
  · obtain ⟨-, rfl, -⟩ := ends_pure.1 h₂
    exact .alreadyDecided rfl

/-- A call claims the row, and goes on only if it wins the claim. -/
theorem claim_run
    {won : ApprovalScript ApprovalDecisionResult}
    (h : (do
      let claimed ← ofExcept
        (← request (.claimPendingAgentActionDecision pending.id status decidedBy))
      if claimed then won else reportDecided pending :
        ApprovalScript ApprovalDecisionResult).Ends s t r s')
    (hwon : ∀ back, won.Ends s back r s' →
      TaskCourse (.claimed status :: rowEffects pending.id back) (.decide decision decidedBy)) :
    DecisionRun pending.id decision decidedBy t r := by
  obtain ⟨reply, t₁, rfl, h₁⟩ := ends_ask_bind.1 h
  rcases ends_ofExcept_bind.1 h₁ with ⟨e, rfl, rfl, rfl, -⟩ | ⟨claimed, rfl, h₂⟩
  · exact .of_no_effects rfl (.threw mem_cons_self rfl)
  rcases ends_ite.1 h₂ with ⟨rfl, h₃⟩ | ⟨hlost, h₃⟩
  · refine ⟨?_, Or.inl ⟨status, ?_⟩⟩
    · rw [rowEffects_claimed]
      exact hwon t₁ h₃
    · rw [rowEffects_claimed]
      exact mem_cons_self
  · obtain rfl : claimed = false := by simpa using hlost
    have hnone := reportDecided_effects pending.id h₃
    exact .of_no_effects hnone ((reportDecided_lost h₃).mono (subset_cons_self _ _))

/-- A decision on a row that was read as pending. -/
theorem decidePending_run (h : (decidePending rt env pending decision decidedBy).Ends s t r s') :
    DecisionRun pending.id decision decidedBy t r := by
  cases decision with
  | accept => exact claim_run h fun back hback => acceptClaimed_course hback
  | reject =>
    refine claim_run h fun back hback => ?_
    obtain ⟨audited, t₁, rfl, h₁⟩ := ends_ask_bind.1 hback
    have hrest : t₁ = [] := by
      rcases ends_ofExcept_bind.1 h₁ with ⟨e, -, ht, -, -⟩ | ⟨_, -, h₂⟩
      · exact ht
      · exact (ends_pure.1 h₂).1
    rw [hrest]
    exact prefix_rfl

theorem decide_run {id : String}
    (h : (decidePendingAgentAction rt env id decision decidedBy).Ends s t r s') :
    DecisionRun id decision decidedBy t r := by
  obtain ⟨reply, t₁, rfl, h₁⟩ := ends_ask_bind.1 h
  rcases ends_ofExcept_bind.1 h₁ with ⟨e, rfl, rfl, rfl, -⟩ | ⟨found, rfl, h₂⟩
  · exact .of_no_effects rfl (.threw mem_cons_self rfl)
  match found, h₂ with
  | none, h₂ =>
    obtain ⟨rfl, -, -⟩ := ends_pure.1 h₂
    exact .of_no_effects rfl (.notFound mem_cons_self)
  | some ⟨pending, hid⟩, h₂ =>
    subst hid
    rcases ends_ite.1 h₂ with ⟨-, h₃⟩ | ⟨-, h₃⟩
    · obtain ⟨rfl, rfl, -⟩ := ends_pure.1 h₃
      exact .of_no_effects rfl (.alreadyDecided rfl)
    · obtain ⟨hcourse, hreport⟩ := decidePending_run h₃
      refine ⟨hcourse, hreport.imp_right fun hlost => ?_⟩
      exact hlost.mono (subset_cons_self _ _)

end Courses

/-! ### Sweeps -/

/-- The rows that the events have claimed. -/
def wonClaims (events : List ApprovalEvent) : List String :=
  events.filterMap fun
    | ⟨.claimPendingAgentActionDecision id _ _, .ok true⟩ => some id
    | _ => none

theorem wonClaims_append (front back : List ApprovalEvent) :
    wonClaims (front ++ back) = wonClaims front ++ wonClaims back := filterMap_append

/-- A part of a sweep: it returns, it counts the rows that it has claimed, and all that it does to a
row is to expire it. -/
structure SweepRun (counts : SweepCounts) (t : List ApprovalEvent)
    (r : Except HostError SweepCounts) :
    Prop where
  counted : ∃ next : SweepCounts, r = .ok next ∧
    next.expired = counts.expired + (wonClaims t).length
  course : ∀ id, ∀ effect ∈ rowEffects id t, effect = .claimed .expired

theorem wonClaims_of_quiet {t : List ApprovalEvent} (h : ∀ e ∈ t, e.call.quiet = true) :
    wonClaims t = [] := by
  refine filterMap_eq_nil_iff.2 fun e he => ?_
  have hquiet := h e he
  obtain ⟨call, reply⟩ := e
  cases call with
  | claimPendingAgentActionDecision => cases hquiet
  | _ => rfl

/-- A part of a sweep that claims nothing. -/
theorem SweepRun.of_quiet {counts next : SweepCounts} {t : List ApprovalEvent}
    (hquiet : ∀ e ∈ t, e.call.quiet = true) (hexpired : next.expired = counts.expired) :
    SweepRun counts t (.ok next) := by
  refine ⟨⟨next, rfl, ?_⟩, fun id effect hmem => ?_⟩
  · rw [wonClaims_of_quiet hquiet]
    exact hexpired
  · rw [rowEffects_of_quiet hquiet] at hmem
    cases hmem

section Sweep

variable {rt : Runtime} {nowMs : ℤ} {row : AgentPendingActionRecord} {counts : SweepCounts}
  {t : List ApprovalEvent} {s s' : Unit} {r : Except HostError SweepCounts}

theorem remindOf_run {bucket : ℤ} (h : (remindOf row bucket counts).Ends s t r s') :
    SweepRun counts t r := by
  obtain ⟨reply, t₁, rfl, h₁⟩ := ends_ask_bind.1 h
  cases reply with
  | error e =>
    obtain ⟨rfl, rfl, -⟩ := ends_pure.1 h₁
    exact .of_quiet (by simp [ApprovalCall.quiet]) rfl
  | ok inserted =>
    rcases ends_ite.1 h₁ with ⟨-, h₂⟩ | ⟨-, h₂⟩
    · rcases ends_bind.1 h₂ with ⟨e, hsend, -⟩ | ⟨front, sent, s₁, back, hsend, h₃, rfl⟩
      · rcases ends_askWhen.1 hsend with ⟨-, _, -, hr, -⟩ | ⟨-, -, hr, -⟩ <;> cases hr
      obtain ⟨rfl, rfl, -⟩ := ends_pure.1 h₃
      rw [append_nil]
      refine .of_quiet ?_ rfl
      rcases ends_askWhen.1 hsend with ⟨-, _, rfl, -, -⟩ | ⟨-, rfl, -, -⟩
      · simp [ApprovalCall.quiet]
      · simp [ApprovalCall.quiet]
    · obtain ⟨rfl, rfl, -⟩ := ends_pure.1 h₂
      exact .of_quiet (by simp [ApprovalCall.quiet]) rfl

theorem expireRow_run (h : (expireRow row counts).Ends s t r s') : SweepRun counts t r := by
  obtain ⟨reply, t₁, rfl, h₁⟩ := ends_ask_bind.1 h
  match reply, h₁ with
  | .error e, h₁ =>
    obtain ⟨rfl, rfl, -⟩ := ends_pure.1 h₁
    exact ⟨⟨counts, rfl, rfl⟩, fun id effect hmem => (not_mem_nil hmem).elim⟩
  | .ok false, h₁ =>
    obtain ⟨rfl, rfl, -⟩ := ends_pure.1 h₁
    exact ⟨⟨counts, rfl, rfl⟩, fun id effect hmem => (not_mem_nil hmem).elim⟩
  | .ok true, h₁ =>
    obtain ⟨audited, t₂, rfl, h₂⟩ := ends_ask_bind.1 h₁
    obtain ⟨rfl, rfl, -⟩ := ends_pure.1 h₂
    refine ⟨⟨_, rfl, rfl⟩, fun id effect hmem => ?_⟩
    by_cases hid : row.id = id
    · subst hid
      rw [rowEffects_claimed] at hmem
      exact mem_singleton.1 hmem
    · rw [rowEffects_claimed_other hid] at hmem
      cases hmem

theorem maintainRow_run (h : (maintainRow rt nowMs row counts).Ends s t r s') :
    SweepRun counts t r := by
  unfold maintainRow at h
  split at h
  · obtain ⟨rfl, rfl, -⟩ := ends_pure.1 h
    exact .of_quiet (fun e he => (not_mem_nil he).elim) rfl
  · exact remindOf_run h
  · exact expireRow_run h

theorem sweepRows_run {rows : List AgentPendingActionRecord}
    (h : (sweepRows rt nowMs rows counts).Ends s t r s') : SweepRun counts t r := by
  induction rows generalizing counts t s with
  | nil =>
    obtain ⟨rfl, rfl, -⟩ := ends_pure.1 h
    exact .of_quiet (fun e he => (not_mem_nil he).elim) rfl
  | cons row rows ih =>
    rw [sweepRows] at h
    rcases ends_bind.1 h with ⟨e, hbody, rfl⟩ | ⟨front, next, s₁, back, hbody, hrest, rfl⟩
    · exact maintainRow_run hbody
    · obtain ⟨⟨next', hnext, hfirst⟩, hcourse⟩ := maintainRow_run hbody
      cases hnext
      obtain ⟨⟨last, rfl, hlast⟩, hcourses⟩ := ih hrest
      refine ⟨⟨last, rfl, ?_⟩, fun id effect hmem => ?_⟩
      · rw [wonClaims_append, length_append]
        omega
      · rw [rowEffects_append] at hmem
        rcases mem_append.1 hmem with hmem | hmem
        · exact hcourse id effect hmem
        · exact hcourses id effect hmem

/-- A run of a sweep. -/
theorem sweepStaleApprovalQueue_run (h : (sweepStaleApprovalQueue rt nowMs).Ends s t r s') :
    (∀ next, r = .ok next → next.expired = (wonClaims t).length) ∧
      ∀ id, ∀ effect ∈ rowEffects id t, effect = .claimed .expired := by
  obtain ⟨reply, t₁, rfl, h₁⟩ := ends_ask_bind.1 h
  rcases ends_ofExcept_bind.1 h₁ with ⟨e, -, rfl, rfl, -⟩ | ⟨rows, -, h₂⟩
  · refine ⟨fun next hr => ?_, fun id effect hmem => (not_mem_nil hmem).elim⟩
    cases hr
  · obtain ⟨⟨last, rfl, hlast⟩, hcourse⟩ := sweepRows_run h₂
    refine ⟨fun next hr => ?_, fun id effect hmem => hcourse id effect hmem⟩
    cases hr
    rw [hlast]
    exact Nat.zero_add _

end Sweep

/-! ### Tasks -/

section Tasks

variable {rt : Runtime} {env : ApprovalEnv} {id : String} {task : ApprovalTask}
  {t : List ApprovalEvent}

variable {r : Except HostError ApprovalReport}

theorem task_course {s s' : Unit}
    (h : (task.script rt env id).Ends s t r s') : TaskCourse (rowEffects id t) task := by
  cases task with
  | decide decision decidedBy =>
    rcases ends_bind.1 h with ⟨e, hcall, -⟩ | ⟨front, result, s₁, back, hcall, hend, rfl⟩
    · exact (decide_run hcall).course
    · obtain ⟨rfl, -, -⟩ := ends_pure.1 hend
      rw [append_nil]
      exact (decide_run hcall).course
  | sweep nowMs =>
    rcases ends_bind.1 h with ⟨e, hcall, -⟩ | ⟨front, counts, s₁, back, hcall, hend, rfl⟩
    · exact (sweepStaleApprovalQueue_run hcall).2 id
    · obtain ⟨rfl, -, -⟩ := ends_pure.1 hend
      rw [append_nil]
      exact (sweepStaleApprovalQueue_run hcall).2 id

instance (call : ApprovalCall) : Nonempty (ApprovalReply call) := by
  cases call with
  | isHoldOnly | isCloseHoldOnly => exact ⟨false⟩
  | readUntrustworthyRuleCodes => exact ⟨[]⟩
  | _ => exact ⟨.error { message := "" }⟩

/-- What a call has done so far. -/
theorem task_course_of_follows {p' : Prog ApprovalReply (Except HostError ApprovalReport × Unit)}
    (h : (task.script rt env id ()).Follows t p') : TaskCourse (rowEffects id t) task := by
  obtain ⟨rest, ⟨r, s'⟩, hruns⟩ := h.exists_runs
  have hcourse : TaskCourse (rowEffects id (t ++ rest)) task := task_course hruns
  rw [rowEffects_append] at hcourse
  exact hcourse.of_append

/-- What a decision reports. -/
def ApprovalReport.ofDecision :
    Except HostError ApprovalDecisionResult → Except HostError ApprovalReport
  | .ok result => .ok (.decided result)
  | .error e => .error e

/-- A decision that has ended. -/
theorem decide_report {decidedBy : String} {s s' : Unit}
    (h : ((ApprovalTask.decide decision decidedBy).script rt env id).Ends s t r s') :
    ∃ result, r = ApprovalReport.ofDecision result ∧
      ((∃ status, .claimed status ∈ rowEffects id t) ∨ LostDecision id t result) := by
  rcases ends_bind.1 h with ⟨e, hcall, rfl⟩ | ⟨front, result, s₁, back, hcall, hend, rfl⟩
  · exact ⟨.error e, rfl, (decide_run hcall).report⟩
  · obtain ⟨rfl, rfl, -⟩ := ends_pure.1 hend
    rw [append_nil]
    exact ⟨.ok result, rfl, (decide_run hcall).report⟩

/-- A sweep that has returned counts the rows that it has claimed. -/
theorem sweep_report {nowMs : ℤ} {counts : SweepCounts} {s s' : Unit}
    (h : ((ApprovalTask.sweep nowMs).script rt env id).Ends s t (.ok (.swept counts)) s') :
    counts.expired = (wonClaims t).length := by
  obtain ⟨front, counts', s₁, back, hcall, hend, rfl⟩ := ends_bind_ok.1 h
  obtain ⟨rfl, hcounts, -⟩ := ends_pure.1 hend
  cases hcounts
  rw [append_nil]
  exact (sweepStaleApprovalQueue_run hcall).1 counts rfl

end Tasks

end LoopOver
