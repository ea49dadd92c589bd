import LoopOver.Executor.Outcomes

/-!
# Outcomes and plan

`pendingClosureLabelApplied`, `coupledCloseOutcome` and the moderation escalation all take
`outcomes[i]` for the outcome of `planned[i]`. This module says when that is right.

A run of the executor is cut into the iterations of its loop (`Iterations`, `execute_iterations`).
The outcomes are aligned with the plan (`Aligned`) when every iteration pushed exactly one of them.
`outcomes_aligned_iff` is the result: in a run that returns, they are aligned exactly when no
staging found an existing row and no record of a completed action failed to be written.
-/

namespace LoopOver

open List Script

/-- One iteration of the executor's loop. -/
abbrev ActionVisit := Visit HostReply ExecutorState HostError PlannedAgentAction

/-- The outcomes an iteration pushed. -/
def Visit.pushed (v : ActionVisit) : List AgentActionOutcome :=
  v.after.outcomes.drop v.before.outcomes.length

/-- The one call that follows the loop. -/
def HostCall.escalates : HostCall → Bool
  | applyModerationEscalationForRule _ _ => true
  | _ => false

theorem HostCall.steady_of_escalates {call : HostCall} (h : call.escalates = true) :
    call.steady = true := by
  cases call with
  | applyModerationEscalationForRule => rfl
  | _ => cases h

section Runs

variable (rt : Runtime) (env : AgentEnv) (ctx : AgentActionExecutionContext)

/-- The visits are the iterations of the run from `s` through `t` that ended with `r`, under the
mode that the run resolved: before them it has only resolved the mode, and after them it only
escalates. -/
def Iterations (planned : List PlannedAgentAction) (s : ExecutorState) (t : List HostEvent)
    (r : Except HostError (List AgentActionOutcome)) (mode : AgentActionMode)
    (visits : List ActionVisit) : Prop :=
  ∃ opening closing looped s₁,
    (resolveMode rt env ctx).Ends { s with outcomes := [] } opening (.ok mode)
      { s with outcomes := [] } ∧
    Visits (executeAction rt env ctx mode planned) planned { s with outcomes := [] } visits looped
      s₁ ∧
    (∀ e ∈ closing, e.call.escalates = true) ∧
    t = opening ++ (visits.flatMap Visit.events ++ closing) ∧
    ∀ outcomes, r = .ok outcomes → looped = .ok () ∧ outcomes = s₁.outcomes

variable {rt env ctx} {planned : List PlannedAgentAction} {s s' : ExecutorState}
  {t : List HostEvent} {r : Except HostError (List AgentActionOutcome)} {mode : AgentActionMode}
  {visits : List ActionVisit}

theorem resolveMode_quiet : Quiet (resolveMode rt env ctx) := by
  refine respects_bind ?_ fun _ => respects_pure _
  exact respects_ite (fun _ => respects_pure _) fun _ => respects_ask rfl

theorem resolveMode_neverThrows : Script.NeverThrows (resolveMode rt env ctx) := by
  refine neverThrows_bind ?_ fun _ => neverThrows_pure _
  unfold globalPaused
  split
  · exact neverThrows_pure _
  · exact neverThrows_ask _

theorem maybeEscalateModeration_escalates (outcomes : List AgentActionOutcome) :
    Script.Respects (fun call => call.escalates = true) Eq
      (maybeEscalateModeration ctx mode planned outcomes) := by
  unfold maybeEscalateModeration
  split
  · exact respects_bind (respects_ask rfl) fun _ => respects_ofExcept _
  · exact respects_pure _

/-- **Every run of the executor consists of iterations.** -/
theorem execute_iterations (h : (executeAgentMaintenanceActions rt env ctx planned).Ends s t r s') :
    ∃ mode visits, Iterations rt env ctx planned s t r mode visits := by
  rcases ends_bind.1 h with ⟨e, hreset, -⟩ | ⟨_, _, s₀, t₀, hreset, h₀, rfl⟩
  · obtain ⟨-, hr, -⟩ := ends_modify.1 hreset
    cases hr
  obtain ⟨rfl, -, rfl⟩ := ends_modify.1 hreset
  rcases ends_bind.1 h₀ with ⟨e, hmode, -⟩ | ⟨opening, mode, s₁, t₁, hmode, h₁, rfl⟩
  · exact absurd hmode (resolveMode_neverThrows _ _ e _)
  obtain rfl : { s with outcomes := [] } = s₁ := (resolveMode_quiet _ _ _ _ hmode).2
  refine ⟨mode, ?_⟩
  rcases ends_bind.1 h₁ with ⟨e, hloop, rfl⟩ | ⟨front, _, s₂, t₂, hloop, h₂, rfl⟩
  · obtain ⟨visits, hvisits, rfl⟩ := ends_forEach.1 hloop
    refine ⟨visits, opening, [], _, _, hmode, hvisits, by simp, by simp, ?_⟩
    intro outcomes hr
    cases hr
  · obtain ⟨visits, hvisits, rfl⟩ := ends_forEach.1 hloop
    rcases ends_bind.1 h₂ with ⟨e, hget, -⟩ | ⟨_, final, s₃, t₃, hget, h₃, rfl⟩
    · obtain ⟨-, hr, -⟩ := ends_get.1 hget
      cases hr
    obtain ⟨rfl, hfinal, rfl⟩ := ends_get.1 hget
    obtain rfl := Except.ok.inj hfinal
    have hclose : Script.Respects (fun call => call.escalates = true) Eq (do
        maybeEscalateModeration ctx mode planned final.outcomes
        pure final.outcomes) :=
      respects_bind (maybeEscalateModeration_escalates _) fun _ => respects_pure _
    refine ⟨visits, opening, t₃, .ok (), final, hmode, hvisits, (hclose _ _ _ _ h₃).1, by simp, ?_⟩
    rintro outcomes rfl
    obtain ⟨_, _, _, _, -, hdone, -⟩ := ends_bind_ok.1 h₃
    obtain ⟨-, hr, -⟩ := ends_pure.1 hdone
    exact ⟨rfl, Except.ok.inj hr⟩

/-- What an iteration that returned has pushed. -/
theorem Settled.pushed_eq {v : ActionVisit} {pushed : List AgentActionOutcome}
    (h : Settled v.item v.before v.events v.after pushed) : v.pushed = pushed := by
  rw [Visit.pushed, h.outcomes, drop_left]

theorem Visits.settled {items : List PlannedAgentAction} {looped : Except HostError Unit}
    {s₁ : ExecutorState}
    (h : Visits (executeAction rt env ctx mode planned) items s visits looped s₁)
    {v : ActionVisit} (hv : v ∈ visits) (hr : v.result = .ok ()) :
    Settled v.item v.before v.events v.after v.pushed := by
  have hends := h.ends hv
  rw [hr] at hends
  obtain ⟨pushed, hsettled⟩ := executeAction_settles planned v.before v.events v.after hends
  rw [hsettled.pushed_eq]
  exact hsettled

end Runs

/-! ## Alignment -/

/-- The i-th iteration is about the i-th planned action, and the i-th outcome is all it pushed. -/
structure Aligned (planned : List PlannedAgentAction) (visits : List ActionVisit)
    (outcomes : List AgentActionOutcome) : Prop where
  items : visits.map Visit.item = planned
  pushed : List.Forall₂ (fun v o => v.pushed = [o] ∧ o.actionClass = v.item.actionClass) visits
    outcomes

theorem undisturbed_flatMap {visits : List ActionVisit} :
    Undisturbed (visits.flatMap Visit.events) ↔ ∀ v ∈ visits, Undisturbed v.events := by
  induction visits with
  | nil => exact iff_of_true (undisturbed_of_steady (by simp)) (by simp)
  | cons v visits ih => rw [flatMap_cons, undisturbed_append, ih, forall_mem_cons]

/-- Where every iteration pushed one outcome, the outcomes are theirs in order. -/
theorem forall₂_flatMap_pushed {visits : List ActionVisit}
    (h : ∀ v ∈ visits, ∃ o, v.pushed = [o] ∧ o.actionClass = v.item.actionClass) :
    List.Forall₂ (fun v o => v.pushed = [o] ∧ o.actionClass = v.item.actionClass) visits
      (visits.flatMap Visit.pushed) := by
  induction visits with
  | nil => exact .nil
  | cons v visits ih =>
    obtain ⟨o, hpushed, hclass⟩ := h v mem_cons_self
    rw [flatMap_cons, hpushed, singleton_append]
    exact .cons ⟨hpushed, hclass⟩ (ih fun w hw => h w (mem_cons_of_mem _ hw))

/-- The outcomes of every returning run are aligned with the plan exactly when no staging found an
existing row and no record of a completed action failed to be written. -/
theorem outcomes_aligned_iff (rt : Runtime) (env : AgentEnv) (ctx : AgentActionExecutionContext)
    (planned : List PlannedAgentAction) (s s' : ExecutorState) (t : List HostEvent)
    (outcomes : List AgentActionOutcome)
    (h : (executeAgentMaintenanceActions rt env ctx planned).Ends s t (.ok outcomes) s') :
    (∃ mode visits, Iterations rt env ctx planned s t (.ok outcomes) mode visits) ∧
      ∀ mode visits, Iterations rt env ctx planned s t (.ok outcomes) mode visits →
        (Aligned planned visits outcomes ↔ Undisturbed t) := by
  refine ⟨execute_iterations h, ?_⟩
  rintro mode visits ⟨opening, closing, looped, s₁, hmode, hvisits, hclosing, rfl, hreturn⟩
  obtain ⟨rfl, rfl⟩ := hreturn outcomes rfl
  have hopening : Undisturbed opening := undisturbed_of_steady fun e he =>
    HostCall.steady_of_quiet ((resolveMode_quiet _ _ _ _ hmode).1 e he)
  have hevents : Undisturbed (opening ++ (visits.flatMap Visit.events ++ closing)) ↔
      ∀ v ∈ visits, Undisturbed v.events := by
    rw [undisturbed_append, and_iff_right hopening, undisturbed_append,
      and_iff_left (undisturbed_of_steady fun e he => HostCall.steady_of_escalates (hclosing e he)),
      undisturbed_flatMap]
  have hsettled : ∀ v ∈ visits, Settled v.item v.before v.events v.after v.pushed :=
    fun v hv => hvisits.settled hv (hvisits.result_eq rfl hv)
  rw [hevents]
  constructor
  · intro haligned v hv
    obtain ⟨i, hi, rfl⟩ := getElem_of_mem hv
    have hpair := (forall₂_iff_get.1 haligned.pushed).2 i hi
      (by rw [← haligned.pushed.length_eq]; exact hi)
    exact (hsettled _ hv).single.2 ⟨_, hpair.1⟩
  · intro hund
    refine ⟨hvisits.map_item_eq rfl, ?_⟩
    have houtcomes : s₁.outcomes = visits.flatMap Visit.pushed :=
      hvisits.after_eq ExecutorState.outcomes fun v hv => (hsettled v hv).outcomes
    rw [houtcomes]
    refine forall₂_flatMap_pushed fun v hv => ?_
    obtain ⟨o, ho⟩ := (hsettled v hv).single.1 (hund v hv)
    exact ⟨o, ho, (hsettled v hv).ofClass o (by rw [ho]; exact mem_cons_self)⟩

/-! ## A run with and a run without alignment -/

/-- A host on which every call succeeds: the pull request is open at `c0ffee` on `main`, its CI has
passed, and a staged row is new or not. -/
def obligingHost (created : Bool) : ∀ call, HostReply call
  | .isGlobalAgentFrozen => false
  | .now => 0
  | .recordAuditEvent _ => .ok ()
  | .createPendingAgentActionIfAbsent _ => .ok created
  | .insertNotificationDeliveryIfAbsent _ => .ok ⟨true, true, "delivery"⟩
  | .sendNotifyDeliver _ => .ok ()
  | .createInstallationToken => .ok "token"
  | .fetchLivePullRequestResult _ _ => .ok ⟨some "open", some "c0ffee", some "main", []⟩
  | .fetchLiveCiAggregate _ _ => .ok .passed
  | .fetchLivePullRequestMergeState _ => some "clean"
  | .fetchLiveReviewThreadBlockers _ => []
  | .fetchLivePullRequestState _ _ => .ok (some "open")
  | .listOtherOpenPullRequests => .ok []
  | .listRepoPullRequestFilePaths _ => .ok []
  | .countRecentAuditEventsForActorAndTarget _ _ _ => .ok 0
  | .triggerPagerDutyIncident _ _ => .ok ()
  | .createIssueComment _ => .ok ()
  | .claimContributorCapLock _ => .ok ⟨true, some "owner"⟩
  | .contributorCapMergeRecheck => .ok true
  | .releaseContributorCapLock _ _ => .ok ()
  | .mutate (.mergePullRequest _ _) => .ok false
  | .mutate (.ensurePullRequestAssignee _) => .ok true
  | .mutate (.removePullRequestLabel _) => .ok ()
  | .mutate (.ensurePullRequestLabel _) => .ok ()
  | .mutate (.createIssueComment _) => .ok ()
  | .mutate (.createPullRequestReview _ _ _) => .ok ()
  | .mutate (.dismissLatestBotApproval _) => .ok ()
  | .mutate (.createOrUpdateCloseExplanationComment _ _) => .ok ()
  | .mutate .closePullRequest => .ok ()
  | .mutate (.updatePullRequestBranch _) => .ok ()
  | .recordTerminalActionOutcome _ => ()
  | .clearPullRequestManualReviewLabelProvenance => .ok ()
  | .markPullRequestManualReviewLabelApplied _ _ => .ok ()
  | .recordCompletedDecision _ _ _ => .ok ()
  | .cancelInFlightWorkflowRunsForHeadSha _ => .suppressed
  | .markPullRequestApproved _ => .ok ()
  | .resolveDispositionReason fallback => fallback
  | .notifyActionToDiscord _ => .ok ()
  | .notifyActionToSlack _ => .ok ()
  | .bumpPullRequestMergeAttempt _ => .ok 1
  | .markPullRequestMergeBlocked _ _ _ => .ok ()
  | .refreshInstallationHealthForInstallation => .ok ()
  | .applyModerationEscalationForRule _ _ => .ok ()

/-- A repository that lets the agent act, behind an approval for labels, with an installation that
may not write. -/
def exampleContext : AgentActionExecutionContext where
  installationId := 1
  repoFullName := "owner/repo"
  pullNumber := 7
  headSha := some "c0ffee"
  expectedBaseRef := some "main"
  autonomy := some fun actionClass =>
    if actionClass = .label then some .autoWithApproval else some .auto
  installationPermissions := none
  authorLogin := none

/-- A label that waits for an approval. -/
def approvalLabel : PlannedAgentAction where
  actionClass := .label
  requiresApproval := true
  reason := "needs a look"
  label := some "manual-review"

theorem outcomes_aligned_fresh_row :
    ∃ t s' visits,
      (executeAgentMaintenanceActions asciiRuntime {} exampleContext [approvalLabel]).Ends {} t
        (.ok [⟨.label, .queued, "awaiting maintainer approval — needs a look"⟩]) s' ∧
      Aligned [approvalLabel] visits
        [⟨.label, .queued, "awaiting maintainer approval — needs a look"⟩] := by
  have hrun := (executeAgentMaintenanceActions asciiRuntime {} exampleContext
    [approvalLabel]).ends_play (obligingHost true) {}
  obtain ⟨⟨mode, visits, hiterations⟩, haligned⟩ :=
    outcomes_aligned_iff asciiRuntime {} exampleContext [approvalLabel] {} _ _ _ hrun
  exact ⟨_, _, visits, hrun, (haligned mode visits hiterations).2 (by decide)⟩

/-- Staging that finds an existing row pushes no outcome. -/
theorem not_aligned_existing_row :
    ∃ t s' visits mode,
      (executeAgentMaintenanceActions asciiRuntime {} exampleContext [approvalLabel]).Ends {} t
        (.ok []) s' ∧
      Iterations asciiRuntime {} exampleContext [approvalLabel] {} t (.ok []) mode visits ∧
      ¬Aligned [approvalLabel] visits [] := by
  have hrun : (executeAgentMaintenanceActions asciiRuntime {} exampleContext [approvalLabel]).Ends
      {}
      _ (.ok []) _ := (executeAgentMaintenanceActions asciiRuntime {} exampleContext
    [approvalLabel]).ends_play (obligingHost false) {}
  obtain ⟨mode, visits, hiterations⟩ := execute_iterations hrun
  refine ⟨_, _, visits, mode, hrun, hiterations, fun haligned => ?_⟩
  have hnil : visits = [] := by
    cases haligned.pushed
    rfl
  have hitems := haligned.items
  rw [hnil] at hitems
  cases hitems

end LoopOver
