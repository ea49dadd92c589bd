import LoopOver.Executor.Host
import LoopOver.Planner.Disposition
import LoopOver.Planner.Transforms

/-!
# Staged actions

An action that needs an approval is persisted with its payload (`actionParams`) and rebuilt from it
when a maintainer accepts it (`pendingActionToPlanned` of `src/services/agent-action-executor.ts`).
The approval queue applies the close circuit breaker to the rebuilt action.

The payload carries every field but the codes of the concrete evidence, which the breaker reads.
`staged_breaker_agrees_iff` says for which closes that changes its verdict.
-/

namespace LoopOver

/-- The action of a staged row, as the executor runs it on accept: the accept is the approval. -/
def pendingActionToPlanned (actionClass : AgentActionClass) (params : AgentPendingActionParams)
    (reason : Option String) : PlannedAgentAction where
  actionClass := actionClass
  requiresApproval := false
  reason := reason.getD "maintainer-approved"
  autonomyClass := params.autonomyClass
  label := params.label
  labelOp := params.labelOp
  comment := params.comment
  reviewBody := params.reviewBody
  mergeMethod := params.mergeMethod
  assignee := params.assignee
  closeComment := params.closeComment
  closeReasons := params.closeReasons
  expectedHeadSha := params.expectedHeadSha
  dismissStaleApproval := params.dismissStaleApproval
  closeKind := params.closeKind
  closeRequiresCiState := params.closeRequiresCiState
  closeRequiresMergeableState := params.closeRequiresMergeableState
  closeRequiresThreadResolved := params.closeRequiresThreadResolved
  closeRequiresDuplicateStillOpen := params.closeRequiresDuplicateStillOpen
  duplicateWinnerPrNumber := params.duplicateWinnerPrNumber
  closeConcreteEvidence := params.closeConcreteEvidence

/-- The action after it has been staged and accepted. -/
def PlannedAgentAction.restaged (action : PlannedAgentAction) : PlannedAgentAction :=
  pendingActionToPlanned action.actionClass (actionParams action) (some action.reason)

/-- The close breaker, applied to the action alone, leaves no close. -/
def breakerDrops (closeHoldOnly : Bool) (labelSettings : AgentDispositionLabelSettings)
    (untrustworthyRuleCodes : List String) (action : PlannedAgentAction) : Bool :=
  !(downgradeCloseToHold [action] closeHoldOnly labelSettings untrustworthyRuleCodes).any
    fun remaining => remaining.actionClass == .close

variable {closeHoldOnly : Bool} {labelSettings : AgentDispositionLabelSettings}
  {untrustworthyRuleCodes : List String} {action : PlannedAgentAction}

/-- The breaker drops a close exactly when it is one of those it diverts. -/
theorem breakerDrops_eq (hclose : action.actionClass = .close) :
    breakerDrops closeHoldOnly labelSettings untrustworthyRuleCodes action =
      isDowngradableClose closeHoldOnly untrustworthyRuleCodes action := by
  cases hd : isDowngradableClose closeHoldOnly untrustworthyRuleCodes action with
  | false => simp [breakerDrops, downgradeCloseToHold, hd, hclose]
  | true =>
    have hnone : ∀ remaining ∈ downgradeCloseToHold [action] closeHoldOnly labelSettings
        untrustworthyRuleCodes, remaining.actionClass ≠ .close := by
      intro remaining hmem
      simp only [downgradeCloseToHold, List.any_cons, hd, Bool.true_or, Bool.not_true,
        Bool.false_eq_true, if_false] at hmem
      rcases (mem_withManualReviewHoldLabel hmem).2 with h | ⟨hadd, -⟩
      · -- the filter takes the close itself away
        simp [hd] at h
      · -- and the label that takes its place is no close
        intro hremaining
        simp only [isHoldAdd, PlannedAgentAction.isLabelAdd, Option.any_eq_true, Bool.and_eq_true,
          beq_iff_eq] at hadd
        obtain ⟨_, -, ⟨hlabel, -⟩, -⟩ := hadd
        rw [hlabel] at hremaining
        cases hremaining
    simpa [breakerDrops] using hnone

/-- Everything the breaker reads survives the staging, except the codes of the evidence. -/
theorem isDowngradableClose_restaged :
    isDowngradableClose closeHoldOnly untrustworthyRuleCodes action.restaged =
      (action.actionClass == .close && isBreakerEligibleClose action &&
        (action.closeConcreteEvidence != some true && closeHoldOnly)) := by
  simp [isDowngradableClose, PlannedAgentAction.restaged, pendingActionToPlanned, actionParams,
    isBreakerEligibleClose, everyJustifyingCodeUntrustworthy]

/-- A close that the breaker looks at and that rests on concrete evidence, every code of which has a
bad record. -/
structure UntrustedEvidence (untrustworthyRuleCodes : List String) (action : PlannedAgentAction) :
    Prop where
  eligible : isBreakerEligibleClose action = true
  concrete : action.closeConcreteEvidence = some true
  untrusted : everyJustifyingCodeUntrustworthy untrustworthyRuleCodes action = true

/-- The breaker treats a staged close like the close itself unless that close rests on evidence that
is not trusted. -/
theorem staged_breaker_agrees_iff (action : PlannedAgentAction)
    (hclose : action.actionClass = .close) (closeHoldOnly : Bool)
    (labelSettings : AgentDispositionLabelSettings) (untrustworthyRuleCodes : List String) :
    (breakerDrops closeHoldOnly labelSettings untrustworthyRuleCodes action.restaged = true ↔
        breakerDrops closeHoldOnly labelSettings untrustworthyRuleCodes action = true) ↔
      ¬UntrustedEvidence untrustworthyRuleCodes action := by
  have hrestaged : action.restaged.actionClass = .close := hclose
  rw [breakerDrops_eq hclose, breakerDrops_eq hrestaged, isDowngradableClose_restaged]
  have hdirect : isDowngradableClose closeHoldOnly untrustworthyRuleCodes action =
      (isBreakerEligibleClose action && ((action.closeConcreteEvidence != some true &&
        closeHoldOnly) || (action.closeConcreteEvidence == some true &&
          everyJustifyingCodeUntrustworthy untrustworthyRuleCodes action))) := by
    simp [isDowngradableClose, hclose]
  rw [hdirect]
  constructor
  · rintro hagree ⟨heligible, hconcrete, huntrusted⟩
    simp [hclose, heligible, hconcrete, huntrusted] at hagree
  · intro htrusted
    cases heligible : isBreakerEligibleClose action with
    | false => simp
    | true =>
      by_cases hconcrete : action.closeConcreteEvidence = some true
      · have hcodes : everyJustifyingCodeUntrustworthy untrustworthyRuleCodes action = false :=
          Bool.eq_false_iff.2 fun h => htrusted ⟨heligible, hconcrete, h⟩
        simp [hconcrete, hcodes]
      · simp [hclose, hconcrete]

/-- A close of a pull request whose gate failed on one blocker, in a repository that stages
closes. -/
def leakedSecretInput : AgentActionPlanInput :=
  { greenInput [] with
    conclusion := .failure
    blockerTitles := ["Leaked secret"]
    gateBlockerCodes := some ["secret_leak"]
    autonomy := some fun actionClass =>
      if actionClass = .close then some .autoWithApproval else none }

theorem staged_breaker_agrees_trusted :
    ∃ action ∈ planAgentMaintenanceActions asciiText leakedSecretInput,
      action.actionClass = .close ∧ ¬UntrustedEvidence [] action ∧
        (breakerDrops true {} [] action.restaged = true ↔
          breakerDrops true {} [] action = true) := by
  obtain ⟨action, hmem, hclose, hcodes⟩ :
      ∃ action ∈ planAgentMaintenanceActions asciiText leakedSecretInput,
        action.actionClass = .close ∧ everyJustifyingCodeUntrustworthy [] action = false := by
    decide
  have htrusted : ¬UntrustedEvidence [] action := by
    intro h
    rw [h.untrusted] at hcodes
    cases hcodes
  exact ⟨action, hmem, hclose, htrusted,
    (staged_breaker_agrees_iff action hclose true {} []).2 htrusted⟩

/-- The breaker stops the close on the live path and lets it through once it was staged. -/
theorem staged_breaker_differs_untrusted :
    ∃ action ∈ planAgentMaintenanceActions asciiText leakedSecretInput,
      action.actionClass = .close ∧ breakerDrops false {} ["secret_leak"] action = true ∧
        breakerDrops false {} ["secret_leak"] action.restaged = false := by
  decide

end LoopOver
