import LoopOver.Planner.Stages

/-!
# Merges, closes and approvals

What a plan that merges, closes or approves says about its input.

* `merge_planned_safe`: a planned merge rests on every condition of a safe merge (`MergeSafe`), and
  no plan merges or closes twice, or both.
* `close_planned_iff` and `approval_planned_iff` say exactly when a plan that reaches the
  disposition closes or approves. From these: which closes are justified (`close_justified_iff`),
  when a violated linked-issue rule stops merge and approval (`linked_issue_respected_iff`), and
  when an approval can stand next to a close (`approval_excludes_close_iff`).
-/

namespace LoopOver

open PlannedAgentAction
open List AgentActionPlanInput

variable {text : Text} {input : AgentActionPlanInput} {action : PlannedAgentAction}

/-! ## The disposition branch -/

/-- **The branches of the disposition**, in the order they are tried. -/
theorem dispositionAction_cases (text : Text) (input : AgentActionPlanInput) :
    (input.flagForLinkedIssue text = true ∧ dispositionAction text input [] = []) ∨
    (input.flagForLinkedIssue text = false ∧ input.willCloseForLinkedIssue text = true ∧
      dispositionAction text input [] = [linkedIssueClose input]) ∨
    (input.flagForLinkedIssue text = false ∧ input.willCloseForLinkedIssue text = false ∧
      input.unlinkedIssueMatchViolated = true ∧
      ∃ close, dispositionAction text input [] = [unlinkedIssueClose input close]) ∨
    (input.linkedIssueCloseInFlight text = false ∧ input.unlinkedIssueMatchViolated = false ∧
      input.canMerge text = true ∧ dispositionAction text input [] = [mergeAction input]) ∨
    (input.linkedIssueCloseInFlight text = false ∧ input.unlinkedIssueMatchViolated = false ∧
      input.canMerge text = false ∧ input.willClose text = true ∧
      dispositionAction text input [] = [heuristicClose text input]) ∨
    (input.linkedIssueCloseInFlight text = false ∧ input.unlinkedIssueMatchViolated = false ∧
      input.canMerge text = false ∧ input.willClose text = false ∧
      dispositionAction text input [] = []) := by
  cases hf : input.flagForLinkedIssue text with
  | true => exact Or.inl ⟨rfl, by simp [dispositionAction, hf]⟩
  | false =>
    cases hl : input.willCloseForLinkedIssue text with
    | true => exact Or.inr (Or.inl ⟨rfl, rfl, by simp [dispositionAction, hf, hl]⟩)
    | false =>
      have hflight : input.linkedIssueCloseInFlight text = false := by
        simp [linkedIssueCloseInFlight, hf, hl]
      cases hu : input.unlinkedIssueMatchViolated with
      | true =>
        have hsome : input.unlinkedIssueMatchClose.isSome = true := by
          simp only [unlinkedIssueMatchViolated, Bool.and_eq_true] at hu
          exact hu.1.1
        obtain ⟨close, hclose⟩ := Option.isSome_iff_exists.1 hsome
        refine Or.inr (Or.inr (Or.inl ⟨rfl, rfl, rfl, close, ?_⟩))
        simp [dispositionAction, hf, hl, hu, hclose]
      | false =>
        cases hm : input.canMerge text with
        | true =>
          refine Or.inr (Or.inr (Or.inr (Or.inl ⟨hflight, rfl, rfl, ?_⟩)))
          simp [dispositionAction, hf, hl, hu, hm]
        | false =>
          cases hw : input.willClose text with
          | true =>
            refine Or.inr (Or.inr (Or.inr (Or.inr (Or.inl ⟨hflight, rfl, rfl, rfl, ?_⟩))))
            simp [dispositionAction, hf, hl, hu, hm, hw]
          | false =>
            refine Or.inr (Or.inr (Or.inr (Or.inr (Or.inr ⟨hflight, rfl, rfl, rfl, ?_⟩))))
            simp [dispositionAction, hf, hl, hu, hm, hw]

/-- The disposition is at most one action, a merge or a close. -/
theorem dispositionAction_single (text : Text) (input : AgentActionPlanInput) :
    (dispositionAction text input []).length ≤ 1 ∧
      ∀ action ∈ dispositionAction text input [], action.isMergeOrClose = true := by
  rcases dispositionAction_cases text input with
    ⟨-, h⟩ | ⟨-, -, h⟩ | ⟨-, -, -, close, h⟩ | ⟨-, -, -, h⟩ | ⟨-, -, -, -, h⟩ | ⟨-, -, -, -, h⟩ <;>
  rw [h] <;>
  refine ⟨by simp, fun action ha => ?_⟩ <;>
  simp only [mem_singleton, not_mem_nil] at ha <;>
  subst ha <;> rfl

/-- The review is an approval or its retraction. -/
theorem actionClass_of_mem_reviewActions (h : action ∈ reviewActions text input []) :
    action.actionClass = .approve := by
  unfold reviewActions at h
  split at h
  · rw [mem_singleton.1 h]
  · rw [(mem_pushWhen.1 h).2]

/-- An approval comes from the review, and from its first branch. -/
theorem approval_mem_reviewActions :
    (∃ action ∈ reviewActions text input [], action.isApproval = true) ↔
      approves text input = true := by
  cases ha : approves text input <;> simp [reviewActions, ha, isApproval]

/-- **The merges and closes of a plan that reaches the disposition** are its disposition. -/
theorem filter_isMergeOrClose (h : reachesDisposition text input = true) :
    (planAgentMaintenanceActions text input).filter (·.isMergeOrClose) =
      dispositionAction text input [] := by
  have hnil : ∀ actions : List PlannedAgentAction,
      (∀ action ∈ actions, action.isMergeOrClose = false) →
        actions.filter (·.isMergeOrClose) = [] := fun actions hn =>
    filter_eq_nil_iff.2 fun action ha => by simp [hn action ha]
  have hclass : ∀ action : PlannedAgentAction,
      action.actionClass = .label ∨ action.actionClass = .assign ∨ action.actionClass = .approve →
        action.isMergeOrClose = false := by
    rintro action (hc | hc | hc) <;> simp [isMergeOrClose, hc]
  rw [plan_eq_of_reaches h, filter_append, filter_append, settledPlan,
    filter_append, filter_append,
    hnil (labelPlan text input) fun action ha =>
      hclass action ((actionClass_of_mem_labelPlan ha).symm.imp_right Or.inl),
    hnil (reviewActions text input []) fun action ha =>
      hclass action (Or.inr (Or.inr (actionClass_of_mem_reviewActions ha))),
    hnil (manualHoldFallback text input _) fun action ha => by
      obtain ⟨_, -, hf, -⟩ := mem_manualHoldFallback ha
      exact hclass action (Or.inl hf.actionClass),
    hnil (lockContentionRelease text input _) fun action ha => by
      obtain ⟨_, -, hr, -⟩ := mem_lockContentionRelease ha
      exact hclass action (Or.inl hr.actionClass),
    filter_eq_self.2 (dispositionAction_single text input).2]
  simp

/-! ## Merge -/

/-- The conditions of a safe merge, on the input alone. -/
structure MergeSafe (text : Text) (input : AgentActionPlanInput) : Prop where
  success : input.conclusion = .success
  ciPassed : input.ciState = .passed
  ciSettled : input.ciHasPending = false
  clean : assessMergeableState text input.pr.mergeableState = .clean
  noMigrationCollision : input.migrationCollisionHold = none
  noUnlinkedIssueMatch : input.unlinkedIssueMatchHold = none
  noPriorityEligibility : input.priorityEligibilityHold = none
  noScreenshotEvidence : input.screenshotEvidenceHold = none
  noAdvisoryCheck : input.advisoryCheckHold = none ∨ input.advisoryCheckHold = some []
  guardrail : isGuardrailHit text input.changedPaths input.hardGuardrailGlobs = false ∨
    (input.guardrailEscalationOnCleanReview = some .proceed ∧
      (input.guardrailEscalationEffort.isSome ∨
        input.guardrailEscalationSelfConsistencyRuns.isSome ∨
        input.guardrailEscalationModel.isSome ∨ input.guardrailEscalationProvider.isSome))
  approvals : (input.autoMaintain.getD defaultAutoMaintainPolicy).requireApprovals = 0 ∨
    input.pr.reviewDecision = some "APPROVED"
  notBlocked : ∀ sha, ¬(input.pr.mergeBlockedSha = some sha ∧ input.pr.headSha = some sha)
  acting : isActingAutonomyLevel (resolveAutonomy input.autonomy .merge) = true
  contributor : input.authorIsOwner = false → input.authorIsAdmin = false →
    input.authorIsAutomationBot = false →
      input.blacklistMatched = false ∧ input.contributorCapMatched = false ∧
      input.reviewNagMatched = false ∧ input.copycatBlocked = false ∧
      input.screenshotTableEvidenceUnresolved = false ∧ input.screenshotTableMatched = false ∧
      input.unlinkedIssueMatchClose = none

/-- Nothing holds the pull request for a human, each hold named. -/
theorem no_hold_of_not_held (h : input.heldForManualReview text = false) :
    (input.guardrailHit text = true → input.guardrailEscalationCleared text = true) ∧
      input.migrationCollisionHold = none ∧ input.unlinkedIssueMatchHold = none ∧
      input.advisoryCheckHeld = false ∧ input.priorityEligibilityHold = none ∧
      input.screenshotEvidenceHold = none ∧
      (input.unlinkedIssueMatchClose.isSome = true → input.acting .close = true) := by
  have hkey := heldForManualReview_eq_false_iff.1 h
  have hoff : ∀ key, key ≠ .guardrailHit → input.mergeHold text key = false := by
    intro key hne
    cases hk : input.mergeHold text key with
    | false => rfl
    | true =>
      have := hkey key hk
      cases key <;> simp_all [PrDispositionInput.releasedHold]
  refine ⟨hkey .guardrailHit, ?_, ?_, hoff .advisoryCheckHold (by decide), ?_, ?_, ?_⟩
  · simpa [mergeHold] using hoff .migrationCollisionHold (by decide)
  · simpa [mergeHold] using hoff .unlinkedIssueMatchHold (by decide)
  · simpa [mergeHold] using hoff .priorityEligibilityHold (by decide)
  · simpa [mergeHold] using hoff .screenshotEvidenceHold (by decide)
  · simpa [mergeHold] using
      hoff .unlinkedIssueMatchCloseWithoutCloseActing (by decide)

theorem reviewGood_iff :
    input.reviewGood = true ↔ input.conclusion = .success ∧ input.ciState = .passed := by
  simp [reviewGood, ciPassed]

theorem disposition_wouldMerge_iff : (input.disposition text).wouldMerge = true ↔
    input.reviewGood = true ∧ input.heldForManualReview text = false ∧
      assessMergeableState text input.pr.mergeableState = .clean :=
  wouldMerge_iff

theorem disposition_wouldApprove_iff : (input.disposition text).wouldApprove = true ↔
    input.reviewGood = true ∧ input.heldForManualReview text = false ∧
      assessMergeableState text input.pr.mergeableState ≠ .conflict ∧
      (input.disposition text).heldForUnstableMergeState = false :=
  wouldApprove_iff

/-- A review-good pull request without a conflict has no terminal reason to close. -/
theorem no_terminal_reason (hgood : input.reviewGood = true)
    (hconflict : assessMergeableState text input.pr.mergeableState ≠ .conflict) :
    input.willClose text = false ∧
      input.pendingCiMayStillCloseForTerminalReason text = false := by
  obtain ⟨hc, hci⟩ := reviewGood_iff.1 hgood
  simp [willClose, pendingCiMayStillCloseForTerminalReason, ciFailed, isConflict, hc, hci,
    hconflict]

/-- Such a pull request is past the early returns exactly when no short circuit stops it and nothing
is pending. -/
theorem reaches_iff_of_reviewGood (hgood : input.reviewGood = true)
    (hconflict : assessMergeableState text input.pr.mergeableState ≠ .conflict) :
    reachesDisposition text input = true ↔
      planShortCircuit text input = none ∧ input.ciHasPending = false := by
  obtain ⟨hc, hci⟩ := reviewGood_iff.1 hgood
  have hterm := (no_terminal_reason hgood hconflict).2
  simp [reachesDisposition_iff, settlesFirst, ciPending, hc, hci, hterm]

theorem merge_mem_dispositionAction (h : action ∈ dispositionAction text input [])
    (hm : action.actionClass = .merge) :
    input.linkedIssueCloseInFlight text = false ∧ input.unlinkedIssueMatchViolated = false ∧
      input.canMerge text = true := by
  rcases dispositionAction_cases text input with
    ⟨-, hd⟩ | ⟨-, -, hd⟩ | ⟨-, -, -, close, hd⟩ | ⟨hl, hu, hcan, hd⟩ | ⟨-, -, -, -, hd⟩ |
      ⟨-, -, -, -, hd⟩ <;> rw [hd] at h
  · simp at h
  · rw [mem_singleton.1 h] at hm
    exact absurd hm (by simp [linkedIssueClose])
  · rw [mem_singleton.1 h] at hm
    exact absurd hm (by simp [unlinkedIssueClose])
  · exact ⟨hl, hu, hcan⟩
  · rw [mem_singleton.1 h] at hm
    exact absurd hm (by simp [heuristicClose])
  · simp at h

/-- A planned merge comes from the disposition. -/
theorem merge_mem_plan (h : action ∈ planAgentMaintenanceActions text input)
    (hm : action.actionClass = .merge) :
    reachesDisposition text input = true ∧ action ∈ dispositionAction text input [] := by
  rcases plan_cases text input with ⟨actions, hs, hp⟩ | ⟨-, hearly⟩ | ⟨hr, -⟩
  · rcases (mem_planShortCircuit hs (hp ▸ h)).2.2.2 with hc | hc
    · simp [hm] at hc
    · simp [isLabelAdd, hm] at hc
  · rcases mem_planEarly (hearly.subset h) with ⟨hc, -⟩ | ⟨-, hc, -⟩
    · simp [hm] at hc
    · simp [isLabelAdd, hm] at hc
  · refine ⟨hr, ((mem_decision_of_reaches hr ?_).1 h).resolve_left fun hrev => ?_⟩
    · simp [isDecision, isMergeOrClose, hm]
    · simp [actionClass_of_mem_reviewActions hrev] at hm

/-- No plan holds two merges or closes, nor one of each. -/
theorem length_isMergeOrClose_le (text : Text) (input : AgentActionPlanInput) :
    ((planAgentMaintenanceActions text input).filter (·.isMergeOrClose)).length ≤ 1 := by
  rcases plan_cases text input with ⟨actions, hs, hp⟩ | ⟨-, hearly⟩ | ⟨hr, -⟩
  · rw [hp]
    obtain ⟨-, ⟨rfl, -⟩ | ⟨reason, comment, kind, label, rfl, -⟩⟩ := planShortCircuit_cases hs
    · simp
    · rcases shortCircuitClose_cases text input reason comment kind label with
        he | ⟨-, close, coupled, he, -, -, -, rfl | ⟨added, name, rfl, -, hlc, -⟩⟩
      · simp [he]
      · rw [he]
        exact length_filter_le _ _
      · have hadded : added.isMergeOrClose = false := by
          simp [isMergeOrClose, hlc]
        rw [he, filter_cons]
        split <;> simp [hadded]
  · have hnil : (planAgentMaintenanceActions text input).filter (·.isMergeOrClose) = [] := by
      refine filter_eq_nil_iff.2 fun action ha => ?_
      rcases mem_planEarly (hearly.subset ha) with ⟨hc, -⟩ | ⟨-, hc, -⟩
      · simp [isMergeOrClose, hc]
      · simp only [isLabelAdd, Bool.and_eq_true, beq_iff_eq] at hc
        simp [isMergeOrClose, hc.1]
    simp [hnil]
  · rw [filter_isMergeOrClose hr]
    exact (dispositionAction_single text input).1

/-- **Merge safety.** Whatever the input, a planned merge meets every condition of a safe merge, and
a plan merges or closes at most once. -/
theorem merge_planned_safe (text : Text) (input : AgentActionPlanInput) :
    ((∃ action ∈ planAgentMaintenanceActions text input, action.actionClass = .merge) →
      MergeSafe text input) ∧
    ((planAgentMaintenanceActions text input).filter (·.isMergeOrClose)).length ≤ 1 := by
  refine ⟨?_, length_isMergeOrClose_le text input⟩
  rintro ⟨action, ha, hm⟩
  obtain ⟨hr, hd⟩ := merge_mem_plan ha hm
  obtain ⟨hflight, hunlinked, hcan⟩ := merge_mem_dispositionAction hd hm
  simp only [canMerge, Bool.and_eq_true, Bool.not_eq_true'] at hcan
  obtain ⟨⟨⟨hwould, hacting⟩, happrovals⟩, hblocked⟩ := hcan
  obtain ⟨hgood, hheld, hclean⟩ := disposition_wouldMerge_iff.1 hwould
  obtain ⟨hsuccess, hpassed⟩ := reviewGood_iff.1 hgood
  obtain ⟨hguard, hmig, hunl, hadv, hpri, hshot, hclose⟩ := no_hold_of_not_held hheld
  obtain ⟨hshort, hpending⟩ := (reaches_iff_of_reviewGood hgood (by simp [hclean])).1 hr
  refine ⟨hsuccess, hpassed, hpending, hclean, hmig, hunl, hpri, hshot, ?_, ?_, ?_, ?_, hacting, ?_⟩
  · cases hadvisory : input.advisoryCheckHold with
    | none => exact Or.inl rfl
    | some holds =>
      simp only [advisoryCheckHeld, hadvisory, Option.any_some,
        Bool.not_eq_false', List.isEmpty_iff] at hadv
      exact Or.inr (by rw [hadv])
  · cases hhit : input.guardrailHit text with
    | false => exact Or.inl hhit
    | true =>
      have hcleared := hguard hhit
      simp only [guardrailEscalationCleared, escalationConfigured, Bool.and_eq_true,
        Bool.or_eq_true, beq_iff_eq, or_assoc] at hcleared
      exact Or.inr ⟨hcleared.2, hcleared.1.2⟩
  · simpa [approvalsSatisfied, maintainPolicy] using
      happrovals
  · rintro sha ⟨hb, hh⟩
    simp [mergeTerminallyBlocked, hb, hh] at hblocked
  · intro howner hadmin hbot
    have hcontributor : input.isContributor = true := by
      simp [isContributor, howner, hadmin, hbot]
    have hmatched := planShortCircuit_eq_none_iff.1 hshort hcontributor
    simp only [shortCircuitMatched, Bool.or_eq_false_iff, and_assoc] at hmatched
    obtain ⟨h₁, h₂, h₃, h₄, h₅, h₆⟩ := hmatched
    refine ⟨h₁, h₂, h₃, h₄, h₅, h₆, ?_⟩
    cases hmatch : input.unlinkedIssueMatchClose with
    | none => rfl
    | some close =>
      -- With `close` acting the dedicated branch would have closed instead.
      have hact := hclose (by simp [hmatch])
      simp [unlinkedIssueMatchViolated, closeEligible, hmatch, hact, hcontributor] at hunlinked

/-- A green, clean pull request of a contributor, in a repository that lets the agent act on the
given classes and asks for no approval. -/
def greenInput (automatic : List AgentActionClass) : AgentActionPlanInput where
  conclusion := .success
  autonomy := some fun actionClass => if actionClass ∈ automatic then some .auto else none
  autoMaintain := some { requireApprovals := 0, mergeMethod := .squash }
  ciState := .passed
  pr := { mergeableState := some "clean", headSha := some "abc123" }

theorem merge_planned_safe_green :
    (∃ action ∈ planAgentMaintenanceActions asciiText (greenInput [.merge]),
      action.actionClass = .merge) ∧ MergeSafe asciiText (greenInput [.merge]) := by
  have hplanned : ∃ action ∈ planAgentMaintenanceActions asciiText (greenInput [.merge]),
      action.actionClass = .merge := by decide
  exact ⟨hplanned, (merge_planned_safe asciiText (greenInput [.merge])).1 hplanned⟩

/-! ## Close -/

/-- The two passes of the linked-issue double check cover every violation. -/
theorem linkedIssueCloseInFlight_eq (text : Text) (input : AgentActionPlanInput) :
    input.linkedIssueCloseInFlight text = input.linkedIssueViolated := by
  simp only [linkedIssueCloseInFlight, flagForLinkedIssue, willCloseForLinkedIssue]
  cases input.linkedIssueViolated <;> cases input.verifyBeforeClose <;>
    cases input.pendingClosureLabelPresent text <;>
    cases input.canApplyPendingClosureFlagNow <;> rfl

/-- The signals for which the disposition closes a pull request that may be closed. -/
def closeSignal (text : Text) (input : AgentActionPlanInput) : Bool :=
  input.linkedIssueRuleViolated || input.unlinkedIssueMatchClose.isSome || input.ciFailed ||
    input.isConflict text ||
    (input.conclusion == .failure && input.aiReviewLowConfidenceHold.isNone)

/-- **When the disposition closes**: the author may be closed, `close` acts, a signal is there, and
it is not a violation on its flagging pass. -/
theorem close_mem_dispositionAction :
    (∃ action ∈ dispositionAction text input [], action.actionClass = .close) ↔
      input.closeEligible = true ∧ input.acting .close = true ∧
        input.flagForLinkedIssue text = false ∧ closeSignal text input = true := by
  have hflight := linkedIssueCloseInFlight_eq text input
  rcases dispositionAction_cases text input with
    ⟨hf, hd⟩ | ⟨hf, hl, hd⟩ | ⟨hf, hl, hu, close, hd⟩ | ⟨hl, hu, hcan, hd⟩ |
      ⟨hl, hu, hcan, hw, hd⟩ |
      ⟨hl, hu, hcan, hw, hd⟩
  · simp [hd, hf]
  · have hv : input.linkedIssueViolated = true := by
      rw [← hflight, linkedIssueCloseInFlight, hl, Bool.or_true]
    simp only [linkedIssueViolated, Bool.and_eq_true] at hv
    simp [hd, linkedIssueClose, closeSignal, hf, hv]
  · simp only [unlinkedIssueMatchViolated, Bool.and_eq_true] at hu
    simp [hd, unlinkedIssueClose, closeSignal, hf, hu]
  · simp only [canMerge, Bool.and_eq_true] at hcan
    obtain ⟨hgood, -, hclean⟩ := disposition_wouldMerge_iff.1 hcan.1.1.1
    obtain ⟨hsuccess, hpassed⟩ := reviewGood_iff.1 hgood
    rw [hflight] at hl
    simp only [hd, mem_singleton, exists_eq_left, mergeAction, reduceCtorEq, false_iff]
    rintro ⟨he, hacting, -, hsignal⟩
    simp_all [closeSignal, linkedIssueViolated,
      unlinkedIssueMatchViolated, ciFailed,
      isConflict]
  · have hf : input.flagForLinkedIssue text = false := by
      simp only [linkedIssueCloseInFlight, Bool.or_eq_false_iff] at hl
      exact hl.1
    simp only [willClose, Bool.and_eq_true, Bool.or_eq_true] at hw
    obtain ⟨⟨he, hacting⟩, hsignal⟩ := hw
    simp only [hd, mem_singleton, exists_eq_left, heuristicClose, true_iff]
    refine ⟨he, hacting, hf, ?_⟩
    simp only [closeSignal, Bool.or_eq_true, Bool.and_eq_true]
    tauto
  · rw [hflight] at hl
    simp only [hd, not_mem_nil, false_and, exists_false, false_iff]
    rintro ⟨he, hacting, -, hsignal⟩
    simp only [closeSignal, Bool.or_eq_true, Bool.and_eq_true] at hsignal
    rcases hsignal with (((h | h) | h) | h) | h
    · simp [linkedIssueViolated, he, hacting, h] at hl
    · simp [unlinkedIssueMatchViolated, he, hacting, h] at hu
    · simp [willClose, he, hacting, h] at hw
    · simp [willClose, he, hacting, h] at hw
    · simp [willClose, he, hacting, h] at hw

/-- A plan that reaches the disposition closes when the disposition does. -/
theorem close_planned_iff (h : reachesDisposition text input = true) :
    (∃ action ∈ planAgentMaintenanceActions text input, action.actionClass = .close) ↔
      input.closeEligible = true ∧ input.acting .close = true ∧
        input.flagForLinkedIssue text = false ∧ closeSignal text input = true := by
  rw [← close_mem_dispositionAction]
  refine exists_congr fun action => and_congr_left fun hc => ?_
  rw [mem_decision_of_reaches h (by simp [isDecision, isMergeOrClose, hc])]
  exact or_iff_right fun hrev => by simp [actionClass_of_mem_reviewActions hrev] at hc

/-- What a planned close rests on, on the input alone. -/
structure CloseJustified (text : Text) (input : AgentActionPlanInput) : Prop where
  notBot : input.authorIsAutomationBot = false
  ownerOptedIn : input.authorIsOwner = true ∨ input.authorIsAdmin = true →
    input.closeOwnerAuthors = true
  acting : isActingAutonomyLevel (resolveAutonomy input.autonomy .close) = true
  signal : input.blacklistMatched = true ∨ input.contributorCapMatched = true ∨
    input.reviewNagMatched = true ∨ input.copycatBlocked = true ∨
    input.screenshotTableMatched = true ∨
    (input.linkedIssueRuleViolated = true ∧ input.flagForLinkedIssue text = false) ∨
    input.unlinkedIssueMatchClose.isSome = true ∨ input.ciState = .failed ∨
    assessMergeableState text input.pr.mergeableState = .conflict ∨
    (input.conclusion = .failure ∧ input.aiReviewLowConfidenceHold = none)

theorem not_bot_of_isContributor (h : input.isContributor = true) :
    input.authorIsOwner = false ∧ input.authorIsAdmin = false ∧
      input.authorIsAutomationBot = false := by
  simpa [isContributor, and_assoc] using h

/-- A close of a short circuit is justified by its match. -/
theorem closeJustified_of_shortCircuit {actions : List PlannedAgentAction}
    (hs : planShortCircuit text input = some actions) (ha : action ∈ actions) :
    CloseJustified text input := by
  obtain ⟨hc, hactions⟩ := planShortCircuit_cases hs
  obtain ⟨howner, hadmin, hbot⟩ := not_bot_of_isContributor hc
  refine ⟨hbot, by simp [howner, hadmin], (mem_planShortCircuit hs ha).1, ?_⟩
  rcases hactions with ⟨rfl, -⟩ | ⟨_, _, _, _, -, h | h | h | h | h⟩
  · simp at ha
  · exact Or.inl h.2
  · exact Or.inr (Or.inl h.2)
  · exact Or.inr (Or.inr (Or.inl h.2))
  · exact Or.inr (Or.inr (Or.inr (Or.inl h.2.1)))
  · exact Or.inr (Or.inr (Or.inr (Or.inr (Or.inl h.2.1))))

/-- An automation bot that is also listed as owner or admin, in a repository that closes its owner's
pull requests, with a signal to close and CI far enough for it. -/
structure BotClosedAsOwner (text : Text) (input : AgentActionPlanInput) : Prop where
  bot : input.authorIsAutomationBot = true
  owner : input.authorIsOwner = true ∨ input.authorIsAdmin = true
  closeOwnerAuthors : input.closeOwnerAuthors = true
  acting : input.acting .close = true
  evaluated : input.conclusion ≠ .skipped
  settled : input.ciPending = true →
    input.conclusion = .failure ∨ input.isConflict text = true ∨ input.ciFailed = true
  notFlagging : input.flagForLinkedIssue text = false
  signal : closeSignal text input = true

theorem reaches_of_botClosedAsOwner (h : BotClosedAsOwner text input) :
    reachesDisposition text input = true ∧ input.closeEligible = true := by
  have hnot : input.isContributor = false := by
    simp [isContributor, h.bot]
  have helig : input.closeEligible = true := by
    simpa [closeEligible, hnot, h.closeOwnerAuthors] using h.owner
  refine ⟨reachesDisposition_iff.2 ⟨?_, h.evaluated, ?_⟩, helig⟩
  · exact planShortCircuit_eq_none_iff.2 fun hc => by simp [hnot] at hc
  cases hp : input.ciPending with
  | false => simp [settlesFirst, hp]
  | true =>
    have hterm : input.pendingCiMayStillCloseForTerminalReason text = true := by
      simpa [pendingCiMayStillCloseForTerminalReason, helig, h.acting, or_assoc] using h.settled hp
    simp [settlesFirst, hterm]

theorem closeJustified_of_eligible (helig : input.closeEligible = true)
    (hacting : input.acting .close = true) (hflag : input.flagForLinkedIssue text = false)
    (hsignal : closeSignal text input = true) (hbot : input.authorIsAutomationBot = false) :
    CloseJustified text input := by
  refine ⟨hbot, fun howner => ?_, hacting, ?_⟩
  · simp only [closeEligible, isContributor,
      Bool.or_eq_true, Bool.and_eq_true, Bool.not_eq_true'] at helig
    rcases helig with ⟨⟨h₁, h₂⟩, -⟩ | ⟨-, hopt⟩
    · simp [h₁, h₂] at howner
    · exact hopt
  · simp only [closeSignal, ciFailed, isConflict,
      Bool.or_eq_true, Bool.and_eq_true, beq_iff_eq, Option.isNone_iff_eq_none] at hsignal
    tauto

theorem botClosedAsOwner_of_eligible (hr : reachesDisposition text input = true)
    (hbot : input.authorIsAutomationBot = true) (helig : input.closeEligible = true)
    (hacting : input.acting .close = true) (hflag : input.flagForLinkedIssue text = false)
    (hsignal : closeSignal text input = true) : BotClosedAsOwner text input := by
  obtain ⟨-, hevaluated, hsettled⟩ := reachesDisposition_iff.1 hr
  -- A bot is no contributor, so only the opt-in can have made it eligible.
  have howner : (input.authorIsOwner = true ∨ input.authorIsAdmin = true) ∧
      input.closeOwnerAuthors = true := by
    simpa [closeEligible, isContributor, hbot] using helig
  refine ⟨hbot, howner.1, howner.2, hacting, hevaluated, fun hp => ?_, hflag, hsignal⟩
  simp only [settlesFirst, hp, Bool.true_and, Bool.not_eq_false',
    pendingCiMayStillCloseForTerminalReason, Bool.and_eq_true,
    Bool.or_eq_true, beq_iff_eq, or_assoc] at hsettled
  exact hsettled.2

/-- **Which closes are justified.** Every planned close is, except the close of an automation bot
that the owner's opt-in reaches through a second role. -/
theorem close_justified_iff (text : Text) (input : AgentActionPlanInput) :
    ((∃ action ∈ planAgentMaintenanceActions text input, action.actionClass = .close) →
      CloseJustified text input) ↔ ¬BotClosedAsOwner text input := by
  constructor
  · intro h hbot
    obtain ⟨hr, helig⟩ := reaches_of_botClosedAsOwner hbot
    have hclose := h ((close_planned_iff hr).2 ⟨helig, hbot.acting, hbot.notFlagging, hbot.signal⟩)
    exact absurd hbot.bot (by simp [hclose.notBot])
  · rintro h ⟨action, ha, hc⟩
    rcases plan_cases text input with ⟨actions, hs, hp⟩ | ⟨-, hearly⟩ | ⟨hr, -⟩
    · exact closeJustified_of_shortCircuit hs (hp ▸ ha)
    · rcases mem_planEarly (hearly.subset ha) with ⟨hc', -⟩ | ⟨-, hc', -⟩
      · simp [hc] at hc'
      · simp [isLabelAdd, hc] at hc'
    · obtain ⟨helig, hacting, hflag, hsignal⟩ := (close_planned_iff hr).1 ⟨action, ha, hc⟩
      refine closeJustified_of_eligible helig hacting hflag hsignal (Bool.eq_false_iff.2 ?_)
      exact fun hbot => h (botClosedAsOwner_of_eligible hr hbot helig hacting hflag hsignal)

/-- A red pull request of a bot that is also the owner, in a repository that closes its owner's. -/
def botOwnerInput : AgentActionPlanInput :=
  { greenInput [.close] with
    ciState := .failed, authorIsOwner := true, authorIsAutomationBot := true,
    closeOwnerAuthors := true }

theorem not_close_justified_botOwner :
    ¬((∃ action ∈ planAgentMaintenanceActions asciiText botOwnerInput,
        action.actionClass = .close) → CloseJustified asciiText botOwnerInput) := by
  intro h
  have hbot := (h (by decide)).notBot
  exact absurd hbot (by decide)

/-! ## Approval -/

/-- **When a plan approves.** -/
theorem approval_planned_iff :
    (∃ action ∈ planAgentMaintenanceActions text input, action.isApproval = true) ↔
      reachesDisposition text input = true ∧ approves text input = true := by
  rw [← approval_mem_reviewActions]
  have happrove : ∀ {action : PlannedAgentAction}, action.isApproval = true →
      action.actionClass = .approve := by
    intro action h
    simp only [isApproval, Bool.and_eq_true, beq_iff_eq] at h
    exact h.1
  constructor
  · rintro ⟨action, ha, hap⟩
    have hclass := happrove hap
    rcases plan_cases text input with ⟨actions, hs, hp⟩ | ⟨-, hearly⟩ | ⟨hr, -⟩
    · rcases (mem_planShortCircuit hs (hp ▸ ha)).2.2.2 with hc | hc
      · simp [hclass] at hc
      · simp [isLabelAdd, hclass] at hc
    · rcases mem_planEarly (hearly.subset ha) with ⟨hc, -⟩ | ⟨-, hc, -⟩
      · simp [hclass] at hc
      · simp [isLabelAdd, hclass] at hc
    · have hd : action.isDecision = true := by simp [isDecision, hclass]
      refine ⟨hr, action, ((mem_decision_of_reaches hr hd).1 ha).resolve_right fun hdisp => ?_, hap⟩
      have := (dispositionAction_single text input).2 action hdisp
      simp [isMergeOrClose, hclass] at this
  · rintro ⟨hr, action, ha, hap⟩
    have hd : action.isDecision = true := by simp [isDecision, happrove hap]
    exact ⟨action, (mem_decision_of_reaches hr hd).2 (Or.inl ha), hap⟩

/-- The approval is open: granted by the disposition and by `approve`, and not given yet. -/
def approvalOpen (text : Text) (input : AgentActionPlanInput) : Bool :=
  (input.disposition text).wouldApprove && input.acting .approve &&
    input.pr.reviewDecision != some "APPROVED" && !input.alreadyApprovedThisHead

theorem approves_iff : approves text input = true ↔
    approvalOpen text input = true ∧ input.linkedIssueViolated = false := by
  simp only [approves, approvalOpen, linkedIssueCloseInFlight_eq, Bool.and_eq_true,
    Bool.not_eq_true']
  tauto

/-- A repeat unlinked-issue match that closes a pull request whose approval is open. -/
structure ApprovedRepeatMatch (text : Text) (input : AgentActionPlanInput) : Prop where
  repeatMatch : input.unlinkedIssueMatchClose.isSome = true
  closeEligible : input.closeEligible = true
  closeActing : input.acting .close = true
  noRule : input.linkedIssueRuleViolated = false
  approvalOpen : approvalOpen text input = true
  notStopped : input.isContributor = true → input.shortCircuitMatched = false
  ciSettled : input.ciHasPending = false

theorem reaches_iff_of_approvalOpen (h : approvalOpen text input = true) :
    reachesDisposition text input = true ↔
      (input.isContributor = true → input.shortCircuitMatched = false) ∧
        input.ciHasPending = false := by
  simp only [approvalOpen, Bool.and_eq_true] at h
  obtain ⟨hgood, -, hconflict, -⟩ := disposition_wouldApprove_iff.1 h.1.1.1
  rw [reaches_iff_of_reviewGood hgood hconflict, planShortCircuit_eq_none_iff]

/-- A review-good pull request without a conflict is closed for its issues only. -/
theorem closeSignal_of_approvalOpen (h : approvalOpen text input = true) :
    closeSignal text input =
      (input.linkedIssueRuleViolated || input.unlinkedIssueMatchClose.isSome) := by
  simp only [approvalOpen, Bool.and_eq_true] at h
  obtain ⟨hgood, -, hconflict, -⟩ := disposition_wouldApprove_iff.1 h.1.1.1
  obtain ⟨hsuccess, hpassed⟩ := reviewGood_iff.1 hgood
  have hno : input.ciFailed = false ∧ input.isConflict text = false ∧
      (input.conclusion == .failure) = false := by
    simp [ciFailed, isConflict, hsuccess, hpassed, hconflict]
  simp [closeSignal, hno]

theorem flagForLinkedIssue_of_not_violated (h : input.linkedIssueViolated = false) :
    input.flagForLinkedIssue text = false := by
  simp [flagForLinkedIssue, h]

/-- **Approval next to a close.** A plan never holds both, unless a repeat unlinked-issue match
closes a pull request whose approval is open. -/
theorem approval_excludes_close_iff (text : Text) (input : AgentActionPlanInput) :
    ¬((∃ action ∈ planAgentMaintenanceActions text input, action.isApproval = true) ∧
      ∃ action ∈ planAgentMaintenanceActions text input, action.actionClass = .close) ↔
    ¬ApprovedRepeatMatch text input := by
  refine not_congr ⟨?_, ?_⟩
  · rintro ⟨happroval, hclose⟩
    obtain ⟨hr, happroves⟩ := approval_planned_iff.1 happroval
    obtain ⟨hopen, hviolated⟩ := approves_iff.1 happroves
    obtain ⟨helig, hacting, -, hsignal⟩ := (close_planned_iff hr).1 hclose
    have hrule : input.linkedIssueRuleViolated = false := by
      simpa [linkedIssueViolated, helig, hacting] using hviolated
    obtain ⟨hstopped, hsettled⟩ := (reaches_iff_of_approvalOpen hopen).1 hr
    refine ⟨?_, helig, hacting, hrule, hopen, hstopped, hsettled⟩
    simpa [closeSignal_of_approvalOpen hopen, hrule] using hsignal
  · intro h
    have hr := (reaches_iff_of_approvalOpen h.approvalOpen).2 ⟨h.notStopped, h.ciSettled⟩
    have hviolated : input.linkedIssueViolated = false := by
      simp [linkedIssueViolated, h.noRule]
    refine ⟨approval_planned_iff.2 ⟨hr, approves_iff.2 ⟨h.approvalOpen, hviolated⟩⟩, ?_⟩
    refine (close_planned_iff hr).2 ⟨h.closeEligible, h.closeActing,
      flagForLinkedIssue_of_not_violated hviolated, ?_⟩
    simp [closeSignal_of_approvalOpen h.approvalOpen, h.repeatMatch]

/-- A green pull request that repeats an unlinked-issue match. -/
def repeatMatchInput : AgentActionPlanInput :=
  { greenInput [.approve, .close] with
    unlinkedIssueMatchClose := some
      { reason := "repeat unlinked-issue match", comment := "Please link the issue." } }

theorem approval_next_to_close_repeatMatch :
    (∃ action ∈ planAgentMaintenanceActions asciiText repeatMatchInput,
      action.isApproval = true) ∧
    ∃ action ∈ planAgentMaintenanceActions asciiText repeatMatchInput,
      action.actionClass = .close := by
  decide

/-! ## Ineligible linked issues -/

/-- **When a plan merges.** -/
theorem merge_planned_iff :
    (∃ action ∈ planAgentMaintenanceActions text input, action.actionClass = .merge) ↔
      reachesDisposition text input = true ∧ input.linkedIssueViolated = false ∧
        input.unlinkedIssueMatchViolated = false ∧ input.canMerge text = true := by
  rw [← linkedIssueCloseInFlight_eq text input]
  constructor
  · rintro ⟨action, ha, hm⟩
    obtain ⟨hr, hd⟩ := merge_mem_plan ha hm
    exact ⟨hr, merge_mem_dispositionAction hd hm⟩
  · rintro ⟨hr, hflight, hunlinked, hcan⟩
    refine ⟨mergeAction input, (mem_decision_of_reaches hr rfl).2 (Or.inr ?_), rfl⟩
    simp only [linkedIssueCloseInFlight, Bool.or_eq_false_iff] at hflight
    simp [dispositionAction, hflight, hunlinked, hcan]

/-- A pull request for an ineligible issue that `close` cannot act on, and that would merge or be
approved but for the issue. -/
structure IneligibleIssueUnenforced (text : Text) (input : AgentActionPlanInput) : Prop where
  closeNotActing : isActingAutonomyLevel (resolveAutonomy input.autonomy .close) = false
  notStopped : input.shortCircuitMatched = false
  ciSettled : input.ciHasPending = false
  earned :
    ((input.disposition text).wouldMerge = true ∧ input.acting .merge = true ∧
      input.approvalsSatisfied = true ∧ input.mergeTerminallyBlocked = false) ∨
    ((input.disposition text).wouldApprove = true ∧ input.acting .approve = true ∧
      input.pr.reviewDecision ≠ some "APPROVED" ∧ input.alreadyApprovedThisHead = false)

theorem canMerge_iff : input.canMerge text = true ↔
    (input.disposition text).wouldMerge = true ∧ input.acting .merge = true ∧
      input.approvalsSatisfied = true ∧ input.mergeTerminallyBlocked = false := by
  simp [canMerge, and_assoc]

theorem approvalOpen_iff : approvalOpen text input = true ↔
    (input.disposition text).wouldApprove = true ∧ input.acting .approve = true ∧
      input.pr.reviewDecision ≠ some "APPROVED" ∧ input.alreadyApprovedThisHead = false := by
  simp [approvalOpen, and_assoc]

theorem reaches_iff_of_canMerge (h : input.canMerge text = true) :
    reachesDisposition text input = true ↔
      (input.isContributor = true → input.shortCircuitMatched = false) ∧
        input.ciHasPending = false := by
  obtain ⟨hgood, -, hclean⟩ := disposition_wouldMerge_iff.1 (canMerge_iff.1 h).1
  rw [reaches_iff_of_reviewGood hgood (by simp [hclean]), planShortCircuit_eq_none_iff]

/-- **An ineligible linked issue.** For a contributor whose linked issue violates the hard rule, a
plan neither merges nor approves, unless `close` is not acting and the pull request had earned a
merge or an approval. -/
theorem linked_issue_respected_iff (hcontributor : input.isContributor = true)
    (hrule : input.linkedIssueRuleViolated = true) :
    (∀ action ∈ planAgentMaintenanceActions text input,
      action.actionClass ≠ .merge ∧ action.isApproval = false) ↔
    ¬IneligibleIssueUnenforced text input := by
  have hviolated : input.linkedIssueViolated = input.acting .close := by
    simp [linkedIssueViolated, closeEligible, hrule, hcontributor]
  have hsplit : (∀ action ∈ planAgentMaintenanceActions text input,
      action.actionClass ≠ .merge ∧ action.isApproval = false) ↔
      ¬((∃ action ∈ planAgentMaintenanceActions text input, action.actionClass = .merge) ∨
        ∃ action ∈ planAgentMaintenanceActions text input, action.isApproval = true) := by
    simp only [not_or, not_exists, not_and, Bool.not_eq_true]
    exact ⟨fun h => ⟨fun a ha => (h a ha).1, fun a ha => (h a ha).2⟩,
      fun h a ha => ⟨h.1 a ha, h.2 a ha⟩⟩
  rw [hsplit, merge_planned_iff, approval_planned_iff, approves_iff, hviolated]
  refine not_congr ⟨?_, fun h => ?_⟩
  · rintro (⟨hr, hacting, -, hcan⟩ | ⟨hr, hopen, hacting⟩)
    · obtain ⟨hstopped, hsettled⟩ := (reaches_iff_of_canMerge hcan).1 hr
      exact ⟨hacting, hstopped hcontributor, hsettled, Or.inl (canMerge_iff.1 hcan)⟩
    · obtain ⟨hstopped, hsettled⟩ := (reaches_iff_of_approvalOpen hopen).1 hr
      exact ⟨hacting, hstopped hcontributor, hsettled, Or.inr (approvalOpen_iff.1 hopen)⟩
  · have hacting : input.acting .close = false := h.closeNotActing
    rcases h.earned with hcan | hopen
    · have hcan := canMerge_iff.2 hcan
      refine Or.inl ⟨(reaches_iff_of_canMerge hcan).2 ⟨fun _ => h.notStopped, h.ciSettled⟩,
        hacting, ?_, hcan⟩
      simp [unlinkedIssueMatchViolated, hacting]
    · have hopen := approvalOpen_iff.2 hopen
      exact Or.inr ⟨(reaches_iff_of_approvalOpen hopen).2 ⟨fun _ => h.notStopped, h.ciSettled⟩,
        hopen, hacting⟩

/-- A green pull request of a contributor whose linked issue is ineligible. -/
def ineligibleIssueInput (automatic : List AgentActionClass) : AgentActionPlanInput :=
  { greenInput automatic with
    linkedIssueHardRule := some { violated := true, reason := some "issue is assigned" } }

theorem linked_issue_respected_close :
    (ineligibleIssueInput [.merge, .approve, .close]).isContributor = true ∧
    (ineligibleIssueInput [.merge, .approve, .close]).linkedIssueRuleViolated = true ∧
    ∀ action ∈ planAgentMaintenanceActions asciiText
        (ineligibleIssueInput [.merge, .approve, .close]),
      action.actionClass ≠ .merge ∧ action.isApproval = false := by
  refine ⟨by decide, by decide, (linked_issue_respected_iff (by decide) (by decide)).2 ?_⟩
  exact fun h => absurd h.closeNotActing (by decide)

theorem not_linked_issue_respected_observe :
    ¬((ineligibleIssueInput [.merge, .approve]).isContributor = true →
      (ineligibleIssueInput [.merge, .approve]).linkedIssueRuleViolated = true →
      ∀ action ∈ planAgentMaintenanceActions asciiText (ineligibleIssueInput [.merge, .approve]),
        action.actionClass ≠ .merge ∧ action.isApproval = false) := by
  decide

end LoopOver
