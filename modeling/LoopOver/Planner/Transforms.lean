import LoopOver.Planner.Stages

/-!
# Transforms of a finished plan

The three transforms that run after the planner and divert a merge or a close to a human hold: the
merge and the close circuit breakers of `src/settings/agent-actions.ts` and the close-audit holdout
of `src/review/close-audit-holdout.ts`. `applyTransforms` runs any sequence of them with one label
configuration.

* `Surfaced` says that a plan adds the manual-review label and does not remove it. A transform that
  diverts something leaves it so (`surfaced_withManualReviewHoldLabel`), and none undoes it.
* `transforms_tighten_iff`: every sequence only tightens the plan, unless the holdout can drop a
  heuristic close and leave a label that is coupled to it.
-/

namespace LoopOver

open List PlannedAgentAction

/-! ## The transforms -/

/-- Add the manual-review label to a plan, dropping a planned release of it. `action` carries the
reason and the authority of the label. -/
def withManualReviewHoldLabel (planned : List PlannedAgentAction)
    (labelSettings : AgentDispositionLabelSettings) (action : PlannedAgentAction) :
    List PlannedAgentAction :=
  match (resolveAgentDispositionLabels labelSettings).manualReview with
  | none => planned
  | some manualReview =>
    let isThisLabel (candidate : PlannedAgentAction) : Bool :=
      candidate.actionClass == .label && candidate.label == some manualReview
    let next := planned.filter fun candidate =>
      !(isThisLabel candidate && candidate.labelOp == some .remove)
    if next.any fun candidate => isThisLabel candidate && candidate.labelOp != some .remove then
      next
    else
      next ++ [{ action with
        actionClass := .label, label := some manualReview, labelOp := some .add }]

/-- The merge circuit breaker: a would-be merge becomes a hold. -/
def downgradeMergeToHold (planned : List PlannedAgentAction) (holdOnly : Bool)
    (labelSettings : AgentDispositionLabelSettings) : List PlannedAgentAction :=
  if !holdOnly || !(planned.any fun action => action.actionClass == .merge) then planned
  else
    let labels := resolveAgentDispositionLabels labelSettings
    let next := planned.filter fun action => action.actionClass != .merge
    let stagedMerge := planned.find? fun action => action.actionClass == .merge
    let withHold := withManualReviewHoldLabel next labelSettings
      { actionClass := .label
        autonomyClass := some .merge
        requiresApproval := (stagedMerge.map (·.requiresApproval)).getD false
        reason :=
          "accuracy circuit-breaker engaged (merge precision dropped) — would-merge held " ++
          "for human review" }
    -- The merge that a ready-to-merge label promised is off.
    withHold.filter fun action =>
      !(labels.readyToMerge.isSome && action.actionClass == .label &&
        action.label == labels.readyToMerge && action.labelOp != some .remove)

/-- A close the breaker looks at: verdict-driven, or from inspecting the content. -/
def isBreakerEligibleClose (action : PlannedAgentAction) : Bool :=
  action.closeKind == some .heuristic || action.closeKind == some .screenshotTable ||
    action.closeKind == some .reviewNag || action.closeKind == some .copycat

/-- The close rests on concrete evidence, all of it from rules with a bad record. -/
def everyJustifyingCodeUntrustworthy (untrustworthyRuleCodes : List String)
    (action : PlannedAgentAction) : Bool :=
  let codes := action.closeConcreteEvidenceCodes.getD []
  !codes.isEmpty && codes.all fun code => untrustworthyRuleCodes.contains code

/-- A close the breaker diverts: without concrete evidence while the project's breaker is engaged,
or with evidence that is not trusted. -/
def isDowngradableClose (closeHoldOnly : Bool) (untrustworthyRuleCodes : List String)
    (action : PlannedAgentAction) : Bool :=
  action.actionClass == .close && isBreakerEligibleClose action &&
    ((action.closeConcreteEvidence != some true && closeHoldOnly) ||
      (action.closeConcreteEvidence == some true &&
        everyJustifyingCodeUntrustworthy untrustworthyRuleCodes action))

/-- The close circuit breaker: a would-be close becomes a hold, and the labels coupled to it go. -/
def downgradeCloseToHold (planned : List PlannedAgentAction) (closeHoldOnly : Bool)
    (labelSettings : AgentDispositionLabelSettings) (untrustworthyRuleCodes : List String) :
    List PlannedAgentAction :=
  let isDowngradable := isDowngradableClose closeHoldOnly untrustworthyRuleCodes
  if !(planned.any isDowngradable) then planned
  else
    let droppedCloseKinds := (planned.filter isDowngradable).filterMap (·.closeKind)
    let isOrphanedCoupledLabel (action : PlannedAgentAction) : Bool :=
      action.actionClass == .label && action.closeKind.any fun kind =>
        droppedCloseKinds.contains kind
    let next := planned.filter fun action =>
      !isDowngradable action && !isOrphanedCoupledLabel action
    let droppedClose := planned.find? isDowngradable
    withManualReviewHoldLabel next labelSettings
      { actionClass := .label
        autonomyClass := some .close
        requiresApproval := (droppedClose.map (·.requiresApproval)).getD false
        reason := "close-precision circuit-breaker engaged — would-close held for human review" }

/-- A close the holdout may divert: heuristic, and carried out without a human. -/
def isHoldoutEligible (action : PlannedAgentAction) : Bool :=
  action.actionClass == .close && action.closeKind == some .heuristic && !action.requiresApproval

/-- The close-audit holdout, once its draw has fired: the eligible closes become a hold. -/
def applyCloseAuditHoldout (planned : List PlannedAgentAction)
    (labelSettings : AgentDispositionLabelSettings) : List PlannedAgentAction :=
  let next := planned.filter fun action => !isHoldoutEligible action
  withManualReviewHoldLabel next labelSettings
    { actionClass := .label
      autonomyClass := some .close
      requiresApproval := false
      reason := "close-audit holdout drew this PR — would-close held for human adjudication " ++
        "(#8831)" }

/-- One of the transforms, with its own arguments. -/
inductive PlanTransform
  | mergeBreaker (holdOnly : Bool)
  | closeBreaker (closeHoldOnly : Bool) (untrustworthyRuleCodes : List String)
  | auditHoldout
  deriving DecidableEq, Repr

/-- The transform under one label configuration. -/
def PlanTransform.apply (labelSettings : AgentDispositionLabelSettings)
    (planned : List PlannedAgentAction) : PlanTransform → List PlannedAgentAction
  | mergeBreaker holdOnly => downgradeMergeToHold planned holdOnly labelSettings
  | closeBreaker closeHoldOnly codes =>
    downgradeCloseToHold planned closeHoldOnly labelSettings codes
  | auditHoldout => applyCloseAuditHoldout planned labelSettings

/-- A sequence of transforms, first to last. -/
def applyTransforms (labelSettings : AgentDispositionLabelSettings)
    (planned : List PlannedAgentAction) (steps : List PlanTransform) : List PlannedAgentAction :=
  steps.foldl (PlanTransform.apply labelSettings) planned

variable {settings : AgentDispositionLabelSettings} {planned : List PlannedAgentAction}
  {action template : PlannedAgentAction}

/-! ## The hold label -/

/-- A planned release of the manual-review label, where one is configured. -/
def isHoldRelease (settings : AgentDispositionLabelSettings) (action : PlannedAgentAction) : Bool :=
  (resolveAgentDispositionLabels settings).manualReview.any fun manualReview =>
    action.isLabelRemove && action.label == some manualReview

/-- A planned add of the manual-review label, where one is configured. -/
def isHoldAdd (settings : AgentDispositionLabelSettings) (action : PlannedAgentAction) : Bool :=
  (resolveAgentDispositionLabels settings).manualReview.any fun manualReview =>
    action.isLabelAdd && action.label == some manualReview

/-- The plan adds the manual-review label and does not remove it, where one is configured. -/
def Surfaced (settings : AgentDispositionLabelSettings) (planned : List PlannedAgentAction) :
    Prop :=
  (resolveAgentDispositionLabels settings).manualReview.isSome = true →
    (∃ action ∈ planned, isHoldAdd settings action = true) ∧
      ∀ action ∈ planned, isHoldRelease settings action = false

/-- The plan without releases of the label, and the label if it was not there. -/
theorem withManualReviewHoldLabel_eq (settings : AgentDispositionLabelSettings)
    (planned : List PlannedAgentAction) (template : PlannedAgentAction) :
    ∃ added, withManualReviewHoldLabel planned settings template =
        (planned.filter fun action => !isHoldRelease settings action) ++ added ∧
      ((added = [] ∧ ((resolveAgentDispositionLabels settings).manualReview.isSome = true →
          ∃ action ∈ planned, isHoldRelease settings action = false ∧
            isHoldAdd settings action = true)) ∨
        ∃ hold, added = [hold] ∧ isHoldAdd settings hold = true ∧
          hold.closeKind = template.closeKind) := by
  cases hm : (resolveAgentDispositionLabels settings).manualReview with
  | none =>
    refine ⟨[], ?_, Or.inl ⟨rfl, by simp⟩⟩
    simp [withManualReviewHoldLabel, isHoldRelease, hm]
  | some manual =>
    have hfilter : (planned.filter fun action => !isHoldRelease settings action) =
        planned.filter fun candidate => !((candidate.actionClass == .label &&
          candidate.label == some manual) && candidate.labelOp == some .remove) := by
      refine filter_congr fun action _ => ?_
      simp [isHoldRelease, hm, isLabelRemove, Bool.and_right_comm]
    simp only [withManualReviewHoldLabel, hm]
    rw [← hfilter]
    split
    next hany =>
      refine ⟨[], (append_nil _).symm, Or.inl ⟨rfl, fun _ => ?_⟩⟩
      obtain ⟨action, ha, hadd⟩ := any_eq_true.1 hany
      obtain ⟨hmem, hrel⟩ := mem_filter.1 ha
      refine ⟨action, hmem, by simpa using hrel, ?_⟩
      simpa [isHoldAdd, hm, isLabelAdd, and_right_comm] using hadd
    next =>
      refine ⟨_, rfl, Or.inr ⟨_, rfl, ?_, rfl⟩⟩
      simp [isHoldAdd, hm, isLabelAdd]

theorem isHoldRelease_of_add (h : isHoldAdd settings action = true) :
    isHoldRelease settings action = false := by
  refine Bool.eq_false_iff.2 fun hrel => ?_
  simp only [isHoldAdd, isHoldRelease, Option.any_eq_true, Bool.and_eq_true] at h hrel
  obtain ⟨_, -, hadd, -⟩ := h
  obtain ⟨_, -, hremove, -⟩ := hrel
  simp only [isLabelAdd, isLabelRemove, Bool.and_eq_true, bne_iff_ne, beq_iff_eq] at hadd hremove
  exact hadd.2 hremove.2

/-- What is in the plan after the label: what was there and is no release, or the label itself. -/
theorem mem_withManualReviewHoldLabel
    (h : action ∈ withManualReviewHoldLabel planned settings template) :
    isHoldRelease settings action = false ∧
      (action ∈ planned ∨
        isHoldAdd settings action = true ∧ action.closeKind = template.closeKind) := by
  obtain ⟨added, he, hadded⟩ := withManualReviewHoldLabel_eq settings planned template
  rw [he] at h
  rcases mem_append.1 h with h | h
  · obtain ⟨hmem, hrel⟩ := mem_filter.1 h
    exact ⟨by simpa using hrel, Or.inl hmem⟩
  · rcases hadded with ⟨rfl, -⟩ | ⟨hold, rfl, hadd, hkind⟩
    · simp at h
    · obtain rfl := mem_singleton.1 h
      exact ⟨isHoldRelease_of_add hadd, Or.inr ⟨hadd, hkind⟩⟩

theorem mem_withManualReviewHoldLabel_of_mem (h : action ∈ planned)
    (hrel : isHoldRelease settings action = false) :
    action ∈ withManualReviewHoldLabel planned settings template := by
  obtain ⟨added, he, -⟩ := withManualReviewHoldLabel_eq settings planned template
  rw [he]
  exact mem_append_left _ (mem_filter.2 ⟨h, by simp [hrel]⟩)

/-- **The hold is surfaced afterwards.** -/
theorem surfaced_withManualReviewHoldLabel :
    Surfaced settings (withManualReviewHoldLabel planned settings template) := by
  intro hsome
  refine ⟨?_, fun action ha => (mem_withManualReviewHoldLabel ha).1⟩
  obtain ⟨added, he, ⟨rfl, hex⟩ | ⟨hold, rfl, hadd, -⟩⟩ :=
    withManualReviewHoldLabel_eq settings planned template
  · obtain ⟨action, ha, hrel, hadd⟩ := hex hsome
    exact ⟨action, mem_withManualReviewHoldLabel_of_mem ha hrel, hadd⟩
  · exact ⟨hold, by rw [he]; simp, hadd⟩

/-- A plan that surfaces the hold already is left as it is. -/
theorem withManualReviewHoldLabel_of_surfaced (h : Surfaced settings planned) :
    withManualReviewHoldLabel planned settings template = planned := by
  cases hm : (resolveAgentDispositionLabels settings).manualReview with
  | none => simp [withManualReviewHoldLabel, hm]
  | some manual =>
    obtain ⟨⟨hold, hmem, hadd⟩, hrel⟩ := h (by simp [hm])
    have hself : (planned.filter fun candidate => !((candidate.actionClass == .label &&
        candidate.label == some manual) && candidate.labelOp == some .remove)) = planned := by
      refine filter_eq_self.2 fun action ha => ?_
      have := hrel action ha
      rw [Bool.not_eq_true']
      simpa [isHoldRelease, hm, isLabelRemove, Bool.and_right_comm] using this
    have hany : (planned.any fun candidate => (candidate.actionClass == .label &&
        candidate.label == some manual) && candidate.labelOp != some .remove) = true := by
      refine any_eq_true.2 ⟨hold, hmem, ?_⟩
      simpa [isHoldAdd, hm, isLabelAdd, and_right_comm] using hadd
    simp only [withManualReviewHoldLabel, hm, hself, hany, if_true]

/-! ## One step -/

/-- **What one transform leaves in the plan**: what was there, or the hold label, which is coupled
to no close. -/
theorem mem_apply {step : PlanTransform} (h : action ∈ step.apply settings planned) :
    action ∈ planned ∨ isHoldAdd settings action = true ∧ action.closeKind = none := by
  cases step with
  | mergeBreaker holdOnly =>
    simp only [PlanTransform.apply, downgradeMergeToHold] at h
    split at h
    · exact Or.inl h
    · rcases (mem_withManualReviewHoldLabel (mem_filter.1 h).1).2 with h | h
      · exact Or.inl (mem_filter.1 h).1
      · exact Or.inr h
  | closeBreaker closeHoldOnly codes =>
    simp only [PlanTransform.apply, downgradeCloseToHold] at h
    split at h
    · exact Or.inl h
    · rcases (mem_withManualReviewHoldLabel h).2 with h | h
      · exact Or.inl (mem_filter.1 h).1
      · exact Or.inr h
  | auditHoldout =>
    rcases (mem_withManualReviewHoldLabel h).2 with h | h
    · exact Or.inl (mem_filter.1 h).1
    · exact Or.inr h

/-- A transform leaves the plan alone or surfaces the hold, where the two labels differ. -/
theorem apply_cases (settings : AgentDispositionLabelSettings) (planned : List PlannedAgentAction)
    (step : PlanTransform)
    (hdiffer : (resolveAgentDispositionLabels settings).manualReview ≠
      (resolveAgentDispositionLabels settings).readyToMerge) :
    step.apply settings planned = planned ∨ Surfaced settings (step.apply settings planned) := by
  cases step with
  | mergeBreaker holdOnly =>
    simp only [PlanTransform.apply, downgradeMergeToHold]
    split
    · exact Or.inl rfl
    · refine Or.inr fun hsome => ?_
      obtain ⟨⟨hold, hmem, hadd⟩, hrel⟩ := surfaced_withManualReviewHoldLabel hsome
      refine ⟨⟨hold, mem_filter.2 ⟨hmem, ?_⟩, hadd⟩, fun action ha =>
        hrel action (mem_filter.1 ha).1⟩
      -- The hold label is not the ready-to-merge label, so the last filter keeps it.
      simp only [isHoldAdd, Option.any_eq_true, Bool.and_eq_true, beq_iff_eq] at hadd
      obtain ⟨manual, hmanual, -, hlabel⟩ := hadd
      have hne : (hold.label == (resolveAgentDispositionLabels settings).readyToMerge) = false := by
        rw [hlabel, ← hmanual]
        simpa using hdiffer
      simp [hne]
  | closeBreaker closeHoldOnly codes =>
    simp only [PlanTransform.apply, downgradeCloseToHold]
    split
    · exact Or.inl rfl
    · exact Or.inr surfaced_withManualReviewHoldLabel
  | auditHoldout => exact Or.inr surfaced_withManualReviewHoldLabel

/-- The hold label is neither a merge, a close nor an approval. -/
theorem isDecision_of_holdAdd (h : isHoldAdd settings action = true) :
    action.isDecision = false := by
  simp only [isHoldAdd, Option.any_eq_true, Bool.and_eq_true, isLabelAdd, beq_iff_eq] at h
  obtain ⟨_, -, ⟨hc, -⟩, -⟩ := h
  simp [isDecision, isMergeOrClose, hc]

theorem isHoldRelease_of_decision (settings : AgentDispositionLabelSettings)
    (h : action.isDecision = true) :
    isHoldRelease settings action = false := by
  refine Bool.eq_false_iff.2 fun hrel => ?_
  simp only [isHoldRelease, Option.any_eq_true, Bool.and_eq_true, isLabelRemove, beq_iff_eq] at hrel
  obtain ⟨_, -, ⟨hc, -⟩, -⟩ := hrel
  simp [isDecision, isMergeOrClose, hc] at h

/-- The close that an unlucky draw may divert, next to a label tagged as coupled to it that the
holdout does not take away. -/
structure OrphanedLabel (settings : AgentDispositionLabelSettings)
    (planned : List PlannedAgentAction) : Prop where
  close : ∃ action ∈ planned, action.actionClass = .close ∧ action.closeKind = some .heuristic ∧
    action.requiresApproval = false
  label : ∃ action ∈ planned, action.actionClass = .label ∧ action.closeKind = some .heuristic ∧
    isHoldRelease settings action = false

variable {close label : PlannedAgentAction}

/-- **Dropping a close takes its labels along**, except that the holdout leaves those of a heuristic
close. -/
theorem coupled_of_dropped {step : PlanTransform} {kind : CloseKind} (hclose : close ∈ planned)
    (hc : close.actionClass = .close) (hdropped : close ∉ step.apply settings planned)
    (hkind : close.closeKind = some kind) (hlabel : label ∈ step.apply settings planned)
    (hl : label.actionClass = .label) (hcoupled : label.closeKind = some kind) :
    kind = .heuristic ∧ close.requiresApproval = false ∧ label ∈ planned ∧
      isHoldRelease settings label = false := by
  have hdecision : close.isDecision = true := by
    simp [isDecision, isMergeOrClose, hc]
  have hrel := isHoldRelease_of_decision settings hdecision
  cases step with
  | mergeBreaker holdOnly =>
    simp only [PlanTransform.apply, downgradeMergeToHold] at hdropped
    split at hdropped
    · exact absurd hclose hdropped
    · refine absurd (mem_filter.2 ⟨mem_withManualReviewHoldLabel_of_mem
        (mem_filter.2 ⟨hclose, ?_⟩) hrel, ?_⟩) hdropped
      · simp [hc]
      · simp [hc]
  | closeBreaker closeHoldOnly codes =>
    simp only [PlanTransform.apply, downgradeCloseToHold] at hdropped hlabel
    split at hdropped
    · exact absurd hclose hdropped
    · next hany =>
      simp only [hany] at hlabel
      by_cases hdown : isDowngradableClose closeHoldOnly codes close = true
      · -- The breaker drops every label of the kinds it drops.
        rcases (mem_withManualReviewHoldLabel hlabel).2 with hmem | ⟨-, hnone⟩
        · have hkept := (mem_filter.1 hmem).2
          simp [hl, hcoupled] at hkept
          exact absurd hkind (hkept.2 close hclose hdown)
        · simp [hcoupled] at hnone
      · refine absurd (mem_withManualReviewHoldLabel_of_mem (mem_filter.2 ⟨hclose, ?_⟩) hrel)
          hdropped
        simp [hdown, hc]
  | auditHoldout =>
    obtain ⟨hlrel, hmem | ⟨-, hnone⟩⟩ := mem_withManualReviewHoldLabel hlabel
    · by_cases helig : isHoldoutEligible close = true
      · simp only [isHoldoutEligible, Bool.and_eq_true, beq_iff_eq, Bool.not_eq_true'] at helig
        exact ⟨Option.some.inj (hkind.symm.trans helig.1.2), helig.2, (mem_filter.1 hmem).1,
          hlrel⟩
      · exact absurd (mem_withManualReviewHoldLabel_of_mem
          (mem_filter.2 ⟨hclose, by simpa using helig⟩) hrel) hdropped
    · simp [hcoupled] at hnone

/-- Each transform, done twice, is done once. -/
theorem apply_apply (settings : AgentDispositionLabelSettings) (planned : List PlannedAgentAction)
    (step : PlanTransform) :
    step.apply settings (step.apply settings planned) = step.apply settings planned := by
  have hlabel : ∀ {action}, isHoldAdd settings action = true →
      action.actionClass = .label := by
    intro action h
    simp only [isHoldAdd, Option.any_eq_true, Bool.and_eq_true, isLabelAdd, beq_iff_eq] at h
    obtain ⟨_, -, ⟨hc, -⟩, -⟩ := h
    exact hc
  cases step with
  | mergeBreaker holdOnly =>
    simp only [PlanTransform.apply]
    by_cases hskip : (!holdOnly || !(planned.any fun action => action.actionClass == .merge)) = true
    · simp only [downgradeMergeToHold, hskip, if_true]
    · -- No merge is left, so the second breaker has nothing to do.
      have hnone : ((downgradeMergeToHold planned holdOnly settings).any fun action =>
          action.actionClass == .merge) = false := by
        refine any_eq_false.2 fun action ha => ?_
        simp only [downgradeMergeToHold, hskip] at ha
        rcases (mem_withManualReviewHoldLabel (mem_filter.1 ha).1).2 with h | ⟨h, -⟩
        · simpa using (mem_filter.1 h).2
        · simp [hlabel h]
      rw [downgradeMergeToHold, hnone]
      simp
  | closeBreaker closeHoldOnly codes =>
    simp only [PlanTransform.apply]
    by_cases hskip : (!(planned.any (isDowngradableClose closeHoldOnly codes))) = true
    · simp only [downgradeCloseToHold, hskip, if_true]
    · have hnone : ((downgradeCloseToHold planned closeHoldOnly settings codes).any
          (isDowngradableClose closeHoldOnly codes)) = false := by
        refine any_eq_false.2 fun action ha => ?_
        simp only [downgradeCloseToHold, hskip] at ha
        rcases (mem_withManualReviewHoldLabel ha).2 with h | ⟨h, -⟩
        · have hkept := (mem_filter.1 h).2
          simp only [Bool.and_eq_true, Bool.not_eq_true'] at hkept
          simp [hkept.1]
        · simp [isDowngradableClose, hlabel h]
      rw [downgradeCloseToHold, hnone]
      simp
  | auditHoldout =>
    simp only [PlanTransform.apply]
    have hself : ((applyCloseAuditHoldout planned settings).filter fun action =>
        !isHoldoutEligible action) = applyCloseAuditHoldout planned settings := by
      refine filter_eq_self.2 fun action ha => ?_
      rcases (mem_withManualReviewHoldLabel ha).2 with h | ⟨h, -⟩
      · exact (mem_filter.1 h).2
      · simp [isHoldoutEligible, hlabel h]
    rw [applyCloseAuditHoldout, hself]
    exact withManualReviewHoldLabel_of_surfaced surfaced_withManualReviewHoldLabel

/-! ## Runs of transforms -/

/-- What one sequence of transforms may do to a plan. -/
structure Tightened (settings : AgentDispositionLabelSettings) (planned : List PlannedAgentAction)
    (steps : List PlanTransform) : Prop where
  noNewDecision : ∀ action ∈ applyTransforms settings planned steps,
    action.actionClass = .merge ∨ action.actionClass = .close ∨ action.actionClass = .approve →
      action ∈ planned
  idempotent : ∀ step : PlanTransform,
    step.apply settings (step.apply settings (applyTransforms settings planned steps)) =
      step.apply settings (applyTransforms settings planned steps)
  noOrphan : ∀ close ∈ planned, close.actionClass = .close →
    close ∉ applyTransforms settings planned steps → ∀ kind, close.closeKind = some kind →
      ∀ label ∈ applyTransforms settings planned steps, label.actionClass = .label →
        label.closeKind ≠ some kind
  held : ∀ manualReview, (resolveAgentDispositionLabels settings).manualReview = some manualReview →
    (resolveAgentDispositionLabels settings).readyToMerge ≠ some manualReview →
    (∃ action ∈ planned, (action.actionClass = .merge ∨ action.actionClass = .close) ∧
      action ∉ applyTransforms settings planned steps) →
    (∃ action ∈ applyTransforms settings planned steps,
      action.isLabelAdd = true ∧ action.label = some manualReview) ∧
    ∀ action ∈ applyTransforms settings planned steps,
      action.isLabelRemove = true → action.label ≠ some manualReview

/-- A property of plans that every transform keeps holds after every sequence. -/
theorem applyTransforms_induction (settings : AgentDispositionLabelSettings)
    (planned : List PlannedAgentAction) {P : List PlannedAgentAction → Prop} (h : P planned)
    (hstep : ∀ current step, P current → P (PlanTransform.apply settings current step))
    (steps : List PlanTransform) : P (applyTransforms settings planned steps) := by
  induction steps generalizing planned with
  | nil => exact h
  | cons step steps ih => exact ih _ (hstep planned step h)

/-- After any sequence, the plan holds what was there and the hold label. -/
theorem mem_applyTransforms {steps : List PlanTransform}
    (h : action ∈ applyTransforms settings planned steps) :
    action ∈ planned ∨ isHoldAdd settings action = true ∧ action.closeKind = none := by
  revert action
  refine applyTransforms_induction settings planned
    (P := fun current => ∀ {action}, action ∈ current →
      action ∈ planned ∨ isHoldAdd settings action = true ∧ action.closeKind = none)
    (fun h => Or.inl h) (fun current step ih action h => ?_) steps
  rcases mem_apply h with h | h
  · exact ih h
  · exact Or.inr h

/-- After a sequence that dropped something, the hold is surfaced. -/
theorem surfaced_of_dropped {steps : List PlanTransform}
    (hdiffer : (resolveAgentDispositionLabels settings).manualReview ≠
      (resolveAgentDispositionLabels settings).readyToMerge)
    (h : action ∈ planned) (hdropped : action ∉ applyTransforms settings planned steps) :
    Surfaced settings (applyTransforms settings planned steps) := by
  refine applyTransforms_induction settings planned
    (P := fun current => action ∉ current → Surfaced settings current)
    (fun hnot => absurd h hnot) (fun current step ih hnot => ?_) steps hdropped
  rcases apply_cases settings current step hdiffer with he | hs
  · rw [he] at hnot ⊢
    exact ih hnot
  · exact hs

/-- Without the exception, every sequence takes the labels of a dropped close along. -/
theorem noOrphan_of_not_orphanedLabel (hno : ¬OrphanedLabel settings planned)
    (steps : List PlanTransform) {kind : CloseKind} (hclose : close ∈ planned)
    (hc : close.actionClass = .close) (hkind : close.closeKind = some kind)
    (hdropped : close ∉ applyTransforms settings planned steps)
    (hlabel : label ∈ applyTransforms settings planned steps) (hl : label.actionClass = .label) :
    label.closeKind ≠ some kind := by
  -- The invariant also carries that a label with a close kind was planned.
  have hinv := applyTransforms_induction settings planned
    (P := fun current =>
      (∀ label ∈ current, label.closeKind ≠ none → label ∈ planned) ∧
      (close ∉ current → ∀ label ∈ current, label.actionClass = .label →
        label.closeKind ≠ some kind))
    ⟨fun _ h _ => h, fun hnot => absurd hclose hnot⟩ ?_ steps
  · exact hinv.2 hdropped label hlabel hl
  · rintro current step ⟨hplanned, horphan⟩
    have hback : ∀ label ∈ step.apply settings current, label.closeKind ≠ none →
        label ∈ current := fun label h hsome =>
      (mem_apply h).resolve_right fun hadd => hsome hadd.2
    refine ⟨fun label h hsome => hplanned label (hback label h hsome) hsome, ?_⟩
    intro hnot label h hl hcoupled
    have hsome : label.closeKind ≠ none := by simp [hcoupled]
    by_cases hcurrent : close ∈ current
    · obtain ⟨rfl, happroval, hmem, hrel⟩ :=
        coupled_of_dropped hcurrent hc hnot hkind h hl hcoupled
      exact hno ⟨⟨close, hclose, hc, hkind, happroval⟩,
        ⟨label, hplanned label hmem hsome, hl, hcoupled, hrel⟩⟩
    · exact horphan hcurrent label (hback label h hsome) hl hcoupled

/-- **Transforms only tighten.** For one plan and one label configuration, every sequence of the
transforms tightens the plan, unless the plan holds a heuristic close that needs no approval next to
a label coupled to it. -/
theorem transforms_tighten_iff (settings : AgentDispositionLabelSettings)
    (planned : List PlannedAgentAction) :
    (∀ steps, Tightened settings planned steps) ↔ ¬OrphanedLabel settings planned := by
  constructor
  · rintro h ⟨⟨close, hclose, hc, hkind, happroval⟩, label, hlabel, hl, hcoupled, hrel⟩
    have helig : isHoldoutEligible close = true := by
      simp [isHoldoutEligible, hc, hkind, happroval]
    refine (h [.auditHoldout]).noOrphan close hclose hc ?_ _ hkind label ?_ hl hcoupled
    · intro hmem
      rcases (mem_withManualReviewHoldLabel hmem).2 with hmem | ⟨hadd, -⟩
      · simp [helig] at hmem
      · have := isDecision_of_holdAdd hadd
        simp [isDecision, isMergeOrClose, hc] at this
    · refine mem_withManualReviewHoldLabel_of_mem (mem_filter.2 ⟨hlabel, ?_⟩) hrel
      simp [isHoldoutEligible, hl]
  · intro hno steps
    refine ⟨?_, fun step => apply_apply settings _ step, ?_, ?_⟩
    · intro action ha hclass
      refine (mem_applyTransforms ha).resolve_right fun hadd => ?_
      have := isDecision_of_holdAdd hadd.1
      rcases hclass with hc | hc | hc <;>
        simp [isDecision, isMergeOrClose, hc] at this
    · intro close hclose hc hdropped kind hkind label hlabel hl
      exact noOrphan_of_not_orphanedLabel hno steps hclose hc hkind hdropped hlabel hl
    · rintro manual hmanual hready ⟨action, ha, -, hdropped⟩
      have hdiffer : (resolveAgentDispositionLabels settings).manualReview ≠
          (resolveAgentDispositionLabels settings).readyToMerge := by
        rw [hmanual]
        exact hready.symm
      obtain ⟨⟨hold, hmem, hadd⟩, hrel⟩ :=
        surfaced_of_dropped hdiffer ha hdropped (by simp [hmanual])
      refine ⟨⟨hold, hmem, by simpa [isHoldAdd, hmanual] using hadd⟩, fun other ho hremove => ?_⟩
      have := hrel other ho
      simpa [isHoldRelease, hmanual, hremove] using this

/-- A heuristic close and a label coupled to it. -/
def coupledPlan : List PlannedAgentAction :=
  [{ actionClass := .close, requiresApproval := false, reason := "CI is failing"
     closeKind := some .heuristic },
    { actionClass := .label, autonomyClass := some .close, requiresApproval := false
      reason := "CI is failing", label := some "needs-work", labelOp := some .add
      closeKind := some .heuristic }]

theorem not_tightened_coupledPlan : ¬∀ steps, Tightened {} coupledPlan steps := by
  intro h
  exact absurd (h [.auditHoldout]).noOrphan (by decide)

end LoopOver
