import LoopOver.Planner.Disposition
import LoopOver.Planner.Transforms

/-!
# Red CI and base conflicts under the close breaker

A close for red CI or a base conflict is made on concrete evidence, whatever rules have blocked the
pull request besides. The planner records the evidence and, next to it, the codes of these rules,
and `downgradeCloseToHold` takes the codes for all there is: where each of them has a bad record,
the close goes.

* `mem_downgradeCloseToHold_iff`: the breaker drops a planned close exactly when it is downgradable.
* `heuristicClose_mem_plan`: the two heuristic closes that there are.
* **`red_close_survives_iff`** says when a close for red CI or a conflict stays.
-/

namespace LoopOver

open List

variable {text : Text} {input : AgentActionPlanInput} {planned : List PlannedAgentAction}
  {close : PlannedAgentAction} {closeHoldOnly : Bool}
    {labelSettings : AgentDispositionLabelSettings}
  {untrustworthyRuleCodes : List String}

/-- The breaker drops the downgradable closes, and no other one. -/
theorem mem_downgradeCloseToHold_iff (hclose : close ∈ planned)
    (hclass : close.actionClass = .close) :
    close ∈ downgradeCloseToHold planned closeHoldOnly labelSettings untrustworthyRuleCodes ↔
      isDowngradableClose closeHoldOnly untrustworthyRuleCodes close = false := by
  unfold downgradeCloseToHold
  extract_lets isDowngradable droppedCloseKinds isOrphanedCoupledLabel next droppedClose
  split_ifs with hany
  · rw [Bool.not_eq_true', any_eq_false] at hany
    have hkept : isDowngradable close = false := by simpa using hany close hclose
    exact ⟨fun _ => hkept, fun _ => hclose⟩
  · have hdecision : close.isDecision = true := by
      simp [PlannedAgentAction.isDecision, PlannedAgentAction.isMergeOrClose, hclass]
    constructor
    · intro hmem
      rcases (mem_withManualReviewHoldLabel hmem).2 with hnext | ⟨hadd, _⟩
      · have hkept := (mem_filter.1 hnext).2
        rw [Bool.and_eq_true, Bool.not_eq_true'] at hkept
        exact hkept.1
      · rw [isDecision_of_holdAdd hadd] at hdecision
        cases hdecision
    · intro hkept
      have hcoupled : isOrphanedCoupledLabel close = false := by
        simp [isOrphanedCoupledLabel, hclass]
      apply mem_withManualReviewHoldLabel_of_mem
      · exact mem_filter.2 ⟨hclose, by simp [isDowngradable, hkept, hcoupled]⟩
      · exact isHoldRelease_of_decision labelSettings hdecision

/-- The disposition closes for a repeated match with an issue that is not linked, which an AI has
judged. -/
def closesForRepeatMatch (text : Text) (input : AgentActionPlanInput) : Bool :=
  !input.flagForLinkedIssue text && !input.willCloseForLinkedIssue text &&
    input.unlinkedIssueMatchViolated

theorem closeKind_of_mem_shortCircuitClose {reason comment : String} {kind : CloseKind}
    {label : Option String} (h : close ∈ shortCircuitClose text input reason comment kind label) :
    close.closeKind = some kind := by
  unfold shortCircuitClose at h
  split_ifs at h
  · rcases mem_cons.1 h with rfl | hlabel
    · rfl
    · rw [Option.mem_toList, Option.map_eq_some_iff] at hlabel
      obtain ⟨_, _, rfl⟩ := hlabel
      rfl
  · exact absurd h not_mem_nil

/-- A heuristic close comes from the disposition: for a repeated match, or for the verdict. -/
theorem heuristicClose_mem_plan (h : close ∈ planAgentMaintenanceActions text input)
    (hclass : close.actionClass = .close) (hkind : close.closeKind = some .heuristic) :
    (closesForRepeatMatch text input = true ∧ ∃ note, close = unlinkedIssueClose input note) ∨
      (closesForRepeatMatch text input = false ∧ close = heuristicClose text input) := by
  have hdecision : close.isDecision = true := by
    simp [PlannedAgentAction.isDecision, PlannedAgentAction.isMergeOrClose, hclass]
  have hdisposition : close ∈ dispositionAction text input [] := by
    rcases plan_cases text input with ⟨actions, hshort, hplan⟩ | ⟨_, hearly⟩ | ⟨hreaches, _⟩
    · rw [hplan] at h
      obtain ⟨_, ⟨rfl, _⟩ | ⟨reason, comment, kind, label, rfl, hwhy⟩⟩ :=
        planShortCircuit_cases hshort
      · exact absurd h not_mem_nil
      · have hshortKind := closeKind_of_mem_shortCircuitClose h
        rw [hkind, Option.some.injEq] at hshortKind
        subst hshortKind
        simp at hwhy
    · rcases mem_planEarly (hearly.subset h) with ⟨hother, _⟩ | ⟨_, hadd, _⟩
      · simp [hclass] at hother
      · simp [PlannedAgentAction.isLabelAdd, hclass] at hadd
    · refine ((mem_decision_of_reaches hreaches hdecision).1 h).resolve_left fun hreview => ?_
      simp [actionClass_of_mem_reviewActions hreview] at hclass
  unfold closesForRepeatMatch
  rcases dispositionAction_cases text input with
    ⟨_, hd⟩ | ⟨_, _, hd⟩ | ⟨hf, hl, hu, note, hd⟩ | ⟨_, _, _, hd⟩ | ⟨_, hu, _, _, hd⟩ |
      ⟨_, _, _, _, hd⟩ <;>
  rw [hd] at hdisposition
  · simp at hdisposition
  · obtain rfl := mem_singleton.1 hdisposition
    simp [linkedIssueClose] at hkind
  · obtain rfl := mem_singleton.1 hdisposition
    exact .inl ⟨by simp [hf, hl, hu], note, rfl⟩
  · obtain rfl := mem_singleton.1 hdisposition
    simp [mergeAction] at hclass
  · obtain rfl := mem_singleton.1 hdisposition
    exact .inr ⟨by simp [hu], rfl⟩
  · simp at hdisposition

/-- What the breaker makes of a close whose evidence is red CI or a conflict. -/
theorem isDowngradableClose_heuristicClose
    (hevidence : input.ciFailed = true ∨ input.isConflict text = true) :
    isDowngradableClose closeHoldOnly untrustworthyRuleCodes (heuristicClose text input) =
      (!(concreteCloseEvidenceCodes input).isEmpty &&
        (concreteCloseEvidenceCodes input).all fun code =>
          untrustworthyRuleCodes.contains code) := by
  have hconcrete : hasConcreteCloseEvidence input input.ciFailed
      (input.isConflict text) = true := by
    rcases hevidence with h | h <;> simp [hasConcreteCloseEvidence, h]
  have hkind : (heuristicClose text input).closeKind = some .heuristic := rfl
  have hclass : (heuristicClose text input).actionClass = .close := rfl
  have hrecorded : (heuristicClose text input).closeConcreteEvidence = some true :=
    congrArg some hconcrete
  have hcodes : (heuristicClose text input).closeConcreteEvidenceCodes =
      some (concreteCloseEvidenceCodes input) := rfl
  simp [isDowngradableClose, isBreakerEligibleClose, everyJustifyingCodeUntrustworthy, hkind,
    hclass, hrecorded, hcodes]

/-- A close for a repeated match has no evidence that it names. -/
theorem isDowngradableClose_unlinkedIssueClose (note : HoldNote) :
    isDowngradableClose closeHoldOnly untrustworthyRuleCodes (unlinkedIssueClose input note) =
      closeHoldOnly := by
  simp [isDowngradableClose, isBreakerEligibleClose, unlinkedIssueClose]

/-- **A close for red CI or a base conflict stays**, unless there are concrete codes next to it that
all have a bad record. A close for a repeated match, which an AI has judged, stays while the breaker
of the project is not engaged. -/
theorem red_close_survives_iff (text : Text) (input : AgentActionPlanInput)
    (hevidence : input.ciState = .failed ∨
      assessMergeableState text input.pr.mergeableState = .conflict)
    {close : PlannedAgentAction} (hclose : close ∈ planAgentMaintenanceActions text input)
    (hclass : close.actionClass = .close) (hkind : close.closeKind = some .heuristic)
    (closeHoldOnly : Bool) (labelSettings : AgentDispositionLabelSettings)
    (untrustworthyRuleCodes : List String) :
    close ∈ downgradeCloseToHold (planAgentMaintenanceActions text input) closeHoldOnly
      labelSettings
        untrustworthyRuleCodes ↔
      if closesForRepeatMatch text input = true then closeHoldOnly = false
      else concreteCloseEvidenceCodes input = [] ∨
        ∃ code ∈ concreteCloseEvidenceCodes input, code ∉ untrustworthyRuleCodes := by
  rw [mem_downgradeCloseToHold_iff hclose hclass]
  rcases heuristicClose_mem_plan hclose hclass hkind with ⟨hrepeat, note, rfl⟩ | ⟨hverdict, rfl⟩
  · rw [if_pos hrepeat, isDowngradableClose_unlinkedIssueClose]
  · have hred : input.ciFailed = true ∨ input.isConflict text = true := by
      simpa [AgentActionPlanInput.ciFailed, AgentActionPlanInput.isConflict] using hevidence
    rw [hverdict, if_neg Bool.false_ne_true, isDowngradableClose_heuristicClose hred,
      Bool.and_eq_false_iff, Bool.not_eq_false', List.isEmpty_iff, all_eq_false]
    simp

/-- A red pull request that also links no issue. -/
def redUnlinkedInput : AgentActionPlanInput :=
  { greenInput [.close] with
    conclusion := .failure, ciState := .failed, gateBlockerCodes := some ["missing_linked_issue"] }

theorem red_close_survives_sample :
    heuristicClose asciiText redUnlinkedInput ∈
        downgradeCloseToHold (planAgentMaintenanceActions asciiText redUnlinkedInput) true {}
          ["duplicate_pr_risk"] ↔
      if closesForRepeatMatch asciiText redUnlinkedInput = true then true = false
      else concreteCloseEvidenceCodes redUnlinkedInput = [] ∨
        ∃ code ∈ concreteCloseEvidenceCodes redUnlinkedInput, code ∉ ["duplicate_pr_risk"] :=
  red_close_survives_iff asciiText redUnlinkedInput (.inl rfl) (by decide +kernel) rfl rfl true {}
    ["duplicate_pr_risk"]

/-- Red CI does not keep the close where the rule next to it has a bad record. -/
theorem red_close_dropped :
    ¬∀ (input : AgentActionPlanInput), input.ciState = .failed ∨
        assessMergeableState asciiText input.pr.mergeableState = .conflict →
      ∀ close ∈ planAgentMaintenanceActions asciiText input, close.actionClass = .close →
        close.closeKind = some .heuristic → ∀ closeHoldOnly labelSettings untrustworthyRuleCodes,
        close ∈ downgradeCloseToHold (planAgentMaintenanceActions asciiText input) closeHoldOnly
          labelSettings
          untrustworthyRuleCodes := by
  intro h
  have hkept := h redUnlinkedInput (.inl rfl) (heuristicClose asciiText redUnlinkedInput)
    (by decide +kernel) rfl rfl
    false {} ["missing_linked_issue"]
  exact absurd hkept (by decide +kernel)

end LoopOver
