import Mathlib.Data.List.ReduceOption
import LoopOver.Planner.Disposition

/-!
# The labels of a plan

Which labels a plan adds and removes, and what that says about the holds on the pull request.

* `add_about_settled_iff` and `about_settled_iff` say which labels are planned by the time the two
  last stages look, in terms of the input.
* `hold_release_iff`: when the manual-review label can be removed under a standing hold.
* `label_coherent`: with distinct names, the label actions of a plan never contradict or repeat one
  another.
-/

namespace LoopOver

open List PlannedAgentAction

variable {text : Text} {input : AgentActionPlanInput} {action : PlannedAgentAction}
  {actions : List PlannedAgentAction} {name : String}

/-! ## Adds and removes -/

theorem PlannedAgentAction.isAbout_of_label {label : String} (h : action.label = some label) :
    action.isAbout text name = text.sameText label name := by
  simp [isAbout, h]

theorem PlannedAgentAction.isLabelRemove_of_add (h : action.isLabelAdd = true) :
    action.isLabelRemove = false := by
  simp only [isLabelAdd, isLabelRemove, Bool.and_eq_true, bne_iff_ne] at h ⊢
  simp [h.2]

theorem PlannedAgentAction.isLabelAdd_of_remove (h : action.isLabelRemove = true) :
    action.isLabelAdd = false := by
  simp only [isLabelAdd, isLabelRemove, Bool.and_eq_true, beq_iff_eq] at h ⊢
  simp [h.2]

theorem FreshAdd.not_live (h : FreshAdd text input actions action name) :
    hasLabel text input.pr.labels name = false :=
  (hasLabelOrPlanned_eq_false.1 h.fresh).1

/-- The `label` tier of the copycat gate adds `name`. -/
def copycatAdds (text : Text) (input : AgentActionPlanInput) (name : String) : Bool :=
  input.copycatGateMode == some .label && input.copycatMatch.any (·.matched) &&
    input.isContributor && input.acting .label &&
    (resolveNullableLabel input.copycatLabel defaultCopycatLabel).any fun label =>
      text.sameText label name

/-- The pass wants `name` as its disposition label. -/
def stateLabelIs (text : Text) (input : AgentActionPlanInput) (name : String) : Bool :=
  input.acting .reviewStateLabel &&
    (reviewStateLabel text input).any fun label => text.sameText label name

/-- The cleanup clears `name`, if it is on the pull request. -/
def cleanupClears (text : Text) (input : AgentActionPlanInput) (name : String) : Bool :=
  input.acting .reviewStateLabel && (clearableLabels input).any fun sibling =>
    sibling != reviewStateLabel text input && sibling.any fun label => text.sameText label name

/-- The pending-closure label is `name`. -/
def pendingClosureIs (text : Text) (input : AgentActionPlanInput) (name : String) : Bool :=
  input.acting .reviewStateLabel &&
    input.labels.pendingClosure.any fun label => text.sameText label name

theorem mem_maybePlanCopycatLabel_iff :
    (∃ action ∈ maybePlanCopycatLabel input, action.isAbout text name = true) ↔
      copycatAdds text input name = true := by
  unfold maybePlanCopycatLabel copycatAdds
  cases resolveNullableLabel input.copycatLabel defaultCopycatLabel <;>
    simp [isAbout]

theorem mem_staleDispositionCleanup_iff (hlive : hasLabel text input.pr.labels name = true) :
    (∃ action ∈ staleDispositionCleanup text input [], action.isAbout text name = true) ↔
      cleanupClears text input name = true := by
  constructor
  · rintro ⟨action, ha, habout⟩
    obtain ⟨stale, hmem, hne, hremove, -, hacting⟩ := mem_staleDispositionCleanup ha
    rw [isAbout_of_label hremove.label] at habout
    simp only [cleanupClears, Bool.and_eq_true, any_eq_true, bne_iff_ne]
    exact ⟨hacting, some stale, hmem, hne, habout⟩
  · intro h
    simp only [cleanupClears, Bool.and_eq_true, any_eq_true, bne_iff_ne] at h
    obtain ⟨hacting, sibling, hmem, hne, hsame⟩ := h
    cases sibling with
    | none => simp at hsame
    | some label =>
      have hlive' : hasLabel text input.pr.labels label = true := by
        rw [hasLabel_congr (by simpa using hsame)]
        exact hlive
      obtain hh | ⟨stale, hstale, hs⟩ := exists_staleSiblings [] hmem hne hlive'
      · simp at hh
      · refine ⟨_, by
          rw [staleDispositionCleanup, if_pos hacting]
          exact mem_map_of_mem hstale, ?_⟩
        have hsame' : text.sameText label name = true := by simpa using hsame
        rw [isAbout_of_label rfl, text.sameText_iff]
        exact ((text.sameText_iff).1 hs).trans ((text.sameText_iff).1 hsame')

theorem mem_pendingClosureClear_iff :
    (∃ action ∈ pendingClosureClear text input [], action.isAbout text name = true) ↔
      pendingClosureIs text input name = true ∧ input.clearLinkedIssueFlag text = true := by
  unfold pendingClosureClear pendingClosureIs
  cases input.labels.pendingClosure <;> simp [isAbout]
  tauto

theorem mem_pendingClosureFlag_iff :
    (∃ action ∈ pendingClosureFlag text input [], action.isAbout text name = true) ↔
      pendingClosureIs text input name = true ∧ input.flagForLinkedIssue text = true := by
  unfold pendingClosureFlag pendingClosureIs
  cases input.labels.pendingClosure <;> simp [isAbout]
  tauto

/-- What was planned before CI had to settle stays in the plan. -/
theorem mem_labelPlan_of_early (h : action ∈ planEarly input) : action ∈ labelPlan text input := by
  obtain ⟨pushed, he⟩ := accumulate_eq_append (labelStages text input) (planEarly input)
  rw [labelPlan, he]
  exact mem_append_left _ h

theorem mem_settledPlan_of_label (h : action ∈ labelPlan text input) :
    action ∈ settledPlan text input :=
  mem_append_left _ (mem_append_left _ h)

/-- The label actions of a settled plan are those of its label stages. -/
theorem label_mem_settledPlan (h : action ∈ settledPlan text input)
    (hc : action.actionClass = .label) : action ∈ labelPlan text input := by
  simp only [settledPlan, mem_append] at h
  rcases h with (h | h) | h
  · exact h
  · simp [actionClass_of_mem_reviewActions h] at hc
  · have := (dispositionAction_single text input).2 action h
    simp [isMergeOrClose, hc] at this

theorem early_about (h : action ∈ planEarly input) (hc : action.actionClass = .label)
    (habout : action.isAbout text name = true) : copycatAdds text input name = true := by
  rcases mem_planEarly h with ⟨hassign, -⟩ | ⟨hcopy, -⟩
  · simp [hassign] at hc
  · exact mem_maybePlanCopycatLabel_iff.1 ⟨action, hcopy, habout⟩

theorem copycat_mem_labelPlan (h : copycatAdds text input name = true) :
    ∃ action ∈ labelPlan text input,
      action.isLabelAdd = true ∧ action.isAbout text name = true := by
  obtain ⟨action, ha, habout⟩ := mem_maybePlanCopycatLabel_iff.2 h
  have hearly : action ∈ planEarly input := mem_append_right _ ha
  refine ⟨action, mem_labelPlan_of_early hearly, ?_, habout⟩
  rcases mem_planEarly hearly with ⟨hassign, -⟩ | ⟨-, hadd, -⟩
  · unfold maybePlanCopycatLabel at ha
    split at ha
    · rw [(mem_pushWhen.1 ha).2] at hassign
      simp at hassign
    · simp at ha
  · exact hadd

theorem FreshAdd.not_about (h : FreshAdd text input actions action name) {other : String}
    (hlive : hasLabel text input.pr.labels other = true) : action.isAbout text other = false := by
  rw [isAbout_of_label h.label]
  refine Bool.eq_false_iff.2 fun hsame => ?_
  have := h.not_live
  rw [hasLabel_congr hsame, hlive] at this
  simp at this

/-- **What a settled plan has planned about a label that is on the pull request**, the manual-review
label, while nothing holds the pull request for a human. -/
theorem about_settled_iff (hname : input.labels.manualReview = some name)
    (hlive : hasLabel text input.pr.labels name = true)
    (hreason : input.manualHoldReason text = none) :
    (∃ action ∈ settledPlan text input ++ manualHoldFallback text input (settledPlan text input),
      action.actionClass = .label ∧ action.isAbout text name = true) ↔
    copycatAdds text input name = true ∨
      (input.noManualReviewHoldWanted text = true ∧
        input.manualReviewLabelAppliedSha.isSome = true) ∨
      cleanupClears text input name = true ∨
      (pendingClosureIs text input name = true ∧ input.clearLinkedIssueFlag text = true) := by
  constructor
  · rintro ⟨action, ha, hc, habout⟩
    rcases mem_append.1 ha with ha | ha
    · rcases mem_labelPlan (label_mem_settledPlan ha hc) with
        h | ⟨_, _, hs, h⟩ | h | ⟨_, h⟩ | h | h | h
      · exact Or.inl (early_about h hc habout)
      · obtain ⟨_, -, hfresh, -⟩ := mem_holdLabelStage hs h
        simp [hfresh.not_about hlive] at habout
      · obtain ⟨_, -, -, -, hno, hsha⟩ := mem_manualReviewRelease h
        exact Or.inr (Or.inl ⟨hno, hsha⟩)
      · obtain ⟨_, -, hfresh, -⟩ := mem_reviewStateLabelAdd h
        simp [hfresh.not_about hlive] at habout
      · exact Or.inr (Or.inr (Or.inl ((mem_staleDispositionCleanup_iff hlive).1
          ⟨action, h, habout⟩)))
      · obtain ⟨label, -, -, hlabel, habsent, -⟩ := mem_pendingClosureFlag h
        rw [isAbout_of_label hlabel] at habout
        rw [hasLabel_congr habout, hlive] at habsent
        simp at habsent
      · exact Or.inr (Or.inr (Or.inr (mem_pendingClosureClear_iff.1 ⟨action, h, habout⟩)))
    · obtain ⟨_, -, -, -, hsome, -⟩ := mem_manualHoldFallback ha
      simp [hreason] at hsome
  · -- Each of the four sites pushes whatever the stages before it did.
    have key : ∀ stage ∈ labelStages text input,
        (∃ action ∈ stage [], action.actionClass = .label ∧ action.isAbout text name = true) →
        (∀ acc, stage acc = stage []) →
        ∃ action ∈ settledPlan text input ++
            manualHoldFallback text input (settledPlan text input),
          action.actionClass = .label ∧ action.isAbout text name = true := by
      intro stage hs hex hconst
      obtain ⟨action, ha, h⟩ := exists_mem_accumulate (planEarly input) hs
        (P := fun action => action.actionClass = .label ∧ action.isAbout text name = true)
        fun acc _ => by rw [hconst acc]; exact hex
      exact ⟨action, mem_append_left _ (mem_settledPlan_of_label ha), h⟩
    rintro (h | ⟨hno, hsha⟩ | h | h)
    · obtain ⟨action, ha, hadd, habout⟩ := copycat_mem_labelPlan h
      simp only [isLabelAdd, Bool.and_eq_true, beq_iff_eq] at hadd
      exact ⟨action, mem_append_left _ (mem_settledPlan_of_label ha), hadd.1, habout⟩
    · refine key _ manualReviewRelease_mem_labelStages ?_ fun _ => rfl
      simp [manualReviewRelease, hname, hno, hsha, hlive, isAbout]
    · refine key _ staleDispositionCleanup_mem_labelStages ?_ fun _ => rfl
      obtain ⟨action, ha, habout⟩ := (mem_staleDispositionCleanup_iff hlive).2 h
      obtain ⟨_, -, -, hremove, -⟩ := mem_staleDispositionCleanup ha
      exact ⟨action, ha, hremove.actionClass, habout⟩
    · refine key _ pendingClosureClear_mem_labelStages ?_ fun _ => rfl
      obtain ⟨action, ha, habout⟩ := mem_pendingClosureClear_iff.2 h
      obtain ⟨_, -, hremove, -⟩ := mem_pendingClosureClear ha
      exact ⟨action, ha, hremove.actionClass, habout⟩

/-- **When the lock release fires**: the marker is set, nothing holds the pull request, the label is
on it, and no earlier stage planned anything about that label. -/
theorem lockContentionRelease_iff (hname : input.labels.manualReview = some name)
    (hlive : hasLabel text input.pr.labels name = true) :
    (∃ action, action ∈ lockContentionRelease text input
      (settledPlan text input ++ manualHoldFallback text input (settledPlan text input))) ↔
    input.manualReviewLockContentionResolved = true ∧ input.manualHoldReason text = none ∧
      copycatAdds text input name = false ∧
      ¬(input.noManualReviewHoldWanted text = true ∧
        input.manualReviewLabelAppliedSha.isSome = true) ∧
      cleanupClears text input name = false ∧
      ¬(pendingClosureIs text input name = true ∧ input.clearLinkedIssueFlag text = true) := by
  constructor
  · rintro ⟨action, ha⟩
    obtain ⟨name', hname', -, -, hlock, hreason, hnone⟩ := mem_lockContentionRelease ha
    obtain rfl : name = name' := Option.some.inj (hname.symm.trans hname')
    have hreason' : input.manualHoldReason text = none := Option.isNone_iff_eq_none.1 hreason
    have hno : ¬∃ action ∈ settledPlan text input ++
          manualHoldFallback text input (settledPlan text input),
        action.actionClass = .label ∧ action.isAbout text name = true := by
      rintro ⟨other, ho, hc, habout⟩
      simp [hnone other ho hc] at habout
    rw [about_settled_iff hname hlive hreason'] at hno
    simp only [not_or, Bool.not_eq_true] at hno
    exact ⟨hlock, hreason', hno.1, hno.2.1, hno.2.2.1, hno.2.2.2⟩
  · rintro ⟨hlock, hreason, h₁, h₂, h₃, h₄⟩
    have hno : ¬∃ action ∈ settledPlan text input ++
          manualHoldFallback text input (settledPlan text input),
        action.actionClass = .label ∧ action.isAbout text name = true := by
      rw [about_settled_iff hname hlive hreason]
      simp only [not_or, Bool.not_eq_true]
      exact ⟨h₁, h₂, h₃, h₄⟩
    have hany : ((settledPlan text input ++ manualHoldFallback text input
        (settledPlan text input)).any fun action =>
          action.actionClass == .label && action.isAbout text name) = false := by
      refine any_eq_false.2 fun action ha => ?_
      simp only [Bool.and_eq_true, beq_iff_eq]
      exact fun h => hno ⟨action, ha, h⟩
    rw [lockContentionRelease, hname]
    simp only [mem_pushWhen, hlock, hreason, hlive, hany]
    exact ⟨_, rfl, rfl⟩

/-! ## Releasing a hold -/

/-- No hold stands on the pull request and its merge is not blocked. -/
structure NothingHeld (text : Text) (input : AgentActionPlanInput) : Prop where
  notHeld : (derivePrDisposition text (input.buildPrDispositionInput text)).heldForManualReview =
    false
  noMigrationCollision : input.migrationCollisionHold = none
  noUnlinkedIssueMatch : input.unlinkedIssueMatchHold = none
  noUnlinkedIssueClose : input.unlinkedIssueMatchClose = none
  noPriorityEligibility : input.priorityEligibilityHold = none
  noScreenshotEvidence : input.screenshotEvidenceHold = none
  noAdvisoryCheck : input.advisoryCheckHold = none ∨ input.advisoryCheckHold = some []
  notBlocked : input.mergeTerminallyBlocked = false

theorem advisoryCheckHeld_eq_false_iff : input.advisoryCheckHeld = false ↔
    input.advisoryCheckHold = none ∨ input.advisoryCheckHold = some [] := by
  cases hold : input.advisoryCheckHold with
  | none => simp [AgentActionPlanInput.advisoryCheckHeld, hold]
  | some holds => simp [AgentActionPlanInput.advisoryCheckHeld, hold]

theorem nothingHeld_of_noManualReviewHoldWanted (h : input.noManualReviewHoldWanted text = true) :
    NothingHeld text input := by
  simp only [AgentActionPlanInput.noManualReviewHoldWanted, Bool.and_eq_true,
    Option.isNone_iff_eq_none, Bool.not_eq_true'] at h
  obtain ⟨⟨⟨⟨⟨⟨⟨-, hmig⟩, hunl⟩, hpri⟩, hshot⟩, hclose⟩, hheld⟩, hblocked⟩ := h
  obtain ⟨-, -, -, hadv, -⟩ := no_hold_of_not_held hheld
  exact ⟨hheld, hmig, hunl, hclose, hpri, hshot, advisoryCheckHeld_eq_false_iff.1 hadv, hblocked⟩

/-- The action takes the manual-review label off the pull request. -/
def removesManualReview (text : Text) (input : AgentActionPlanInput)
    (action : PlannedAgentAction) : Bool :=
  action.isLabelRemove && input.labels.manualReview.any fun name => action.isAbout text name

theorem removesManualReview_iff (text : Text) (action : PlannedAgentAction)
    (hname : input.labels.manualReview = some name) :
    removesManualReview text input action = true ↔
      action.isLabelRemove = true ∧ action.isAbout text name = true := by
  simp [removesManualReview, hname]

/-- A hold stands, the label is on the pull request, and one of the three sites that do not look at
every hold takes it off: the sibling cleanup or the pending-closure clear, where that label bears
the same name, or the lock release, where no hold *reason* is given. -/
structure HoldDropped (text : Text) (input : AgentActionPlanInput) (name : String) : Prop where
  reaches : reachesDisposition text input = true
  held : ¬NothingHeld text input
  configured : input.labels.manualReview = some name
  live : hasLabel text input.pr.labels name = true
  dropped : cleanupClears text input name = true ∨
    (pendingClosureIs text input name = true ∧ input.clearLinkedIssueFlag text = true) ∨
    (input.manualReviewLockContentionResolved = true ∧ input.manualHoldReason text = none ∧
      copycatAdds text input name = false)

/-- A removal of a plan comes from one of four sites. -/
theorem remove_mem_plan (h : action ∈ planAgentMaintenanceActions text input)
    (hremove : action.isLabelRemove = true) :
    reachesDisposition text input = true ∧
      (action ∈ manualReviewRelease text input [] ∨ action ∈ staleDispositionCleanup text input [] ∨
        action ∈ pendingClosureClear text input [] ∨
        action ∈ lockContentionRelease text input
          (settledPlan text input ++ manualHoldFallback text input (settledPlan text input))) := by
  have hclass : action.actionClass = .label := by
    simp only [isLabelRemove, Bool.and_eq_true, beq_iff_eq] at hremove
    exact hremove.1
  have hadd : action.isLabelAdd ≠ true := by
    simp [isLabelAdd_of_remove hremove]
  have hearly : action ∉ planEarly input := fun h => by
    rcases mem_planEarly h with ⟨hc, -⟩ | ⟨-, ha, -⟩
    · simp [hclass] at hc
    · exact hadd ha
  rcases plan_cases text input with ⟨actions, hs, hp⟩ | ⟨-, he⟩ | ⟨hr, -⟩
  · rcases (mem_planShortCircuit hs (hp ▸ h)).2.2.2 with hc | hc
    · simp [hclass] at hc
    · exact absurd hc hadd
  · exact absurd (he.subset h) hearly
  · refine ⟨hr, ?_⟩
    rcases (mem_plan_of_reaches hr).1 h with h | h | h | h | h
    · rcases mem_labelPlan h with h | ⟨_, _, hs, h⟩ | h | ⟨_, h⟩ | h | h | h
      · exact absurd h hearly
      · obtain ⟨_, -, hf, -⟩ := mem_holdLabelStage hs h
        exact absurd hf.isLabelAdd hadd
      · exact Or.inl h
      · obtain ⟨_, -, hf, -⟩ := mem_reviewStateLabelAdd h
        exact absurd hf.isLabelAdd hadd
      · exact Or.inr (Or.inl h)
      · obtain ⟨_, -, ha, -⟩ := mem_pendingClosureFlag h
        exact absurd ha hadd
      · exact Or.inr (Or.inr (Or.inl h))
    · simp [actionClass_of_mem_reviewActions h] at hclass
    · have := (dispositionAction_single text input).2 action h
      simp [isMergeOrClose, hclass] at this
    · obtain ⟨_, -, hf, -⟩ := mem_manualHoldFallback h
      exact absurd hf.isLabelAdd hadd
    · exact Or.inr (Or.inr (Or.inr h))

variable {stage : List PlannedAgentAction → List PlannedAgentAction}

/-- A removal that a label stage pushes whatever came before it is in the plan. -/
theorem mem_plan_of_labelStage (hr : reachesDisposition text input = true)
    (hs : stage ∈ labelStages text input) (h : ∀ acc, action ∈ stage acc) :
    action ∈ planAgentMaintenanceActions text input := by
  obtain ⟨found, hfound, rfl⟩ := exists_mem_accumulate (planEarly input) hs
    (P := fun found => found = action) fun acc _ => ⟨action, h acc, rfl⟩
  exact (mem_plan_of_reaches hr).2 (Or.inl hfound)

/-- Where a hold is dropped, the plan removes its label. -/
theorem HoldDropped.exists_remove (h : HoldDropped text input name) :
    ∃ action ∈ planAgentMaintenanceActions text input,
      removesManualReview text input action = true := by
  have hremoves := fun action => removesManualReview_iff text action h.configured
  by_cases hclean : cleanupClears text input name = true
  · obtain ⟨action, ha, habout⟩ := (mem_staleDispositionCleanup_iff h.live).2 hclean
    obtain ⟨_, -, -, hremove, -⟩ := mem_staleDispositionCleanup ha
    exact ⟨action, mem_plan_of_labelStage h.reaches
      staleDispositionCleanup_mem_labelStages fun _ => ha,
        (hremoves action).2 ⟨hremove.isLabelRemove, habout⟩⟩
  by_cases hclear : pendingClosureIs text input name = true ∧
      input.clearLinkedIssueFlag text = true
  · obtain ⟨action, ha, habout⟩ := mem_pendingClosureClear_iff.2 hclear
    obtain ⟨_, -, hremove, -⟩ := mem_pendingClosureClear ha
    exact ⟨action, mem_plan_of_labelStage h.reaches
      pendingClosureClear_mem_labelStages fun _ => ha,
        (hremoves action).2 ⟨hremove.isLabelRemove, habout⟩⟩
  · obtain ⟨hlock, hreason, hcopy⟩ :=
      (h.dropped.resolve_left hclean).resolve_left hclear
    have hwanted : ¬(input.noManualReviewHoldWanted text = true ∧
        input.manualReviewLabelAppliedSha.isSome = true) :=
      fun hw => h.held (nothingHeld_of_noManualReviewHoldWanted hw.1)
    obtain ⟨action, ha⟩ := (lockContentionRelease_iff h.configured h.live).2
      ⟨hlock, hreason, hcopy, hwanted, Bool.eq_false_iff.2 hclean, hclear⟩
    obtain ⟨name', hname', hremove, -⟩ := mem_lockContentionRelease ha
    obtain rfl : name = name' := Option.some.inj (h.configured.symm.trans hname')
    refine ⟨action, (mem_plan_of_reaches h.reaches).2 (Or.inr (Or.inr (Or.inr (Or.inr ha)))),
      (hremoves action).2 ⟨hremove.isLabelRemove, ?_⟩⟩
    rw [isAbout_of_label hremove.label, text.sameText_self]

/-- **Releasing a hold.** A plan takes the manual-review label off only where nothing holds the pull
request, except at the three sites that do not look at every hold. -/
theorem hold_release_iff (text : Text) (input : AgentActionPlanInput) :
    (∀ action ∈ planAgentMaintenanceActions text input,
      removesManualReview text input action = true → NothingHeld text input) ↔
    ∀ name, ¬HoldDropped text input name := by
  constructor
  · intro h name hdropped
    obtain ⟨action, ha, hremove⟩ := hdropped.exists_remove
    exact hdropped.held (h action ha hremove)
  · intro h action ha hremoves
    by_contra hheld
    simp only [removesManualReview, Bool.and_eq_true, Option.any_eq_true] at hremoves
    obtain ⟨hremove, name, hname, habout⟩ := hremoves
    obtain ⟨hr, hsite⟩ := remove_mem_plan ha hremove
    -- Whatever the site, the label it removes is on the pull request.
    have hlive : ∀ {label}, LiveRemove text input action label →
        hasLabel text input.pr.labels name = true := by
      intro label hl
      rw [isAbout_of_label hl.label] at habout
      rw [← hasLabel_congr habout]
      exact hl.live
    rcases hsite with hsite | hsite | hsite | hsite
    · obtain ⟨_, -, -, -, hno, -⟩ := mem_manualReviewRelease hsite
      exact hheld (nothingHeld_of_noManualReviewHoldWanted hno)
    · obtain ⟨_, -, -, hl, -⟩ := mem_staleDispositionCleanup hsite
      exact h name ⟨hr, hheld, hname, hlive hl,
        Or.inl ((mem_staleDispositionCleanup_iff (hlive hl)).1 ⟨action, hsite, habout⟩)⟩
    · obtain ⟨_, -, hl, -⟩ := mem_pendingClosureClear hsite
      exact h name ⟨hr, hheld, hname, hlive hl,
        Or.inr (Or.inl (mem_pendingClosureClear_iff.1 ⟨action, hsite, habout⟩))⟩
    · obtain ⟨_, -, hl, -⟩ := mem_lockContentionRelease hsite
      obtain ⟨hlock, hreason, hcopy, -⟩ :=
        (lockContentionRelease_iff hname (hlive hl)).1 ⟨action, hsite⟩
      exact h name ⟨hr, hheld, hname, hlive hl, Or.inr (Or.inr ⟨hlock, hreason, hcopy⟩)⟩

/-- A migration collision on a pull request whose lost review lock has cleared. -/
def lockClearedInput : AgentActionPlanInput :=
  { greenInput [.merge] with
    migrationCollisionHold := some
      { reason := "migration 0042 collides", comment := "Rebase onto the base branch." }
    manualReviewLockContentionResolved := true
    pr := { mergeableState := some "clean", headSha := some "abc123"
            labels := ["manual-review"] } }

theorem not_hold_release_lockCleared :
    ¬∀ action ∈ planAgentMaintenanceActions asciiText lockClearedInput,
      removesManualReview asciiText lockClearedInput action = true →
        NothingHeld asciiText lockClearedInput := by
  intro h
  have hremoved : ∃ action ∈ planAgentMaintenanceActions asciiText lockClearedInput,
      removesManualReview asciiText lockClearedInput action = true := by decide
  obtain ⟨action, ha, hremove⟩ := hremoved
  exact absurd (h action ha hremove).noMigrationCollision (by decide)

/-! ## Coherence -/

/-- The configured labels differ from one another, up to case. -/
def DistinctLabels (text : Text) (input : AgentActionPlanInput) : Prop :=
  [input.labels.manualReview, input.labels.readyToMerge, input.labels.changesRequested,
    input.labels.migrationCollision, input.labels.pendingClosure,
    resolveNullableLabel input.copycatLabel defaultCopycatLabel].Pairwise fun a b =>
      ∀ x ∈ a, ∀ y ∈ b, text.sameText x y = false

/-- Two actions that do not add the same label. -/
def DistinctAdds (text : Text) (a b : PlannedAgentAction) : Prop :=
  a.isLabelAdd = true → b.isLabelAdd = true →
    ∀ x y, a.label = some x → b.label = some y → text.sameText x y = false

/-- The action is the label coupled to a blacklist, contributor-cap or review-nag close. -/
def isEnforcementLabel (action : PlannedAgentAction) : Bool :=
  action.autonomyClass == some .close &&
    (action.closeKind == some .blacklist || action.closeKind == some .contributorCap ||
      action.closeKind == some .reviewNag)

/-- The label actions of a plan do not contradict or repeat one another. -/
structure LabelCoherent (text : Text) (input : AgentActionPlanInput)
    (plan : List PlannedAgentAction) : Prop where
  named : ∀ action ∈ plan, action.actionClass = .label → action.label.isSome = true
  noAddRemove : ∀ a ∈ plan, ∀ b ∈ plan, a.isLabelAdd = true → b.isLabelRemove = true →
    ∀ x y, a.label = some x → b.label = some y → text.sameText x y = false
  addsOnce : plan.Pairwise (DistinctAdds text)
  notCarried : ∀ action ∈ plan, action.isLabelAdd = true → isEnforcementLabel action = false →
    ∀ x ∈ input.labels.names, action.isAbout text x = true →
      hasLabel text input.pr.labels x = false
  exclusiveOnce : (plan.filter fun action => action.isLabelAdd &&
    input.labels.exclusive.any fun x => action.isAbout text x).length ≤ 1

/-- **Which label an action of a plan adds**: the copycat label, or one that is not on the pull
request and is the manual-review, the pass's own or the pending-closure label. -/
theorem add_mem_plan (hr : reachesDisposition text input = true)
    (h : action ∈ planAgentMaintenanceActions text input) (hadd : action.isLabelAdd = true) :
    ∃ label, action.label = some label ∧
      (resolveNullableLabel input.copycatLabel defaultCopycatLabel = some label ∨
        hasLabel text input.pr.labels label = false ∧
          (input.labels.manualReview = some label ∨ reviewStateLabel text input = some label ∨
            input.labels.pendingClosure = some label)) := by
  have hclass : action.actionClass = .label := by
    simp only [isLabelAdd, Bool.and_eq_true, beq_iff_eq] at hadd
    exact hadd.1
  have hremove : ∀ {label}, ¬LiveRemove text input action label := fun hl => by
    have := hl.isLabelRemove
    simp [isLabelRemove_of_add hadd] at this
  rcases (mem_plan_of_reaches hr).1 h with h | h | h | h | h
  · rcases mem_labelPlan h with h | ⟨_, _, hs, h⟩ | h | ⟨_, h⟩ | h | h | h
    · rcases mem_planEarly h with ⟨hc, -⟩ | ⟨-, -, -, -, label, hlabel, hcopy⟩
      · simp [hclass] at hc
      · exact ⟨label, hlabel, Or.inl hcopy⟩
    · obtain ⟨label, hmanual, hf, -⟩ := mem_holdLabelStage hs h
      exact ⟨label, hf.label, Or.inr ⟨hf.not_live, Or.inl hmanual⟩⟩
    · obtain ⟨_, -, hl, -⟩ := mem_manualReviewRelease h
      exact absurd hl hremove
    · obtain ⟨label, hstate, hf, -⟩ := mem_reviewStateLabelAdd h
      exact ⟨label, hf.label, Or.inr ⟨hf.not_live, Or.inr (Or.inl hstate)⟩⟩
    · obtain ⟨_, -, -, hl, -⟩ := mem_staleDispositionCleanup h
      exact absurd hl hremove
    · obtain ⟨label, hpending, -, hlabel, habsent, -⟩ := mem_pendingClosureFlag h
      exact ⟨label, hlabel, Or.inr ⟨habsent, Or.inr (Or.inr hpending)⟩⟩
    · obtain ⟨_, -, hl, -⟩ := mem_pendingClosureClear h
      exact absurd hl hremove
  · simp [actionClass_of_mem_reviewActions h] at hclass
  · have := (dispositionAction_single text input).2 action h
    simp [isMergeOrClose, hclass] at this
  · obtain ⟨label, hmanual, hf, -⟩ := mem_manualHoldFallback h
    exact ⟨label, hf.label, Or.inr ⟨hf.not_live, Or.inl hmanual⟩⟩
  · obtain ⟨_, -, hl, -⟩ := mem_lockContentionRelease h
    exact absurd hl hremove

/-- Which label an action of a plan removes: a disposition label that is on the pull request. -/
theorem remove_label_of_mem_plan (h : action ∈ planAgentMaintenanceActions text input)
    (hremove : action.isLabelRemove = true) :
    ∃ label ∈ input.labels.names, action.label = some label ∧
      hasLabel text input.pr.labels label = true := by
  obtain ⟨-, hsite⟩ := remove_mem_plan h hremove
  simp only [ResolvedAgentDispositionLabels.names, reduceOption_mem_iff]
  rcases hsite with hsite | hsite | hsite | hsite
  · obtain ⟨label, hmanual, hl, -⟩ := mem_manualReviewRelease hsite
    exact ⟨label, by simp [hmanual], hl.label, hl.live⟩
  · obtain ⟨label, hmem, -, hl, -⟩ := mem_staleDispositionCleanup hsite
    refine ⟨label, ?_, hl.label, hl.live⟩
    simp only [clearableLabels, mem_cons, not_mem_nil, or_false] at hmem
    simp only [mem_cons, not_mem_nil, or_false]
    tauto
  · obtain ⟨label, hpending, hl, -⟩ := mem_pendingClosureClear hsite
    exact ⟨label, by simp [hpending], hl.label, hl.live⟩
  · obtain ⟨label, hmanual, hl, -⟩ := mem_lockContentionRelease hsite
    exact ⟨label, by simp [hmanual], hl.label, hl.live⟩

/-- The label of a pass is one of the four disposition labels it chooses from. -/
theorem reviewStateLabel_cases (h : reviewStateLabel text input = some name) :
    some name ∈ [input.labels.changesRequested, input.labels.migrationCollision,
      input.labels.manualReview, input.labels.readyToMerge] := by
  unfold reviewStateLabel at h
  split_ifs at h <;> simp [← h]

variable {x y : String}

/-- No disposition label bears the name of the copycat label. -/
theorem DistinctLabels.copycat_ne (h : DistinctLabels text input) (hx : x ∈ input.labels.names)
    (hy : resolveNullableLabel input.copycatLabel defaultCopycatLabel = some y) :
    text.sameText x y = false := by
  simp only [ResolvedAgentDispositionLabels.names, reduceOption_mem_iff, mem_cons,
    not_mem_nil, or_false] at hx
  simp only [DistinctLabels, pairwise_cons, mem_cons, not_mem_nil, or_false,
    forall_eq_or_imp, forall_eq, Option.mem_def] at h
  rcases hx with hx | hx | hx | hx | hx
  · exact h.1.2.2.2.2 x hx.symm y hy
  · exact h.2.1.2.2.2 x hx.symm y hy
  · exact h.2.2.1.2.2 x hx.symm y hy
  · exact h.2.2.2.1.2 x hx.symm y hy
  · exact h.2.2.2.2.1 x hx.symm y hy

/-- Neither the manual-review label nor the label of a pass bears the name of the pending-closure
label. -/
theorem DistinctLabels.pendingClosure_ne (h : DistinctLabels text input)
    (hx : input.labels.manualReview = some x ∨ reviewStateLabel text input = some x)
    (hy : input.labels.pendingClosure = some y) : text.sameText x y = false := by
  have hmem : some x ∈ [input.labels.changesRequested, input.labels.migrationCollision,
      input.labels.manualReview, input.labels.readyToMerge] := by
    rcases hx with hx | hx
    · simp [hx]
    · exact reviewStateLabel_cases hx
  simp only [mem_cons, not_mem_nil, or_false] at hmem
  simp only [DistinctLabels, pairwise_cons, mem_cons, not_mem_nil, or_false,
    forall_eq_or_imp, forall_eq, Option.mem_def] at h
  rcases hmem with hx | hx | hx | hx
  · exact h.2.2.1.2.1 x hx.symm y hy
  · exact h.2.2.2.1.1 x hx.symm y hy
  · exact h.1.2.2.2.1 x hx.symm y hy
  · exact h.2.1.2.2.1 x hx.symm y hy

/-- No exclusive label bears the name of the manual-review or the pending-closure label. -/
theorem DistinctLabels.exclusive_ne (h : DistinctLabels text input)
    (hx : x ∈ input.labels.exclusive)
    (hy : input.labels.manualReview = some y ∨ input.labels.pendingClosure = some y) :
    text.sameText y x = false := by
  simp only [ResolvedAgentDispositionLabels.exclusive, reduceOption_mem_iff, mem_cons,
    not_mem_nil, or_false] at hx
  simp only [DistinctLabels, pairwise_cons, mem_cons, not_mem_nil, or_false,
    forall_eq_or_imp, forall_eq, Option.mem_def] at h
  rcases hy with hy | hy
  · rcases hx with hx | hx | hx
    · exact h.1.1 y hy x hx.symm
    · exact h.1.2.2.1 y hy x hx.symm
    · exact h.1.2.1 y hy x hx.symm
  · rw [text.sameText_comm]
    rcases hx with hx | hx | hx
    · exact h.2.1.2.2.1 x hx.symm y hy
    · exact h.2.2.2.1.1 x hx.symm y hy
    · exact h.2.2.1.2.1 x hx.symm y hy

theorem exclusive_subset_names (labels : ResolvedAgentDispositionLabels) :
    ∀ x ∈ labels.exclusive, x ∈ labels.names := by
  intro x hx
  simp only [ResolvedAgentDispositionLabels.exclusive, ResolvedAgentDispositionLabels.names,
    reduceOption_mem_iff, mem_cons, not_mem_nil, or_false] at hx ⊢
  tauto

/-! ### Adds are made once -/

/-- A fresh add differs from every add before it. -/
theorem FreshAdd.distinctAdds (h : FreshAdd text input actions action name)
    {other : PlannedAgentAction} (ho : other ∈ actions) : DistinctAdds text other action := by
  intro hadd _ x y hx hy
  obtain rfl : name = y := Option.some.inj (h.label.symm.trans hy)
  have := (hasLabelOrPlanned_eq_false.1 h.fresh).2 other ho hadd
  rwa [isAbout_of_label hx] at this

theorem DistinctAdds.of_remove {a b : PlannedAgentAction}
    (h : a.isLabelAdd = false ∨ b.isLabelAdd = false) : DistinctAdds text a b := by
  intro ha hb
  simp [ha, hb] at h

variable {pushed : List PlannedAgentAction}

/-- Appending a fresh add keeps the adds distinct. -/
theorem pairwise_append_of_fresh (input : AgentActionPlanInput)
    (hacc : actions.Pairwise (DistinctAdds text)) (hlen : pushed.length ≤ 1)
    (hfresh : ∀ action ∈ pushed, ∃ name, FreshAdd text input actions action name) :
    (actions ++ pushed).Pairwise (DistinctAdds text) := by
  refine pairwise_append.2 ⟨hacc, ?_, fun a ha b hb => ?_⟩
  · cases pushed with
    | nil => exact List.Pairwise.nil
    | cons b rest =>
      obtain rfl : rest = [] := by simpa using hlen
      exact pairwise_singleton _ b
  · obtain ⟨name, hf⟩ := hfresh b hb
    exact hf.distinctAdds ha

/-- Appending removals keeps the adds distinct. -/
theorem pairwise_append_of_removes (hacc : actions.Pairwise (DistinctAdds text))
    (hremoves : ∀ action ∈ pushed, action.isLabelAdd = false) :
    (actions ++ pushed).Pairwise (DistinctAdds text) := by
  refine pairwise_append.2 ⟨hacc, ?_, fun a _ b hb =>
    DistinctAdds.of_remove (Or.inr (hremoves b hb))⟩
  exact pairwise_iff_forall_sublist.2 fun hsub =>
    DistinctAdds.of_remove (Or.inl (hremoves _ (hsub.subset (by simp))))

theorem LiveRemove.not_add (h : LiveRemove text input action name) : action.isLabelAdd = false :=
  isLabelAdd_of_remove h.isLabelRemove

/-- Each of the stages about the manual-review and review-state labels keeps the adds distinct. -/
theorem pairwise_dispositionLabelStage (hs : stage ∈ dispositionLabelStages text input)
    (hacc : actions.Pairwise (DistinctAdds text)) :
    (actions ++ stage actions).Pairwise (DistinctAdds text) := by
  rcases dispositionLabelStage_cases hs with hs | rfl | rfl | rfl
  · refine pairwise_append_of_fresh input hacc (length_holdLabelStage_le hs)
      fun action ha => ?_
    obtain ⟨name, -, hf, -⟩ := mem_holdLabelStage hs ha
    exact ⟨name, hf⟩
  · refine pairwise_append_of_removes hacc fun action ha => ?_
    obtain ⟨_, -, hl, -⟩ := mem_manualReviewRelease ha
    exact hl.not_add
  · refine pairwise_append_of_fresh input hacc ?_ fun action ha => ?_
    · unfold reviewStateLabelAdd
      split
      · exact length_pushWhen_le _ _
      · simp
    · obtain ⟨name, -, hf, -⟩ := mem_reviewStateLabelAdd ha
      exact ⟨name, hf⟩
  · refine pairwise_append_of_removes hacc fun action ha => ?_
    obtain ⟨_, -, -, hl, -⟩ := mem_staleDispositionCleanup ha
    exact hl.not_add

theorem pairwise_planEarly : (planEarly input).Pairwise (DistinctAdds text) := by
  have hassign : ∀ action ∈ maybePlanAssign input, action.isLabelAdd = false := by
    intro action ha
    unfold maybePlanAssign at ha
    split at ha
    · rw [(mem_pushWhen.1 ha).2]
      rfl
    · simp at ha
  refine pairwise_append.2 ⟨?_, ?_, fun a ha b _ => DistinctAdds.of_remove (Or.inl (hassign a ha))⟩
  · exact pairwise_iff_forall_sublist.2 fun hsub =>
      DistinctAdds.of_remove (Or.inl (hassign _ (hsub.subset (by simp))))
  · unfold maybePlanCopycatLabel
    split
    · unfold pushWhen
      split
      · exact pairwise_singleton _ _
      · exact List.Pairwise.nil
    · exact List.Pairwise.nil

/-- An add planned before the pending-closure flag is of another label. -/
theorem DistinctLabels.add_ne_pendingClosure (h : DistinctLabels text input)
    (ha : action ∈ accumulate (dispositionLabelStages text input) (planEarly input))
    (hadd : action.isLabelAdd = true) (hx : action.label = some x)
    (hy : input.labels.pendingClosure = some y) : text.sameText x y = false := by
  have hy' : y ∈ input.labels.names := by
    simp [ResolvedAgentDispositionLabels.names, reduceOption_mem_iff, hy]
  rcases mem_accumulate.1 ha with ha | ⟨front, stage, back, hstages, ha⟩
  · rcases mem_planEarly ha with ⟨hc, -⟩ | ⟨-, -, -, -, label, hlabel, hcopy⟩
    · simp [isLabelAdd, hc] at hadd
    · obtain rfl : label = x := Option.some.inj (hlabel.symm.trans hx)
      rw [text.sameText_comm]
      exact h.copycat_ne hy' hcopy
  · have hmem : stage ∈ dispositionLabelStages text input := by rw [hstages]; simp
    rcases dispositionLabelStage_cases hmem with hs | rfl | rfl | rfl
    · obtain ⟨label, hmanual, hf, -⟩ := mem_holdLabelStage hs ha
      obtain rfl : label = x := Option.some.inj (hf.label.symm.trans hx)
      exact h.pendingClosure_ne (Or.inl hmanual) hy
    · obtain ⟨_, -, hl, -⟩ := mem_manualReviewRelease ha
      simp [hl.not_add] at hadd
    · obtain ⟨label, hstate, hf, -⟩ := mem_reviewStateLabelAdd ha
      obtain rfl : label = x := Option.some.inj (hf.label.symm.trans hx)
      exact h.pendingClosure_ne (Or.inr hstate) hy
    · obtain ⟨_, -, -, hl, -⟩ := mem_staleDispositionCleanup ha
      simp [hl.not_add] at hadd

/-- **The label stages add no label twice.** -/
theorem DistinctLabels.pairwise_labelPlan (h : DistinctLabels text input) :
    (labelPlan text input).Pairwise (DistinctAdds text) := by
  have hfront : (accumulate (dispositionLabelStages text input) (planEarly input)).Pairwise
      (DistinctAdds text) :=
    accumulate_induction pairwise_planEarly fun stage hs acc hacc =>
      pairwise_dispositionLabelStage hs hacc
  rw [labelPlan, labelStages, accumulate_append, accumulate_cons, accumulate_cons, accumulate_nil]
  refine pairwise_append_of_removes (pairwise_append.2 ⟨hfront, ?_, ?_⟩) fun action ha => ?_
  · unfold pendingClosureFlag
    split
    · dsimp only
      unfold pushWhen
      split
      · exact pairwise_singleton _ _
      · exact List.Pairwise.nil
    · exact List.Pairwise.nil
  · intro a ha b hb haadd _ x y hx hy
    obtain ⟨label, hpending, -, hlabel, -⟩ := mem_pendingClosureFlag hb
    obtain rfl : label = y := Option.some.inj (hlabel.symm.trans hy)
    exact h.add_ne_pendingClosure ha haadd hx hpending
  · obtain ⟨_, -, hl, -⟩ := mem_pendingClosureClear ha
    exact hl.not_add

/-- **A plan that reaches the disposition adds no label twice.** -/
theorem DistinctLabels.pairwise_plan (h : DistinctLabels text input)
    (hr : reachesDisposition text input = true) :
    (planAgentMaintenanceActions text input).Pairwise (DistinctAdds text) := by
  have hsettled : (settledPlan text input).Pairwise (DistinctAdds text) := by
    refine pairwise_append_of_removes (pairwise_append_of_removes h.pairwise_labelPlan ?_) ?_
    · intro action ha
      simp [isLabelAdd, actionClass_of_mem_reviewActions ha]
    · intro action ha
      have := (dispositionAction_single text input).2 action ha
      simp only [isMergeOrClose, Bool.or_eq_true, beq_iff_eq] at this
      rcases this with hc | hc <;> simp [isLabelAdd, hc]
  rw [plan_eq_of_reaches hr]
  refine pairwise_append_of_removes (pairwise_append_of_fresh input hsettled ?_ ?_) ?_
  · unfold manualHoldFallback
    split
    · exact length_pushWhen_le _ _
    · simp
  · intro action ha
    obtain ⟨name, -, hf, -⟩ := mem_manualHoldFallback ha
    exact ⟨name, hf⟩
  · intro action ha
    obtain ⟨_, -, hl, -⟩ := mem_lockContentionRelease ha
    exact hl.not_add

/-! ### The whole plan -/

theorem label_add_or_remove (h : action.actionClass = .label) :
    action.isLabelAdd = true ∨ action.isLabelRemove = true := by
  by_cases hop : action.labelOp = some .remove
  · exact Or.inr (by simp [isLabelRemove, h, hop])
  · exact Or.inl (by simp [isLabelAdd, h, hop])

/-- A list with distinct adds holds at most one add of one given label. -/
theorem length_filter_le_one {p : PlannedAgentAction → Bool}
    (hpair : actions.Pairwise (DistinctAdds text))
    (hp : ∀ action ∈ actions, p action = true →
      action.isLabelAdd = true ∧ action.label = some name) :
    (actions.filter p).length ≤ 1 := by
  have hall : ∀ action ∈ actions.filter p, action.isLabelAdd = true ∧ action.label = some name :=
    fun action ha => hp action (mem_filter.1 ha).1 (mem_filter.1 ha).2
  have hpair' := hpair.filter p
  cases hf : actions.filter p with
  | nil => simp
  | cons a rest =>
    cases rest with
    | nil => simp
    | cons b rest =>
      rw [hf] at hall hpair'
      obtain ⟨haadd, halabel⟩ := hall a (by simp)
      obtain ⟨hbadd, hblabel⟩ := hall b (by simp)
      have hab := (pairwise_cons.1 hpair').1 b (by simp) haadd hbadd name name halabel hblabel
      simp at hab

/-- The exclusive label a plan adds is the label of its pass. -/
theorem DistinctLabels.exclusive_add (h : DistinctLabels text input)
    (hr : reachesDisposition text input = true)
    (ha : action ∈ planAgentMaintenanceActions text input) (hadd : action.isLabelAdd = true)
    {x : String} (hx : x ∈ input.labels.exclusive) (habout : action.isAbout text x = true) :
    action.label = reviewStateLabel text input := by
  obtain ⟨label, hlabel, hcases⟩ := add_mem_plan hr ha hadd
  rw [isAbout_of_label hlabel] at habout
  rcases hcases with hcopy | ⟨-, hmanual | hstate | hpending⟩
  · have := h.copycat_ne (exclusive_subset_names _ x hx) hcopy
    rw [text.sameText_comm, habout] at this
    simp at this
  · simp [h.exclusive_ne hx (Or.inl hmanual)] at habout
  · rw [hlabel, hstate]
  · simp [h.exclusive_ne hx (Or.inr hpending)] at habout

theorem labelCoherent_of_reaches (h : DistinctLabels text input)
    (hr : reachesDisposition text input = true) :
    LabelCoherent text input (planAgentMaintenanceActions text input) where
  named action ha hc := by
    rcases label_add_or_remove hc with hadd | hremove
    · obtain ⟨label, hlabel, -⟩ := add_mem_plan hr ha hadd
      simp [hlabel]
    · obtain ⟨label, -, hlabel, -⟩ := remove_label_of_mem_plan ha hremove
      simp [hlabel]
  noAddRemove a ha b hb hadd hremove x y hx hy := by
    obtain ⟨removed, hmem, hremoved, hlive⟩ := remove_label_of_mem_plan hb hremove
    obtain rfl : removed = y := Option.some.inj (hremoved.symm.trans hy)
    obtain ⟨label, hlabel, hcases⟩ := add_mem_plan hr ha hadd
    obtain rfl : label = x := Option.some.inj (hlabel.symm.trans hx)
    rcases hcases with hcopy | ⟨habsent, -⟩
    · rw [text.sameText_comm]
      exact h.copycat_ne hmem hcopy
    · refine Bool.eq_false_iff.2 fun hsame => ?_
      rw [hasLabel_congr hsame, hlive] at habsent
      simp at habsent
  addsOnce := h.pairwise_plan hr
  notCarried action ha hadd _ x hx habout := by
    obtain ⟨label, hlabel, hcases⟩ := add_mem_plan hr ha hadd
    rw [isAbout_of_label hlabel] at habout
    rcases hcases with hcopy | ⟨habsent, -⟩
    · have := h.copycat_ne hx hcopy
      rw [text.sameText_comm, habout] at this
      simp at this
    · rwa [hasLabel_congr habout] at habsent
  exclusiveOnce := by
    have hadds : ∀ action ∈ planAgentMaintenanceActions text input,
        (action.isLabelAdd && input.labels.exclusive.any fun x => action.isAbout text x) = true →
        action.isLabelAdd = true ∧ action.label = reviewStateLabel text input := by
      intro action ha hp
      simp only [Bool.and_eq_true, any_eq_true] at hp
      obtain ⟨hadd, x, hx, habout⟩ := hp
      exact ⟨hadd, h.exclusive_add hr ha hadd hx habout⟩
    cases hstate : reviewStateLabel text input with
    | some state => exact length_filter_le_one (h.pairwise_plan hr) (hstate ▸ hadds)
    | none =>
      -- A pass without a label adds no exclusive one.
      rw [filter_eq_nil_iff.2 fun action ha hp => ?_]
      · simp
      · obtain ⟨hadd, hlabel⟩ := hadds action ha hp
        obtain ⟨label, hsome, -⟩ := add_mem_plan hr ha hadd
        simp [hsome, hstate] at hlabel

/-- With one add at most and nothing removed, coherence is about that add alone. -/
theorem labelCoherent_of_single_add (hadds : (actions.filter (·.isLabelAdd)).length ≤ 1)
    (hlabel : ∀ action ∈ actions, action.actionClass = .label →
      action.isLabelAdd = true ∧ action.label.isSome = true)
    (hcarried : ∀ action ∈ actions, action.isLabelAdd = true → isEnforcementLabel action = false →
      ∀ x ∈ input.labels.names, action.isAbout text x = false) :
    LabelCoherent text input actions where
  named action ha hc := (hlabel action ha hc).2
  noAddRemove a _ b hb _ hremove := by
    have hc : b.actionClass = .label := by
      simp only [isLabelRemove, Bool.and_eq_true, beq_iff_eq] at hremove
      exact hremove.1
    simp [isLabelRemove_of_add (hlabel b hb hc).1] at hremove
  addsOnce := by
    refine pairwise_iff_forall_sublist.2 fun {a b} hsub ha hb => ?_
    have hlen := (hsub.filter (·.isLabelAdd)).length_le
    simp only [filter_cons, ha, hb, if_true, filter_nil, length_cons, length_nil] at hlen
    omega
  notCarried action ha hadd hnot x hx habout := by
    simp [hcarried action ha hadd hnot x hx] at habout
  exclusiveOnce := by
    refine Nat.le_trans (List.Sublist.length_le ?_) hadds
    exact monotone_filter_right _ fun action hp => by
      rw [Bool.and_eq_true] at hp
      exact hp.1

theorem labelCoherent_of_early (h : DistinctLabels text input)
    (hsub : actions.Sublist (planEarly input)) : LabelCoherent text input actions := by
  have hadds : ((planEarly input).filter (·.isLabelAdd)).length ≤ 1 := by
    have hassign : (maybePlanAssign input).filter (·.isLabelAdd) = [] := by
      unfold maybePlanAssign
      split
      · cases input.acting .assign <;> rfl
      · rfl
    rw [planEarly, filter_append, hassign, nil_append]
    unfold maybePlanCopycatLabel
    split
    · rw [filter_pushWhen]
      exact length_pushWhen_le _ _
    · simp
  refine labelCoherent_of_single_add
    (Nat.le_trans (hsub.filter _).length_le hadds) ?_ ?_
  · intro action ha hc
    rcases mem_planEarly (hsub.subset ha) with ⟨hassign, -⟩ | ⟨-, hadd, -, -, label, hlabel, -⟩
    · simp [hc] at hassign
    · simp [hadd, hlabel]
  · intro action ha hadd _ x hx
    rcases mem_planEarly (hsub.subset ha) with ⟨hassign, -⟩ | ⟨-, -, -, -, label, hlabel, hcopy⟩
    · simp [isLabelAdd, hassign] at hadd
    · rw [isAbout_of_label hlabel, text.sameText_comm]
      exact h.copycat_ne hx hcopy

theorem labelCoherent_of_shortCircuit (h : DistinctLabels text input)
    (hs : planShortCircuit text input = some actions) : LabelCoherent text input actions := by
  have hsingle : ∀ reason comment kind label,
      actions = shortCircuitClose text input reason comment kind label →
      ((kind = .blacklist ∨ kind = .contributorCap ∨ kind = .reviewNag) ∨
        ∀ name, label = some name → ∀ x ∈ input.labels.names, text.sameText name x = false) →
      LabelCoherent text input actions := by
    rintro reason comment kind label rfl hkind
    rcases shortCircuitClose_cases text input reason comment kind label with
      he | ⟨-, close, coupled, he, hclose, -, -, rfl |
        ⟨added, name, rfl, hname, hc, hg, -, hk, hl, ho⟩⟩
    · rw [he]
      exact labelCoherent_of_single_add (by simp) (by simp) (by simp)
    · have hno : close.isLabelAdd = false := by simp [isLabelAdd, hclose]
      rw [he]
      refine labelCoherent_of_single_add (by simp [hno]) ?_ ?_
      · intro action ha hlabel
        obtain rfl := mem_singleton.1 ha
        simp [hclose] at hlabel
      · intro action ha hadd
        obtain rfl := mem_singleton.1 ha
        simp [hno] at hadd
    · have hno : close.isLabelAdd = false := by simp [isLabelAdd, hclose]
      have hyes : added.isLabelAdd = true := by simp [isLabelAdd, hc, ho]
      rw [he]
      refine labelCoherent_of_single_add (by simp [hno, hyes]) ?_ ?_
      · intro action ha hlabel
        rcases mem_pair.1 ha with rfl | rfl
        · simp [hclose] at hlabel
        · simp [hyes, hl]
      · intro action ha hadd hnot x hx
        rcases mem_pair.1 ha with rfl | rfl
        · simp [hno] at hadd
        · rw [isAbout_of_label hl]
          rcases hkind with hkind | hne
          · rcases hkind with rfl | rfl | rfl <;> simp [isEnforcementLabel, hg, hk] at hnot
          · exact hne name hname x hx
  obtain ⟨-, ⟨rfl, -⟩ | ⟨reason, comment, kind, label, he, hkind⟩⟩ := planShortCircuit_cases hs
  · exact labelCoherent_of_single_add (by simp) (by simp) (by simp)
  · refine hsingle reason comment kind label he ?_
    rcases hkind with hk | hk | hk | ⟨-, -, hcopy⟩ | ⟨-, -, rfl⟩
    · exact Or.inl (Or.inl hk.1)
    · exact Or.inl (Or.inr (Or.inl hk.1))
    · exact Or.inl (Or.inr (Or.inr hk.1))
    · refine Or.inr fun name hname x hx => ?_
      rw [text.sameText_comm]
      exact h.copycat_ne hx (hcopy.symm.trans hname)
    · exact Or.inr (by simp)

/-- **Label coherence.** With distinct label names, the label actions of every plan are coherent. -/
theorem label_coherent (h : DistinctLabels text input) :
    LabelCoherent text input (planAgentMaintenanceActions text input) := by
  rcases plan_cases text input with ⟨actions, hs, hp⟩ | ⟨-, hearly⟩ | ⟨hr, -⟩
  · rw [hp]
    exact labelCoherent_of_shortCircuit h hs
  · exact labelCoherent_of_early h hearly
  · exact labelCoherent_of_reaches h hr

theorem label_coherent_green :
    DistinctLabels asciiText (greenInput [.merge, .reviewStateLabel]) ∧
      LabelCoherent asciiText (greenInput [.merge, .reviewStateLabel])
        (planAgentMaintenanceActions asciiText (greenInput [.merge, .reviewStateLabel])) := by
  have hdistinct : DistinctLabels asciiText (greenInput [.merge, .reviewStateLabel]) := by
    unfold DistinctLabels
    decide
  exact ⟨hdistinct, label_coherent hdistinct⟩

/-- A blacklisted author, where the blacklist label bears the name of the manual-review label and is
already on the pull request. -/
def relabelledInput : AgentActionPlanInput :=
  { greenInput [.close] with
    blacklistMatched := true
    blacklistLabel := some (some "manual-review")
    pr := { mergeableState := some "clean", labels := ["manual-review"] } }

theorem not_label_coherent_relabelled :
    DistinctLabels asciiText relabelledInput ∧
      ¬∀ action ∈ planAgentMaintenanceActions asciiText relabelledInput,
        action.isLabelAdd = true → ∀ x ∈ relabelledInput.labels.names,
          action.isAbout asciiText x = true →
            hasLabel asciiText relabelledInput.pr.labels x = false := by
  refine ⟨?_, by decide⟩
  unfold DistinctLabels
  decide

end LoopOver
