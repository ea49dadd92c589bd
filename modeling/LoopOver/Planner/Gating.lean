import LoopOver.Planner.Labels

/-!
# Autonomy gating

The contract of the planner is that every planned action is filtered to a class that acts. Every
action names the class that authorized it, and asks for an approval exactly when that class does.
That the class acts is tested at all push sites but three: the release of the planner's own hold,
the fallback hold and the lock release. `autonomy_gated_iff` says exactly when one of these three
breaks the contract.
-/

namespace LoopOver

open List

variable {text : Text} {input : AgentActionPlanInput} {action : PlannedAgentAction} {name : String}

/-! ## Governing classes -/

/-- The action is governed by a class that acts. -/
structure Authorized (input : AgentActionPlanInput) (action : PlannedAgentAction) : Prop where
  acting : isActingAutonomyLevel (resolveAutonomy input.autonomy action.governingClass) = true
  requiresApproval : action.requiresApproval =
    autonomyRequiresApproval (resolveAutonomy input.autonomy action.governingClass)

variable {actionClass : AgentActionClass}

theorem GovernedBy.requiresApproval_eq
    (h : GovernedBy input action actionClass) : action.requiresApproval =
      autonomyRequiresApproval (resolveAutonomy input.autonomy action.governingClass) := by
  rw [h.requiresApproval, h.governingClass]
  rfl

theorem GovernedBy.authorized
    (h : GovernedBy input action actionClass) (hacting : input.acting actionClass = true) :
    Authorized input action := by
  refine ⟨?_, h.requiresApproval_eq⟩
  rw [h.governingClass]
  exact hacting

theorem GovernedBy.not_authorized
    (h : GovernedBy input action actionClass) (hacting : input.acting actionClass = false) :
    ¬Authorized input action := by
  intro ha
  have := ha.acting
  rw [h.governingClass] at this
  change input.acting actionClass = true at this
  simp [hacting] at this

theorem authorized_of_mem_planEarly (h : action ∈ planEarly input) : Authorized input action := by
  rcases mem_planEarly h with ⟨-, hg, hacting⟩ | ⟨-, -, hg, hacting, -⟩
  · exact hg.authorized hacting
  · exact hg.authorized hacting

theorem authorized_of_mem_reviewActions (h : action ∈ reviewActions text input []) :
    Authorized input action := by
  unfold reviewActions at h
  split at h
  next happroves =>
    obtain rfl := mem_singleton.1 h
    simp only [approves, Bool.and_eq_true] at happroves
    exact GovernedBy.authorized ⟨rfl, rfl⟩ happroves.1.1.2
  next =>
    rw [mem_pushWhen] at h
    obtain ⟨hretracts, rfl⟩ := h
    simp only [retractsApproval, Bool.and_eq_true] at hretracts
    exact GovernedBy.authorized ⟨rfl, rfl⟩ hretracts.1.1.1.2

theorem authorized_of_mem_dispositionAction (h : action ∈ dispositionAction text input []) :
    Authorized input action := by
  have hclose : (∃ action ∈ dispositionAction text input [], action.actionClass = .close) →
      input.acting .close = true := fun h => (close_mem_dispositionAction.1 h).2.1
  rcases dispositionAction_cases text input with
    ⟨-, hd⟩ | ⟨-, -, hd⟩ | ⟨-, -, -, close, hd⟩ | ⟨-, -, hcan, hd⟩ | ⟨-, -, -, -, hd⟩ |
      ⟨-, -, -, -, hd⟩ <;> rw [hd] at h hclose
  · simp at h
  · obtain rfl := mem_singleton.1 h
    exact GovernedBy.authorized ⟨rfl, rfl⟩ (hclose ⟨_, h, rfl⟩)
  · obtain rfl := mem_singleton.1 h
    exact GovernedBy.authorized ⟨rfl, rfl⟩ (hclose ⟨_, h, rfl⟩)
  · obtain rfl := mem_singleton.1 h
    exact GovernedBy.authorized ⟨rfl, rfl⟩ (canMerge_iff.1 hcan).2.1
  · obtain rfl := mem_singleton.1 h
    exact GovernedBy.authorized ⟨rfl, rfl⟩ (hclose ⟨_, h, rfl⟩)
  · simp at h

/-- **Which actions of a plan are not authorized**: those of the three sites that do not ask. -/
theorem not_authorized_cases (h : action ∈ planAgentMaintenanceActions text input)
    (hnot : ¬Authorized input action) :
    reachesDisposition text input = true ∧
      ((action ∈ manualReviewRelease text input [] ∧ input.acting .merge = false) ∨
      (action ∈ manualHoldFallback text input (settledPlan text input) ∧
        input.acting (manualHoldAutonomyClass input) = false) ∨
      (action ∈ lockContentionRelease text input
          (settledPlan text input ++ manualHoldFallback text input (settledPlan text input)) ∧
        input.acting (manualHoldAutonomyClass input) = false)) := by
  have hacting : ∀ {actionClass}, GovernedBy input action actionClass →
      input.acting actionClass = false := fun hg =>
    Bool.eq_false_iff.2 fun hact => hnot (hg.authorized hact)
  rcases plan_cases text input with ⟨actions, hs, hp⟩ | ⟨-, hearly⟩ | ⟨hr, -⟩
  · obtain ⟨hact, hg, hra, -⟩ := mem_planShortCircuit hs (hp ▸ h)
    exact absurd (GovernedBy.authorized ⟨hg, hra⟩ hact) hnot
  · exact absurd (authorized_of_mem_planEarly (hearly.subset h)) hnot
  · refine ⟨hr, ?_⟩
    rcases (mem_plan_of_reaches hr).1 h with h | h | h | h | h
    · rcases mem_labelPlan h with h | ⟨_, _, hs, h⟩ | h | ⟨_, h⟩ | h | h | h
      · exact absurd (authorized_of_mem_planEarly h) hnot
      · obtain ⟨_, -, -, hg, hact, -⟩ := mem_holdLabelStage hs h
        exact absurd (hg.authorized hact) hnot
      · obtain ⟨_, -, -, hg, -⟩ := mem_manualReviewRelease h
        exact Or.inl ⟨h, hacting hg⟩
      · obtain ⟨_, -, -, hg, hact⟩ := mem_reviewStateLabelAdd h
        exact absurd (hg.authorized hact) hnot
      · obtain ⟨_, -, -, -, hg, hact⟩ := mem_staleDispositionCleanup h
        exact absurd (hg.authorized hact) hnot
      · obtain ⟨_, -, -, -, -, hg, hact, -⟩ := mem_pendingClosureFlag h
        exact absurd (hg.authorized hact) hnot
      · obtain ⟨_, -, -, hg, hact, -⟩ := mem_pendingClosureClear h
        exact absurd (hg.authorized hact) hnot
    · exact absurd (authorized_of_mem_reviewActions h) hnot
    · exact absurd (authorized_of_mem_dispositionAction h) hnot
    · obtain ⟨_, -, -, hg, -⟩ := mem_manualHoldFallback h
      exact Or.inr (Or.inl ⟨h, hacting hg⟩)
    · obtain ⟨_, -, -, hg, -⟩ := mem_lockContentionRelease h
      exact Or.inr (Or.inr ⟨h, hacting hg⟩)

/-! ## When the fallback hold fires unauthorized -/

/-- **What a settled plan adds about a label that is not on the pull request**, where no hold label
is authorized by `merge`. -/
theorem add_about_settled_iff (habsent : hasLabel text input.pr.labels name = false)
    (hmerge : input.reviewGood = true → input.acting .merge = false) :
    (∃ action ∈ settledPlan text input,
      action.isLabelAdd = true ∧ action.isAbout text name = true) ↔
    copycatAdds text input name = true ∨ stateLabelIs text input name = true ∨
      (pendingClosureIs text input name = true ∧ input.flagForLinkedIssue text = true) := by
  constructor
  · rintro ⟨action, ha, hadd, habout⟩
    have hclass : action.actionClass = .label := by
      simp only [PlannedAgentAction.isLabelAdd, Bool.and_eq_true, beq_iff_eq] at hadd
      exact hadd.1
    rcases mem_labelPlan (label_mem_settledPlan ha hclass) with
      h | ⟨_, _, hs, h⟩ | h | ⟨_, h⟩ | h | h | h
    · exact Or.inl (early_about h hclass habout)
    · obtain ⟨_, -, -, -, hact, hgood, -⟩ := mem_holdLabelStage hs h
      simp [hmerge hgood] at hact
    · obtain ⟨_, -, hl, -⟩ := mem_manualReviewRelease h
      simp [hl.not_add] at hadd
    · obtain ⟨label, hstate, hf, -, hact⟩ := mem_reviewStateLabelAdd h
      rw [PlannedAgentAction.isAbout_of_label hf.label] at habout
      exact Or.inr (Or.inl (by simp [stateLabelIs, hstate, hact, habout]))
    · obtain ⟨_, -, -, hl, -⟩ := mem_staleDispositionCleanup h
      simp [hl.not_add] at hadd
    · exact Or.inr (Or.inr (mem_pendingClosureFlag_iff.1 ⟨action, h, habout⟩))
    · obtain ⟨_, -, hl, -⟩ := mem_pendingClosureClear h
      simp [hl.not_add] at hadd
  · have key : ∀ {P : PlannedAgentAction → Prop}, (∃ action ∈ labelPlan text input, P action) →
        ∃ action ∈ settledPlan text input, P action := by
      rintro P ⟨action, ha, hP⟩
      exact ⟨action, mem_settledPlan_of_label ha, hP⟩
    rintro (h | h | h)
    · exact key (copycat_mem_labelPlan h)
    · simp only [stateLabelIs, Bool.and_eq_true, Option.any_eq_true] at h
      obtain ⟨hact, label, hstate, hsame⟩ := h
      -- The stage pushes its label unless an add of the same name is there already.
      refine key (exists_mem_accumulate _ reviewStateLabelAdd_mem_labelStages
        fun acc hnone => ?_)
      have hfresh : hasLabelOrPlanned text input.pr.labels acc label = false := by
        refine hasLabelOrPlanned_eq_false.2 ⟨by rw [hasLabel_congr hsame]; exact habsent, ?_⟩
        intro other ho hadd
        rw [PlannedAgentAction.isAbout_congr hsame]
        exact Bool.eq_false_iff.2 fun habout => hnone other ho ⟨hadd, habout⟩
      refine ⟨_, by rw [reviewStateLabelAdd, hstate]; simp only [mem_pushWhen, hact, hfresh]; exact
        ⟨rfl, rfl⟩, rfl, ?_⟩
      rw [PlannedAgentAction.isAbout_of_label rfl]
      exact hsame
    · obtain ⟨action, ha, habout⟩ := mem_pendingClosureFlag_iff.2 h
      obtain ⟨_, -, hadd, -⟩ := mem_pendingClosureFlag ha
      exact key (exists_mem_accumulate _ pendingClosureFlag_mem_labelStages
        fun _ _ => ⟨action, ha, hadd, habout⟩)

/-- A settled plan merges or closes when its disposition does. -/
theorem any_isMergeOrClose_settled :
    ((settledPlan text input).any fun action => action.isMergeOrClose) =
      !(dispositionAction text input []).isEmpty := by
  rw [Bool.eq_iff_iff, any_eq_true]
  constructor
  · rintro ⟨action, ha, hmc⟩
    simp only [settledPlan, mem_append] at ha
    rcases ha with (ha | ha) | ha
    · rcases actionClass_of_mem_labelPlan ha with hc | hc <;>
        simp [PlannedAgentAction.isMergeOrClose, hc] at hmc
    · simp [PlannedAgentAction.isMergeOrClose, actionClass_of_mem_reviewActions ha] at hmc
    · have := ne_nil_of_mem ha
      simpa using this
  · intro h
    obtain ⟨action, ha⟩ := exists_mem_of_ne_nil _ (by simpa using h)
    exact ⟨action, mem_append_right _ ha, (dispositionAction_single text input).2 action ha⟩

/-- Where the class of the fallback hold does not act, the disposition does not merge. -/
theorem not_canMerge_of_not_acting
    (hacting : input.acting (manualHoldAutonomyClass input) = false) :
    input.canMerge text = false := by
  refine Bool.eq_false_iff.2 fun hcan => ?_
  obtain ⟨hwould, hmerge, -⟩ := canMerge_iff.1 hcan
  obtain ⟨hgood, -⟩ := disposition_wouldMerge_iff.1 hwould
  simp [manualHoldAutonomyClass, hgood, hmerge] at hacting

/-- There, a disposition is a close. -/
theorem dispositionAction_isEmpty_iff
    (hacting : input.acting (manualHoldAutonomyClass input) = false) :
    (dispositionAction text input []).isEmpty = true ↔
      ¬(input.closeEligible = true ∧ input.acting .close = true ∧
        input.flagForLinkedIssue text = false ∧ closeSignal text input = true) := by
  rw [← close_mem_dispositionAction, List.isEmpty_iff]
  constructor
  · rintro hnil ⟨action, ha, -⟩
    simp [hnil] at ha
  · intro hno
    by_contra hne
    obtain ⟨action, ha⟩ := exists_mem_of_ne_nil _ hne
    have hmc := (dispositionAction_single text input).2 action ha
    simp only [PlannedAgentAction.isMergeOrClose, Bool.or_eq_true, beq_iff_eq] at hmc
    rcases hmc with hm | hc
    · have hcan := (merge_mem_dispositionAction ha hm).2.2
      simp [not_canMerge_of_not_acting hacting] at hcan
    · exact hno ⟨action, ha, hc⟩

/-! ## The three sites -/

/-- The release of the planner's own hold, with `merge` not acting. -/
structure UngatedRelease (text : Text) (input : AgentActionPlanInput) (name : String) : Prop where
  notActing : input.acting .merge = false
  configured : input.labels.manualReview = some name
  live : hasLabel text input.pr.labels name = true
  noHoldWanted : input.noManualReviewHoldWanted text = true
  applied : input.manualReviewLabelAppliedSha.isSome = true

/-- The fallback hold, with its class not acting: a hold reason, no close, and no other stage that
adds the label. -/
structure UngatedFallback (text : Text) (input : AgentActionPlanInput) (name : String) : Prop where
  notActing : input.acting (manualHoldAutonomyClass input) = false
  configured : input.labels.manualReview = some name
  absent : hasLabel text input.pr.labels name = false
  holdReason : (input.manualHoldReason text).isSome = true
  noClose : ¬(input.closeEligible = true ∧ input.acting .close = true ∧
    input.flagForLinkedIssue text = false ∧ closeSignal text input = true)
  noCopycat : copycatAdds text input name = false
  noStateLabel : stateLabelIs text input name = false
  noFlag : ¬(pendingClosureIs text input name = true ∧ input.flagForLinkedIssue text = true)

/-- The release of a lost lock's hold, with its class not acting: no hold reason, and no other stage
that plans anything about the label. -/
structure UngatedLockRelease (text : Text) (input : AgentActionPlanInput) (name : String) :
    Prop where
  notActing : input.acting (manualHoldAutonomyClass input) = false
  configured : input.labels.manualReview = some name
  live : hasLabel text input.pr.labels name = true
  resolved : input.manualReviewLockContentionResolved = true
  noReason : input.manualHoldReason text = none
  noCopycat : copycatAdds text input name = false
  noRelease : ¬(input.noManualReviewHoldWanted text = true ∧
    input.manualReviewLabelAppliedSha.isSome = true)
  noCleanup : cleanupClears text input name = false
  noClear : ¬(pendingClosureIs text input name = true ∧ input.clearLinkedIssueFlag text = true)

theorem merge_not_acting_of_fallback
    (hacting : input.acting (manualHoldAutonomyClass input) = false) :
    input.reviewGood = true → input.acting .merge = false := by
  intro hgood
  simpa [manualHoldAutonomyClass, hgood] using hacting

/-- The fallback hold fires unauthorized exactly under `UngatedFallback`. -/
theorem manualHoldFallback_iff (hname : input.labels.manualReview = some name)
    (hacting : input.acting (manualHoldAutonomyClass input) = false) :
    (∃ action, action ∈ manualHoldFallback text input (settledPlan text input)) ↔
      UngatedFallback text input name := by
  have hplanned : hasLabel text input.pr.labels name = false →
      (hasLabelOrPlanned text input.pr.labels (settledPlan text input) name = false ↔
        copycatAdds text input name = false ∧ stateLabelIs text input name = false ∧
        ¬(pendingClosureIs text input name = true ∧ input.flagForLinkedIssue text = true)) := by
    intro habsent
    have hiff := not_congr (add_about_settled_iff habsent (merge_not_acting_of_fallback hacting))
    simp only [not_or, Bool.not_eq_true] at hiff
    rw [hasLabelOrPlanned_eq_false, ← hiff]
    simp [habsent]
  constructor
  · rintro ⟨action, ha⟩
    obtain ⟨name', hname', hf, -, hreason, hnone⟩ := mem_manualHoldFallback ha
    obtain rfl : name = name' := Option.some.inj (hname.symm.trans hname')
    obtain ⟨h₁, h₂, h₃⟩ := (hplanned hf.not_live).1 hf.fresh
    refine ⟨hacting, hname, hf.not_live, hreason, ?_, h₁, h₂, h₃⟩
    refine (dispositionAction_isEmpty_iff hacting).1 ?_
    simpa [any_isMergeOrClose_settled] using hnone
  · intro h
    obtain ⟨reason, hreason⟩ := Option.isSome_iff_exists.1 h.holdReason
    have hfresh := (hplanned h.absent).2 ⟨h.noCopycat, h.noStateLabel, h.noFlag⟩
    have hnone : ((settledPlan text input).any fun action => action.isMergeOrClose) = false := by
      rw [any_isMergeOrClose_settled, (dispositionAction_isEmpty_iff hacting).2 h.noClose]
      rfl
    rw [manualHoldFallback, hreason, hname]
    simp only [mem_pushWhen, hnone, hfresh]
    exact ⟨_, rfl, rfl⟩

/-- Every planned action is governed by a class that acts, and a repository in which no class acts
is left alone. -/
structure AutonomyGated (text : Text) (input : AgentActionPlanInput) : Prop where
  authorized : ∀ action ∈ planAgentMaintenanceActions text input, Authorized input action
  quiescent : (∀ actionClass,
      isActingAutonomyLevel (resolveAutonomy input.autonomy actionClass) = false) →
    planAgentMaintenanceActions text input = []

theorem autonomyGated_iff_authorized : AutonomyGated text input ↔
    ∀ action ∈ planAgentMaintenanceActions text input, Authorized input action := by
  refine ⟨fun h => h.authorized, fun h => ⟨h, fun hnone => ?_⟩⟩
  refine eq_nil_iff_forall_not_mem.2 fun action ha => ?_
  have := (h action ha).acting
  rw [hnone] at this
  simp at this

/-- **Autonomy gating.** Every planned action is governed by a class that acts, unless the plan
reaches the disposition and one of the three unguarded sites fires with its class not acting. -/
theorem autonomy_gated_iff (text : Text) (input : AgentActionPlanInput) :
    AutonomyGated text input ↔
      ¬(reachesDisposition text input = true ∧ ∃ name, UngatedRelease text input name ∨
        UngatedFallback text input name ∨ UngatedLockRelease text input name) := by
  rw [autonomyGated_iff_authorized]
  constructor
  · rintro h ⟨hr, name, hsite | hsite | hsite⟩
    · have hmem : ∃ action, action ∈ manualReviewRelease text input [] := by
        simp [manualReviewRelease, hsite.configured, hsite.live, hsite.noHoldWanted, hsite.applied]
      obtain ⟨action, ha⟩ := hmem
      obtain ⟨_, -, -, hg, -⟩ := mem_manualReviewRelease ha
      refine hg.not_authorized hsite.notActing (h action (mem_plan_of_labelStage hr
        manualReviewRelease_mem_labelStages fun _ => ha))
    · obtain ⟨action, ha⟩ := (manualHoldFallback_iff hsite.configured hsite.notActing).2 hsite
      obtain ⟨_, -, -, hg, -⟩ := mem_manualHoldFallback ha
      exact hg.not_authorized hsite.notActing (h action ((mem_plan_of_reaches hr).2
        (Or.inr (Or.inr (Or.inr (Or.inl ha))))))
    · obtain ⟨action, ha⟩ := (lockContentionRelease_iff hsite.configured hsite.live).2
        ⟨hsite.resolved, hsite.noReason, hsite.noCopycat, hsite.noRelease, hsite.noCleanup,
          hsite.noClear⟩
      obtain ⟨_, -, -, hg, -⟩ := mem_lockContentionRelease ha
      exact hg.not_authorized hsite.notActing (h action ((mem_plan_of_reaches hr).2
        (Or.inr (Or.inr (Or.inr (Or.inr ha))))))
  · intro h action ha
    by_contra hnot
    obtain ⟨hr, ⟨hsite, hact⟩ | ⟨hsite, hact⟩ | ⟨hsite, hact⟩⟩ := not_authorized_cases ha hnot
    · obtain ⟨name, hname, hl, -, hno, hsha⟩ := mem_manualReviewRelease hsite
      exact h ⟨hr, name, Or.inl ⟨hact, hname, hl.live, hno, hsha⟩⟩
    · obtain ⟨name, hname, -⟩ := mem_manualHoldFallback hsite
      exact h ⟨hr, name, Or.inr (Or.inl ((manualHoldFallback_iff hname hact).1 ⟨action, hsite⟩))⟩
    · obtain ⟨name, hname, hl, -⟩ := mem_lockContentionRelease hsite
      obtain ⟨h₁, h₂, h₃, h₄, h₅, h₆⟩ :=
        (lockContentionRelease_iff hname hl.live).1 ⟨action, hsite⟩
      exact h ⟨hr, name, Or.inr (Or.inr ⟨hact, hname, hl.live, h₁, h₂, h₃, h₄, h₅, h₆⟩)⟩

/-- A guarded path in a repository where no class acts. -/
def observedInput : AgentActionPlanInput :=
  { greenInput [] with changedPaths := ["src/auth.ts"], hardGuardrailGlobs := ["src/**"] }

theorem not_autonomy_gated_observed : ¬AutonomyGated asciiText observedInput := by
  intro h
  have hplan : planAgentMaintenanceActions asciiText observedInput ≠ [] := by decide
  refine hplan (h.quiescent fun actionClass => ?_)
  cases actionClass <;> rfl

end LoopOver
