import LoopOver.Planner.Plan

/-!
# What each stage can push

One lemma for each stage of the disposition, saying under which guard it pushes what, and the shape
of a whole plan that follows from them:

* `reachesDisposition` is the condition to get past the early returns, and `plan_cases` the three
  ways a plan comes about.
* `plan_eq_of_reaches` is the shape of a plan that does: labels (`labelPlan`), review, disposition
  (together `settledPlan`), fallback hold, lock release. `mem_labelPlan` and `mem_plan_of_reaches`
  list where its actions come from.
* `mem_decision_of_reaches`: merges, closes and approvals come from review and disposition alone.
-/

namespace LoopOver

open List AgentActionPlanInput

variable {text : Text} {input : AgentActionPlanInput} {action : PlannedAgentAction}
  {actions : List PlannedAgentAction}

/-! ## Short circuits -/

/-- The plan of a short circuit: nothing, or a close authorized by `close` with at most one label
coupled to it. -/
theorem shortCircuitClose_cases (text : Text) (input : AgentActionPlanInput)
    (reason comment : String) (kind : CloseKind) (label : Option String) :
    shortCircuitClose text input reason comment kind label = [] ∨
      input.acting .close = true ∧ ∃ close coupled,
        shortCircuitClose text input reason comment kind label = close :: coupled ∧
        close.actionClass = .close ∧ close.autonomyClass = none ∧
        close.requiresApproval = input.approval .close ∧
        (coupled = [] ∨ ∃ added name, coupled = [added] ∧ label = some name ∧
          added.actionClass = .label ∧ added.autonomyClass = some .close ∧
          added.requiresApproval = input.approval .close ∧ added.closeKind = some kind ∧
          added.label = some name ∧ added.labelOp = some .add) := by
  cases hc : input.acting .close with
  | false => exact Or.inl (by simp [shortCircuitClose, hc])
  | true =>
    refine Or.inr ⟨rfl, _, _, by rw [shortCircuitClose, if_pos hc], rfl, rfl, rfl, ?_⟩
    cases label with
    | none => exact Or.inl rfl
    | some name => exact Or.inr ⟨_, name, rfl, rfl, rfl, rfl, rfl, rfl, rfl, rfl⟩

namespace AgentActionPlanInput

variable (input : AgentActionPlanInput)

def contributorCapMatched : Bool := input.contributorCapMatch.any (·.matched)

def reviewNagMatched : Bool := input.reviewNagMatch.any (·.matched)

/-- A copycat match in the gate's `block` mode. -/
def copycatBlocked : Bool :=
  input.copycatMatch.any (·.matched) && input.copycatGateMode == some .block

def screenshotTableMatched : Bool := input.screenshotTableMatch.any (·.matched)

/-- One of the matches that stop a contributor ahead of any review. -/
def shortCircuitMatched : Bool :=
  input.blacklistMatched || input.contributorCapMatched || input.reviewNagMatched ||
    input.copycatBlocked || input.screenshotTableEvidenceUnresolved ||
    input.screenshotTableMatched

end AgentActionPlanInput

/-- **What a short circuit plans**, and the match of a contributor it rests on. -/
theorem planShortCircuit_cases (h : planShortCircuit text input = some actions) :
    input.isContributor = true ∧
      ((actions = [] ∧ input.screenshotTableEvidenceUnresolved = true) ∨
      ∃ reason comment kind label,
        actions = shortCircuitClose text input reason comment kind label ∧
        ((kind = .blacklist ∧ input.blacklistMatched = true) ∨
          (kind = .contributorCap ∧ input.contributorCapMatched = true) ∨
          (kind = .reviewNag ∧ input.reviewNagMatched = true) ∨
          (kind = .copycat ∧ input.copycatBlocked = true ∧
            label = resolveNullableLabel input.copycatLabel defaultCopycatLabel) ∨
          (kind = .screenshotTable ∧ input.screenshotTableMatched = true ∧ label = none))) := by
  simp only [planShortCircuit, Option.orElse_eq_orElse, Option.orElse_eq_or,
    Option.or_eq_some_iff] at h
  rcases h with h | ⟨-, h | ⟨-, h | ⟨-, h | ⟨-, h⟩⟩⟩⟩
  · simp only [planBlacklistClose, Option.ite_none_right_eq_some, Bool.and_eq_true] at h
    obtain ⟨⟨hm, hc⟩, he⟩ := h
    exact ⟨hc, Or.inr ⟨_, _, _, _, (Option.some.inj he).symm, Or.inl ⟨rfl, hm⟩⟩⟩
  · cases hcap : input.contributorCapMatch with
    | none => simp [planContributorCapClose, hcap] at h
    | some cap =>
      simp only [planContributorCapClose, hcap, Option.ite_none_right_eq_some,
        Bool.and_eq_true] at h
      obtain ⟨⟨hm, hc⟩, he⟩ := h
      exact ⟨hc, Or.inr ⟨_, _, _, _, (Option.some.inj he).symm, Or.inr (Or.inl ⟨rfl, by
        simp [contributorCapMatched, hcap, hm]⟩)⟩⟩
  · cases hnag : input.reviewNagMatch with
    | none => simp [planReviewNagClose, hnag] at h
    | some nag =>
      simp only [planReviewNagClose, hnag, Option.ite_none_right_eq_some, Bool.and_eq_true] at h
      obtain ⟨⟨hm, hc⟩, he⟩ := h
      exact ⟨hc, Or.inr ⟨_, _, _, _, (Option.some.inj he).symm, Or.inr (Or.inr (Or.inl ⟨rfl, by
        simp [reviewNagMatched, hnag, hm]⟩))⟩⟩
  · cases hcopy : input.copycatMatch with
    | none => simp [planCopycatClose, hcopy] at h
    | some copy =>
      simp only [planCopycatClose, hcopy, Option.ite_none_right_eq_some, Bool.and_eq_true] at h
      obtain ⟨⟨⟨hm, hc⟩, hb⟩, he⟩ := h
      exact ⟨hc, Or.inr ⟨_, _, _, _, (Option.some.inj he).symm, Or.inr (Or.inr (Or.inr (Or.inl
        ⟨rfl, by simp [copycatBlocked, hcopy, hm, hb], rfl⟩)))⟩⟩
  · unfold planScreenshotTableClose at h
    split at h
    next hu =>
      rw [Bool.and_eq_true] at hu
      exact ⟨hu.2, Or.inl ⟨(Option.some.inj h).symm, hu.1⟩⟩
    next =>
      cases hshot : input.screenshotTableMatch with
      | none => simp [hshot] at h
      | some shot =>
        simp only [hshot, Option.ite_none_right_eq_some, Bool.and_eq_true] at h
        obtain ⟨⟨hm, hc⟩, he⟩ := h
        exact ⟨hc, Or.inr ⟨_, _, _, _, (Option.some.inj he).symm, Or.inr (Or.inr (Or.inr (Or.inr
          ⟨rfl, by simp [screenshotTableMatched, hshot, hm], rfl⟩)))⟩⟩

/-- A short circuit only closes, and labels what it closes, both under `close`. -/
theorem mem_planShortCircuit (h : planShortCircuit text input = some actions)
    (ha : action ∈ actions) :
    input.acting .close = true ∧ action.governingClass = .close ∧
      action.requiresApproval = input.approval .close ∧
      (action.actionClass = .close ∨ action.isLabelAdd = true) := by
  obtain ⟨-, ⟨rfl, -⟩ | ⟨reason, comment, kind, label, rfl, -⟩⟩ := planShortCircuit_cases h
  · simp at ha
  · rcases shortCircuitClose_cases text input reason comment kind label with
      he | ⟨hacting, close, coupled, he, hc, hn, hr, hcoupled⟩
    · simp [he] at ha
    · rw [he] at ha
      rcases mem_cons.1 ha with rfl | ha
      · exact ⟨hacting, by simp [PlannedAgentAction.governingClass, hc, hn], hr, Or.inl hc⟩
      · rcases hcoupled with rfl | ⟨added, name, rfl, -, hlc, hlg, hlr, -, -, hop⟩
        · simp at ha
        · obtain rfl := mem_singleton.1 ha
          refine ⟨hacting, by simp [PlannedAgentAction.governingClass, hlg], hlr, Or.inr ?_⟩
          simp [PlannedAgentAction.isLabelAdd, hlc, hop]

/-- **When no short circuit applies.** -/
theorem planShortCircuit_eq_none_iff : planShortCircuit text input = none ↔
    (input.isContributor = true → input.shortCircuitMatched = false) := by
  constructor
  · intro h hc
    simp only [planShortCircuit, Option.orElse_eq_orElse, Option.orElse_eq_or,
      Option.or_eq_none_iff] at h
    obtain ⟨hb, hcap, hnag, hcopy, hshot⟩ := h
    have hblack : input.blacklistMatched = false := by simpa [planBlacklistClose, hc] using hb
    have hcapped : input.contributorCapMatched = false := by
      cases hm : input.contributorCapMatch <;>
        simp_all [planContributorCapClose, contributorCapMatched]
    have hnagged : input.reviewNagMatched = false := by
      cases hm : input.reviewNagMatch <;>
        simp_all [planReviewNagClose, reviewNagMatched]
    have hcopied : input.copycatBlocked = false := by
      cases hm : input.copycatMatch <;>
        simp_all [planCopycatClose, copycatBlocked]
    have hunresolved : input.screenshotTableEvidenceUnresolved = false := by
      cases hu : input.screenshotTableEvidenceUnresolved
      · rfl
      · simp [planScreenshotTableClose, hu, hc] at hshot
    have htable : input.screenshotTableMatched = false := by
      cases hm : input.screenshotTableMatch <;>
        simp_all [planScreenshotTableClose, screenshotTableMatched]
    simp [shortCircuitMatched, hblack, hcapped, hnagged, hcopied, hunresolved, htable]
  · intro h
    cases hs : planShortCircuit text input with
    | none => rfl
    | some actions =>
      obtain ⟨hc, hcases⟩ := planShortCircuit_cases hs
      have hmatched := h hc
      simp only [shortCircuitMatched, Bool.or_eq_false_iff] at hmatched
      rcases hcases with ⟨-, hu⟩ | ⟨_, _, _, _, -, h | h | h | h | h⟩ <;> simp_all

/-! ## Early returns -/

/-- The input gets past every early return: no short circuit, an evaluated gate, settled CI. -/
def reachesDisposition (text : Text) (input : AgentActionPlanInput) : Bool :=
  !(input.isContributor && input.shortCircuitMatched) && input.conclusion != .skipped &&
    !settlesFirst text input

theorem reachesDisposition_iff : reachesDisposition text input = true ↔
    planShortCircuit text input = none ∧ input.conclusion ≠ .skipped ∧
      settlesFirst text input = false := by
  rw [planShortCircuit_eq_none_iff]
  cases hc : input.isContributor <;> simp [reachesDisposition, hc, and_assoc]

theorem plan_of_reaches (h : reachesDisposition text input = true) :
    planAgentMaintenanceActions text input =
      accumulate (dispositionStages text input) (planEarly input) := by
  obtain ⟨hs, hc, hp⟩ := reachesDisposition_iff.1 h
  simp [planAgentMaintenanceActions, hs, hc, hp]

/-- **A plan is a short circuit, or what waits for CI, or the stages run to their end.** -/
theorem plan_cases (text : Text) (input : AgentActionPlanInput) :
    (∃ actions, planShortCircuit text input = some actions ∧
      planAgentMaintenanceActions text input = actions) ∨
    (reachesDisposition text input = false ∧
      (planAgentMaintenanceActions text input).Sublist (planEarly input)) ∨
    (reachesDisposition text input = true ∧ planAgentMaintenanceActions text input =
      accumulate (dispositionStages text input) (planEarly input)) := by
  cases hr : reachesDisposition text input with
  | true => exact Or.inr (Or.inr ⟨rfl, plan_of_reaches hr⟩)
  | false =>
    cases hs : planShortCircuit text input with
    | some actions => exact Or.inl ⟨actions, rfl, by simp [planAgentMaintenanceActions, hs]⟩
    | none =>
      refine Or.inr (Or.inl ⟨rfl, ?_⟩)
      by_cases hc : input.conclusion = .skipped
      · simp [planAgentMaintenanceActions, hs, hc]
      · have hp : settlesFirst text input = true := by
          by_contra hp
          simp [reachesDisposition_iff.2 ⟨hs, hc, by simpa using hp⟩] at hr
        simp [planAgentMaintenanceActions, hs, hc, hp]

/-! ## Label stages -/

/-- The action adds `name`, which is neither on the pull request nor planned in `actions`. -/
structure FreshAdd (text : Text) (input : AgentActionPlanInput)
    (actions : List PlannedAgentAction) (action : PlannedAgentAction) (name : String) : Prop where
  isLabelAdd : action.isLabelAdd = true
  label : action.label = some name
  fresh : hasLabelOrPlanned text input.pr.labels actions name = false

/-- The action removes `name`, which is on the pull request. -/
structure LiveRemove (text : Text) (input : AgentActionPlanInput) (action : PlannedAgentAction)
    (name : String) : Prop where
  isLabelRemove : action.isLabelRemove = true
  label : action.label = some name
  live : hasLabel text input.pr.labels name = true

/-- The action is governed by `actionClass`, and needs an approval exactly when its level does. -/
structure GovernedBy (input : AgentActionPlanInput) (action : PlannedAgentAction)
    (actionClass : AgentActionClass) : Prop where
  governingClass : action.governingClass = actionClass
  requiresApproval : action.requiresApproval = input.approval actionClass

/-- The manual-review label of a hold: added once, by `merge`, on a review-good pull request. -/
theorem mem_manualReviewHoldLabel {guard : Bool} {reason : String} {comment : Option String}
    (h : action ∈ manualReviewHoldLabel text input guard reason comment actions) :
    ∃ name, input.labels.manualReview = some name ∧ FreshAdd text input actions action name ∧
      GovernedBy input action .merge ∧ input.acting .merge = true ∧ input.reviewGood = true ∧
      guard = true := by
  cases hl : input.labels.manualReview with
  | none => simp [manualReviewHoldLabel, hl] at h
  | some name =>
    simp only [manualReviewHoldLabel, hl, mem_pushWhen, Bool.and_eq_true, Bool.not_eq_true'] at h
    obtain ⟨⟨⟨⟨hgood, hguard⟩, hacting⟩, hfresh⟩, rfl⟩ := h
    exact ⟨name, rfl, ⟨rfl, rfl, hfresh⟩, ⟨rfl, rfl⟩, hacting, hgood, hguard⟩

/-- A hold for which a stage adds the manual-review label under `merge`. -/
def wantsHoldLabel (text : Text) (input : AgentActionPlanInput) : Bool :=
  (input.guardrailHit text && !input.guardrailEscalationCleared text) ||
    (input.migrationCollisionHold.isSome && !input.acting .reviewStateLabel) ||
    (input.unlinkedIssueMatchHold.isSome && !input.acting .reviewStateLabel) ||
    input.screenshotEvidenceHold.isSome || input.priorityEligibilityHold.isSome ||
    (input.unlinkedIssueMatchClose.isSome && !input.acting .close &&
      !input.acting .reviewStateLabel)

/-- The six stages that add the manual-review label for a hold on a would-be merge. -/
def holdLabelStages (text : Text) (input : AgentActionPlanInput) :
    List (List PlannedAgentAction → List PlannedAgentAction) :=
  [guardrailHoldLabel text input, migrationCollisionHoldLabel text input,
    unlinkedIssueMatchHoldLabel text input, screenshotEvidenceHoldLabel text input,
    priorityEligibilityHoldLabel text input, unlinkedIssueMatchCloseHoldLabel text input]

theorem manualReviewHoldLabel_false (reason : String) (comment : Option String) :
    manualReviewHoldLabel text input false reason comment actions = [] := by
  unfold manualReviewHoldLabel
  split <;> simp

variable {stage : List PlannedAgentAction → List PlannedAgentAction}

/-- Each of the six is the one hold stage at its own guard, reason and comment. -/
theorem holdLabelStage_eq (hs : stage ∈ holdLabelStages text input) :
    ∃ guard reason comment, (guard = true → wantsHoldLabel text input = true) ∧
      ∀ actions, stage actions = manualReviewHoldLabel text input guard reason comment actions := by
  simp only [holdLabelStages, mem_cons, not_mem_nil, or_false] at hs
  rcases hs with rfl | rfl | rfl | rfl | rfl | rfl
  · exact ⟨_, _, _, fun hw => by simp_all [wantsHoldLabel], fun _ => rfl⟩
  · cases hold : input.migrationCollisionHold with
    | none => exact ⟨false, "", none, by simp, by simp [migrationCollisionHoldLabel, hold,
        manualReviewHoldLabel_false]⟩
    | some note => exact ⟨!input.acting .reviewStateLabel, _, _,
        fun hw => by simp_all [wantsHoldLabel], fun _ => by rw [migrationCollisionHoldLabel, hold]⟩
  · cases hold : input.unlinkedIssueMatchHold with
    | none => exact ⟨false, "", none, by simp, by simp [unlinkedIssueMatchHoldLabel, hold,
        manualReviewHoldLabel_false]⟩
    | some note => exact ⟨!input.acting .reviewStateLabel, _, _,
        fun hw => by simp_all [wantsHoldLabel], fun _ => by rw [unlinkedIssueMatchHoldLabel, hold]⟩
  · cases hold : input.screenshotEvidenceHold with
    | none => exact ⟨false, "", none, by simp, by simp [screenshotEvidenceHoldLabel, hold,
        manualReviewHoldLabel_false]⟩
    | some note => exact ⟨true, _, _,
        fun hw => by simp_all [wantsHoldLabel], fun _ => by rw [screenshotEvidenceHoldLabel, hold]⟩
  · cases hold : input.priorityEligibilityHold with
    | none => exact ⟨false, "", none, by simp, by simp [priorityEligibilityHoldLabel, hold,
        manualReviewHoldLabel_false]⟩
    | some note => exact ⟨true, _, _,
        fun hw => by simp_all [wantsHoldLabel], fun _ => by rw [priorityEligibilityHoldLabel, hold]⟩
  · cases hold : input.unlinkedIssueMatchClose with
    | none => exact ⟨false, "", none, by simp, by simp [unlinkedIssueMatchCloseHoldLabel, hold,
        manualReviewHoldLabel_false]⟩
    | some note => exact ⟨!input.acting .close && !input.acting .reviewStateLabel, _, _,
        fun hw => by simp_all [wantsHoldLabel],
          fun _ => by rw [unlinkedIssueMatchCloseHoldLabel, hold]⟩

/-- **What a hold stage pushes.** -/
theorem mem_holdLabelStage (hs : stage ∈ holdLabelStages text input) (h : action ∈ stage actions) :
    ∃ name, input.labels.manualReview = some name ∧ FreshAdd text input actions action name ∧
      GovernedBy input action .merge ∧ input.acting .merge = true ∧ input.reviewGood = true ∧
      wantsHoldLabel text input = true := by
  obtain ⟨guard, reason, comment, hwants, he⟩ := holdLabelStage_eq hs
  rw [he] at h
  obtain ⟨name, hname, hf, hg, hacting, hgood, hguard⟩ := mem_manualReviewHoldLabel h
  exact ⟨name, hname, hf, hg, hacting, hgood, hwants hguard⟩

theorem length_holdLabelStage_le
    (hs : stage ∈ holdLabelStages text input) : (stage actions).length ≤ 1 := by
  obtain ⟨guard, reason, comment, -, he⟩ := holdLabelStage_eq hs
  rw [he]
  unfold manualReviewHoldLabel
  split
  · exact length_pushWhen_le _ _
  · simp

/-- 1b) The release of the planner's own hold. -/
theorem mem_manualReviewRelease (h : action ∈ manualReviewRelease text input actions) :
    ∃ name, input.labels.manualReview = some name ∧ LiveRemove text input action name ∧
      GovernedBy input action .merge ∧ input.noManualReviewHoldWanted text = true ∧
      input.manualReviewLabelAppliedSha.isSome = true := by
  cases hl : input.labels.manualReview with
  | none => simp [manualReviewRelease, hl] at h
  | some name =>
    simp only [manualReviewRelease, hl, mem_pushWhen, Bool.and_eq_true] at h
    obtain ⟨⟨⟨hno, hsha⟩, hlive⟩, rfl⟩ := h
    exact ⟨name, rfl, ⟨rfl, rfl, hlive⟩, ⟨rfl, rfl⟩, hno, hsha⟩

/-- 2) The disposition label of the pass. -/
theorem mem_reviewStateLabelAdd (h : action ∈ reviewStateLabelAdd text input actions) :
    ∃ name, reviewStateLabel text input = some name ∧ FreshAdd text input actions action name ∧
      GovernedBy input action .reviewStateLabel ∧ input.acting .reviewStateLabel = true := by
  cases hl : reviewStateLabel text input with
  | none => simp [reviewStateLabelAdd, hl] at h
  | some name =>
    simp only [reviewStateLabelAdd, hl, mem_pushWhen, Bool.and_eq_true, Bool.not_eq_true'] at h
    obtain ⟨⟨hacting, hfresh⟩, rfl⟩ := h
    exact ⟨name, rfl, ⟨rfl, rfl, hfresh⟩, ⟨rfl, rfl⟩, hacting⟩

variable {name : String} {siblings : List (Option String)}

/-- The names the cleanup clears: configured siblings other than the chosen one, on the pull
request, not cleared already. -/
theorem mem_staleSiblings {live : List String} {chosen : Option String} {handled : List String} :
    name ∈ staleSiblings text live chosen siblings handled →
      some name ∈ siblings ∧ some name ≠ chosen ∧ hasLabel text live name = true := by
  induction siblings generalizing handled with
  | nil => simp [staleSiblings]
  | cons sibling rest ih =>
    cases sibling with
    | none =>
      intro h
      obtain ⟨hmem, hrest⟩ := ih h
      exact ⟨mem_cons_of_mem _ hmem, hrest⟩
    | some stale =>
      rw [staleSiblings]
      split
      next =>
        intro h
        obtain ⟨hmem, hrest⟩ := ih h
        exact ⟨mem_cons_of_mem _ hmem, hrest⟩
      next hguard =>
        intro h
        rcases mem_cons.1 h with rfl | h
        · simp only [Bool.or_eq_true, decide_eq_true_eq, Bool.not_eq_true', not_or,
            Bool.not_eq_false, contains_iff_mem, mem_map] at hguard
          obtain ⟨⟨hne, -⟩, label, hlabel, hsame⟩ := hguard
          refine ⟨by simp, hne, ?_⟩
          exact any_eq_true.2 ⟨label, hlabel, (text.sameText_iff).2 hsame⟩
        · obtain ⟨hmem, hrest⟩ := ih h
          exact ⟨mem_cons_of_mem _ hmem, hrest⟩

/-- Every configured sibling that is on the pull request and was not chosen is cleared, under its
own name or under one that differs in case only. -/
theorem exists_staleSiblings {live : List String} {chosen : Option String} (handled : List String)
    (hmem : some name ∈ siblings) (hne : some name ≠ chosen)
    (hlive : hasLabel text live name = true) :
    text.toLowerCase name ∈ handled ∨
      ∃ stale ∈ staleSiblings text live chosen siblings handled,
        text.sameText stale name = true := by
  induction siblings generalizing handled with
  | nil => simp at hmem
  | cons sibling rest ih =>
    cases sibling with
    | none => exact ih handled ((mem_cons.1 hmem).resolve_left (by simp))
    | some stale =>
      rw [staleSiblings]
      rcases mem_cons.1 hmem with heq | hrest
      · obtain rfl : name = stale := Option.some.inj heq
        have hcontains : (live.map text.toLowerCase).contains (text.toLowerCase name) = true := by
          obtain ⟨label, hlabel, hsame⟩ := any_eq_true.1 hlive
          simp only [contains_iff_mem, mem_map]
          exact ⟨label, hlabel, (text.sameText_iff).1 hsame⟩
        by_cases hh : text.toLowerCase name ∈ handled
        · exact Or.inl hh
        · rw [if_neg (by simp only [hne, hcontains]; simpa using hh)]
          exact Or.inr ⟨name, by simp, text.sameText_self name⟩
      · split
        next => exact ih handled hrest
        next =>
          rcases ih (text.toLowerCase stale :: handled) hrest with hh | ⟨s, hs, hsame⟩
          · rcases mem_cons.1 hh with heq | hh
            · exact Or.inr ⟨stale, by simp, (text.sameText_iff).2 heq.symm⟩
            · exact Or.inl hh
          · exact Or.inr ⟨s, mem_cons_of_mem _ hs, hsame⟩

/-- The disposition labels that the cleanup may clear. -/
def clearableLabels (input : AgentActionPlanInput) : List (Option String) :=
  [input.labels.readyToMerge, input.labels.migrationCollision, input.labels.changesRequested]

theorem mem_staleDispositionCleanup (h : action ∈ staleDispositionCleanup text input actions) :
    ∃ name, some name ∈ clearableLabels input ∧ some name ≠ reviewStateLabel text input ∧
      LiveRemove text input action name ∧ GovernedBy input action .reviewStateLabel ∧
      input.acting .reviewStateLabel = true := by
  unfold staleDispositionCleanup at h
  split at h
  next hacting =>
    obtain ⟨name, hname, rfl⟩ := mem_map.1 h
    obtain ⟨hmem, hne, hlive⟩ := mem_staleSiblings hname
    exact ⟨name, hmem, hne, ⟨rfl, rfl, hlive⟩, ⟨rfl, rfl⟩, hacting⟩
  next => simp at h

/-- Pass 1 of the double check flags with the pending-closure label. -/
theorem mem_pendingClosureFlag (h : action ∈ pendingClosureFlag text input actions) :
    ∃ name, input.labels.pendingClosure = some name ∧ action.isLabelAdd = true ∧
      action.label = some name ∧ hasLabel text input.pr.labels name = false ∧
      GovernedBy input action .reviewStateLabel ∧ input.acting .reviewStateLabel = true ∧
      input.flagForLinkedIssue text = true := by
  cases hl : input.labels.pendingClosure with
  | none => simp [pendingClosureFlag, hl] at h
  | some name =>
    simp only [pendingClosureFlag, hl, mem_pushWhen, Bool.and_eq_true] at h
    obtain ⟨⟨hacting, hflag⟩, rfl⟩ := h
    have habsent : hasLabel text input.pr.labels name = false := by
      have := hflag
      simp only [flagForLinkedIssue, pendingClosureLabelPresent, hl, Option.any_some,
        Bool.and_eq_true, Bool.not_eq_true'] at this
      exact this.1.2
    exact ⟨name, rfl, rfl, rfl, habsent, ⟨rfl, rfl⟩, hacting, hflag⟩

theorem mem_pendingClosureClear (h : action ∈ pendingClosureClear text input actions) :
    ∃ name, input.labels.pendingClosure = some name ∧ LiveRemove text input action name ∧
      GovernedBy input action .reviewStateLabel ∧ input.acting .reviewStateLabel = true ∧
      input.clearLinkedIssueFlag text = true := by
  cases hl : input.labels.pendingClosure with
  | none => simp [pendingClosureClear, hl] at h
  | some name =>
    simp only [pendingClosureClear, hl, mem_pushWhen, Bool.and_eq_true] at h
    obtain ⟨⟨hacting, hclear⟩, rfl⟩ := h
    have hlive : hasLabel text input.pr.labels name = true := by
      have := hclear
      simp only [clearLinkedIssueFlag, pendingClosureLabelPresent, hl, Option.any_some,
        Bool.and_eq_true] at this
      exact this.2
    exact ⟨name, rfl, ⟨rfl, rfl, hlive⟩, ⟨rfl, rfl⟩, hacting, hclear⟩

/-- The fallback hold. Its class is named, but not asked whether it acts. -/
theorem mem_manualHoldFallback (h : action ∈ manualHoldFallback text input actions) :
    ∃ name, input.labels.manualReview = some name ∧ FreshAdd text input actions action name ∧
      GovernedBy input action (manualHoldAutonomyClass input) ∧
      (input.manualHoldReason text).isSome = true ∧
      (actions.any fun action => action.isMergeOrClose) = false := by
  cases hr : input.manualHoldReason text with
  | none => simp [manualHoldFallback, hr] at h
  | some reason =>
    cases hl : input.labels.manualReview with
    | none => simp [manualHoldFallback, hl] at h
    | some name =>
      simp only [manualHoldFallback, hr, hl, mem_pushWhen, Bool.and_eq_true, Bool.not_eq_true'] at h
      obtain ⟨⟨hnone, hfresh⟩, rfl⟩ := h
      exact ⟨name, rfl, ⟨rfl, rfl, hfresh⟩, ⟨rfl, rfl⟩, rfl, hnone⟩

/-- The release of a lost lock's hold. Its class is named, but not asked whether it acts. -/
theorem mem_lockContentionRelease (h : action ∈ lockContentionRelease text input actions) :
    ∃ name, input.labels.manualReview = some name ∧ LiveRemove text input action name ∧
      GovernedBy input action (manualHoldAutonomyClass input) ∧
      input.manualReviewLockContentionResolved = true ∧
      (input.manualHoldReason text).isNone = true ∧
      ∀ other ∈ actions, other.actionClass = .label → other.isAbout text name = false := by
  cases hl : input.labels.manualReview with
  | none => simp [lockContentionRelease, hl] at h
  | some name =>
    simp only [lockContentionRelease, hl, mem_pushWhen, Bool.and_eq_true, Bool.not_eq_true',
      any_eq_false, beq_iff_eq, not_and, Bool.not_eq_true] at h
    obtain ⟨⟨⟨⟨hlock, hreason⟩, hlive⟩, hnone⟩, rfl⟩ := h
    exact ⟨name, rfl, ⟨rfl, rfl, hlive⟩, ⟨rfl, rfl⟩, hlock, hreason, hnone⟩

/-! ## Actions independent of CI -/

theorem mem_planEarly (h : action ∈ planEarly input) :
    (action.actionClass = .assign ∧ GovernedBy input action .assign ∧
      input.acting .assign = true) ∨
    (action ∈ maybePlanCopycatLabel input ∧ action.isLabelAdd = true ∧
      GovernedBy input action .label ∧ input.acting .label = true ∧
      ∃ name, action.label = some name ∧
        resolveNullableLabel input.copycatLabel defaultCopycatLabel = some name) := by
  rcases mem_append.1 h with h | h
  · left
    unfold maybePlanAssign at h
    split at h
    next login _ =>
      rw [mem_pushWhen] at h
      obtain ⟨hacting, rfl⟩ := h
      exact ⟨rfl, ⟨rfl, rfl⟩, hacting⟩
    next => simp at h
  · right
    refine ⟨h, ?_⟩
    unfold maybePlanCopycatLabel at h
    split at h
    next name hname =>
      rw [mem_pushWhen, Bool.and_eq_true] at h
      obtain ⟨⟨-, hacting⟩, rfl⟩ := h
      exact ⟨rfl, ⟨rfl, rfl⟩, hacting, name, rfl, hname⟩
    next => simp at h

/-! ## The shape of a plan -/

/-- The stages about the manual-review and the review-state labels. -/
def dispositionLabelStages (text : Text) (input : AgentActionPlanInput) :
    List (List PlannedAgentAction → List PlannedAgentAction) :=
  [guardrailHoldLabel text input,
    manualReviewRelease text input,
    migrationCollisionHoldLabel text input,
    unlinkedIssueMatchHoldLabel text input,
    screenshotEvidenceHoldLabel text input,
    priorityEligibilityHoldLabel text input,
    unlinkedIssueMatchCloseHoldLabel text input,
    reviewStateLabelAdd text input,
    staleDispositionCleanup text input]

/-- The stages that come before the review, all of them about labels. -/
def labelStages (text : Text) (input : AgentActionPlanInput) :
    List (List PlannedAgentAction → List PlannedAgentAction) :=
  dispositionLabelStages text input ++
    [pendingClosureFlag text input, pendingClosureClear text input]

theorem reviewStateLabelAdd_mem_labelStages :
    reviewStateLabelAdd text input ∈ labelStages text input := by
  simp [labelStages, dispositionLabelStages]

theorem manualReviewRelease_mem_labelStages :
    manualReviewRelease text input ∈ labelStages text input := by
  simp [labelStages, dispositionLabelStages]

theorem staleDispositionCleanup_mem_labelStages :
    staleDispositionCleanup text input ∈ labelStages text input := by
  simp [labelStages, dispositionLabelStages]

theorem pendingClosureFlag_mem_labelStages :
    pendingClosureFlag text input ∈ labelStages text input := by
  simp [labelStages]

theorem pendingClosureClear_mem_labelStages :
    pendingClosureClear text input ∈ labelStages text input := by
  simp [labelStages]

/-- The plan up to the review. -/
def labelPlan (text : Text) (input : AgentActionPlanInput) : List PlannedAgentAction :=
  accumulate (labelStages text input) (planEarly input)

/-- The plan up to and with the disposition. -/
def settledPlan (text : Text) (input : AgentActionPlanInput) : List PlannedAgentAction :=
  labelPlan text input ++ reviewActions text input [] ++ dispositionAction text input []

/-- **A plan that reaches the disposition**: labels, review, disposition, then the fallback hold and
the release of a lost lock's hold, each reading the plan before it. -/
theorem plan_eq_of_reaches (h : reachesDisposition text input = true) :
    planAgentMaintenanceActions text input =
      settledPlan text input ++ manualHoldFallback text input (settledPlan text input) ++
        lockContentionRelease text input
          (settledPlan text input ++ manualHoldFallback text input (settledPlan text input)) := by
  have hstages : dispositionStages text input = labelStages text input ++
      [reviewActions text input, dispositionAction text input, manualHoldFallback text input,
        lockContentionRelease text input] := rfl
  rw [plan_of_reaches h, hstages, accumulate_append]
  rfl

theorem mem_plan_of_reaches (h : reachesDisposition text input = true) :
    action ∈ planAgentMaintenanceActions text input ↔
      action ∈ labelPlan text input ∨ action ∈ reviewActions text input [] ∨
      action ∈ dispositionAction text input [] ∨
      action ∈ manualHoldFallback text input (settledPlan text input) ∨
      action ∈ lockContentionRelease text input
        (settledPlan text input ++ manualHoldFallback text input (settledPlan text input)) := by
  rw [plan_eq_of_reaches h, mem_append, mem_append]
  simp only [settledPlan, mem_append, or_assoc]

theorem dispositionLabelStage_cases (h : stage ∈ dispositionLabelStages text input) :
    stage ∈ holdLabelStages text input ∨ stage = manualReviewRelease text input ∨
      stage = reviewStateLabelAdd text input ∨ stage = staleDispositionCleanup text input := by
  simp only [dispositionLabelStages, mem_cons, not_mem_nil, or_false] at h
  simp only [holdLabelStages, mem_cons, not_mem_nil, or_false]
  tauto

theorem labelStage_cases (h : stage ∈ labelStages text input) :
    stage ∈ dispositionLabelStages text input ∨ stage = pendingClosureFlag text input ∨
      stage = pendingClosureClear text input := by
  simpa [labelStages] using h

/-- **Where an action of the label stages comes from.** -/
theorem mem_labelPlan (h : action ∈ labelPlan text input) :
    action ∈ planEarly input ∨
      (∃ actions, ∃ stage ∈ holdLabelStages text input, action ∈ stage actions) ∨
      action ∈ manualReviewRelease text input [] ∨
      (∃ actions, action ∈ reviewStateLabelAdd text input actions) ∨
      action ∈ staleDispositionCleanup text input [] ∨
      action ∈ pendingClosureFlag text input [] ∨ action ∈ pendingClosureClear text input [] := by
  rcases mem_accumulate.1 h with h | ⟨front, stage, back, hstages, h⟩
  · exact Or.inl h
  · have hmem : stage ∈ labelStages text input := by rw [hstages]; simp
    rcases labelStage_cases hmem with hs | rfl | rfl
    · rcases dispositionLabelStage_cases hs with hs | rfl | rfl | rfl
      · exact Or.inr (Or.inl ⟨_, stage, hs, h⟩)
      · exact Or.inr (Or.inr (Or.inl h))
      · exact Or.inr (Or.inr (Or.inr (Or.inl ⟨_, h⟩)))
      · exact Or.inr (Or.inr (Or.inr (Or.inr (Or.inl h))))
    · exact Or.inr (Or.inr (Or.inr (Or.inr (Or.inr (Or.inl h)))))
    · exact Or.inr (Or.inr (Or.inr (Or.inr (Or.inr (Or.inr h)))))

theorem FreshAdd.actionClass (h : FreshAdd text input actions action name) :
    action.actionClass = .label := by
  have := h.isLabelAdd
  simp only [PlannedAgentAction.isLabelAdd, Bool.and_eq_true, beq_iff_eq] at this
  exact this.1

theorem LiveRemove.actionClass (h : LiveRemove text input action name) :
    action.actionClass = .label := by
  have := h.isLabelRemove
  simp only [PlannedAgentAction.isLabelRemove, Bool.and_eq_true, beq_iff_eq] at this
  exact this.1

/-- Up to the review, a plan only assigns and labels. -/
theorem actionClass_of_mem_labelPlan (h : action ∈ labelPlan text input) :
    action.actionClass = .assign ∨ action.actionClass = .label := by
  rcases mem_labelPlan h with h | ⟨_, _, hs, h⟩ | h | ⟨_, h⟩ | h | h | h
  · rcases mem_planEarly h with ⟨hc, -⟩ | ⟨-, hadd, -⟩
    · exact Or.inl hc
    · simp only [PlannedAgentAction.isLabelAdd, Bool.and_eq_true, beq_iff_eq] at hadd
      exact Or.inr hadd.1
  · obtain ⟨_, -, hf, -⟩ := mem_holdLabelStage hs h
    exact Or.inr hf.actionClass
  · obtain ⟨_, -, hr, -⟩ := mem_manualReviewRelease h
    exact Or.inr hr.actionClass
  · obtain ⟨_, -, hf, -⟩ := mem_reviewStateLabelAdd h
    exact Or.inr hf.actionClass
  · obtain ⟨_, -, -, hr, -⟩ := mem_staleDispositionCleanup h
    exact Or.inr hr.actionClass
  · obtain ⟨_, -, hadd, -⟩ := mem_pendingClosureFlag h
    simp only [PlannedAgentAction.isLabelAdd, Bool.and_eq_true, beq_iff_eq] at hadd
    exact Or.inr hadd.1
  · obtain ⟨_, -, hr, -⟩ := mem_pendingClosureClear h
    exact Or.inr hr.actionClass

/-- The classes that decide on the pull request itself: merge, close and approve. -/
def PlannedAgentAction.isDecision (action : PlannedAgentAction) : Bool :=
  action.isMergeOrClose || action.actionClass == .approve

/-- **The decisions of a plan that reaches the disposition** are its review and its disposition. -/
theorem mem_decision_of_reaches (h : reachesDisposition text input = true)
    (hd : action.isDecision = true) :
    action ∈ planAgentMaintenanceActions text input ↔
      action ∈ reviewActions text input [] ∨ action ∈ dispositionAction text input [] := by
  have hlabel : action.actionClass ≠ .label := by
    intro hc
    simp [PlannedAgentAction.isDecision, PlannedAgentAction.isMergeOrClose, hc] at hd
  rw [mem_plan_of_reaches h]
  constructor
  · rintro (h | h | h | h | h)
    · rcases actionClass_of_mem_labelPlan h with hc | hc
      · simp [PlannedAgentAction.isDecision, PlannedAgentAction.isMergeOrClose, hc] at hd
      · exact absurd hc hlabel
    · exact Or.inl h
    · exact Or.inr h
    · obtain ⟨_, -, hf, -⟩ := mem_manualHoldFallback h
      exact absurd hf.actionClass hlabel
    · obtain ⟨_, -, hr, -⟩ := mem_lockContentionRelease h
      exact absurd hr.actionClass hlabel
  · rintro (h | h)
    · exact Or.inr (Or.inl h)
    · exact Or.inr (Or.inr (Or.inl h))

end LoopOver
