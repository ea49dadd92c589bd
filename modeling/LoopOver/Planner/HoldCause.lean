import LoopOver.Planner.Disposition

/-!
# The recorded cause of a hold

A hold plans no action, so the ledger cannot read its cause off the plan. `resolveHoldCause` of
`src/settings/agent-actions.ts` derives the disposition a second time, from values of its own.

* `resolveHoldCause_eq`: the second derivation comes to the disposition of the planner.
* `mem_resolveHoldCause`: the cause lists the holds that are set and not released.
* **`hold_cause_recorded`**: it is empty exactly where nothing is held, and it is the least list of
  holds without which nothing would be held.
-/

namespace LoopOver

open AgentActionPlanInput

/-! ## The second derivation -/

/-- The `derived` argument of `buildPrDispositionInput`. -/
structure DerivedHoldValues where
  reviewGood : Bool
  guardrailHit : Bool
  guardrailEscalationCleared : Bool
  closeActing : Bool

section Definitions

variable (text : Text) (input : AgentActionPlanInput)

/-- `buildPrDispositionInput`, with the values that its caller derived. -/
def buildPrDispositionInputFrom (derived : DerivedHoldValues) : PrDispositionInput where
  hold
    | .guardrailHit => derived.guardrailHit
    | .migrationCollisionHold => input.migrationCollisionHold.isSome
    | .unlinkedIssueMatchHold => input.unlinkedIssueMatchHold.isSome
    | .advisoryCheckHold => input.advisoryCheckHold.any fun holds => !holds.isEmpty
    | .priorityEligibilityHold => input.priorityEligibilityHold.isSome
    | .screenshotEvidenceHold => input.screenshotEvidenceHold.isSome
    | .unlinkedIssueMatchCloseWithoutCloseActing =>
      input.unlinkedIssueMatchClose.isSome && !derived.closeActing
  mergeableState := input.pr.mergeableState
  reviewGood := derived.reviewGood
  unstableExplainedByIgnoredChecks :=
    (input.ignoredCheckNonPassing.any fun checks => !checks.isEmpty) &&
      (input.nonRequiredCheckFailures.getD []).isEmpty && input.ciState != .failed
  guardrailEscalationCleared := derived.guardrailEscalationCleared

def resolveHoldCause : List MergeHoldInput :=
  let guardrailHit := isGuardrailHit text input.changedPaths input.hardGuardrailGlobs
  let reviewGood := input.conclusion == .success && input.ciState == .passed
  let escalationConfigured :=
    input.guardrailEscalationEffort.isSome || input.guardrailEscalationSelfConsistencyRuns.isSome ||
      input.guardrailEscalationModel.isSome || input.guardrailEscalationProvider.isSome
  let guardrailEscalationCleared := guardrailHit && reviewGood && escalationConfigured &&
    input.guardrailEscalationOnCleanReview == some .proceed
  (derivePrDisposition text (buildPrDispositionInputFrom input
    ⟨reviewGood, guardrailHit, guardrailEscalationCleared,
      isActingAutonomyLevel (resolveAutonomy input.autonomy .close)⟩)).heldBy

/-- The input without some of its holds. What sets a hold is taken out of it. -/
def withoutHolds (holds : List MergeHoldInput) : AgentActionPlanInput :=
  { input with
    hardGuardrailGlobs := if .guardrailHit ∈ holds then [] else input.hardGuardrailGlobs
    migrationCollisionHold :=
      if .migrationCollisionHold ∈ holds then none else input.migrationCollisionHold
    unlinkedIssueMatchHold :=
      if .unlinkedIssueMatchHold ∈ holds then none else input.unlinkedIssueMatchHold
    advisoryCheckHold := if .advisoryCheckHold ∈ holds then none else input.advisoryCheckHold
    priorityEligibilityHold :=
      if .priorityEligibilityHold ∈ holds then none else input.priorityEligibilityHold
    screenshotEvidenceHold :=
      if .screenshotEvidenceHold ∈ holds then none else input.screenshotEvidenceHold
    unlinkedIssueMatchClose :=
      if .unlinkedIssueMatchCloseWithoutCloseActing ∈ holds then none
      else input.unlinkedIssueMatchClose }

end Definitions

section Cause

variable {text : Text} {input : AgentActionPlanInput} {key : MergeHoldInput}
  {holds : List MergeHoldInput}

/-- **The planner and the ledger derive the same disposition.** -/
theorem resolveHoldCause_eq (text : Text) (input : AgentActionPlanInput) :
    resolveHoldCause text input = (input.disposition text).heldBy := by
  have hbuild : input.buildPrDispositionInput text = buildPrDispositionInputFrom input
      ⟨input.reviewGood, input.guardrailHit text, input.guardrailEscalationCleared text,
        input.acting .close⟩ := by
    rw [buildPrDispositionInput, buildPrDispositionInputFrom]
    congr 1
  rw [disposition, hbuild]
  rfl

/-- The hold is set, and was not released. -/
def Holding (text : Text) (input : AgentActionPlanInput) (key : MergeHoldInput) : Prop :=
  input.mergeHold text key = true ∧
    ¬(key = .guardrailHit ∧ input.guardrailEscalationCleared text = true)

theorem mem_mergeHoldInputKeys (key : MergeHoldInput) : key ∈ mergeHoldInputKeys := by
  cases key <;> decide

theorem mem_resolveHoldCause : key ∈ resolveHoldCause text input ↔ Holding text input key := by
  have hreleased : (input.buildPrDispositionInput text).releasedHold key = true ↔
      key = .guardrailHit ∧ input.guardrailEscalationCleared text = true := by
    cases key <;> simp [PrDispositionInput.releasedHold,
      buildPrDispositionInput]
  rw [resolveHoldCause_eq, disposition, derivePrDisposition, List.mem_filter,
    and_iff_right (mem_mergeHoldInputKeys key), Bool.and_eq_true, Bool.not_eq_true',
    ← Bool.not_eq_true, hreleased]
  rfl

theorem heldForManualReview_iff :
    input.heldForManualReview text = true ↔ ∃ key, Holding text input key := by
  have hheld : input.heldForManualReview text = !(input.disposition text).heldBy.isEmpty := rfl
  rw [hheld, ← resolveHoldCause_eq, Bool.not_eq_true', List.isEmpty_eq_false_iff_exists_mem]
  exact exists_congr fun key => mem_resolveHoldCause

/-- Without its globs the guardrail is not hit. -/
theorem mergeHold_withoutHolds : (withoutHolds input holds).mergeHold text key = true ↔
    input.mergeHold text key = true ∧ key ∉ holds := by
  by_cases hkey : key ∈ holds <;>
    cases key <;>
      simp [mergeHold, guardrailHit, advisoryCheckHeld, acting, level, withoutHolds, isGuardrailHit,
        hkey]

/-- A hold that is taken out no longer holds, and the others are as they were. -/
theorem holding_withoutHolds :
    Holding text (withoutHolds input holds) key ↔ Holding text input key ∧ key ∉ holds := by
  rw [Holding, Holding, mergeHold_withoutHolds]
  have hcleared : key = .guardrailHit → key ∉ holds →
      (withoutHolds input holds).guardrailEscalationCleared text =
        input.guardrailEscalationCleared text := by
    rintro rfl hkey
    simp only [guardrailEscalationCleared, guardrailHit, withoutHolds, if_neg hkey]
    rfl
  constructor
  · rintro ⟨⟨hset, hkey⟩, hkept⟩
    exact ⟨⟨hset, fun h => hkept ⟨h.1, (hcleared h.1 hkey).trans h.2⟩⟩, hkey⟩
  · rintro ⟨⟨hset, hkept⟩, hkey⟩
    exact ⟨⟨hset, hkey⟩, fun h => hkept ⟨h.1, (hcleared h.1 hkey).symm.trans h.2⟩⟩

/-- **The recorded cause is the planner's.** It is there exactly where the planner holds, it is what
has to go for nothing to be held, and a plan with a merge has none. -/
theorem hold_cause_recorded (text : Text) (input : AgentActionPlanInput) :
    (resolveHoldCause text input ≠ [] ↔ input.heldForManualReview text = true) ∧
      (∀ holds, (withoutHolds input holds).heldForManualReview text = false ↔
        resolveHoldCause text input ⊆ holds) ∧
      ((∃ action ∈ planAgentMaintenanceActions text input, action.actionClass = .merge) →
        resolveHoldCause text input = []) := by
  have hheld : resolveHoldCause text input ≠ [] ↔ input.heldForManualReview text = true := by
    rw [heldForManualReview_iff, ← List.isEmpty_eq_false_iff, List.isEmpty_eq_false_iff_exists_mem]
    exact exists_congr fun key => mem_resolveHoldCause
  refine ⟨hheld, fun holds => ?_, ?_⟩
  · rw [← Bool.not_eq_true, heldForManualReview_iff, not_exists]
    refine forall_congr' fun key => ?_
    rw [holding_withoutHolds, not_and, not_not, mem_resolveHoldCause]
  · rintro ⟨action, hmem, hmerge⟩
    have hcan := (merge_mem_dispositionAction (merge_mem_plan hmem hmerge).2 hmerge).2.2
    have hfree := (disposition_wouldMerge_iff.1 (canMerge_iff.1 hcan).1).2.1
    by_contra hcause
    rw [hheld.1 hcause] at hfree
    exact Bool.noConfusion hfree

end Cause

end LoopOver
