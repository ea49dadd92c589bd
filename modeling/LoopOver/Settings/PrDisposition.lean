import LoopOver.Text

/-!
# The shared disposition core

`src/settings/pr-disposition.ts`: the one place GitHub's raw `mergeable_state` is interpreted, and
the held, approve and merge assessment that the planner, the executor's rechecks, the review comment
and the labels all read.

* `assessMergeableState` gives the raw state its meaning.
* `MergeHoldInput` enumerates the inputs that turn a would-be merge into a manual hold, and
  `derivePrDisposition` folds all of them in.
* `wouldMerge_iff` and `wouldApprove_iff` say what a disposition that merges or approves rests on.
-/

namespace LoopOver

variable (text : Text)

/-! ## The mergeable state -/

/-- What the raw `mergeable_state` means for the disposition surfaces. -/
inductive MergeableAssessment
  /-- Safe to merge now. -/
  | clean
  /-- A hard base conflict, the close path's business. -/
  | conflict
  /-- Behind the base, the rebase rail's business. -/
  | behind
  /-- A non-required check is failing or still running. -/
  | unstable
  /-- Blocked, unknown or absent: not mergeable yet, but approvable. -/
  | indeterminate
  deriving DecidableEq, Repr

/-- The single interpretation of the raw state. -/
def assessMergeableState (state : Option String) : MergeableAssessment :=
  let lowered := text.toLowerCase (state.getD "")
  if lowered = "clean" then .clean
  else if lowered = "dirty" then .conflict
  else if lowered = "behind" then .behind
  else if lowered = "unstable" then .unstable
  else .indeterminate

/-! ## Hold inputs -/

/-- `MERGE_HOLD_INPUTS`: every input that suppresses a would-be merge into a manual hold. -/
inductive MergeHoldInput
  | guardrailHit
  | migrationCollisionHold
  | unlinkedIssueMatchHold
  | advisoryCheckHold
  | priorityEligibilityHold
  | screenshotEvidenceHold
  | unlinkedIssueMatchCloseWithoutCloseActing
  deriving DecidableEq, Repr

/-- `MERGE_HOLD_INPUT_KEYS`, in declaration order. -/
def mergeHoldInputKeys : List MergeHoldInput :=
  [.guardrailHit, .migrationCollisionHold, .unlinkedIssueMatchHold, .advisoryCheckHold,
    .priorityEligibilityHold, .screenshotEvidenceHold, .unlinkedIssueMatchCloseWithoutCloseActing]

/-- The hold inputs and the facts the disposition is derived from. -/
structure PrDispositionInput where
  hold : MergeHoldInput → Bool
  mergeableState : Option String
  reviewGood : Bool
  unstableExplainedByIgnoredChecks : Bool
  guardrailEscalationCleared : Bool

/-- The shared assessment. -/
structure PrDisposition where
  mergeable : MergeableAssessment
  heldForManualReview : Bool
  heldBy : List MergeHoldInput
  heldForUnstableMergeState : Bool
  wouldApprove : Bool
  wouldMerge : Bool
  commentMergeStateHeld : Bool
  deriving DecidableEq, Repr

/-- The holds that were explicitly released: only a guardrail hit can be. -/
def PrDispositionInput.releasedHold (input : PrDispositionInput) : MergeHoldInput → Bool
  | .guardrailHit => input.guardrailEscalationCleared
  | _ => false

/-- The assessment of one pull request. -/
def derivePrDisposition (input : PrDispositionInput) : PrDisposition :=
  let mergeable := assessMergeableState text input.mergeableState
  let unstableHolds := mergeable == .unstable && !input.unstableExplainedByIgnoredChecks
  let heldBy := mergeHoldInputKeys.filter fun key => input.hold key && !input.releasedHold key
  let heldForManualReview := !heldBy.isEmpty
  { mergeable
    heldForManualReview
    heldBy
    heldForUnstableMergeState := unstableHolds
    wouldApprove :=
      input.reviewGood && !heldForManualReview && mergeable != .conflict && !unstableHolds
    wouldMerge := input.reviewGood && !heldForManualReview && mergeable == .clean
    commentMergeStateHeld := mergeable == .conflict || mergeable == .behind || unstableHolds }

variable {text} {input : PrDispositionInput}

/-- Nothing is held exactly when every hold that is set was released. -/
theorem heldForManualReview_eq_false_iff :
    (derivePrDisposition text input).heldForManualReview = false ↔
      ∀ key, input.hold key = true → input.releasedHold key = true := by
  have hkeys : ∀ key : MergeHoldInput, key ∈ mergeHoldInputKeys := by
    intro key
    cases key <;> decide
  simp only [derivePrDisposition, Bool.not_eq_false', List.isEmpty_iff, List.filter_eq_nil_iff,
    Bool.and_eq_true, Bool.not_eq_true', not_and, Bool.not_eq_false]
  exact ⟨fun h key hk => h key (hkeys key) hk, fun h key _ hk => h key hk⟩

theorem wouldMerge_iff :
    (derivePrDisposition text input).wouldMerge = true ↔
      input.reviewGood = true ∧ (derivePrDisposition text input).heldForManualReview = false ∧
        assessMergeableState text input.mergeableState = .clean := by
  simp [derivePrDisposition, and_assoc]

theorem wouldApprove_iff :
    (derivePrDisposition text input).wouldApprove = true ↔
      input.reviewGood = true ∧ (derivePrDisposition text input).heldForManualReview = false ∧
        assessMergeableState text input.mergeableState ≠ .conflict ∧
        (derivePrDisposition text input).heldForUnstableMergeState = false := by
  simp only [derivePrDisposition, Bool.and_eq_true, Bool.not_eq_true', bne_iff_ne, and_assoc]

end LoopOver
