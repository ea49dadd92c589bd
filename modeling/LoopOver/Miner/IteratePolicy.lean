import LoopOver.Number
import LoopOver.Settings.Autonomy
import LoopOver.Text
import Mathlib.Data.List.Dedup

/-!
# What an iteration of an attempt decides, and what it costs

`packages/loopover-engine/src/miner/iterate-policy.ts` decides after an iteration whether the
attempt goes on, is handed off or abandoned, and `attempt-metering.ts` adds up its usage and holds
it against a budget.

* `decideNextActionWithReason_handoff` and `decideNextActionWithReason_continue` say when a decision
  hands off and when it goes on.
* `accumulateAttemptUsage_error` and `evaluateAttemptBudget_error` say what the meter rejects.
-/

namespace LoopOver

/-- The text functions together with the spelling of numbers in a template. -/
structure IterateRuntime extends Runtime where
  numberText : JsNumber → String

/-! ## The policy -/

/-- What an iteration leads to. -/
inductive IterateLoopAction
  | «continue»
  | handoff
  | abandon
  deriving DecidableEq

/-- Why a loop gives up. -/
inductive AbandonReason
  | rejectionSignaled
  | selfReviewAmbiguous
  | maxIterationsReached
  | costCeilingReached
  | noProgress
  | killSwitchEngaged
  | autonomyObserveOnly
  deriving DecidableEq

/-- What the self review found. -/
inductive SelfReviewOutcome
  | pass
  | fail (blockerCodes : List String)
  | ambiguous (reason : Option String)

/-- The part of a verdict that the loop reads. -/
structure SelfReviewVerdict where
  passesPredictedGate : Bool
  /-- The codes of `predictedGateVerdict.blockers`. -/
  blockerCodes : List String
  deriving DecidableEq

def deriveSelfReviewOutcome (verdict : SelfReviewVerdict) : SelfReviewOutcome :=
  if verdict.passesPredictedGate then .pass else .fail verdict.blockerCodes

structure IterationState where
  iterationNumber : ℕ
  maxIterations : ℕ
  costCeilingReached : Option Bool
  selfReview : SelfReviewOutcome
  previousBlockerCodes : Option (List String)
  rejectionSignaled : Bool
  autonomyLevel : Option AutonomyLevel

structure IterateLoopDecision where
  action : IterateLoopAction
  reason : String
  abandonReason : Option AbandonReason := none
  requiresApproval : Bool := false
  deriving DecidableEq

def blockerSetsEqual (current previous : List String) : Bool :=
  current.length = previous.length ∧ current.dedup.length = previous.dedup.length ∧
    ∀ code ∈ current.dedup, code ∈ previous

/-- `${text ? `: ${text}` : "."}`, the end of a message that may have a reason. -/
def reasonSuffix (text : Option String) : String :=
  match truthy text with
  | some text => ": " ++ text
  | none => "."

def decideNextActionWithReason (rt : IterateRuntime) (state : IterationState) :
    IterateLoopDecision :=
  if state.rejectionSignaled then
    { action := .abandon
      abandonReason := some .rejectionSignaled
      reason :=
        "Repo or contributor has signaled it does not want automated contributions; disengaging " ++
        "silently rather than retry-hammering." }
  else
    match state.selfReview with
    | .ambiguous reason =>
      { action := .abandon
        abandonReason := some .selfReviewAmbiguous
        reason := "Self-review could not conclusively determine pass/fail" ++ reasonSuffix reason ++
          " Downgrading to abandon rather than optimistically handing off." }
    | .pass =>
      match state.autonomyLevel.getD .auto with
      | .observe =>
        { action := .abandon
          abandonReason := some .autonomyObserveOnly
          reason :=
            "Self-review reached a clean predicted-gate pass, but the configured self-loop " ++
            "autonomy level is observe-only; stopping without handing off." }
      | .autoWithApproval =>
        { action := .handoff
          reason := "Self-review reached a clean predicted-gate pass."
          requiresApproval := true }
      | .auto =>
        { action := .handoff, reason := "Self-review reached a clean predicted-gate pass." }
    | .fail blockerCodes =>
      if state.maxIterations ≤ state.iterationNumber then
        { action := .abandon
          abandonReason := some .maxIterationsReached
          reason :=
            "Reached the iteration ceiling (" ++ rt.numberText (.finite state.maxIterations) ++
            ") without a clean predicted-gate pass." }
      else if state.costCeilingReached = some true then
        { action := .abandon
          abandonReason := some .costCeilingReached
          reason :=
            "Reached the attempt's cost ceiling (cumulative driver spend across every iteration " ++
            "so far) without a clean predicted-gate pass." }
      else if state.previousBlockerCodes.any (blockerSetsEqual blockerCodes) then
        { action := .abandon
          abandonReason := some .noProgress
          reason := "Blocker set unchanged from the prior iteration (" ++
            (truthy (some (", ".intercalate blockerCodes))).getD "no blockers listed" ++
            "); stopping rather than repeating an attempt that is not converging." }
      else
        { action := .continue
          reason :=
            "Self-review still failing but the blocker set changed since the prior iteration; " ++
            "continuing." }

section Policy

variable {rt : IterateRuntime} {state : IterationState}

/-- Only a pass is handed off, without a rejection and above `observe`. -/
theorem decideNextActionWithReason_handoff
    (h : (decideNextActionWithReason rt state).action = .handoff) :
    state.rejectionSignaled = false ∧ state.selfReview = .pass ∧
      state.autonomyLevel ≠ some .observe := by
  unfold decideNextActionWithReason at h
  split at h
  · cases h
  · next hrejected =>
    refine ⟨Bool.eq_false_iff.2 hrejected, ?_⟩
    split at h
    · cases h
    · next hpass =>
      refine ⟨hpass, fun hobserve => ?_⟩
      rw [hobserve] at h
      cases h
    · split at h
      · cases h
      · split at h
        · cases h
        · split at h
          · cases h
          · cases h

/-- Only a failed review goes on, and not at the ceiling. -/
theorem decideNextActionWithReason_continue
    (h : (decideNextActionWithReason rt state).action = .continue) :
    state.iterationNumber < state.maxIterations := by
  unfold decideNextActionWithReason at h
  split at h
  · cases h
  · split at h
    · cases h
    · split at h
      · cases h
      · cases h
      · cases h
    · split at h
      · cases h
      · next hbelow => exact Nat.not_le.1 hbelow

end Policy

/-! ## The meter -/

structure AttemptUsage where
  tokens : JsNumber
  turns : JsNumber
  wallClockMs : JsNumber
  costUsd : JsNumber
  deriving DecidableEq

/-- The ceilings; an axis without one is not limited. -/
structure AttemptBudget where
  maxTokens : Option JsNumber := none
  maxTurns : Option JsNumber := none
  maxWallClockMs : Option JsNumber := none
  maxCostUsd : Option JsNumber := none

/-- What an attempt may use up. -/
inductive AttemptBudgetAxis
  | tokens
  | turns
  | wallClockMs
  | costUsd
  deriving DecidableEq

def AttemptBudgetAxis.name : AttemptBudgetAxis → String
  | tokens => "tokens"
  | turns => "turns"
  | wallClockMs => "wallClockMs"
  | costUsd => "costUsd"

structure AttemptMeterVerdict where
  totals : AttemptUsage
  withinBudget : Bool
  breaches : List AttemptBudgetAxis

/-- The check of every number the meter takes in. -/
def isNonNegativeFinite : JsNumber → Bool
  | .finite value => 0 ≤ value
  | _ => false

/-- The message of the `RangeError`, if there is one. -/
def assertNonNegativeFiniteNumber (name : String) (value : JsNumber) : Except String Unit :=
  if isNonNegativeFinite value then pure ()
  else throw (name ++ " must be a finite, non-negative number")

def assertAttemptUsage (name : String) (usage : AttemptUsage) : Except String Unit := do
  assertNonNegativeFiniteNumber (name ++ ".tokens") usage.tokens
  assertNonNegativeFiniteNumber (name ++ ".turns") usage.turns
  assertNonNegativeFiniteNumber (name ++ ".wallClockMs") usage.wallClockMs
  assertNonNegativeFiniteNumber (name ++ ".costUsd") usage.costUsd

/-- A ceiling is checked only where there is one. -/
def assertCeiling (name : String) : Option JsNumber → Except String Unit
  | some value => assertNonNegativeFiniteNumber name value
  | none => pure ()

def assertAttemptBudget (budget : AttemptBudget) : Except String Unit := do
  assertCeiling "budget.maxTokens" budget.maxTokens
  assertCeiling "budget.maxTurns" budget.maxTurns
  assertCeiling "budget.maxWallClockMs" budget.maxWallClockMs
  assertCeiling "budget.maxCostUsd" budget.maxCostUsd

/-- Fold one usage increment into a running total. -/
def accumulateAttemptUsage (total next : AttemptUsage) : Except String AttemptUsage := do
  assertAttemptUsage "total" total
  assertAttemptUsage "next" next
  pure
    { tokens := total.tokens.plus next.tokens
      turns := total.turns.plus next.turns
      wallClockMs := total.wallClockMs.plus next.wallClockMs
      costUsd := total.costUsd.plus next.costUsd }

/-- An axis is breached at its ceiling already. -/
def breachOf (axis : AttemptBudgetAxis) (total : JsNumber) (ceiling : Option JsNumber) :
    List AttemptBudgetAxis :=
  if ceiling.any fun ceiling => ceiling.le total then [axis] else []

def evaluateAttemptBudget (totals : AttemptUsage) (budget : AttemptBudget) :
    Except String AttemptMeterVerdict := do
  assertAttemptUsage "totals" totals
  assertAttemptBudget budget
  let breaches := breachOf .tokens totals.tokens budget.maxTokens ++
    breachOf .turns totals.turns budget.maxTurns ++
    breachOf .wallClockMs totals.wallClockMs budget.maxWallClockMs ++
    breachOf .costUsd totals.costUsd budget.maxCostUsd
  pure ⟨totals, breaches.isEmpty, breaches⟩

/-- All four numbers pass the check. -/
def AttemptUsage.Metered (usage : AttemptUsage) : Prop :=
  isNonNegativeFinite usage.tokens = true ∧ isNonNegativeFinite usage.turns = true ∧
    isNonNegativeFinite usage.wallClockMs = true ∧ isNonNegativeFinite usage.costUsd = true

/-- Every ceiling there is passes the check. -/
def AttemptBudget.Metered (budget : AttemptBudget) : Prop :=
  ∀ ceiling ∈ [budget.maxTokens, budget.maxTurns, budget.maxWallClockMs, budget.maxCostUsd],
    ceiling.all isNonNegativeFinite = true

section Meter

variable {name : String}

theorem assertNonNegativeFiniteNumber_ok {value : JsNumber}
    (h : isNonNegativeFinite value = true) : assertNonNegativeFiniteNumber name value = .ok () :=
  if_pos h

theorem assertAttemptUsage_ok {usage : AttemptUsage} (h : usage.Metered) :
    assertAttemptUsage name usage = .ok () := by
  obtain ⟨htokens, hturns, hwallClockMs, hcostUsd⟩ := h
  rw [assertAttemptUsage, assertNonNegativeFiniteNumber_ok htokens,
    assertNonNegativeFiniteNumber_ok hturns, assertNonNegativeFiniteNumber_ok hwallClockMs,
    assertNonNegativeFiniteNumber_ok hcostUsd]
  rfl

theorem assertCeiling_ok {ceiling : Option JsNumber}
    (h : ceiling.all isNonNegativeFinite = true) : assertCeiling name ceiling = .ok () := by
  cases ceiling with
  | none => rfl
  | some value => exact assertNonNegativeFiniteNumber_ok h

variable {budget : AttemptBudget}

theorem assertAttemptBudget_ok (h : budget.Metered) :
    assertAttemptBudget budget = .ok () := by
  rw [assertAttemptBudget, assertCeiling_ok (h _ (by simp)), assertCeiling_ok (h _ (by simp)),
    assertCeiling_ok (h _ (by simp)), assertCeiling_ok (h _ (by simp))]
  rfl

/-- The meter rejects an increment only when a number of it or of the total does not pass. -/
theorem accumulateAttemptUsage_error {total next : AttemptUsage} {message : String}
    (h : accumulateAttemptUsage total next = .error message) : ¬total.Metered ∨ ¬next.Metered := by
  by_contra hboth
  rw [not_or, not_not, not_not] at hboth
  rw [accumulateAttemptUsage, assertAttemptUsage_ok hboth.1, assertAttemptUsage_ok hboth.2] at h
  cases h

theorem evaluateAttemptBudget_error {totals : AttemptUsage} {message : String}
    (h : evaluateAttemptBudget totals budget = .error message) :
    ¬totals.Metered ∨ ¬budget.Metered := by
  by_contra hboth
  rw [not_or, not_not, not_not] at hboth
  rw [evaluateAttemptBudget, assertAttemptUsage_ok hboth.1, assertAttemptBudget_ok hboth.2] at h
  cases h

theorem evaluateAttemptBudget_within {totals : AttemptUsage}
    {verdict : AttemptMeterVerdict} (h : evaluateAttemptBudget totals budget = .ok verdict) :
    verdict.withinBudget = verdict.breaches.isEmpty := by
  unfold evaluateAttemptBudget at h
  cases htotals : assertAttemptUsage "totals" totals with
  | error message =>
    rw [htotals] at h
    cases h
  | ok _ =>
    cases hbudget : assertAttemptBudget budget with
    | error message =>
      rw [htotals, hbudget] at h
      cases h
    | ok _ =>
      rw [htotals, hbudget] at h
      cases h
      rfl

end Meter

end LoopOver
