import LoopOver.Miner.IterateLoop

/-!
# What every run of the loop keeps to

The course of a run is what the host sees of it: aborts that were observed, invocations of the
driver (for another mode than `live`, the log entry that stands for one), reviews and decisions.

* `IterationSteps` is what one iteration leaves in the course: an invocation, a review if the driver
  succeeded and the budget holds, and one decision.
* `iterateRound_leads` says what a round can do, and `Script.rounds_leads` makes the loop of it.
* **`iterate_loop_safe`**: for every host, also one that throws. `paused_iteration_used` is a run
  that uses an iteration without a call of the driver.
-/

namespace LoopOver.Iterate

open List Script

/-! ## The course of a run -/

inductive CourseStep
  | aborted
  /-- The driver was called, or in another mode than `live` only logged. -/
  | invoked (live : Bool) (result : CodingAgentDriverResult)
  | reviewed (diff : AttemptDiffState) (reply : Except String SelfReviewVerdict)
  | decided (iterationNumber : ℕ) (action : IterateLoopAction)
      (abandonReason : Option AbandonReason)

section Course

variable (rt : IterateRuntime)

def courseStep : IterateEvent → Option CourseStep
  | ⟨.shouldAbort, .ok raw⟩ => if (abortReason rt.toRuntime raw).isSome then some .aborted else none
  | ⟨.runDriver _, reply⟩ => some (.invoked true (driverResultOf reply))
  | ⟨.runSelfReview diff, reply⟩ => some (.reviewed diff reply)
  | ⟨.appendAttemptLogEvent event, _⟩ =>
    match event.payload with
    | .decided iterationNumber action abandonReason _ =>
      some (.decided iterationNumber action abandonReason)
    | .pausedIn _ => some (.invoked false pausedResult)
    | .shadowed workingDirectory acceptanceCriteriaPath maxTurns =>
      some (.invoked false (shadowResult rt workingDirectory acceptanceCriteriaPath maxTurns))
    | .started _ _ => none
  | _ => none

def course (t : List IterateEvent) : List CourseStep := t.filterMap (courseStep rt)

end Course

/-- The calls of the driver. -/
def driverCalls (steps : List CourseStep) : List CourseStep :=
  steps.filter fun
    | .invoked live _ => live
    | _ => false

/-- The decision of the policy on an iteration. -/
def policyDecision (rt : IterateRuntime) (input : IterateLoopInput)
    (maxIterations iterationNumber : ℕ) (selfReview : SelfReviewOutcome)
    (previousBlockerCodes : Option (List String)) : IterateLoopDecision :=
  decideNextActionWithReason rt
    { iterationNumber := iterationNumber
      maxIterations := maxIterations
      costCeilingReached := none
      selfReview := selfReview
      previousBlockerCodes := previousBlockerCodes
      rejectionSignaled := input.rejectionSignaled
      autonomyLevel := input.autonomyLevel }

/-- The outcome of a review that did not take place. -/
def failedReview (driverResult : CodingAgentDriverResult) : SelfReviewOutcome :=
  .ambiguous (some ("driver run did not complete successfully" ++ reasonSuffix driverResult.error))

/-- The step that the invocation of an iteration is. -/
def invocationStep (input : IterateLoopInput) (driverResult : CodingAgentDriverResult) :
    CourseStep :=
  .invoked (codingAgentModeExecutes input.mode) driverResult

/-- The step that the decision of an iteration is. -/
def decisionStep (iterationNumber : ℕ) (decision : IterateLoopDecision) : CourseStep :=
  .decided iterationNumber decision.action decision.abandonReason

/-- What an iteration leaves in the course. The policy decides, unless the budget is breached. -/
inductive IterationSteps (rt : IterateRuntime) (input : IterateLoopInput) (maxIterations : ℕ)
    (breaches : List AttemptBudgetAxis) : IterateLoopIterationRecord → List CourseStep → Prop
  | failed {iterationNumber : ℕ} {driverResult : CodingAgentDriverResult}
      (previousBlockerCodes : Option (List String)) {decision : IterateLoopDecision}
      (hok : driverResult.ok = false)
      (hdecision : decision = policyDecision rt input maxIterations iterationNumber
        (failedReview driverResult) previousBlockerCodes) :
      IterationSteps rt input maxIterations breaches ⟨iterationNumber, driverResult, decision⟩
        [invocationStep input driverResult, decisionStep iterationNumber decision]
  | reviewed {iterationNumber : ℕ} {driverResult : CodingAgentDriverResult}
      (previousBlockerCodes : Option (List String)) (reply : Except String SelfReviewVerdict)
      {decision : IterateLoopDecision} (hok : driverResult.ok = true)
      (hdecision : decision = policyDecision rt input maxIterations iterationNumber
        (reviewOutcomeOf reply).1 previousBlockerCodes) :
      IterationSteps rt input maxIterations breaches ⟨iterationNumber, driverResult, decision⟩
        [invocationStep input driverResult,
          .reviewed (buildAttemptDiffState input driverResult) reply,
          decisionStep iterationNumber decision]
  | breached {iterationNumber : ℕ} {driverResult : CodingAgentDriverResult}
      (hbreaches : breaches ≠ []) :
      IterationSteps rt input maxIterations breaches
        ⟨iterationNumber, driverResult, budgetDecision rt iterationNumber breaches⟩
        [invocationStep input driverResult,
          decisionStep iterationNumber (budgetDecision rt iterationNumber breaches)]

/-- What a handoff rests on: the last iteration, with the end of the course. -/
structure Earned (input : IterateLoopInput) (record : IterateLoopIterationRecord)
    (verdict : SelfReviewVerdict) (steps : List CourseStep) : Prop where
  steps_eq : steps = [invocationStep input record.driverResult,
    .reviewed (buildAttemptDiffState input record.driverResult) (.ok verdict),
    decisionStep record.iterationNumber record.decision]
  succeeded : record.driverResult.ok = true
  passed : verdict.passesPredictedGate = true
  unrejected : input.rejectionSignaled = false
  acting : input.autonomyLevel ≠ some .observe

/-- Why the loop can reject: a call that is not guarded threw, or the meter was given a reading of
the clock, a ceiling or a total that it does not take. -/
def Rejects (input : IterateLoopInput) (t : List IterateEvent) (tracker : MeterTracker) :
    IterateError → Prop
  | .thrown message =>
    ⟨IterateCall.shouldAbort, Except.error message⟩ ∈ t ∨
      ⟨IterateCall.nowMs, Except.error message⟩ ∈ t
  | .range _ =>
    (∃ reading : JsNumber, ⟨IterateCall.nowMs, Except.ok reading⟩ ∈ t ∧
      ∀ value, reading ≠ .finite value) ∨
      ¬tracker.totals.Metered ∨ ∃ budget, input.budget = some budget ∧ ¬budget.Metered

/-! ## The parts of a round -/

variable {r : Except IterateError (IterateLoopCoreResult ⊕ IterateState)}
variable {driverResult : CodingAgentDriverResult}

section Parts

variable {rt : IterateRuntime} {input : IterateLoopInput} {deps : IterateLoopDeps}
  {s s' : MeterTracker} {t : List IterateEvent}

@[simp] theorem course_nil : course rt [] = [] := rfl

theorem course_append (front back : List IterateEvent) :
    course rt (front ++ back) = course rt front ++ course rt back :=
  filterMap_append

theorem course_cons (event : IterateEvent) (t : List IterateEvent) :
    course rt (event :: t) = (courseStep rt event).toList ++ course rt t := by
  rw [course, filterMap_cons]
  cases courseStep rt event with
  | none => rfl
  | some step => rfl

/-- The probe aborts, does not, or throws. -/
theorem resolveShouldAbort_ends {r : Except IterateError (Option String)}
    (h : (resolveShouldAbort rt.toRuntime deps).Ends s t r s') :
    s' = s ∧ ((∃ reason, r = .ok (some reason) ∧ course rt t = [.aborted]) ∨
      course rt t = [] ∧ (r = .ok none ∨
        ∃ message, r = .error (.thrown message) ∧
          ⟨IterateCall.shouldAbort, Except.error message⟩ ∈ t)) := by
  rw [resolveShouldAbort] at h
  split at h
  · obtain ⟨reply, back, rfl, hback⟩ := ends_ask_bind.1 h
    rcases ends_ofExcept_mapError_bind.1 hback with ⟨message, rfl, rfl, rfl, rfl⟩ |
      ⟨raw, rfl, hrest⟩
    · exact ⟨rfl, Or.inr ⟨rfl, Or.inr ⟨message, rfl, mem_cons_self⟩⟩⟩
    · obtain ⟨rfl, rfl, rfl⟩ := ends_pure.1 hrest
      refine ⟨rfl, ?_⟩
      rw [course_cons, courseStep]
      cases abortReason rt.toRuntime raw with
      | none => exact Or.inr ⟨rfl, Or.inl rfl⟩
      | some reason => exact Or.inl ⟨reason, rfl, rfl⟩
  · obtain ⟨rfl, rfl, rfl⟩ := ends_pure.1 h
    exact ⟨rfl, Or.inr ⟨rfl, Or.inl rfl⟩⟩

/-- The clock is read, or throws. -/
theorem readClock_ends (rt : IterateRuntime) {r : Except IterateError JsNumber}
    (h : readClock.Ends s t r s') :
    s' = s ∧ course rt t = [] ∧
      ((∃ reading, r = .ok reading ∧ ⟨IterateCall.nowMs, Except.ok reading⟩ ∈ t) ∨
        ∃ message, r = .error (.thrown message) ∧
          ⟨IterateCall.nowMs, Except.error message⟩ ∈ t) := by
  obtain ⟨reply, back, rfl, hback⟩ := ends_ask_bind.1 h
  obtain ⟨rfl, rfl, rfl⟩ := ends_ofExcept.1 hback
  refine ⟨rfl, rfl, ?_⟩
  cases reply with
  | error message => exact Or.inr ⟨message, rfl, mem_cons_self⟩
  | ok reading => exact Or.inl ⟨reading, rfl, mem_cons_self⟩

/-- The driver is invoked, whatever the mode, and its result comes back. -/
theorem runDriverSafely_ends {task : CodingAgentDriverTask}
    {r : Except IterateError CodingAgentDriverResult}
    (h : (runDriverSafely rt input task).Ends s t r s') :
    s' = s ∧ ∃ driverResult, r = .ok driverResult ∧
      course rt t = [invocationStep input driverResult] := by
  unfold runDriverSafely at h
  split at h
  · next hlive =>
    obtain ⟨reply, back, rfl, hback⟩ := ends_ask_bind.1 h
    obtain ⟨rfl, rfl, rfl⟩ := ends_pure.1 hback
    refine ⟨rfl, driverResultOf reply, rfl, ?_⟩
    rw [invocationStep, hlive]
    rfl
  · next hnot =>
    have hmode : codingAgentModeExecutes input.mode = false := Bool.eq_false_iff.2 hnot
    unfold invokeCodingAgentDriver at h
    split at h
    · obtain ⟨reply, back, rfl, hback⟩ := ends_tell_bind.1 h
      obtain ⟨rfl, rfl, rfl⟩ := ends_pure.1 hback
      refine ⟨rfl, pausedResult, rfl, ?_⟩
      rw [invocationStep, hmode]
      rfl
    · obtain ⟨reply, back, rfl, hback⟩ := ends_tell_bind.1 h
      obtain ⟨rfl, rfl, rfl⟩ := ends_pure.1 hback
      refine ⟨rfl, _, rfl, ?_⟩
      rw [invocationStep, hmode]
      rfl

/-- Between two readings of the clock that are numbers, the time is one the meter takes. -/
theorem elapsed_metered {start finish : JsNumber}
    (h : isNonNegativeFinite (JsNumber.max 0 (finish.sub start)) = false) :
    (∀ value, start ≠ .finite value) ∨ ∀ value, finish ≠ .finite value := by
  by_contra hboth
  simp only [not_or, not_forall, not_not] at hboth
  obtain ⟨⟨start, rfl⟩, finish, rfl⟩ := hboth
  rw [JsNumber.sub, JsNumber.add, JsNumber.max, if_neg (by simp)] at h
  split at h
  · next hlt =>
    have hpos : (0 : ℚ) < finish + -start := by
      have hcast : ((0 : ℕ) : ℚ) < finish + -start := of_decide_eq_true hlt
      rwa [Nat.cast_zero] at hcast
    exact absurd (decide_eq_true hpos.le) (Bool.eq_false_iff.1 h)
  · cases h

theorem finiteNonNegativeUsage_metered (value : Option JsNumber) :
    isNonNegativeFinite (finiteNonNegativeUsage value) = true := by
  have hzero : isNonNegativeFinite 0 = true := by decide
  cases value with
  | none => exact hzero
  | some value =>
    rw [finiteNonNegativeUsage]
    split
    · next hvalue => exact hvalue
    · exact hzero

/-- An iteration that the meter does not take took a time that is no number. -/
theorem usageOf_metered {elapsedMs : JsNumber}
    (h : ¬(usageOf driverResult elapsedMs).Metered) : isNonNegativeFinite elapsedMs = false := by
  refine Bool.eq_false_iff.2 fun helapsed => h ?_
  exact ⟨finiteNonNegativeUsage_metered _, finiteNonNegativeUsage_metered _, helapsed,
    finiteNonNegativeUsage_metered _⟩

/-- The clock throws before the driver is invoked, or the driver is invoked. -/
theorem timedDriver_ends {r : Except IterateError (CodingAgentDriverResult × JsNumber)}
    (h : (timedDriver rt input).Ends s t r s') :
    s' = s ∧ ((∃ message, r = .error (.thrown message) ∧ course rt t = [] ∧
        ⟨IterateCall.nowMs, Except.error message⟩ ∈ t) ∨
      ∃ driverResult, course rt t = [invocationStep input driverResult] ∧
        ((∃ message, r = .error (.thrown message) ∧ ⟨IterateCall.nowMs, Except.error message⟩ ∈ t) ∨
          ∃ elapsedMs, r = .ok (driverResult, elapsedMs) ∧ (isNonNegativeFinite elapsedMs = false →
            ∃ reading : JsNumber, ⟨IterateCall.nowMs, Except.ok reading⟩ ∈ t ∧
              ∀ value, reading ≠ .finite value))) := by
  rcases ends_bind.1 h with ⟨e, hstart, rfl⟩ | ⟨t₁, start, s₁, rest₁, hstart, hrest₁, rfl⟩
  · obtain ⟨rfl, hcourse, ⟨_, hr, -⟩ | ⟨message, hr, hmem⟩⟩ := readClock_ends rt hstart
    · cases hr
    · cases hr
      exact ⟨rfl, Or.inl ⟨message, rfl, hcourse, hmem⟩⟩
  · obtain ⟨rfl, hcourse₁, ⟨_, hr, hmem₁⟩ | ⟨_, hr, -⟩⟩ := readClock_ends rt hstart
    · cases hr
      rcases ends_bind.1 hrest₁ with
        ⟨e, hdriver, -⟩ | ⟨t₂, driverResult, s₂, rest₂, hdriver, hrest₂, rfl⟩
      · obtain ⟨-, _, hr, -⟩ := runDriverSafely_ends hdriver
        cases hr
      · obtain ⟨rfl, _, hr, hcourse₂⟩ := runDriverSafely_ends hdriver
        cases hr
        rcases ends_bind.1 hrest₂ with
          ⟨e, hfinish, rfl⟩ | ⟨t₃, finish, s₃, rest₃, hfinish, hrest₃, rfl⟩
        · obtain ⟨rfl, hcourse₃, ⟨_, hr, -⟩ | ⟨message, hr, hmem⟩⟩ := readClock_ends rt hfinish
          · cases hr
          · cases hr
            refine ⟨rfl, Or.inr ⟨driverResult, ?_, Or.inl ⟨message, rfl, ?_⟩⟩⟩
            · rw [course_append, course_append, hcourse₁, hcourse₂, hcourse₃]
              rfl
            · exact mem_append_right _ (mem_append_right _ hmem)
        · obtain ⟨rfl, hcourse₃, ⟨_, hr, hmem₃⟩ | ⟨_, hr, -⟩⟩ := readClock_ends rt hfinish
          · cases hr
            obtain ⟨rfl, rfl, rfl⟩ := ends_pure.1 hrest₃
            refine ⟨rfl, Or.inr ⟨driverResult, ?_, Or.inr ⟨_, rfl, fun hbad => ?_⟩⟩⟩
            · rw [course_append, course_append, course_append, hcourse₁, hcourse₂, hcourse₃]
              rfl
            · rcases elapsed_metered hbad with hstart | hfinish
              · exact ⟨start, mem_append_left _ hmem₁, hstart⟩
              · refine ⟨finish, ?_, hfinish⟩
                exact mem_append_right _ (mem_append_right _ (mem_append_left _ hmem₃))
          · cases hr
    · cases hr

/-- The meter takes the usage and gives the breaches, or does not take a number. -/
theorem meterUsage_ends {usage : AttemptUsage} {r : Except IterateError (List AttemptBudgetAxis)}
    (h : (meterUsage input usage).Ends s t r s') :
    t = [] ∧ (r = .ok s'.breaches ∨ ∃ message, r = .error (.range message) ∧
      (¬usage.Metered ∨ ¬s'.totals.Metered ∨ ∃ budget, input.budget = some budget ∧
        ¬budget.Metered)) := by
  rw [meterUsage, ends_get_bind] at h
  rcases ends_ofExcept_mapError_bind.1 h with
    ⟨message, haccumulate, rfl, rfl, rfl⟩ | ⟨totals, -, htotals⟩
  · refine ⟨rfl, Or.inr ⟨message, rfl, ?_⟩⟩
    rcases accumulateAttemptUsage_error haccumulate with htotals | husage
    · exact Or.inr (Or.inl htotals)
    · exact Or.inl husage
  · rw [ends_modify_bind] at htotals
    cases hbudget : input.budget with
    | none =>
      rw [hbudget] at htotals
      dsimp only at htotals
      rw [ends_modify_bind] at htotals
      obtain ⟨rfl, rfl, rfl⟩ := ends_pure.1 htotals
      exact ⟨rfl, Or.inl rfl⟩
    | some budget =>
      rw [hbudget] at htotals
      dsimp only at htotals
      rcases ends_ofExcept_mapError_bind.1 htotals with
        ⟨message, hevaluate, rfl, rfl, rfl⟩ | ⟨verdict, hevaluate, hrest⟩
      · refine ⟨rfl, Or.inr ⟨message, rfl, Or.inr ?_⟩⟩
        rcases evaluateAttemptBudget_error hevaluate with htotals | hceilings
        · exact Or.inl htotals
        · exact Or.inr ⟨budget, rfl, hceilings⟩
      · rw [ends_modify_bind] at hrest
        obtain ⟨rfl, rfl, rfl⟩ := ends_pure.1 hrest
        refine ⟨rfl, Or.inl ?_⟩
        rw [evaluateAttemptBudget_within hevaluate]
        cases verdict.breaches with
        | nil => rfl
        | cons axis breaches => rfl

theorem reviewOutcomeOf_pass {reply : Except String SelfReviewVerdict}
    (h : (reviewOutcomeOf reply).1 = .pass) :
    ∃ verdict, reply = .ok verdict ∧ verdict.passesPredictedGate = true := by
  cases reply with
  | error message => cases h
  | ok verdict =>
    refine ⟨verdict, rfl, ?_⟩
    rw [reviewOutcomeOf, deriveSelfReviewOutcome] at h
    by_contra hfails
    rw [if_neg hfails] at h
    cases h

theorem evaluateSelfReviewOutcome_ends (rt : IterateRuntime)
    {r : Except IterateError (SelfReviewOutcome × Option SelfReviewVerdict)}
    (h : (evaluateSelfReviewOutcome input driverResult).Ends s t r s') :
    s' = s ∧
      ((driverResult.ok = false ∧ course rt t = [] ∧ r = .ok (failedReview driverResult, none)) ∨
      driverResult.ok = true ∧ ∃ reply, r = .ok (reviewOutcomeOf reply) ∧
        course rt t = [.reviewed (buildAttemptDiffState input driverResult) reply]) := by
  unfold evaluateSelfReviewOutcome at h
  split at h
  · next hok =>
    obtain ⟨reply, back, rfl, hback⟩ := ends_ask_bind.1 h
    obtain ⟨rfl, rfl, rfl⟩ := ends_pure.1 hback
    exact ⟨rfl, Or.inr ⟨hok, reply, rfl, rfl⟩⟩
  · next hfailed =>
    obtain ⟨rfl, rfl, rfl⟩ := ends_pure.1 h
    exact ⟨rfl, Or.inl ⟨Bool.eq_false_iff.2 hfailed, rfl, rfl⟩⟩

/-- What the review and the decision of the policy leave in the course, and what a handoff of it
rests on. -/
theorem evaluateSelfReviewOutcome_steps (rt : IterateRuntime) (maxIterations iterationNumber : ℕ)
    (previousBlockerCodes : Option (List String))
    {selfReview : SelfReviewOutcome} {verdict : Option SelfReviewVerdict}
    (h : (evaluateSelfReviewOutcome input driverResult).Ends s t (.ok (selfReview, verdict)) s') :
    let decision :=
      policyDecision rt input maxIterations iterationNumber selfReview previousBlockerCodes
    ∀ steps, steps = invocationStep input driverResult ::
        (course rt t ++ [decisionStep iterationNumber decision]) →
      IterationSteps rt input maxIterations [] ⟨iterationNumber, driverResult, decision⟩ steps ∧
        (decision.action = .handoff →
          ∃ verdict, Earned input ⟨iterationNumber, driverResult, decision⟩ verdict steps) := by
  intro decision steps hsteps
  obtain ⟨-, ⟨hfailed, hcourse, hr⟩ | ⟨hok, reply, hr, hcourse⟩⟩ :=
    evaluateSelfReviewOutcome_ends rt h
  · obtain ⟨rfl, -⟩ := Prod.mk.inj (Except.ok.inj hr)
    subst hsteps
    rw [hcourse]
    refine ⟨IterationSteps.failed previousBlockerCodes hfailed rfl, fun hhandoff => ?_⟩
    obtain ⟨-, hpass, -⟩ := decideNextActionWithReason_handoff hhandoff
    cases hpass
  · have hselfReview : selfReview = (reviewOutcomeOf reply).1 :=
      congrArg Prod.fst (Except.ok.inj hr)
    have hdecision := congrArg
      (policyDecision rt input maxIterations iterationNumber · previousBlockerCodes) hselfReview
    subst hsteps
    rw [hcourse]
    refine ⟨IterationSteps.reviewed previousBlockerCodes reply hok hdecision, fun hhandoff => ?_⟩
    obtain ⟨hrejected, hpass, hacting⟩ := decideNextActionWithReason_handoff hhandoff
    obtain ⟨passing, rfl, hpasses⟩ := reviewOutcomeOf_pass (hselfReview.symm.trans hpass)
    exact ⟨passing, rfl, hok, hpasses, hrejected, hacting⟩

/-- A decision goes on, or gives a result. -/
theorem settleIteration_cases (input : IterateLoopInput) (iterationNumber : ℕ)
    (driverResult : CodingAgentDriverResult) (selfReview : SelfReviewOutcome)
    (verdict : Option SelfReviewVerdict) (decision : IterateLoopDecision) (state : IterateState) :
    (decision.action = .continue ∧ ∃ next,
      settleIteration input iterationNumber driverResult selfReview verdict decision
        state = .inr next ∧
        next.iterations = state.iterations ++ [⟨iterationNumber, driverResult, decision⟩]) ∨
    ∃ result,
      settleIteration input iterationNumber driverResult selfReview verdict decision state =
        .inl result ∧
        result.iterationsUsed = iterationNumber ∧
        result.iterations = state.iterations ++ [⟨iterationNumber, driverResult, decision⟩] ∧
        (result.outcome = .handoff → decision.action = .handoff) := by
  rw [settleIteration]
  cases decision.action with
  | «continue» => exact Or.inl ⟨rfl, _, rfl, rfl⟩
  | handoff => exact Or.inr ⟨_, rfl, rfl, rfl, fun _ => rfl⟩
  | abandon => exact Or.inr ⟨_, rfl, rfl, rfl, nofun⟩

/-- Where the decision of the policy leads. -/
theorem decideIteration_ends {maxIterations iterationNumber : ℕ} {state : IterateState}
    (h : (decideIteration rt input maxIterations iterationNumber driverResult state).Ends s t r
      s') :
    s' = s ∧
      ∃ decision, IterationSteps rt input maxIterations [] ⟨iterationNumber, driverResult, decision⟩
        (invocationStep input driverResult :: course rt t) ∧
      ((iterationNumber < maxIterations ∧ ∃ next, r = .ok (.inr next) ∧
          next.iterations = state.iterations ++ [⟨iterationNumber, driverResult, decision⟩]) ∨
        ∃ result, r = .ok (.inl result) ∧ result.iterationsUsed = iterationNumber ∧
          result.iterations = state.iterations ++ [⟨iterationNumber, driverResult, decision⟩] ∧
          (result.outcome = .handoff → ∃ verdict,
            Earned input ⟨iterationNumber, driverResult, decision⟩
            verdict (invocationStep input driverResult :: course rt t))) := by
  rcases ends_bind.1 h with
    ⟨e, hreview, -⟩ | ⟨t₁, ⟨selfReview, verdict⟩, s₁, rest, hreview, hrest, rfl⟩
  · obtain ⟨-, ⟨-, -, hr⟩ | ⟨-, reply, hr, -⟩⟩ := evaluateSelfReviewOutcome_ends rt hreview
    · cases hr
    · cases hr
  · obtain ⟨logged, back, rfl, hback⟩ := ends_tell_bind.1 hrest
    obtain ⟨rfl, rfl, rfl⟩ := ends_pure.1 hback
    obtain ⟨rfl, -⟩ := evaluateSelfReviewOutcome_ends rt hreview
    obtain ⟨hsteps, hearned⟩ := evaluateSelfReviewOutcome_steps rt maxIterations iterationNumber
      state.previousBlockerCodes hreview _ rfl
    refine ⟨rfl, policyDecision rt input maxIterations iterationNumber selfReview
      state.previousBlockerCodes, ?_⟩
    rw [course_append]
    refine ⟨hsteps, ?_⟩
    rcases settleIteration_cases input iterationNumber driverResult selfReview verdict
      (policyDecision rt input maxIterations iterationNumber selfReview state.previousBlockerCodes)
      state with
      ⟨hcontinue, next, hnext, hiterations⟩ | ⟨result, hresult, hused, hiterations, hhandoff⟩
    · exact Or.inl ⟨decideNextActionWithReason_continue hcontinue, next, congrArg Except.ok hnext,
        hiterations⟩
    · exact Or.inr ⟨result, congrArg Except.ok hresult, hused, hiterations,
        fun houtcome => hearned (hhandoff houtcome)⟩

end Parts

/-! ## The loop -/

/-- What stands in the course behind the iterations that were decided. -/
inductive CourseEnd (input : IterateLoopInput) (iterationsUsed : ℕ) : List CourseStep → Prop
  | over : CourseEnd input iterationsUsed []
  | aborted : CourseEnd input iterationsUsed
      [.aborted, .decided iterationsUsed .abandon (some .killSwitchEngaged)]
  | refused : CourseEnd input iterationsUsed
      [.decided iterationsUsed .abandon (some .maxIterationsReached)]

/-- Before an iteration: those before it have been decided, and went on. -/
structure Progress (rt : IterateRuntime) (input : IterateLoopInput)
    (maxIterations iterationNumber : ℕ) (state : IterateState) (_ : MeterTracker)
    (seen : List IterateEvent) : Prop where
  number_eq : iterationNumber = state.iterations.length + 1
  number_le : iterationNumber ≤ maxIterations
  blocks : ∃ blocks,
    List.Forall₂ (IterationSteps rt input maxIterations []) state.iterations blocks ∧
    course rt seen = blocks.flatten

/-- A loop that returns: the course is that of its iterations, and a handoff was earned. -/
structure Returned (rt : IterateRuntime) (input : IterateLoopInput) (maxIterations : ℕ)
    (result : IterateLoopCoreResult) (tracker : MeterTracker) (seen : List IterateEvent) :
    Prop where
  used_eq : result.iterationsUsed = result.iterations.length
  used_le : result.iterationsUsed ≤ maxIterations
  blocks : ∃ blocks tail,
    List.Forall₂ (IterationSteps rt input maxIterations tracker.breaches) result.iterations blocks ∧
    CourseEnd input result.iterationsUsed tail ∧ course rt seen = blocks.flatten ++ tail
  handoff : result.outcome = .handoff → tracker.breaches = [] ∧
    ∃ record verdict front steps, result.iterations.getLast? = some record ∧
      Earned input record verdict steps ∧ course rt seen = front ++ steps

/-- A loop that rejects: at most one iteration was not decided. -/
structure Rejected (rt : IterateRuntime) (input : IterateLoopInput) (maxIterations : ℕ)
    (e : IterateError) (tracker : MeterTracker) (seen : List IterateEvent) : Prop where
  rejects : Rejects input seen tracker e
  blocks : ∃ iterations blocks tail,
    List.Forall₂ (IterationSteps rt input maxIterations []) iterations blocks ∧
      iterations.length < maxIterations ∧
      (tail = [] ∨ ∃ driverResult, tail = [invocationStep input driverResult]) ∧
      course rt seen = blocks.flatten ++ tail

/-- How the loop can end. -/
def Settled (rt : IterateRuntime) (input : IterateLoopInput) (maxIterations : ℕ) :
    Except IterateError IterateLoopCoreResult → MeterTracker → List IterateEvent → Prop
  | .ok result => Returned rt input maxIterations result
  | .error e => Rejected rt input maxIterations e

variable {e : IterateError}

section Loop

variable {rt : IterateRuntime} {input : IterateLoopInput} {deps : IterateLoopDeps}
  {maxIterations iterationNumber : ℕ} {state : IterateState} {s s' : MeterTracker}
  {seen t : List IterateEvent}

theorem Rejects.append (h : Rejects input t s e) : Rejects input (seen ++ t) s e := by
  cases e with
  | thrown message =>
    rcases h with h | h
    · exact Or.inl (mem_append_right _ h)
    · exact Or.inr (mem_append_right _ h)
  | range message =>
    rcases h with ⟨reading, hmem, hreading⟩ | h
    · exact Or.inl ⟨reading, mem_append_right _ hmem, hreading⟩
    · exact Or.inr h

variable {breaches : List AttemptBudgetAxis}

/-- A decision of the policy stands whatever the budget. -/
theorem IterationSteps.within {record : IterateLoopIterationRecord} {steps : List CourseStep}
    (h : IterationSteps rt input maxIterations [] record steps) :
    IterationSteps rt input maxIterations breaches record steps := by
  cases h with
  | failed previousBlockerCodes hok hdecision => exact .failed previousBlockerCodes hok hdecision
  | reviewed previousBlockerCodes reply hok hdecision =>
    exact .reviewed previousBlockerCodes reply hok hdecision
  | breached hbreaches => exact absurd rfl hbreaches

theorem blocks_within {iterations : List IterateLoopIterationRecord}
    {blocks : List (List CourseStep)}
    (h : List.Forall₂ (IterationSteps rt input maxIterations []) iterations blocks) :
    List.Forall₂ (IterationSteps rt input maxIterations breaches) iterations blocks :=
  h.imp fun _ _ => IterationSteps.within

/-- A round that rejects leaves at most the invocation in the course. -/
theorem Progress.rejected (h : Progress rt input maxIterations iterationNumber state s seen)
    {tail : List CourseStep} (hcourse : course rt t = tail)
    (htail : tail = [] ∨ ∃ driverResult, tail = [invocationStep input driverResult])
    (hrejects : Rejects input t s' e) : Rejected rt input maxIterations e s' (seen ++ t) := by
  obtain ⟨blocks, hblocks, hseen⟩ := h.blocks
  refine ⟨hrejects.append, state.iterations, blocks, tail, hblocks, ?_, htail, ?_⟩
  · have hnumber := h.number_eq
    have hle := h.number_le
    omega
  · rw [course_append, hseen, hcourse]

/-- A round that comes to a decision adds its steps to the course. -/
theorem Progress.decided (h : Progress rt input maxIterations iterationNumber state s seen)
    {decision : IterateLoopDecision}
    (hsteps : IterationSteps rt input maxIterations breaches ⟨iterationNumber,
      driverResult, decision⟩
      (course rt t)) :
    ∃ blocks, List.Forall₂ (IterationSteps rt input maxIterations breaches)
        (state.iterations ++ [⟨iterationNumber, driverResult, decision⟩]) blocks ∧
      course rt (seen ++ t) = blocks.flatten := by
  obtain ⟨blocks, hblocks, hseen⟩ := h.blocks
  refine ⟨blocks ++ [course rt t], rel_append (blocks_within hblocks) (.cons hsteps .nil), ?_⟩
  rw [course_append, hseen, flatten_append, flatten_singleton]

/-- A part of a round that leaves nothing in the course. -/
theorem Progress.quiet (h : Progress rt input maxIterations iterationNumber state s seen)
    (hcourse : course rt t = []) :
    Progress rt input maxIterations iterationNumber state s (seen ++ t) := by
  obtain ⟨blocks, hblocks, hseen⟩ := h.blocks
  refine ⟨h.number_eq, h.number_le, blocks, hblocks, ?_⟩
  rw [course_append, hcourse, append_nil, hseen]

/-- The decision of the policy goes on below the ceiling, or returns. -/
theorem decideIteration_leads (h : Progress rt input maxIterations iterationNumber state s seen)
    {front : List IterateEvent} (hfront : course rt front = [invocationStep input driverResult])
    (hbreaches : s'.breaches = []) {state' : IterateState}
    (hdecide : (decideIteration rt input maxIterations iterationNumber driverResult state').Ends s'
      t r s')
    (hstate : state'.iterations = state.iterations) :
    Script.RoundLeads (Progress rt input maxIterations (iterationNumber + 1))
      (Settled rt input maxIterations) (seen ++ (front ++ t)) s' r := by
  obtain ⟨-, decision, hsteps, hleads⟩ := decideIteration_ends hdecide
  have hcourse : course rt (front ++ t) = invocationStep input driverResult :: course rt t := by
    rw [course_append, hfront]
    rfl
  rw [← hcourse] at hsteps hleads
  rw [hstate] at hleads
  obtain ⟨blocks, hblocks, hseen⟩ := h.decided hsteps
  rcases hleads with ⟨hbelow, next, rfl, hiterations⟩ | ⟨result, rfl, hused, hiterations, hhandoff⟩
  · refine ⟨?_, hbelow, blocks, hiterations ▸ hblocks, hseen⟩
    rw [hiterations, length_append]
    exact congrArg (· + 1) h.number_eq
  · refine ⟨?_, hused ▸ h.number_le,
      ⟨blocks, [], hiterations ▸ hbreaches ▸ hblocks, CourseEnd.over, ?_⟩,
      fun houtcome => ⟨hbreaches, ?_⟩⟩
    · rw [hused, hiterations, length_append]
      exact h.number_eq
    · rw [hseen, append_nil]
    · obtain ⟨verdict, hearned⟩ := hhandoff houtcome
      refine ⟨_, verdict, course rt seen, _, ?_, hearned, course_append _ _⟩
      rw [hiterations, List.getLast?_concat]

/-- A breached budget abandons the attempt. -/
theorem breachIteration_leads (h : Progress rt input maxIterations iterationNumber state s seen)
    {front : List IterateEvent} (hfront : course rt front = [invocationStep input driverResult])
    {s₁ : MeterTracker} (hbreaches : s₁.breaches ≠ []) {state' : IterateState}
    (hbreach : (breachIteration rt input iterationNumber s₁.breaches driverResult state').Ends s₁ t
      r s')
    (hstate : state'.iterations = state.iterations) :
    Script.RoundLeads (Progress rt input maxIterations (iterationNumber + 1))
      (Settled rt input maxIterations) (seen ++ (front ++ t)) s' r := by
  obtain ⟨logged, back, rfl, hback⟩ := ends_tell_bind.1 hbreach
  obtain ⟨rfl, rfl, rfl⟩ := ends_pure.1 hback
  have hcourse : course rt (front ++ [⟨_, logged⟩]) = [invocationStep input driverResult,
      decisionStep iterationNumber (budgetDecision rt iterationNumber s'.breaches)] := by
    rw [course_append, hfront]
    rfl
  have hsteps : IterationSteps rt input maxIterations s'.breaches
      ⟨iterationNumber, driverResult, budgetDecision rt iterationNumber s'.breaches⟩ _ :=
    IterationSteps.breached hbreaches
  rw [← hcourse] at hsteps
  obtain ⟨blocks, hblocks, hseen⟩ := h.decided hsteps
  refine ⟨?_, h.number_le, ⟨blocks, [], hstate ▸ hblocks, CourseEnd.over, ?_⟩, nofun⟩
  · rw [hstate, length_append]
    exact h.number_eq
  · rw [hseen, append_nil]

theorem driveIteration_leads (h : Progress rt input maxIterations iterationNumber state s seen)
    (hround : (driveIteration rt input maxIterations iterationNumber state).Ends s t r s') :
    Script.RoundLeads (Progress rt input maxIterations (iterationNumber + 1))
      (Settled rt input maxIterations) (seen ++ t) s' r := by
  rcases ends_bind.1 hround with
    ⟨e, hdriver, rfl⟩ | ⟨t₁, ⟨driverResult, elapsedMs⟩, s₁, rest₁, hdriver, hrest₁, rfl⟩
  · obtain ⟨rfl, ⟨message, hr, hcourse, hmem⟩ |
      ⟨driverResult, hcourse, ⟨message, hr, hmem⟩ | ⟨_, hr, -⟩⟩⟩ := timedDriver_ends hdriver
    · cases hr
      exact h.rejected hcourse (Or.inl rfl) (Or.inr hmem)
    · cases hr
      exact h.rejected hcourse (Or.inr ⟨driverResult, rfl⟩) (Or.inr hmem)
    · cases hr
  · obtain ⟨rfl, ⟨_, hr, -, -⟩ | ⟨_, hcourse, ⟨_, hr, -⟩ | ⟨_, hr, helapsed⟩⟩⟩ :=
      timedDriver_ends hdriver
    · cases hr
    · cases hr
    · cases hr
      rcases ends_bind.1 hrest₁ with
        ⟨e, hmeter, rfl⟩ | ⟨t₂, breaches, s₂, rest₂, hmeter, hrest₂, rfl⟩
      · obtain ⟨rfl, hr | ⟨message, hr, hwhy⟩⟩ := meterUsage_ends hmeter
        · cases hr
        · cases hr
          rw [append_nil]
          refine h.rejected hcourse (Or.inr ⟨driverResult, rfl⟩) ?_
          rcases hwhy with husage | hnot
          · exact Or.inl (helapsed (usageOf_metered husage))
          · exact Or.inr hnot
      · obtain ⟨rfl, hr | ⟨_, hr, -⟩⟩ := meterUsage_ends hmeter
        · cases hr
          rw [nil_append]
          rcases ends_ite.1 hrest₂ with ⟨hnone, hdecide⟩ | ⟨hsome, hbreach⟩
          · obtain ⟨rfl, -⟩ := decideIteration_ends hdecide
            exact decideIteration_leads h hcourse (List.isEmpty_iff.1 hnone) hdecide rfl
          · exact breachIteration_leads h hcourse
              (fun hnil => hsome (List.isEmpty_iff.2 hnil)) hbreach rfl
        · cases hr

/-- **A round of the loop** goes on below the ceiling, or settles the attempt. -/
theorem iterateRound_leads (h : Progress rt input maxIterations iterationNumber state s seen)
    (hround : (iterateRound rt input deps maxIterations iterationNumber state).Ends s t r s') :
    Script.RoundLeads (Progress rt input maxIterations (iterationNumber + 1))
      (Settled rt input maxIterations) (seen ++ t) s' r := by
  rcases ends_bind.1 hround with ⟨e, hprobe, rfl⟩ | ⟨t₁, abort, s₁, rest, hprobe, hrest, rfl⟩
  · obtain ⟨rfl, ⟨_, hr, -⟩ | ⟨hcourse, hr | ⟨message, hr, hmem⟩⟩⟩ := resolveShouldAbort_ends hprobe
    · cases hr
    · cases hr
    · cases hr
      exact h.rejected hcourse (Or.inl rfl) (Or.inl hmem)
  · obtain ⟨rfl, ⟨reason, hr, hcourse⟩ | ⟨hcourse, hr | ⟨_, hr, -⟩⟩⟩ :=
      resolveShouldAbort_ends hprobe
    · -- The abort is observed before the driver is invoked.
      cases hr
      obtain ⟨logged, back, rfl, hback⟩ := ends_tell_bind.1 hrest
      obtain ⟨rfl, rfl, rfl⟩ := ends_pure.1 hback
      obtain ⟨blocks, hblocks, hseen⟩ := h.blocks
      have hnumber := h.number_eq
      have hceiling := h.number_le
      have hused : iterationNumber - 1 = state.iterations.length := by omega
      refine ⟨hused, by dsimp only; omega,
        ⟨blocks, _, blocks_within hblocks, CourseEnd.aborted, ?_⟩, nofun⟩
      rw [course_append, hseen, course_append, hcourse]
      rfl
    · cases hr
      rw [← append_assoc]
      exact driveIteration_leads (h.quiet hcourse) hrest
    · cases hr

/-- The loop never comes to its end: the last round below the ceiling settles the attempt. -/
theorem iterateRounds_settles (hpositive : 0 < maxIterations) (hseen : course rt seen = [])
    (h : (iterateRounds rt input deps maxIterations).Ends s t r s') :
    (∃ result, r = .ok (.inl result) ∧ Returned rt input maxIterations result s' (seen ++ t)) ∨
      ∃ e, r = .error e ∧ Rejected rt input maxIterations e s' (seen ++ t) := by
  have hstart : Progress rt input maxIterations 1 ⟨none, 0, 0, []⟩ s seen :=
    ⟨rfl, hpositive, [], .nil, hseen⟩
  have hleads := rounds_leads (Progress rt input maxIterations) (Settled rt input maxIterations)
    (fun n _ _ carried s seen t r s' hprogress => iterateRound_leads hprogress) hstart h
  cases r with
  | error e => exact Or.inr ⟨e, rfl, hleads⟩
  | ok value =>
    cases value with
    | inl result => exact Or.inl ⟨result, rfl, hleads⟩
    | inr state =>
      have hle := hleads.number_le
      omega

end Loop

/-! ## The run -/

/-- What holds of the calls of the driver in every run, also in one that rejects. -/
structure CourseSafe (input : IterateLoopInput) (steps : List CourseStep) : Prop where
  bounded : (driverCalls steps).length ≤ iterationCap input.maxIterations
  stopped : ∀ front back, steps = front ++ .aborted :: back → driverCalls back = []
  gated : input.mode ≠ .live → driverCalls steps = []

/-- What holds of a run that returns. -/
structure IterateRun (rt : IterateRuntime) (input : IterateLoopInput) (t : List IterateEvent)
    (result : IterateLoopResult) : Prop where
  used_eq : result.iterationsUsed = result.iterations.length
  calls_eq : input.mode = .live → (driverCalls (course rt t)).length = result.iterationsUsed
  blocks : ∃ blocks tail,
    List.Forall₂ (IterationSteps rt input (iterationCap input.maxIterations) result.budgetBreaches)
      result.iterations blocks ∧
    CourseEnd input result.iterationsUsed tail ∧ course rt t = blocks.flatten ++ tail
  handoff : result.outcome = .handoff → result.budgetBreaches = [] ∧
    ∃ record verdict front steps, result.iterations.getLast? = some record ∧
      Earned input record verdict steps ∧ course rt t = front ++ steps

section Run

variable {rt : IterateRuntime} {input : IterateLoopInput} {deps : IterateLoopDeps}
  {maxIterations : ℕ}
  {record : IterateLoopIterationRecord} {iterations : List IterateLoopIterationRecord}
  {steps tail : List CourseStep} {blocks : List (List CourseStep)}
    {breaches : List AttemptBudgetAxis}

theorem driverCalls_append (front back : List CourseStep) :
    driverCalls (front ++ back) = driverCalls front ++ driverCalls back :=
  filter_append _ _

/-- An invocation calls the driver in `live` mode only. -/
theorem driverCalls_invocationStep (input : IterateLoopInput)
    (driverResult : CodingAgentDriverResult) :
    (driverCalls [invocationStep input driverResult]).length =
      if codingAgentModeExecutes input.mode then 1 else 0 := by
  rw [invocationStep, driverCalls]
  cases codingAgentModeExecutes input.mode <;> rfl

/-- An iteration has one invocation, and no abort. -/
theorem IterationSteps.shape (h : IterationSteps rt input maxIterations breaches record steps) :
    (driverCalls steps).length = (if codingAgentModeExecutes input.mode then 1 else 0) ∧
      CourseStep.aborted ∉ steps := by
  cases h with
  | failed previousBlockerCodes hok hdecision =>
    exact ⟨driverCalls_invocationStep input _, by simp [invocationStep, decisionStep]⟩
  | reviewed previousBlockerCodes reply hok hdecision =>
    exact ⟨driverCalls_invocationStep input _, by simp [invocationStep, decisionStep]⟩
  | breached hbreaches =>
    exact ⟨driverCalls_invocationStep input _, by simp [invocationStep, decisionStep]⟩

theorem blocks_shape
    (h : List.Forall₂ (IterationSteps rt input maxIterations breaches) iterations blocks) :
    (driverCalls blocks.flatten).length =
        (if codingAgentModeExecutes input.mode then iterations.length else 0) ∧
      CourseStep.aborted ∉ blocks.flatten := by
  induction h with
  | nil => exact ⟨by simp [driverCalls], not_mem_nil⟩
  | cons hsteps _ ih =>
    obtain ⟨hcalls, habort⟩ := hsteps.shape
    rw [flatten_cons, driverCalls_append, length_append, hcalls, ih.1, length_cons,
      mem_append, not_or]
    refine ⟨?_, habort, ih.2⟩
    split <;> omega

/-- After an abort there is only what stands behind it at the end of the course. -/
theorem courseSafe_of_blocks
    (hblocks : List.Forall₂ (IterationSteps rt input maxIterations breaches) iterations blocks)
    (hcount : (driverCalls blocks.flatten).length + (driverCalls tail).length ≤
      iterationCap input.maxIterations)
    (htail : CourseStep.aborted ∈ tail → driverCalls tail = [])
    (hgated : input.mode ≠ .live → driverCalls tail = []) :
    CourseSafe input (blocks.flatten ++ tail) := by
  obtain ⟨hcalls, habort⟩ := blocks_shape hblocks
  refine ⟨?_, fun front back heq => ?_, fun hmode => ?_⟩
  · rwa [driverCalls_append, length_append]
  · have hsuffix : ∃ middle, tail = middle ++ .aborted :: back := by
      rcases append_eq_append_iff.1 heq with ⟨middle, -, htail⟩ | ⟨middle, hbody, hrest⟩
      · exact ⟨middle, htail⟩
      · cases middle with
        | nil => exact ⟨[], hrest.symm⟩
        | cons step middle =>
          rw [cons_append] at hrest
          obtain ⟨rfl, -⟩ := List.cons.inj hrest
          exact absurd (hbody ▸ mem_append_right _ mem_cons_self) habort
    obtain ⟨middle, rfl⟩ := hsuffix
    have hnone := htail (mem_append_right _ mem_cons_self)
    rw [driverCalls_append] at hnone
    exact (append_eq_nil_iff.1 hnone).2
  · have hnone : codingAgentModeExecutes input.mode = false := decide_eq_false hmode
    rw [hnone] at hcalls
    rw [driverCalls_append, length_eq_zero_iff.1 hcalls, hgated hmode]
    rfl

theorem driverCalls_invocation_le (input : IterateLoopInput)
    (driverResult : CodingAgentDriverResult) :
    (driverCalls [invocationStep input driverResult]).length ≤ 1 := by
  rw [driverCalls_invocationStep]
  split <;> omega

/-- Behind the decided iterations the driver is not called again. -/
theorem CourseEnd.quiet {iterationsUsed : ℕ} (h : CourseEnd input iterationsUsed tail) :
    driverCalls tail = [] := by
  cases h <;> rfl

theorem blocks_calls_le
    (h : List.Forall₂ (IterationSteps rt input maxIterations breaches) iterations blocks) :
    (driverCalls blocks.flatten).length ≤ iterations.length := by
  rw [(blocks_shape h).1]
  split <;> omega

variable {t : List IterateEvent}

theorem Returned.safe {result : IterateLoopCoreResult} {s : MeterTracker}
    (h : Returned rt input (iterationCap input.maxIterations) result s t) :
    CourseSafe input (course rt t) := by
  obtain ⟨blocks, tail, hblocks, hend, hcourse⟩ := h.blocks
  have hcalls := blocks_calls_le hblocks
  have hused := h.used_eq
  have hbound := h.used_le
  rw [hcourse]
  refine courseSafe_of_blocks hblocks ?_ (fun _ => hend.quiet) fun _ => hend.quiet
  rw [hend.quiet, length_nil]
  omega

theorem Rejected.safe {s : MeterTracker}
    (h : Rejected rt input (iterationCap input.maxIterations) e s t) :
    CourseSafe input (course rt t) := by
  obtain ⟨iterations, blocks, tail, hblocks, hlt, htail, hcourse⟩ := h.blocks
  have hcalls := blocks_calls_le hblocks
  rw [hcourse]
  rcases htail with rfl | ⟨driverResult, rfl⟩
  · refine courseSafe_of_blocks hblocks ?_ (fun _ => rfl) fun _ => rfl
    have hnil : driverCalls [] = [] := rfl
    rw [hnil, length_nil]
    omega
  · have hone := driverCalls_invocation_le input driverResult
    refine courseSafe_of_blocks hblocks (by omega) (fun habort => ?_) fun hmode => ?_
    · cases mem_singleton.1 habort
    · have hnone : codingAgentModeExecutes input.mode = false := decide_eq_false hmode
      have hzero := driverCalls_invocationStep input driverResult
      rw [hnone] at hzero
      exact length_eq_zero_iff.1 hzero

/-- A ceiling that permits no iteration. -/
theorem immediateAbandon_returned {s s' : MeterTracker}
    {r : Except IterateError IterateLoopCoreResult}
    (h : (immediateAbandonNoIterationsPermitted rt input).Ends s t r s') :
    ∃ result, r = .ok result ∧
      Returned rt input (iterationCap input.maxIterations) result s' t := by
  obtain ⟨logged, back, rfl, hback⟩ := ends_tell_bind.1 h
  obtain ⟨rfl, rfl, rfl⟩ := ends_pure.1 hback
  exact ⟨_, rfl, rfl, Nat.zero_le _, ⟨[], _, .nil, CourseEnd.refused, rfl⟩, nofun⟩

/-- The core of the loop returns or rejects as its rounds do: the fallback is not taken. -/
theorem runIterateLoopCore_settles {s s' : MeterTracker}
    {r : Except IterateError IterateLoopCoreResult}
    (h : (runIterateLoopCore rt input deps).Ends s t r s') :
    Settled rt input (iterationCap input.maxIterations) r s' t := by
  rcases ends_ite.1 h with ⟨-, hrefuse⟩ | ⟨hcap, hloop⟩
  · obtain ⟨result, rfl, hreturned⟩ := immediateAbandon_returned hrefuse
    exact hreturned
  · obtain ⟨logged, rest, rfl, hrest⟩ := ends_tell_bind.1 hloop
    have hstarted : course rt [⟨_, logged⟩] = [] := rfl
    have hpositive := Nat.pos_of_ne_zero hcap
    rcases ends_bind.1 hrest with ⟨e, hrounds, rfl⟩ | ⟨front, value, s₁, back, hrounds, hback, rfl⟩
    · rcases iterateRounds_settles hpositive hstarted hrounds with ⟨result, hr, -⟩ |
        ⟨_, hr, hrejected⟩
      · cases hr
      · cases hr
        exact hrejected
    · rcases iterateRounds_settles hpositive hstarted hrounds with ⟨result, hr, hreturned⟩ |
        ⟨_, hr, -⟩
      · cases hr
        obtain ⟨rfl, rfl, rfl⟩ := ends_pure.1 hback
        rw [append_nil]
        exact hreturned
      · cases hr

/-- The result of the core, with the totals of the meter. -/
theorem Returned.run {core : IterateLoopCoreResult} {tracker : MeterTracker}
    (h : Returned rt input (iterationCap input.maxIterations) core tracker t) :
    IterateRun rt input t
      { core with finalMeterTotals := tracker.totals, budgetBreaches := tracker.breaches } := by
  refine ⟨h.used_eq, fun hlive => ?_, h.blocks, h.handoff⟩
  obtain ⟨blocks, tail, hblocks, hend, hcourse⟩ := h.blocks
  have hexecutes : codingAgentModeExecutes input.mode = true := decide_eq_true hlive
  have hcalls := (blocks_shape hblocks).1
  rw [hexecutes, if_pos rfl] at hcalls
  rw [hcourse, driverCalls_append, hend.quiet, append_nil, hcalls, h.used_eq]

end Run

/-- **The loop of an attempt is safe**, whatever the host replies and whichever of its calls throw.
The driver is called at most as often as the ceiling says, and not after an abort. A run that
returns has one decision for every invocation, and a handoff of it was earned. The loop never comes
to its end. -/
theorem iterate_loop_safe (rt : IterateRuntime) (input : IterateLoopInput) (deps : IterateLoopDeps)
    {t : List IterateEvent} {r : Except IterateError IterateLoopResult} {s' : MeterTracker}
    (h : (runIterateLoop rt input deps).Ends zeroMeter t r s') :
    CourseSafe input (course rt t) ∧
      (∀ e, r = .error e → Rejects input t s' e) ∧
      (∀ result, r = .ok result → IterateRun rt input t result) ∧
      (0 < iterationCap input.maxIterations → ∀ s t state s',
        ¬(iterateRounds rt input deps (iterationCap input.maxIterations)).Ends s t
          (.ok (.inr state)) s') := by
  have hend : 0 < iterationCap input.maxIterations → ∀ s t state s',
      ¬(iterateRounds rt input deps (iterationCap input.maxIterations)).Ends s t
        (.ok (.inr state)) s' := by
    intro hpositive s t state s' hrounds
    rcases iterateRounds_settles hpositive course_nil hrounds with ⟨_, hr, -⟩ | ⟨_, hr, -⟩
    · cases hr
    · cases hr
  rcases ends_bind.1 h with ⟨e, hcore, rfl⟩ | ⟨front, core, s₁, back, hcore, hback, rfl⟩
  · have hrejected : Rejected rt input _ e s' t := runIterateLoopCore_settles hcore
    refine ⟨hrejected.safe, fun _ he => ?_, fun _ hresult => ?_, hend⟩
    · cases he
      exact hrejected.rejects
    · cases hresult
  · have hreturned : Returned rt input _ core s₁ front := runIterateLoopCore_settles hcore
    rw [ends_get_bind] at hback
    obtain ⟨rfl, rfl, rfl⟩ := ends_pure.1 hback
    rw [append_nil]
    refine ⟨hreturned.safe, fun _ he => ?_, fun _ hresult => ?_, hend⟩
    · cases he
    · cases hresult
      exact hreturned.run

/-- Numbers are not written out. -/
def exampleRuntime : IterateRuntime where
  toRuntime := asciiRuntime
  numberText _ := "n"

def exampleInput (mode : CodingAgentExecutionMode) : IterateLoopInput where
  attemptId := "attempt-1"
  workingDirectory := "/work/widget"
  acceptanceCriteriaPath := "/work/criteria.md"
  instructions := "Fix the widget."
  mode := mode
  maxIterations := 3
  maxTurnsPerIteration := 10
  budget := some ⟨none, some 20, none, none⟩
  repoFullName := "octo/widget"
  contributorLogin := "miner"
  title := "Fix the widget"
  rejectionSignaled := false

/-- A driver that changes a file, a review that passes, and no abort. -/
def passingHost : ∀ call : IterateCall, IterateReply call
  | .appendAttemptLogEvent _ => Except.ok ()
  | .shouldAbort => Except.ok (IterateLoopShouldAbort.flag false)
  | .nowMs => Except.ok (JsNumber.finite 0)
  | .runDriver _ =>
    Except.ok (CodingAgentDriverResult.mk true ["src/widget.ts"] "fixed" (some 4) none none none)
  | .runSelfReview _ => Except.ok (SelfReviewVerdict.mk true [])

/-- The run of the loop against this host. -/
def exampleRun (mode : CodingAgentExecutionMode) :
    List IterateEvent × Except IterateError IterateLoopResult × MeterTracker :=
  (runIterateLoop exampleRuntime (exampleInput mode) ⟨true⟩).play passingHost zeroMeter

theorem exampleRun_ok {mode : CodingAgentExecutionMode} {result : IterateLoopResult}
    (h : (exampleRun mode).2.1.toOption = some result) : (exampleRun mode).2.1 = .ok result := by
  cases hr : (exampleRun mode).2.1 with
  | error e =>
    rw [hr] at h
    cases h
  | ok value =>
    rw [hr] at h
    exact congrArg Except.ok (Option.some.inj h)

theorem iterate_loop_safe_handoff :
    ∃ result, (exampleRun .live).2.1 = .ok result ∧ result.outcome = .handoff ∧
      CourseSafe (exampleInput .live) (course exampleRuntime (exampleRun .live).1) ∧
      IterateRun exampleRuntime (exampleInput .live) (exampleRun .live).1 result := by
  have hends :=
    (runIterateLoop exampleRuntime (exampleInput .live) ⟨true⟩).ends_play passingHost zeroMeter
  obtain ⟨hsafe, -, hrun, -⟩ := iterate_loop_safe exampleRuntime (exampleInput .live) ⟨true⟩ hends
  have houtcome : (exampleRun .live).2.1.toOption.map (·.outcome) = some .handoff := by
    decide +kernel
  obtain ⟨result, hresult, hhandoff⟩ := Option.map_eq_some_iff.1 houtcome
  have hok := exampleRun_ok hresult
  exact ⟨result, hok, hhandoff, hsafe, hrun result hok⟩

/-- A paused attempt uses an iteration without a call of the driver. -/
theorem paused_iteration_used :
    ¬∀ (rt : IterateRuntime) (input : IterateLoopInput) (deps : IterateLoopDeps)
      (t : List IterateEvent)
      (result : IterateLoopResult) (s' : MeterTracker),
      (runIterateLoop rt input deps).Ends zeroMeter t (.ok result) s' →
        result.iterationsUsed = (driverCalls (course rt t)).length := by
  intro hclaim
  have hends :=
    (runIterateLoop exampleRuntime (exampleInput .paused) ⟨true⟩).ends_play passingHost zeroMeter
  have hused : (exampleRun .paused).2.1.toOption.map (·.iterationsUsed) = some 1 := by
    decide +kernel
  have hcalls : (driverCalls (course exampleRuntime (exampleRun .paused).1)).length = 0 := by
    decide +kernel
  obtain ⟨result, hresult, hone⟩ := Option.map_eq_some_iff.1 hused
  have hok := exampleRun_ok hresult
  have hequal := hclaim exampleRuntime (exampleInput .paused) ⟨true⟩ _ result _ (hok ▸ hends)
  exact absurd (hone.symm.trans (hequal.trans hcalls)) (by decide)

end LoopOver.Iterate
