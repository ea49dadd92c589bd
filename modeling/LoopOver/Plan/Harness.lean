import LoopOver.Plan.Agreement
import Mathlib.Algebra.Order.BigOperators.Group.List
import Mathlib.Algebra.Order.Group.Nat

/-!
# Working through a plan

The plan tools of `src/mcp/server.ts` keep nothing: `loopover_build_plan` and
`loopover_record_step_result` answer with the plan, its progress and the steps that can be started.
A harness picks one of these steps, does its work, and reports the result together with the plan.

* `Works` is the work of a harness: every report is on a step that the answer before it lists.
* `Worked` is what such a work keeps, and `Worked.record` its step.
* **`harness_finishes`**: the work comes to an end within the attempts of the plan, and it ends only
  with a plan that is completed or failed.
-/

namespace LoopOver.Harness

open List

/-! ## The tools -/

structure PlanView where
  plan : PlanDag
  progress : PlanProgress
  /-- The id and the title of each. -/
  readySteps : List (String × String)
  validation : PlanValidation

def planView (plan : PlanDag) : PlanView where
  plan := plan
  progress := planProgress plan
  readySteps := (nextReadySteps plan).map fun step => (step.id, step.title)
  validation := validatePlanDag plan

def buildPlan (steps : List PlanStepInput) : PlanView := planView (buildPlanDag steps)

structure StepReport where
  stepId : String
  outcome : StepOutcome
  error : Option String

def recordStepResult (plan : PlanDag) (report : StepReport) : PlanView :=
  planView (applyStepResult plan report.stepId report.outcome report.error)

/-- Reports one after the other, each on a step that the answer before it lists. -/
inductive Works (first : PlanView) : List StepReport → PlanView → Prop
  | start : Works first [] first
  | report {reports : List StepReport} {view : PlanView} (h : Works first reports view)
      (report : StepReport)
      (hready : report.stepId ∈ view.readySteps.map Prod.fst) :
      Works first (reports ++ [report]) (recordStepResult view.plan report)

/-! ## The attempts that are left -/

section Attempts

variable {plan : PlanDag} {step : PlanStep} {call : PlanCall} {stepId : String}
  {outcome : StepOutcome}
  {error : Option String}

/-- The attempts of a step, until it ends. -/
def attemptsLeft (step : PlanStep) : ℕ :=
  if isDone step.status ∨ step.status = .failed then 0 else (step.maxAttempts - step.attempts).toNat

def openAttempts (plan : PlanDag) : ℕ := (plan.steps.map attemptsLeft).sum

theorem attemptsLeft_of_open (h : step.Open) :
    attemptsLeft step = (step.maxAttempts - step.attempts).toNat :=
  if_neg (PlanStep.open_iff.1 h)

theorem attemptsLeft_le (step : PlanStep) :
    attemptsLeft step ≤ (step.maxAttempts - step.attempts).toNat := by
  rw [attemptsLeft]
  split_ifs
  · exact Nat.zero_le _
  · exact le_rfl

theorem attemptsLeft_update_le (call : PlanCall) (step : PlanStep) :
    attemptsLeft (call.update step) ≤ attemptsLeft step := by
  rcases call.update_cases step with hsame | ⟨hpending, hstart⟩ | ⟨hopen, hend | hend⟩ |
    ⟨hopen, error, hfail⟩
  · rw [hsame]
  · rw [hstart, attemptsLeft_of_open (Or.inl hpending), attemptsLeft_of_open (Or.inr rfl)]
  · rw [hend]
    exact Nat.zero_le _
  · rw [hend]
    exact Nat.zero_le _
  · rw [hfail, attemptsLeft_of_open hopen]
    exact (attemptsLeft_le _).trans (Int.toNat_le_toNat (by push_cast; omega))

/-- A result takes an attempt of an open step, or all of them. -/
theorem attemptsLeft_withResult_lt (hopen : step.Open) (htried : step.Tried) :
    attemptsLeft (step.withResult outcome error) < attemptsLeft step := by
  have hleft := htried.left hopen
  rw [attemptsLeft_of_open hopen,
    show step.withResult outcome error = _ from if_neg (PlanStep.open_iff.1 hopen)]
  cases outcome with
  | completed => exact Int.pos_iff_toNat_pos.1 (sub_pos.2 hleft)
  | skipped => exact Int.pos_iff_toNat_pos.1 (sub_pos.2 hleft)
  | failed =>
    refine (attemptsLeft_le _).trans_lt ?_
    change (step.maxAttempts - ((step.attempts + 1 : ℕ) : ℤ)).toNat < _
    omega

theorem openAttempts_applyStepResult_lt (hstep : step ∈ plan.steps) (hid : step.id = stepId)
    (hopen : step.Open) (htried : step.Tried) :
    openAttempts (applyStepResult plan stepId outcome error) < openAttempts plan := by
  rw [openAttempts,
    show applyStepResult plan stepId outcome error =
      plan.call (.applyResult stepId outcome error) from rfl,
    call_steps, map_map]
  refine sum_lt_sum _ _ (fun other _ => ?_) ⟨step, hstep, ?_⟩
  · rw [Function.comp_apply]
    split
    · exact attemptsLeft_update_le _ other
    · exact le_rfl
  · rw [Function.comp_apply, PlanCall.stepId, if_pos hid]
    exact attemptsLeft_withResult_lt hopen htried

/-- A plan starts with the attempts it was given, at least one and at most ten for each step. -/
theorem openAttempts_buildPlanDag (steps : List PlanStepInput) :
    openAttempts (buildPlanDag steps) =
      (steps.map fun step => (min 10 (max 1 (step.maxAttempts.getD 1))).toNat).sum := by
  rw [openAttempts, buildPlanDag, map_map]
  refine congrArg List.sum (map_congr_left fun step _ => ?_)
  rw [Function.comp_apply, attemptsLeft_of_open (Or.inl rfl)]
  exact congrArg Int.toNat (sub_zero _)

end Attempts

/-! ## What the work keeps -/

/-- A sound plan, of which no step is running, and each was started after its dependencies. -/
structure Worked (plan : PlanDag) : Prop where
  shape : SoundShape plan.shape
  tried : ∀ step ∈ plan.steps, step.Tried
  precede : DependenciesPrecede plan
  idle : ∀ step ∈ plan.steps, step.status ≠ .running

section Work

variable {plan : PlanDag} {steps : List PlanStepInput} {reports : List StepReport} {view : PlanView}
  {report : StepReport}

theorem Worked.nodup (h : Worked plan) : plan.ids.Nodup := by
  rw [← shape_ids]
  exact h.shape.nodup

theorem mem_readySteps {stepId : String} : stepId ∈ (planView plan).readySteps.map Prod.fst ↔
    ∃ step ∈ plan.steps, step.id = stepId ∧ step.status = .pending ∧
      DependenciesDone plan step := by
  simp only [planView, map_map, mem_map, nextReadySteps, mem_filter, Function.comp_apply,
    Bool.and_eq_true, all_eq_true, decide_eq_true_eq, DependenciesDone]
  constructor
  · rintro ⟨step, ⟨hstep, hpending, hdone⟩, rfl⟩
    exact ⟨step, hstep, rfl, hpending, hdone⟩
  · rintro ⟨step, hstep, rfl, hpending, hdone⟩
    exact ⟨step, ⟨hstep, hpending, hdone⟩, rfl⟩

theorem withResult_ne_running {step : PlanStep} {outcome : StepOutcome} {error : Option String}
    (h : step.status ≠ .running) : (step.withResult outcome error).status ≠ .running := by
  unfold PlanStep.withResult
  split
  · exact h
  · cases outcome with
    | completed => exact nofun
    | skipped => exact nofun
    | failed =>
      dsimp only
      split <;> exact nofun

theorem Worked.record (h : Worked plan)
    (hready : report.stepId ∈ (planView plan).readySteps.map Prod.fst) :
    Worked (recordStepResult plan report).plan := by
  let call : PlanCall := .applyResult report.stepId report.outcome report.error
  have hstarts : StartsReady plan call := by
    obtain ⟨ready, hmem, hid, -, hdone⟩ := mem_readySteps.1 hready
    intro step hstep hstepId _ _
    rwa [inj_on_of_nodup_map h.nodup hstep hmem (hstepId.trans hid.symm)]
  refine ⟨?_, @call_forall plan call _ (fun _ => update_tried) h.tried,
    call_precede h.nodup hstarts h.precede,
    @call_forall plan call _ (fun _ => withResult_ne_running) h.idle⟩
  exact (call_shape plan call).symm ▸ h.shape

theorem worked_buildPlanDag (hvalid : (buildPlan steps).validation.valid = true) :
    Worked (buildPlanDag steps) := by
  refine ⟨validatePlanDag_sound hvalid, buildPlanDag_tried steps, buildPlanDag_precede steps,
    fun step hstep => ?_⟩
  obtain ⟨input, -, rfl⟩ := mem_map.1 hstep
  exact nofun

theorem Works.shape (h : Works (buildPlan steps) reports view) :
    view.plan.shape = (buildPlan steps).plan.shape := by
  induction h with
  | start => rfl
  | report _ report _ ih =>
    exact (call_shape _ (.applyResult report.stepId report.outcome report.error)).trans ih

theorem Works.worked (hvalid : (buildPlan steps).validation.valid = true)
    (h : Works (buildPlan steps) reports view) :
    Worked view.plan ∧ view = planView view.plan ∧
      reports.length + openAttempts view.plan ≤ openAttempts (buildPlanDag steps) := by
  induction h with
  | start => exact ⟨worked_buildPlanDag hvalid, rfl, (Nat.zero_add _).le⟩
  | @report reports view _ report hready ih =>
    obtain ⟨hworked, hview, hleft⟩ := ih
    rw [hview] at hready
    obtain ⟨step, hstep, hid, hpending, -⟩ := mem_readySteps.1 hready
    have hless : openAttempts (recordStepResult view.plan report).plan < openAttempts view.plan :=
      openAttempts_applyStepResult_lt hstep hid (Or.inl hpending) (hworked.tried step hstep)
    refine ⟨hworked.record hready, rfl, ?_⟩
    rw [length_append, length_singleton]
    omega

/-- A plan that is being worked on is completed, has failed, or has a step to work on. -/
theorem Worked.status (h : Worked plan) :
    ((planProgress plan).status = .completed ∧ nextReadySteps plan = []) ∨
      (planProgress plan).status = .failed ∨
      (planProgress plan).status = .pending ∧ (plan.steps = [] ∨ nextReadySteps plan ≠ []) := by
  by_cases hdone : 0 < plan.steps.length ∧
    plan.count .completed + plan.count .skipped = plan.steps.length
  · refine Or.inl ⟨if_pos hdone, filter_eq_nil_iff.2 fun step hstep hready => ?_⟩
    have hended := all_eq_true.1 (PlanStore.count_done_eq.1 hdone.2) step hstep
    rw [of_decide_eq_true (Bool.and_eq_true_iff.1 hready).1] at hended
    exact absurd hended (by decide)
  by_cases hfailed : 0 < plan.count .failed
  · exact Or.inr (Or.inl ((if_neg hdone).trans (if_pos hfailed)))
  have hidle : ¬0 < plan.count .running := by
    intro hrunning
    obtain ⟨step, hstep⟩ := exists_mem_of_length_pos hrunning
    obtain ⟨hmem, hstatus⟩ := mem_filter.1 hstep
    exact h.idle step hmem (of_decide_eq_true hstatus)
  have hblocked : ¬(0 < plan.count .pending ∧ (nextReadySteps plan).length = 0) := fun hwaits =>
    absurd hwaits.2 (exists_ready h.shape hfailed hidle hwaits.1).ne'
  refine Or.inr (Or.inr
    ⟨(if_neg hdone).trans ((if_neg hfailed).trans ((if_neg hidle).trans (if_neg hblocked))), ?_⟩)
  by_cases hempty : plan.steps = []
  · exact Or.inl hempty
  · -- a step that is not done waits, as none has failed and none is running
    have hopen : ¬(plan.steps.all fun step => step.status == .completed ||
        step.status == .skipped) = true := fun hall =>
      hdone ⟨length_pos_iff.2 hempty, PlanStore.count_done_eq.2 hall⟩
    simp only [all_eq_true, not_forall] at hopen
    obtain ⟨step, hstep, hnot⟩ := hopen
    have hpending : step.status = .pending := by
      cases hstatus : step.status with
      | pending => rfl
      | running => exact absurd hstatus (count_eq_zero hidle hstep)
      | failed => exact absurd hstatus (count_eq_zero hfailed hstep)
      | completed => exact absurd (by rw [hstatus]; rfl) hnot
      | skipped => exact absurd (by rw [hstatus]; rfl) hnot
    have hwaits : 0 < plan.count .pending :=
      length_pos_of_mem (mem_filter.2 ⟨hstep, decide_eq_true hpending⟩)
    exact Or.inr (length_pos_iff.1 (exists_ready h.shape hfailed hidle hwaits))

/-- **The work on an accepted plan comes to an end**: with as many reports as the steps have
attempts at most, whatever their outcomes are, and with nothing left to start only when the plan is
completed or has failed. The plan stays valid, and each step was started after its dependencies. -/
theorem harness_finishes (steps : List PlanStepInput)
    (hvalid : (buildPlan steps).validation.valid = true)
    (hworks : Works (buildPlan steps) reports view) :
    reports.length ≤ (steps.map fun step => (min 10 (max 1 (step.maxAttempts.getD 1))).toNat).sum ∧
      view.validation.valid = true ∧ DependenciesPrecede view.plan ∧
      ((view.progress.status = .completed ∧ view.readySteps = []) ∨ view.progress.status = .failed ∨
        view.progress.status = .pending ∧ (steps = [] ∨ view.readySteps ≠ [])) := by
  obtain ⟨hworked, hview, hleft⟩ := hworks.worked hvalid
  rw [openAttempts_buildPlanDag] at hleft
  rw [hview]
  refine ⟨by omega, ?_, hworked.precede, ?_⟩
  · exact (valid_congr hworks.shape).2 hvalid
  · have hsteps : view.plan.steps = [] ↔ steps = [] := by
      rw [← map_eq_nil_iff (f := PlanStep.shape), ← PlanDag.shape, hworks.shape]
      simp [PlanDag.shape, buildPlan, planView, buildPlanDag]
    have hready : (planView view.plan).readySteps = [] ↔ nextReadySteps view.plan = [] :=
      map_eq_nil_iff
    rw [ne_eq, hready, ← hsteps]
    exact hworked.status

/-- Two steps, the second of which has one attempt and fails. -/
theorem harness_finishes_two :
    DependenciesPrecede
      (recordStepResult (recordStepResult (buildPlan twoSteps).plan ⟨"a", .completed, none⟩).plan
      ⟨"b", .failed, some "conflict"⟩).plan := by
  have hstart : Works (buildPlan twoSteps) [] (buildPlan twoSteps) := .start
  have hfirst := hstart.report ⟨"a", .completed, none⟩ (by decide +kernel)
  have hsecond := hfirst.report ⟨"b", .failed, some "conflict"⟩ (by decide +kernel)
  exact (harness_finishes twoSteps twoSteps_valid hsecond).2.2.1

end Work

end LoopOver.Harness
