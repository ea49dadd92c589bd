import LoopOver.Plan.Progress
import LoopOver.Plan.Store

/-!
# The plan store and the plan engine agree

The store accepts the plans whose fields have the sizes that it asks for and that the engine finds
valid. What the calls of a run change keeps the sizes, except that the store counts attempts up to
the last safe integer only.

* `isValidStep_stepJson` and `checkSteps_eq_ok` say what the validator of the store accepts, and
  `validatePlanDag_valid_iff` what the one of the engine does.
* `valid_runPlan`: the calls keep the plan valid, as they keep its shape.
* **`plan_store_agrees`** has the agreement, and `unsafe_attempt_refused` is the attempt that goes
  over the bound.
-/

namespace LoopOver.PlanStore

open Queue (JsonValue)
open List

/-! ## Sizes -/

/-- The sizes that the store asks for, of all that the calls leave alone or set anew. -/
@[mk_iff]
structure StepSized (step : PlanStep) : Prop where
  id : 1 ≤ textLength step.id ∧ textLength step.id ≤ 100
  title : 1 ≤ textLength step.title ∧ textLength step.title ≤ 300
  actionClass : ∀ actionClass, step.actionClass = some actionClass →
    1 ≤ textLength actionClass ∧ textLength actionClass ≤ 60
  fewDeps : step.dependsOn.length ≤ 50
  deps : ∀ dep ∈ step.dependsOn, 1 ≤ textLength dep ∧ textLength dep ≤ 100
  maxAttempts : 1 ≤ step.maxAttempts ∧ step.maxAttempts ≤ 10
  lastError : ∀ error, step.lastError = some error → textLength error ≤ 2000

/-- The attempts are a safe integer. -/
def SafeAttempts (step : PlanStep) : Prop := (step.attempts : ℤ) ≤ maxSafeInteger

section Sizes

variable {step found : PlanStep} {plan : PlanDag} {text : String} {min max : ℕ}

theorem isBoundedString_string {found : String} :
    isBoundedString (some (.string text)) min max = some found ↔
      (min ≤ textLength text ∧ textLength text ≤ max) ∧ text = found := by
  simp only [isBoundedString, Option.bind_some, JsonValue.text?, Option.filter_eq_some_iff,
    Option.some.injEq, decide_eq_true_eq]
  constructor
  · rintro ⟨rfl, hsize⟩
    exact ⟨hsize, rfl⟩
  · rintro ⟨hsize, rfl⟩
    exact ⟨rfl, hsize⟩

theorem isBoundedInt_number {n min max found : ℤ} :
    isBoundedInt (some (.number n)) min max = some found ↔ (min ≤ n ∧ n ≤ max) ∧ n = found := by
  have hfilter : isBoundedInt (some (.number n)) min max =
      ((some (n : ℚ)).filter fun n : ℚ => decide (n.den = 1 ∧ min ≤ n ∧ n ≤ max)).map (·.num) := rfl
  rw [hfilter, Option.filter_some]
  simp only [Rat.den_intCast, Int.cast_le, true_and, decide_eq_true_eq]
  split_ifs with hbounds
  · simp [hbounds]
  · simp [hbounds]

theorem mapM_isBoundedString {deps found : List String} :
    (deps.map JsonValue.string).mapM (fun dep => isBoundedString (some dep) 1 100) = some found ↔
      (∀ dep ∈ deps, 1 ≤ textLength dep ∧ textLength dep ≤ 100) ∧ deps = found := by
  induction deps generalizing found with
  | nil => simp [eq_comm]
  | cons dep deps ih =>
    simp only [map_cons, mapM_cons, Option.bind_eq_bind, Option.pure_def, Option.bind_eq_some_iff,
      isBoundedString_string, ih, Option.some.injEq, forall_mem_cons]
    constructor
    · rintro ⟨_, ⟨hdep, rfl⟩, _, ⟨hdeps, rfl⟩, rfl⟩
      exact ⟨⟨hdep, hdeps⟩, rfl⟩
    · rintro ⟨⟨hdep, hdeps⟩, rfl⟩
      exact ⟨dep, ⟨hdep, rfl⟩, deps, ⟨hdeps, rfl⟩, rfl⟩

theorem property_stepJson (step : PlanStep) :
    (stepJson step).property? "id" = some (.string step.id) ∧
    (stepJson step).property? "title" = some (.string step.title) ∧
    (stepJson step).property? "actionClass" = step.actionClass.map JsonValue.string ∧
    (stepJson step).property? "dependsOn" = some (.array (step.dependsOn.map .string)) ∧
    (stepJson step).property? "status" = some (.string (stepStatusText step.status)) ∧
    (stepJson step).property? "attempts" = some (.number step.attempts) ∧
    (stepJson step).property? "maxAttempts" = some (.number step.maxAttempts) ∧
    (stepJson step).property? "lastError" = some
      ((step.lastError.map JsonValue.string).getD .null) := by
  cases hclass : step.actionClass <;> simp [stepJson, JsonValue.property?, hclass]

theorem find_stepStatusText (status : PlanStepStatus) :
    planStepStatuses.find? (fun other => stepStatusText other == stepStatusText status) =
      some status := by
  cases status <;> decide

section Fields

variable {α : Type} {found : α}

/-- A bounded text is read, if it has its size. -/
theorem isBoundedString_bind {next : String → Option α} :
    (isBoundedString (some (.string text)) min max >>= next) = some found ↔
      (min ≤ textLength text ∧ textLength text ≤ max) ∧ next text = some found := by
  simp only [Option.bind_eq_bind, Option.bind_eq_some_iff, isBoundedString_string, and_assoc,
    exists_eq_left', exists_and_left]

theorem isBoundedInt_bind {n min max : ℤ} {next : ℤ → Option α} :
    (isBoundedInt (some (.number n)) min max >>= next) = some found ↔
      (min ≤ n ∧ n ≤ max) ∧ next n = some found := by
  simp only [Option.bind_eq_bind, Option.bind_eq_some_iff, isBoundedInt_number, and_assoc,
    exists_eq_left', exists_and_left]

/-- The dependencies are read, if they are few and each has its size. -/
theorem dependsOn_bind {deps : List String} {next : List String → Option α} :
    ((((some (JsonValue.array (deps.map .string))).bind (·.items?)).filter fun deps =>
      decide (deps.length ≤ 50)) >>=
      fun items => (items.mapM fun dep => isBoundedString (some dep) 1 100) >>= next) = some found ↔
        (deps.length ≤ 50 ∧ ∀ dep ∈ deps, 1 ≤ textLength dep ∧ textLength dep ≤ 100) ∧
          next deps = some found := by
  have hitems : (some (JsonValue.array (deps.map .string))).bind (·.items?) =
      some (deps.map .string) := rfl
  simp only [hitems, Option.bind_eq_bind, Option.bind_eq_some_iff, Option.filter_eq_some_iff,
    Option.some.injEq, decide_eq_true_eq, length_map, mapM_isBoundedString, and_assoc,
    exists_eq_left', exists_and_left]

theorem status_bind {status : PlanStepStatus} {next : PlanStepStatus → Option α} :
    ((some (JsonValue.string (stepStatusText status))).bind (·.text?) >>= fun statusText =>
      planStepStatuses.find? (fun status => stepStatusText status == statusText) >>= next) =
        some found ↔
        next status = some found := by
  change (planStepStatuses.find? (fun other => stepStatusText other == stepStatusText status)).bind
    next = _ ↔ _
  rw [find_stepStatusText, Option.bind_some]

variable {next : Option String → Option α}

/-- A text that need not be there is read, if it has its size where it is there. -/
theorem isBoundedString_map_bind :
    ((isBoundedString (some (.string text)) min max).map some >>= next) = some found ↔
      (min ≤ textLength text ∧ textLength text ≤ max) ∧ next (some text) = some found := by
  simp only [Option.bind_eq_bind, Option.bind_eq_some_iff, Option.map_eq_some_iff,
    isBoundedString_string, and_assoc, exists_eq_left', exists_and_left]

theorem actionClass_bind {actionClass : Option String} :
    (match actionClass.map JsonValue.string with
      | none => some none >>= next
      | value => (isBoundedString value 1 60).map some >>= next) = some found ↔
        (∀ text, actionClass = some text → 1 ≤ textLength text ∧ textLength text ≤ 60) ∧
          next actionClass = some found := by
  cases actionClass with
  | none => simp
  | some text =>
    rw [Option.map_some]
    refine isBoundedString_map_bind.trans (and_congr_left' ?_)
    simp

theorem lastError_bind {lastError : Option String} :
    (match some ((lastError.map JsonValue.string).getD .null) with
      | none => some none >>= next
      | some .null => some none >>= next
      | value => (isBoundedString value 0 2000).map some >>= next) = some found ↔
        (∀ text, lastError = some text → textLength text ≤ 2000) ∧ next lastError = some found := by
  cases lastError with
  | none => simp
  | some text =>
    rw [Option.map_some, Option.getD_some]
    refine isBoundedString_map_bind.trans (and_congr_left' ?_)
    simp

end Fields

/-- **What the store accepts as a step.** -/
theorem isValidStep_stepJson :
    isValidStep (stepJson step) = some found ↔
      (StepSized step ∧ SafeAttempts step) ∧ step = found := by
  obtain ⟨hid, htitle, hclass, hdeps, hstatus, hattempts, hmax, herror⟩ := property_stepJson step
  have hkeys : ∀ entry ∈ [("id", JsonValue.string step.id), ("title", .string step.title)] ++
      (step.actionClass.map fun actionClass =>
        ("actionClass", JsonValue.string actionClass)).toList ++
      [("dependsOn", .array (step.dependsOn.map .string)),
        ("status", .string (stepStatusText step.status)),
        ("attempts", .number step.attempts), ("maxAttempts", .number step.maxAttempts),
        ("lastError", (step.lastError.map JsonValue.string).getD .null)],
          stepKeys.contains entry.1 = true := by
    cases step.actionClass <;> simp [stepKeys]
  have hcast : ((step.attempts : ℕ) : ℚ) = ((step.attempts : ℤ) : ℚ) := (Int.cast_natCast _).symm
  unfold isValidStep
  rw [hid, htitle, hclass, hdeps, hstatus, hattempts, hmax, herror, hcast]
  simp only [stepJson, all_eq_true.2 hkeys, if_true]
  clear hkeys hid htitle hclass hdeps hstatus hattempts hmax herror hcast
  refine (isBoundedString_bind.trans <| and_congr_right' <| isBoundedString_bind.trans <|
    and_congr_right' <|
    actionClass_bind.trans <| and_congr_right' <| dependsOn_bind.trans <| and_congr_right' <|
      status_bind.trans <|
    isBoundedInt_bind.trans <| and_congr_right' <| isBoundedInt_bind.trans <| and_congr_right' <|
    lastError_bind).trans ?_
  rw [stepSized_iff, SafeAttempts]
  simp only [Option.pure_def, Option.some.injEq, Int.toNat_natCast, Int.natCast_nonneg, true_and]
  tauto

end Sizes

/-! ## The two validators -/

section Validators

variable {plan found : PlanDag}

/-- Every field has its size. -/
def Fits (plan : PlanDag) : Prop := ∀ step ∈ plan.steps, StepSized step ∧ SafeAttempts step

theorem mapM_isValidStep {steps found : List PlanStep} :
    (steps.map stepJson).mapM isValidStep = some found ↔
    (∀ step ∈ steps, StepSized step ∧ SafeAttempts step) ∧ steps = found := by
  induction steps generalizing found with
  | nil => simp [eq_comm]
  | cons step steps ih =>
    simp only [map_cons, mapM_cons, Option.bind_eq_bind, Option.pure_def, Option.bind_eq_some_iff,
      isValidStep_stepJson, ih, Option.some.injEq, forall_mem_cons]
    constructor
    · rintro ⟨_, ⟨hstep, rfl⟩, _, ⟨hsteps, rfl⟩, rfl⟩
      exact ⟨⟨hstep, hsteps⟩, rfl⟩
    · rintro ⟨⟨hstep, hsteps⟩, rfl⟩
      exact ⟨step, ⟨hstep, rfl⟩, steps, ⟨hsteps, rfl⟩, rfl⟩

/-- A dependency of a step on itself is a cycle to the engine. -/
theorem checkSteps_eq_ok :
    checkSteps plan = .ok found ↔ (LoopOver.validatePlanDag plan).valid = true ∧ plan = found := by
  unfold checkSteps
  by_cases hdup : ¬plan.ids.Nodup
  · rw [if_pos hdup]
    refine iff_of_false (by simp) fun h => hdup ?_
    exact (validatePlanDag_valid_iff.1 h.1).1
  rw [if_neg hdup]
  by_cases hdeps : (plan.steps.any fun step => step.dependsOn.any fun dep =>
      dep == step.id || !plan.ids.contains dep) = true
  · rw [if_pos hdeps]
    refine iff_of_false (by simp) fun h => ?_
    obtain ⟨step, hstep, hany⟩ := any_eq_true.1 hdeps
    obtain ⟨dep, hdep, hbad⟩ := any_eq_true.1 hany
    have hself : dep ≠ step.id := (validatePlanDag_sound h.1).ne_of_dep hstep hdep
    have hknown : dep ∈ plan.ids := (validatePlanDag_valid_iff.1 h.1).2.1 step hstep dep hdep
    simp [hself, hknown] at hbad
  rw [if_neg hdeps]
  by_cases hcycle : hasCycle plan ≠ some false
  · rw [if_pos hcycle]
    refine iff_of_false (by simp) fun h => hcycle ?_
    exact (validatePlanDag_valid_iff.1 h.1).2.2
  · rw [if_neg hcycle]
    have hclosed : ∀ step ∈ plan.steps, ∀ dep ∈ step.dependsOn, dep ∈ plan.ids := by
      intro step hstep dep hdep
      by_contra hunknown
      refine hdeps (any_eq_true.2 ⟨step, hstep, any_eq_true.2 ⟨dep, hdep, ?_⟩⟩)
      simp [hunknown]
    have hvalid := validatePlanDag_valid_iff.2 ⟨not_not.1 hdup, hclosed, not_not.1 hcycle⟩
    simp [hvalid]

/-- **What the store accepts as a plan.** -/
theorem validatePlanDag_planJson : validatePlanDag (planJson plan) = .ok found ↔
    ((1 ≤ plan.steps.length ∧ plan.steps.length ≤ 100) ∧ Fits plan ∧
      (LoopOver.validatePlanDag plan).valid = true) ∧ plan = found := by
  unfold validatePlanDag planJson
  simp only [length_map]
  split_ifs with hlength
  · refine iff_of_false (by simp) fun h => ?_
    omega
  · have hsize : 1 ≤ plan.steps.length ∧ plan.steps.length ≤ 100 := by omega
    cases hsteps : (plan.steps.map stepJson).mapM isValidStep with
    | none =>
      refine iff_of_false (by simp) fun h => ?_
      have hsome := mapM_isValidStep.2 ⟨h.1.2.1, rfl⟩
      exact absurd (hsteps.symm.trans hsome).symm (Option.some_ne_none _)
    | some steps =>
      obtain ⟨hfits, rfl⟩ := mapM_isValidStep.1 hsteps
      change checkSteps plan = .ok found ↔ _
      rw [checkSteps_eq_ok]
      constructor
      · rintro ⟨hvalid, hfound⟩
        exact ⟨⟨hsize, hfits, hvalid⟩, hfound⟩
      · rintro ⟨⟨-, -, hvalid⟩, hfound⟩
        exact ⟨hvalid, hfound⟩

/-- A plan is saved when its id has a text and the plan is accepted. -/
theorem savePlan_ok_iff {table : PlanTable} {planId now : String} (hplanId : trimText planId ≠ "") :
    (∃ record, (savePlan table planId plan now).1 = .ok record) ↔
      (1 ≤ plan.steps.length ∧ plan.steps.length ≤ 100) ∧ Fits plan ∧
        (LoopOver.validatePlanDag plan).valid = true := by
  unfold savePlan normalizePlanId
  rw [if_neg hplanId]
  dsimp only
  cases hvalid : validatePlanDag (planJson plan) with
  | error e =>
    refine iff_of_false (by simp) fun h => ?_
    rw [validatePlanDag_planJson.2 ⟨h, rfl⟩] at hvalid
    cases hvalid
  | ok found => exact iff_of_true ⟨_, rfl⟩ (validatePlanDag_planJson.1 hvalid).1

end Validators

/-! ## The two states of a plan -/

/-- A plan that is blocked is stored as pending. -/
def storedStatus : PlanOverallStatus → PlanStatus
  | .pending => .pending
  | .running => .running
  | .completed => .completed
  | .failed => .failed
  | .blocked => .pending

section Status

variable {plan : PlanDag}

theorem count_pos_iff {status : PlanStepStatus} :
    0 < plan.count status ↔ (plan.steps.any fun step => step.status == status) = true := by
  rw [PlanDag.count, length_filter_pos_iff, any_eq_true]
  simp

theorem count_done_eq :
    plan.count .completed + plan.count .skipped = plan.steps.length ↔
      (plan.steps.all fun step => step.status == .completed || step.status == .skipped) = true := by
  have hsum : plan.count .completed + plan.count .skipped =
      (plan.steps.filter fun step => step.status == .completed ||
        step.status == .skipped).length := by
    unfold PlanDag.count
    induction plan.steps with
    | nil => rfl
    | cons step steps ih =>
      cases hstatus : step.status <;> simp [hstatus] <;> omega
  rw [hsum, length_filter_eq_length_iff, all_eq_true]

/-- **The stored state is that of the progress.** The store looks for failed and running steps
first; a plan whose steps are all done has none. -/
theorem computePlanStatus_eq :
    computePlanStatus plan = storedStatus (planProgress plan).status := by
  unfold computePlanStatus planProgress
  simp only [count_pos_iff, count_done_eq]
  by_cases hdone : 0 < plan.steps.length ∧
      (plan.steps.all fun step => step.status == .completed || step.status == .skipped) = true
  · have hnone : ∀ status : PlanStepStatus, status ≠ .completed → status ≠ .skipped →
        ¬(plan.steps.any fun step => step.status == status) = true := by
      intro status hcompleted hskipped hany
      obtain ⟨step, hstep, hstatus⟩ := any_eq_true.1 hany
      have hended := all_eq_true.1 hdone.2 step hstep
      rw [beq_iff_eq.1 hstatus] at hended
      simp [hcompleted, hskipped] at hended
    rw [if_neg (hnone .failed (by decide) (by decide)),
      if_neg (hnone .running (by decide) (by decide)), if_pos hdone, if_pos hdone]
    rfl
  · rw [if_neg hdone, if_neg hdone]
    split_ifs <;> rfl

end Status

/-! ## Runs -/

/-- The text of an error is within the bound. -/
def ErrorFits : PlanCall → Prop
  | .markRunning _ => True
  | .applyResult _ _ error => ∀ text, error = some text → textLength text ≤ 2000

section Runs

variable {plan : PlanDag} {call : PlanCall} {step : PlanStep}

/-- The error of a step is the one it had, or that of the call. -/
theorem update_lastError (hfits : ErrorFits call)
    (h : ∀ error, step.lastError = some error → textLength error ≤ 2000) :
    ∀ error, (call.update step).lastError = some error → textLength error ≤ 2000 := by
  intro text htext
  cases call with
  | markRunning stepId =>
    refine h text ?_
    rw [← htext, PlanCall.update]
    split <;> rfl
  | applyResult stepId outcome error =>
    unfold PlanCall.update PlanStep.withResult at htext
    dsimp only at htext
    split at htext
    · exact h text htext
    · cases outcome with
      | completed => cases htext
      | skipped => cases htext
      | failed =>
        cases error with
        | none =>
          obtain rfl := Option.some.inj htext
          decide +kernel
        | some error =>
          obtain rfl := Option.some.inj htext
          exact hfits error rfl

/-- A call leaves the other fields alone. -/
theorem update_fixed (call : PlanCall) (step : PlanStep) : (call.update step).id = step.id ∧
    (call.update step).title = step.title ∧ (call.update step).actionClass = step.actionClass ∧
    (call.update step).dependsOn = step.dependsOn ∧
      (call.update step).maxAttempts = step.maxAttempts := by
  rcases call.update_cases step with h | ⟨-, h⟩ | ⟨-, h | h⟩ | ⟨-, error, h⟩ <;> rw [h] <;>
    exact ⟨rfl, rfl, rfl, rfl, rfl⟩

theorem update_sized (hfits : ErrorFits call) (h : StepSized step) :
    StepSized (call.update step) := by
  obtain ⟨hid, htitle, hclass, hdeps, hmax⟩ := update_fixed call step
  refine ⟨?_, ?_, ?_, ?_, ?_, ?_, update_lastError hfits h.lastError⟩
  · rw [hid]
    exact h.id
  · rw [htitle]
    exact h.title
  · rw [hclass]
    exact h.actionClass
  · rw [hdeps]
    exact h.fewDeps
  · rw [hdeps]
    exact h.deps
  · rw [hmax]
    exact h.maxAttempts

theorem runPlan_sized {calls : List PlanCall} (hcalls : ∀ call ∈ calls, ErrorFits call)
    (h : ∀ step ∈ plan.steps, StepSized step) :
    ∀ step ∈ (runPlan plan calls).steps, StepSized step := by
  induction calls generalizing plan with
  | nil => exact h
  | cons call calls ih =>
    obtain ⟨hcall, hrest⟩ := forall_mem_cons.1 hcalls
    exact ih hrest (call_forall (fun _ => update_sized hcall) h)

/-- The attempts are a safe integer, and one more is while the step is open. -/
structure Spare (step : PlanStep) : Prop where
  safe : SafeAttempts step
  left : step.Open → (step.attempts : ℤ) < maxSafeInteger

/-- A step that is open again has made fewer attempts than it may make, which are ten at most. -/
theorem update_spare (hmax : step.maxAttempts ≤ 10) (h : Spare step) :
    Spare (call.update step) := by
  rcases call.update_cases step with hsame | ⟨hpending, hstart⟩ | ⟨hopen, hend⟩ |
    ⟨hopen, error, hfail⟩
  · rwa [hsame]
  · rw [hstart]
    exact ⟨h.safe, fun _ => h.left (Or.inl hpending)⟩
  · rcases hend with hend | hend
    · rw [hend]
      exact ⟨h.safe, fun _ => h.left hopen⟩
    · rw [hend]
      exact ⟨h.safe, fun _ => h.left hopen⟩
  · rw [hfail]
    have hleft := h.left hopen
    refine ⟨?_, fun hstill => ?_⟩
    · change ((step.attempts + 1 : ℕ) : ℤ) ≤ maxSafeInteger
      omega
    · change ((step.attempts + 1 : ℕ) : ℤ) < maxSafeInteger
      have hagain : ¬step.maxAttempts ≤ (step.attempts : ℤ) + 1 := by
        intro hexhausted
        rw [PlanStep.Open, if_pos hexhausted] at hstill
        simp at hstill
      unfold maxSafeInteger
      omega

theorem runPlan_spare {calls : List PlanCall} (hcalls : ∀ call ∈ calls, ErrorFits call)
    (h : ∀ step ∈ plan.steps, StepSized step ∧ Spare step) :
    ∀ step ∈ (runPlan plan calls).steps, StepSized step ∧ Spare step := by
  induction calls generalizing plan with
  | nil => exact h
  | cons call calls ih =>
    obtain ⟨hcall, hrest⟩ := forall_mem_cons.1 hcalls
    refine ih hrest (call_forall (fun step hstep => ?_) h)
    exact ⟨update_sized hcall hstep.1, update_spare hstep.1.maxAttempts.2 hstep.2⟩

theorem find_statusText (status : PlanStatus) :
    planStatuses.find? (fun other => other.text == status.text) = some status := by
  cases status <;> decide

/-- A plan that is accepted loads back as it was saved. -/
theorem loadPlan_savePlan {table : PlanTable} {planId now : String} (hplanId : trimText planId ≠ "")
    (hsave : ∃ record, (savePlan table planId plan now).1 = .ok record) :
    loadPlan (savePlan table planId plan now).2 planId =
      .ok (some ⟨trimText planId, plan, computePlanStatus plan, now⟩) := by
  have hvalid := validatePlanDag_planJson.2 ⟨(savePlan_ok_iff hplanId).1 hsave, rfl⟩
  have hid : normalizePlanId planId = .ok (trimText planId) := if_neg hplanId
  have hrow : (savePlan table planId plan now).2 (trimText planId) =
      some ⟨trimText planId, planJson plan, (computePlanStatus plan).text, now⟩ := by
    simp only [savePlan, hid, hvalid, Function.update_self]
  have hrecord : rowToRecord ⟨trimText planId, planJson plan, (computePlanStatus plan).text, now⟩ =
      .ok ⟨trimText planId, plan, computePlanStatus plan, now⟩ := by
    simp only [rowToRecord, hvalid, find_statusText]
  unfold loadPlan
  simp only [hid, bind, Except.bind, hrow, hrecord, Except.map]

end Runs

/-- **The store and the engine agree.** The store accepts a plan whose fields have their sizes
exactly when the engine finds it valid. What the calls make of an accepted plan is accepted again as
long as the attempts are safe integers, and then it loads back as the same plan with the state of
its progress; the attempts are safe integers throughout if an open step has one to spare in the plan
that was accepted. -/
theorem plan_store_agrees (table : PlanTable) (planId : String) (hplanId : trimText planId ≠ "")
    (plan : PlanDag) (now : String) :
    (1 ≤ plan.steps.length ∧ plan.steps.length ≤ 100 → Fits plan →
      ((∃ record, (savePlan table planId plan now).1 = .ok record) ↔
        (LoopOver.validatePlanDag plan).valid = true)) ∧
    ((∃ record, (savePlan table planId plan now).1 = .ok record) →
      ∀ calls : List PlanCall, (∀ call ∈ calls, ErrorFits call) →
        ∀ (later : PlanTable) (time : String),
        ((∃ record, (savePlan later planId (runPlan plan calls) time).1 = .ok record) ↔
          ∀ step ∈ (runPlan plan calls).steps, SafeAttempts step) ∧
        ((∀ step ∈ (runPlan plan calls).steps, SafeAttempts step) →
          loadPlan (savePlan later planId (runPlan plan calls) time).2 planId =
            .ok (some ⟨trimText planId, runPlan plan calls,
              storedStatus (planProgress (runPlan plan calls)).status, time⟩)) ∧
        ((∀ step ∈ plan.steps, step.Open → (step.attempts : ℤ) < maxSafeInteger) →
          ∀ step ∈ (runPlan plan calls).steps, SafeAttempts step)) := by
  refine ⟨fun hlength hfits => ?_, fun hsave calls hcalls later time => ?_⟩
  · rw [savePlan_ok_iff hplanId]
    exact ⟨fun h => h.2.2, fun h => ⟨hlength, hfits, h⟩⟩
  obtain ⟨hlength, hfits, hvalid⟩ := (savePlan_ok_iff hplanId).1 hsave
  have hsized := runPlan_sized hcalls fun step hstep => (hfits step hstep).1
  have hshape := runPlan_shape plan calls
  have hsteps : (runPlan plan calls).steps.length = plan.steps.length := by
    have hlengths := congrArg List.length hshape
    rwa [PlanDag.shape, PlanDag.shape, length_map, length_map] at hlengths
  have haccepted : (∃ record, (savePlan later planId (runPlan plan calls) time).1 = .ok record) ↔
      ∀ step ∈ (runPlan plan calls).steps, SafeAttempts step := by
    rw [savePlan_ok_iff hplanId, hsteps]
    refine ⟨fun h step hstep => (h.2.1 step hstep).2, fun h => ⟨hlength, fun step hstep => ?_, ?_⟩⟩
    · exact ⟨hsized step hstep, h step hstep⟩
    · exact (valid_congr hshape).2 hvalid
  refine ⟨haccepted, fun hsafe => ?_, fun hspare step hstep => ?_⟩
  · rw [loadPlan_savePlan hplanId (haccepted.2 hsafe), computePlanStatus_eq]
  · have hstart : ∀ step ∈ plan.steps, StepSized step ∧ Spare step := fun step hstep =>
      ⟨(hfits step hstep).1, (hfits step hstep).2, hspare step hstep⟩
    exact (runPlan_spare hcalls hstart step hstep).2.safe

/-- A step that may be tried once and has been tried as often as can be counted. -/
def triedPlan : PlanDag := ⟨[⟨"a", "land PR 2", none, [], .pending, 9007199254740991, 1, none⟩]⟩

/-- The plan of two steps is saved, and so is what becomes of it. -/
theorem plan_store_agrees_two_steps :
    loadPlan (savePlan (fun _ => none) "plan-1" (runPlan (buildPlanDag twoSteps) [.markRunning "a"])
      "2026-07-01T00:00:00.000Z").2 "plan-1" =
      .ok (some ⟨"plan-1", runPlan (buildPlanDag twoSteps) [.markRunning "a"], .running,
        "2026-07-01T00:00:00.000Z"⟩) := by
  have hagrees :=
    plan_store_agrees (fun _ => none) "plan-1" (by decide +kernel) (buildPlanDag twoSteps)
    "2026-07-01T00:00:00.000Z"
  have hsaved : ∃ record, (savePlan (fun _ => none) "plan-1" (buildPlanDag twoSteps)
      "2026-07-01T00:00:00.000Z").1 = .ok record :=
    ⟨⟨"plan-1", buildPlanDag twoSteps, .pending, "2026-07-01T00:00:00.000Z"⟩, by decide +kernel⟩
  have hrun := hagrees.2 hsaved [.markRunning "a"] (by simp [ErrorFits]) (fun _ => none)
    "2026-07-01T00:00:00.000Z"
  exact hrun.2.1 (hrun.2.2 (by unfold PlanStep.Open; decide +kernel))

/-- One more attempt is counted, and the plan is not accepted again. -/
theorem unsafe_attempt_refused :
    (∃ record, (savePlan (fun _ => none) "plan-1" triedPlan "2026-07-01T00:00:00.000Z").1 =
      .ok record) ∧
      (savePlan (fun _ => none) "plan-1" (runPlan triedPlan [.applyResult "a" .failed none])
        "2026-07-01T00:00:00.000Z").1 = .error "invalid_plan" :=
  ⟨⟨⟨"plan-1", triedPlan, .pending, "2026-07-01T00:00:00.000Z"⟩, by decide +kernel⟩,
    by decide +kernel⟩

end LoopOver.PlanStore
