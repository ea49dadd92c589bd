import LoopOver.Foundations.DepthFirst
import Mathlib.Data.Int.Notation
import Mathlib.Data.List.Dedup

/-!
# Plans

A plan of `packages/loopover-engine/src/plan-dag.ts` is a list of steps with dependencies. The
harness does the work of the steps and reports it; the module keeps the states.
`plan-step-readiness.ts` has the steps that can be started and `plan-overall-status.ts` the state of
the plan as a whole.

* `shape` is what a plan keeps: the ids and the dependencies of its steps. `plan_valid_iff` is what
  validation says about it.
* `PlanCall.update_cases` says what a call does to a step.
* `runPlan_shape`, `runPlan_ended` and `runPlan_tried` are what the calls of a run keep: the shape,
  the steps that have ended, and the bound on the attempts.
-/

namespace LoopOver

open List

/-! ## Data -/

/-- Where a step stands. -/
inductive PlanStepStatus
  | pending
  | running
  | completed
  | failed
  | skipped
  deriving DecidableEq

structure PlanStep where
  id : String
  title : String
  actionClass : Option String
  dependsOn : List String
  status : PlanStepStatus
  attempts : ℕ
  maxAttempts : ℤ
  lastError : Option String
  deriving DecidableEq

structure PlanDag where
  steps : List PlanStep
  deriving DecidableEq

/-- A step as it is given, with an integer for `maxAttempts`. -/
structure PlanStepInput where
  id : String
  title : String
  actionClass : Option String := none
  dependsOn : Option (List String) := none
  maxAttempts : Option ℤ := none

/-- The plan of the given steps, without dependencies of a step on itself. -/
def buildPlanDag (steps : List PlanStepInput) : PlanDag where
  steps := steps.map fun step =>
    { id := step.id
      title := step.title
      actionClass := step.actionClass
      dependsOn := ((step.dependsOn.getD []).filter (· != step.id)).eraseDups
      status := .pending
      attempts := 0
      maxAttempts := min 10 (max 1 (step.maxAttempts.getD 1))
      lastError := none }

def PlanDag.ids (plan : PlanDag) : List String := plan.steps.map PlanStep.id

/-- The entry of an id in a map built from the steps: the last one counts. -/
def PlanDag.byId (plan : PlanDag) (id : String) : Option PlanStep :=
  plan.steps.reverse.find? fun step => step.id == id

/-! ## Validation -/

/-- The search for a cycle from every step. -/
def PlanDag.hasCycle (plan : PlanDag) : Option Bool :=
  DepthFirst.search (fun id => (plan.byId id).isSome)
    (fun id => ((plan.byId id).map PlanStep.dependsOn).getD []) plan.ids.length plan.ids
      fun _ => .white

structure PlanValidation where
  valid : Bool
  errors : List String
  deriving DecidableEq

def validatePlanDag (plan : PlanDag) : PlanValidation :=
  let errors :=
    (if plan.ids.dedup.length = plan.ids.length then [] else ["duplicate step ids"]) ++
    (plan.steps.flatMap fun step =>
        (step.dependsOn.filter fun dep => !plan.ids.contains dep).map fun dep =>
      s!"step {step.id} depends on unknown step {dep}") ++
    (if plan.hasCycle = some false then [] else ["plan has a dependency cycle"])
  ⟨errors.isEmpty, errors⟩

/-! ## Readiness and progress -/

def isDone (status : PlanStepStatus) : Bool := status = .completed || status = .skipped

def PlanDag.statusById (plan : PlanDag) (id : String) : PlanStepStatus :=
  ((plan.byId id).map PlanStep.status).getD .pending

/-- The pending steps with all their dependencies done. -/
def nextReadySteps (plan : PlanDag) : List PlanStep :=
  plan.steps.filter fun step =>
    step.status = .pending && step.dependsOn.all fun dep => isDone (plan.statusById dep)

/-- Where the plan stands. -/
inductive PlanOverallStatus
  | pending
  | running
  | completed
  | failed
  | blocked
  deriving DecidableEq

structure PlanProgress where
  total : ℕ
  completed : ℕ
  failed : ℕ
  running : ℕ
  pending : ℕ
  skipped : ℕ
  status : PlanOverallStatus

def PlanDag.count (plan : PlanDag) (status : PlanStepStatus) : ℕ :=
  (plan.steps.filter fun step => step.status = status).length

def planProgress (plan : PlanDag) : PlanProgress where
  total := plan.steps.length
  completed := plan.count .completed
  failed := plan.count .failed
  running := plan.count .running
  pending := plan.count .pending
  skipped := plan.count .skipped
  status :=
    if 0 < plan.steps.length ∧ plan.count .completed + plan.count .skipped = plan.steps.length then
      .completed
    else if 0 < plan.count .failed then .failed
    else if 0 < plan.count .running then .running
    else if 0 < plan.count .pending ∧ (nextReadySteps plan).length = 0 then .blocked
    else .pending

def resolvePlanOverallStatus (plan : PlanDag) : PlanOverallStatus :=
  let total := plan.steps.length
  let completed := plan.count .completed
  let skipped := plan.count .skipped
  let failed := plan.count .failed
  let running := plan.count .running
  let pending := plan.count .pending
  if 0 < total ∧ completed + skipped = total then .completed
  else if 0 < failed then .failed
  else if 0 < running then .running
  else if 0 < pending ∧ (nextReadySteps plan).length = 0 then .blocked
  else .pending

/-! ## Calls -/

def mapStep (plan : PlanDag) (stepId : String) (update : PlanStep → PlanStep) : PlanDag :=
  ⟨plan.steps.map fun step => if step.id = stepId then update step else step⟩

def markStepRunning (plan : PlanDag) (stepId : String) : PlanDag :=
  mapStep plan stepId fun step => if step.status = .pending then
    { step with status := .running } else step

/-- What is reported of a step. -/
inductive StepOutcome
  | completed
  | failed
  | skipped
  deriving DecidableEq

/-- What a result makes of the step it is for. -/
def PlanStep.withResult (step : PlanStep) (outcome : StepOutcome) (error : Option String) :
    PlanStep :=
  if isDone step.status ∨ step.status = .failed then step
  else
    match outcome with
    | .completed => { step with status := .completed, lastError := none }
    | .skipped => { step with status := .skipped, lastError := none }
    | .failed =>
      let attempts := step.attempts + 1
      { step with
        attempts := attempts
        status := if step.maxAttempts ≤ attempts then .failed else .pending
        lastError := some (error.getD "step failed") }

def applyStepResult (plan : PlanDag) (stepId : String) (outcome : StepOutcome)
    (error : Option String) :
    PlanDag :=
  mapStep plan stepId fun step => step.withResult outcome error

/-- A call of the harness. -/
inductive PlanCall
  | markRunning (stepId : String)
  | applyResult (stepId : String) (outcome : StepOutcome) (error : Option String)
  deriving DecidableEq

def PlanDag.call (plan : PlanDag) : PlanCall → PlanDag
  | .markRunning stepId => markStepRunning plan stepId
  | .applyResult stepId outcome error => applyStepResult plan stepId outcome error

/-- The plan after a sequence of calls. -/
def runPlan (plan : PlanDag) (calls : List PlanCall) : PlanDag := calls.foldl PlanDag.call plan

/-! ## What a call does to a step -/

/-- A step has ended when it is completed, skipped or failed. -/
def PlanStep.Ended (step : PlanStep) : Prop :=
  step.status = .completed ∨ step.status = .skipped ∨ step.status = .failed

/-- A step is open while it is pending or running. -/
def PlanStep.Open (step : PlanStep) : Prop := step.status = .pending ∨ step.status = .running

theorem PlanStep.open_iff {step : PlanStep} :
    step.Open ↔ ¬(isDone step.status = true ∨ step.status = .failed) := by
  unfold PlanStep.Open isDone
  cases step.status <;> decide

theorem PlanStep.ended_iff {step : PlanStep} : step.Ended ↔ ¬step.Open := by
  unfold PlanStep.Ended PlanStep.Open
  cases step.status <;> decide

def PlanCall.stepId : PlanCall → String
  | markRunning stepId => stepId
  | applyResult stepId _ _ => stepId

/-- The change of the step that a call is for. -/
def PlanCall.update : PlanCall → PlanStep → PlanStep
  | markRunning _, step => if step.status = .pending then { step with status := .running } else step
  | applyResult _ outcome error, step => step.withResult outcome error

theorem call_steps (plan : PlanDag) (call : PlanCall) :
    (plan.call call).steps =
      plan.steps.map fun step => if step.id = call.stepId then call.update step else step := by
  cases call <;> rfl

/-- What a call can make of a step: nothing, start it, end it, or count an attempt and leave it to
be tried again or failed. -/
theorem PlanCall.update_cases (call : PlanCall) (step : PlanStep) :
    call.update step = step ∨
      step.status = .pending ∧ call.update step = { step with status := .running } ∨
      step.Open ∧ (call.update step = { step with status := .completed, lastError := none } ∨
        call.update step = { step with status := .skipped, lastError := none }) ∨
      step.Open ∧ ∃ error, call.update step =
        { step with
          attempts := step.attempts + 1
          status := if step.maxAttempts ≤ step.attempts + 1 then .failed else .pending
          lastError := some error } := by
  cases call with
  | markRunning stepId =>
    by_cases h : step.status = .pending
    · exact Or.inr (Or.inl ⟨h, if_pos h⟩)
    · exact Or.inl (if_neg h)
  | applyResult stepId outcome error =>
    by_cases h : isDone step.status = true ∨ step.status = .failed
    · exact Or.inl (if_pos h)
    · have hopen : step.Open := PlanStep.open_iff.2 h
      have hupdate : PlanCall.update (.applyResult stepId outcome error) step = _ := if_neg h
      cases outcome with
      | completed => exact Or.inr (Or.inr (Or.inl ⟨hopen, Or.inl hupdate⟩))
      | skipped => exact Or.inr (Or.inr (Or.inl ⟨hopen, Or.inr hupdate⟩))
      | failed => exact Or.inr (Or.inr (Or.inr ⟨hopen, _, hupdate⟩))

/-! ## What a run keeps -/

section Run

variable {plan : PlanDag} {call : PlanCall} {step : PlanStep}

/-- The id and the dependencies of a step. -/
def PlanStep.shape (step : PlanStep) : String × List String := (step.id, step.dependsOn)

def PlanDag.shape (plan : PlanDag) : List (String × List String) := plan.steps.map PlanStep.shape

@[simp] theorem update_shape (call : PlanCall) (step : PlanStep) :
    (call.update step).shape = step.shape := by
  rcases call.update_cases step with h | ⟨-, h⟩ | ⟨-, h | h⟩ | ⟨-, error, h⟩ <;> rw [h] <;> rfl

@[simp] theorem call_shape (plan : PlanDag) (call : PlanCall) :
    (plan.call call).shape = plan.shape := by
  rw [PlanDag.shape, call_steps, map_map]
  refine map_congr_left fun step _ => ?_
  rw [Function.comp_apply]
  split
  · exact update_shape call step
  · rfl

theorem runPlan_shape (plan : PlanDag) (calls : List PlanCall) :
    (runPlan plan calls).shape = plan.shape := by
  induction calls generalizing plan with
  | nil => rfl
  | cons call calls ih => exact (ih (plan.call call)).trans (call_shape plan call)

theorem update_ended (h : step.Ended) : call.update step = step := by
  rcases call.update_cases step with hsame | ⟨hpending, -⟩ | ⟨hopen, -⟩ | ⟨hopen, -⟩
  · exact hsame
  · exact absurd (Or.inl hpending) (PlanStep.ended_iff.1 h)
  · exact absurd hopen (PlanStep.ended_iff.1 h)
  · exact absurd hopen (PlanStep.ended_iff.1 h)

theorem call_ended {i : ℕ} (hi : plan.steps[i]? = some step) (h : step.Ended) :
    (plan.call call).steps[i]? = some step := by
  rw [call_steps, List.getElem?_map, hi, Option.map_some, update_ended h, ite_self]

/-- A step that has ended stays as it is. -/
theorem runPlan_ended (calls : List PlanCall) {i : ℕ} (hi : plan.steps[i]? = some step)
    (h : step.Ended) :
    (runPlan plan calls).steps[i]? = some step := by
  induction calls generalizing plan with
  | nil => exact hi
  | cons call calls ih => exact ih (call_ended hi h)

/-- The attempts are within the bound, with one left while the step is open. -/
structure PlanStep.Tried (step : PlanStep) : Prop where
  bounded : (step.attempts : ℤ) ≤ step.maxAttempts
  left : step.Open → (step.attempts : ℤ) < step.maxAttempts

theorem update_tried (h : step.Tried) : (call.update step).Tried := by
  rcases call.update_cases step with hsame | ⟨hpending, hstart⟩ | ⟨hopen, hend⟩ |
    ⟨hopen, error, hfail⟩
  · rwa [hsame]
  · rw [hstart]
    exact ⟨h.bounded, fun _ => h.left (Or.inl hpending)⟩
  · rcases hend with hend | hend
    · rw [hend]
      exact ⟨h.bounded, fun _ => h.left hopen⟩
    · rw [hend]
      exact ⟨h.bounded, fun _ => h.left hopen⟩
  · rw [hfail]
    have hleft := h.left hopen
    refine ⟨?_, fun hstill => ?_⟩
    · change ((step.attempts + 1 : ℕ) : ℤ) ≤ step.maxAttempts
      omega
    · -- the step is open again only when the bound is not reached
      change ((step.attempts + 1 : ℕ) : ℤ) < step.maxAttempts
      by_contra hreached
      have hexhausted : step.maxAttempts ≤ (step.attempts : ℤ) + 1 := by omega
      rcases hstill with hpending | hrunning
      · change (if step.maxAttempts ≤ (step.attempts : ℤ) + 1 then _ else _) =
          PlanStepStatus.pending at hpending
        rw [if_pos hexhausted] at hpending
        cases hpending
      · change (if step.maxAttempts ≤ (step.attempts : ℤ) + 1 then _ else _) =
          PlanStepStatus.running at hrunning
        rw [if_pos hexhausted] at hrunning
        cases hrunning

theorem call_forall {P : PlanStep → Prop} (hupdate : ∀ step, P step → P (call.update step))
    (h : ∀ step ∈ plan.steps, P step) : ∀ step ∈ (plan.call call).steps, P step := by
  intro step hstep
  rw [call_steps] at hstep
  obtain ⟨before, hbefore, rfl⟩ := mem_map.1 hstep
  split
  · exact hupdate before (h before hbefore)
  · exact h before hbefore

/-- The attempts of every step stay within their bound. -/
theorem runPlan_tried (calls : List PlanCall) (h : ∀ step ∈ plan.steps, step.Tried) :
    ∀ step ∈ (runPlan plan calls).steps, step.Tried := by
  induction calls generalizing plan with
  | nil => exact h
  | cons call calls ih => exact ih (call_forall (fun _ => update_tried) h)

theorem buildPlanDag_tried (steps : List PlanStepInput) :
    ∀ step ∈ (buildPlanDag steps).steps, step.Tried := by
  intro step hstep
  obtain ⟨input, -, rfl⟩ := mem_map.1 hstep
  refine ⟨?_, fun _ => ?_⟩
  · change ((0 : ℕ) : ℤ) ≤ min 10 (max 1 _)
    omega
  · change ((0 : ℕ) : ℤ) < min 10 (max 1 _)
    omega

end Run

/-! ## What validation says -/

/-- Distinct ids, dependencies on steps of the plan only, and no cycle. -/
structure SoundShape (shape : List (String × List String)) : Prop where
  nodup : (shape.map Prod.fst).Nodup
  closed : ∀ entry ∈ shape, ∀ dep ∈ entry.2, dep ∈ shape.map Prod.fst
  acyclic : Acyclic fun a b => ∃ deps, (a, deps) ∈ shape ∧ b ∈ deps

section Validation

variable {plan : PlanDag} {step : PlanStep} {id : String}

theorem shape_ids (plan : PlanDag) : plan.shape.map Prod.fst = plan.ids := by
  rw [PlanDag.shape, map_map]
  rfl

/-- With distinct ids the map has the step of an id. -/
theorem byId_eq (hnodup : plan.ids.Nodup) (hstep : step ∈ plan.steps) :
    plan.byId step.id = some step := by
  cases hfind : plan.byId step.id with
  | none =>
    have hnone := List.find?_eq_none.1 hfind step (mem_reverse.2 hstep)
    simp at hnone
  | some found =>
    have hid := List.find?_some hfind
    have hmem := mem_reverse.1 (mem_of_find?_eq_some hfind)
    rw [inj_on_of_nodup_map hnodup hmem hstep (beq_iff_eq.1 hid)]

theorem byId_isSome_iff : (plan.byId id).isSome = true ↔ id ∈ plan.ids := by
  rw [PlanDag.byId, List.find?_isSome, PlanDag.ids, mem_map]
  simp

/-- The search for a cycle comes to an end. -/
theorem exists_hasCycle_eq (plan : PlanDag) : ∃ found, plan.hasCycle = some found :=
  DepthFirst.exists_search_eq (fun _ => byId_isSome_iff.1) (fun _ h => h) _

/-- What the validation asks for. -/
theorem validatePlanDag_valid_iff : (validatePlanDag plan).valid = true ↔
    plan.ids.Nodup ∧ (∀ step ∈ plan.steps, ∀ dep ∈ step.dependsOn, dep ∈ plan.ids) ∧
      plan.hasCycle = some false := by
  have hdup : (if plan.ids.dedup.length = plan.ids.length then ([] : List String)
      else ["duplicate step ids"]) = [] ↔
      plan.ids.Nodup := by
    rw [← dedup_eq_self]
    constructor
    · intro hnone
      by_contra hdups
      rw [if_neg fun hlength => hdups ((dedup_sublist plan.ids).eq_of_length hlength)] at hnone
      cases hnone
    · intro hsame
      rw [if_pos (congrArg List.length hsame)]
  have hunknown : (plan.steps.flatMap fun step =>
      (step.dependsOn.filter fun dep => !plan.ids.contains dep).map fun dep =>
        s!"step {step.id} depends on unknown step {dep}") = [] ↔
      ∀ step ∈ plan.steps, ∀ dep ∈ step.dependsOn, dep ∈ plan.ids := by
    simp [flatMap_eq_nil_iff, filter_eq_nil_iff]
  have hcycle : (if plan.hasCycle = some false then ([] : List String)
      else ["plan has a dependency cycle"]) = [] ↔
      plan.hasCycle = some false := by
    split <;> simp_all
  simp only [validatePlanDag, List.isEmpty_iff, append_eq_nil_iff, hdup, hunknown, hcycle,
    and_assoc]

theorem validatePlanDag_sound (h : (validatePlanDag plan).valid = true) :
    SoundShape plan.shape := by
  obtain ⟨hnodup, hclosed, hsearch⟩ := validatePlanDag_valid_iff.1 h
  refine ⟨by rwa [shape_ids], fun entry hentry dep hdep => ?_, ?_⟩
  · obtain ⟨step, hstep, rfl⟩ := mem_map.1 hentry
    rw [shape_ids]
    exact hclosed step hstep dep hdep
  · have hacyclic := DepthFirst.acyclic_of_search (fun _ => byId_isSome_iff.1) hsearch
    refine fun a ha => hacyclic a (Relation.TransGen.mono (fun x y hxy => ?_) a a ha)
    obtain ⟨deps, hentry, hdep⟩ := hxy
    obtain ⟨step, hstep, hshape⟩ := mem_map.1 hentry
    cases hshape
    refine ⟨byId_isSome_iff.2 (mem_map_of_mem hstep),
      byId_isSome_iff.2 (hclosed step hstep y hdep), ?_⟩
    change y ∈ ((plan.byId step.id).map PlanStep.dependsOn).getD []
    rw [byId_eq hnodup hstep]
    exact hdep

/-- The ids and the dependencies decide. -/
theorem hasCycle_congr {other : PlanDag} (h : plan.shape = other.shape) :
    plan.hasCycle = other.hasCycle := by
  have hbyId : ∀ id, (plan.byId id).map PlanStep.shape = (other.byId id).map PlanStep.shape := by
    intro id
    have hfind : ∀ plan : PlanDag, (plan.byId id).map PlanStep.shape =
        plan.shape.reverse.find? fun entry => entry.1 == id := by
      intro plan
      rw [PlanDag.shape, ← map_reverse, List.find?_map]
      rfl
    rw [hfind, hfind, h]
  have hknown : (fun id => (plan.byId id).isSome) = fun id => (other.byId id).isSome := by
    funext id
    rw [← Option.isSome_map (f := PlanStep.shape), hbyId, Option.isSome_map]
  have hdeps : (fun id => ((plan.byId id).map PlanStep.dependsOn).getD []) =
      fun id => ((other.byId id).map PlanStep.dependsOn).getD [] := by
    funext id
    have hsnd := congrArg (Option.map Prod.snd) (hbyId id)
    rw [Option.map_map, Option.map_map] at hsnd
    exact congrArg (Option.getD · []) hsnd
  rw [PlanDag.hasCycle, PlanDag.hasCycle, hknown, hdeps, ← shape_ids, ← shape_ids, h]

theorem valid_congr {other : PlanDag} (h : plan.shape = other.shape) :
    (validatePlanDag plan).valid = true ↔ (validatePlanDag other).valid = true := by
  have hclosed : ∀ plan : PlanDag, (∀ step ∈ plan.steps, ∀ dep ∈ step.dependsOn, dep ∈ plan.ids) ↔
      ∀ entry ∈ plan.shape, ∀ dep ∈ entry.2, dep ∈ plan.shape.map Prod.fst := by
    intro plan
    rw [shape_ids]
    simp only [PlanDag.shape, PlanStep.shape, forall_mem_map]
  rw [validatePlanDag_valid_iff, validatePlanDag_valid_iff, hclosed, hclosed, hasCycle_congr h,
    ← shape_ids, ← shape_ids, h]

/-- A sound shape has nothing for the search to find. -/
theorem hasCycle_of_sound (h : SoundShape plan.shape) : plan.hasCycle = some false := by
  have hnodup : plan.ids.Nodup := by
    rw [← shape_ids]
    exact h.nodup
  obtain ⟨found, hfound⟩ := exists_hasCycle_eq plan
  cases found with
  | false => exact hfound
  | true =>
    have hcycle := DepthFirst.cycle_of_search (fun _ => byId_isSome_iff.2) hfound fun _ => by decide
    refine absurd (fun a ha => h.acyclic a (Relation.TransGen.mono (fun x y hxy => ?_) a a ha))
      hcycle
    obtain ⟨hx, -, hdep⟩ := hxy
    obtain ⟨step, hstep, rfl⟩ := mem_map.1 (byId_isSome_iff.1 hx)
    change y ∈ ((plan.byId step.id).map PlanStep.dependsOn).getD [] at hdep
    rw [byId_eq hnodup hstep] at hdep
    exact ⟨step.dependsOn, mem_map_of_mem hstep, hdep⟩

/-- **Validation accepts exactly the sound plans.** -/
theorem plan_valid_iff (plan : PlanDag) :
    (validatePlanDag plan).valid = true ↔ SoundShape plan.shape := by
  refine ⟨validatePlanDag_sound, fun h => ?_⟩
  refine validatePlanDag_valid_iff.2 ⟨?_, fun step hstep dep hdep => ?_, hasCycle_of_sound h⟩
  · rw [← shape_ids]
    exact h.nodup
  · rw [← shape_ids]
    exact h.closed step.shape (mem_map_of_mem hstep) dep hdep

end Validation

end LoopOver
