import LoopOver.Plan.Dag

/-!
# The progress of a plan

* `exists_ready`: in a sound plan with a pending step, none running and none failed, some step is
  ready.
* **`plan_never_wedges`**: a plan that was accepted is never reported as blocked, whatever the
  calls.
* **`dependencies_precede_iff`**: the dependencies of started steps are done throughout a run
  exactly when no call starts or ends a step before they are.
* `dependency_pending` is a call that does.
-/

namespace LoopOver

open List

section Ready

variable {plan : PlanDag} {step : PlanStep}

theorem statusById_eq (hnodup : plan.ids.Nodup) (hstep : step ∈ plan.steps) :
    plan.statusById step.id = step.status := by
  rw [PlanDag.statusById, byId_eq hnodup hstep]
  rfl

theorem count_eq_zero {status : PlanStepStatus} (h : ¬0 < plan.count status)
    (hstep : step ∈ plan.steps) :
    step.status ≠ status := by
  intro hstatus
  refine h (length_pos_of_mem (mem_filter.2 ⟨hstep, ?_⟩))
  exact decide_eq_true hstatus

theorem exists_ready (hsound : SoundShape plan.shape) (hfailed : ¬0 < plan.count .failed)
    (hrunning : ¬0 < plan.count .running) (hpending : 0 < plan.count .pending) :
    0 < (nextReadySteps plan).length := by
  have hnodup : plan.ids.Nodup := by
    rw [← shape_ids]
    exact hsound.nodup
  -- the last of the pending steps, in the order of the dependencies, depends on none of them
  let waiting := (plan.steps.filter fun step => step.status = .pending).map PlanStep.id
  have hwaiting : waiting ≠ [] := by
    intro hnone
    rw [PlanDag.count, map_eq_nil_iff.1 hnone] at hpending
    exact absurd hpending (Nat.lt_irrefl 0)
  obtain ⟨id, hid, hlast⟩ := hsound.acyclic.exists_last hwaiting
  obtain ⟨step, hfilter, rfl⟩ := mem_map.1 hid
  obtain ⟨hstep, hstatus⟩ := mem_filter.1 hfilter
  refine length_pos_of_mem (mem_filter.2 ⟨hstep, ?_⟩)
  rw [Bool.and_eq_true, all_eq_true]
  refine ⟨hstatus, fun dep hdep => ?_⟩
  have hentry : (step.id, step.dependsOn) ∈ plan.shape := mem_map_of_mem hstep
  have hmem := hsound.closed _ hentry dep hdep
  rw [shape_ids] at hmem
  obtain ⟨other, hother, rfl⟩ := mem_map.1 hmem
  rw [statusById_eq hnodup hother]
  cases hstate : other.status with
  | pending =>
    have hwaits : other.id ∈ waiting :=
      mem_map_of_mem (mem_filter.2 ⟨hother, decide_eq_true hstate⟩)
    exact absurd ⟨step.dependsOn, hentry, hdep⟩ (hlast other.id hwaits)
  | running => exact absurd hstate (count_eq_zero hrunning hother)
  | failed => exact absurd hstate (count_eq_zero hfailed hother)
  | completed => rfl
  | skipped => rfl

theorem planProgress_ne_blocked (hsound : SoundShape plan.shape) :
    (planProgress plan).status ≠ .blocked := by
  unfold planProgress
  dsimp only
  split
  · rintro ⟨⟩
  · split
    · rintro ⟨⟩
    · next hfailed =>
      split
      · rintro ⟨⟩
      · next hrunning =>
        split
        · next hblocked =>
          have hready := exists_ready hsound hfailed hrunning hblocked.1
          omega
        · rintro ⟨⟩

end Ready

/-- **An accepted plan never wedges.** After any calls it is not blocked, both status functions
agree, the attempts are within their bounds, and the ids and dependencies are those it was built
with; a step that has ended stays as it is under any further calls. -/
theorem plan_never_wedges (steps : List PlanStepInput)
    (hvalid : (validatePlanDag (buildPlanDag steps)).valid = true) (calls : List PlanCall) :
    (planProgress (runPlan (buildPlanDag steps) calls)).status ≠ .blocked ∧
      resolvePlanOverallStatus (runPlan (buildPlanDag steps) calls) =
        (planProgress (runPlan (buildPlanDag steps) calls)).status ∧
      (∀ step ∈ (runPlan (buildPlanDag steps) calls).steps,
        (step.attempts : ℤ) ≤ step.maxAttempts) ∧
      (∀ (later : List PlanCall) (i : ℕ) (step : PlanStep),
        (runPlan (buildPlanDag steps) calls).steps[i]? = some step → step.Ended →
          (runPlan (buildPlanDag steps) (calls ++ later)).steps[i]? = some step) ∧
      (runPlan (buildPlanDag steps) calls).shape = (buildPlanDag steps).shape := by
  have hshape := runPlan_shape (buildPlanDag steps) calls
  refine ⟨planProgress_ne_blocked ?_, rfl, fun step hstep => ?_,
    fun later i step hi hended => ?_, hshape⟩
  · rw [hshape]
    exact validatePlanDag_sound hvalid
  · exact (runPlan_tried calls (buildPlanDag_tried steps) step hstep).bounded
  · rw [runPlan, foldl_append]
    exact runPlan_ended later hi hended

/-- Three steps in a row, the first of which fails and is tried again. -/
theorem plan_never_wedges_chain :
    (planProgress (runPlan (buildPlanDag [⟨"a", "close stale PR", none, none, some 2⟩,
        ⟨"b", "land PR 2", none, some ["a"], none⟩,
          ⟨"c", "open direct PR", none, some ["b"], none⟩])
      [.markRunning "a", .applyResult "a" .failed none])).status ≠ .blocked :=
  (plan_never_wedges [⟨"a", "close stale PR", none, none, some 2⟩,
    ⟨"b", "land PR 2", none, some ["a"], none⟩, ⟨"c", "open direct PR", none, some ["b"], none⟩]
    (by decide +kernel) [.markRunning "a", .applyResult "a" .failed none]).1

/-! ## Dependencies first -/

/-- A step has been started when it is running, completed or failed. -/
def PlanStep.Started (step : PlanStep) : Prop :=
  step.status = .running ∨ step.status = .completed ∨ step.status = .failed

/-- All dependencies are completed or skipped. -/
def DependenciesDone (plan : PlanDag) (step : PlanStep) : Prop :=
  ∀ dep ∈ step.dependsOn, isDone (plan.statusById dep) = true

def DependenciesPrecede (plan : PlanDag) : Prop :=
  ∀ step ∈ plan.steps, step.Started → DependenciesDone plan step

/-- The call makes a pending step running, completed or failed: not a skip, and not a failure that
leaves an attempt. -/
def PlanCall.Starts (call : PlanCall) (step : PlanStep) : Prop :=
  match call with
  | .markRunning _ => True
  | .applyResult _ .completed _ => True
  | .applyResult _ .skipped _ => False
  | .applyResult _ .failed _ => step.maxAttempts ≤ (step.attempts : ℤ) + 1

instance (call : PlanCall) (step : PlanStep) : Decidable (call.Starts step) :=
  match call with
  | .markRunning _ => inferInstanceAs (Decidable True)
  | .applyResult _ .completed _ => inferInstanceAs (Decidable True)
  | .applyResult _ .skipped _ => inferInstanceAs (Decidable False)
  | .applyResult _ .failed _ =>
    inferInstanceAs (Decidable (step.maxAttempts ≤ (step.attempts : ℤ) + 1))

/-- The call starts the step it is for only when the dependencies are done. -/
def StartsReady (plan : PlanDag) (call : PlanCall) : Prop :=
  ∀ step ∈ plan.steps, step.id = call.stepId → step.status = .pending → call.Starts step →
    DependenciesDone plan step

section Precedence

variable {plan : PlanDag} {call : PlanCall} {step : PlanStep} {dep : String}

theorem ids_call (plan : PlanDag) (call : PlanCall) : (plan.call call).ids = plan.ids := by
  rw [← shape_ids, call_shape, shape_ids]

theorem update_id (call : PlanCall) (step : PlanStep) : (call.update step).id = step.id :=
  congrArg Prod.fst (update_shape call step)

theorem update_dependsOn (call : PlanCall) (step : PlanStep) :
    (call.update step).dependsOn = step.dependsOn :=
  congrArg Prod.snd (update_shape call step)

/-- A pending step is started by a call precisely when the call starts it. -/
theorem update_started_iff (hpending : step.status = .pending) :
    (call.update step).Started ↔ call.Starts step := by
  have hopen : ¬(isDone step.status = true ∨ step.status = .failed) :=
    PlanStep.open_iff.1 (Or.inl hpending)
  cases call with
  | markRunning stepId =>
    refine iff_of_true ?_ trivial
    rw [PlanCall.update, if_pos hpending]
    exact Or.inl rfl
  | applyResult stepId outcome error =>
    rw [show PlanCall.update (.applyResult stepId outcome error) step = _ from if_neg hopen]
    cases outcome with
    | completed => exact iff_of_true (Or.inr (Or.inl rfl)) trivial
    | skipped =>
      refine iff_of_false ?_ id
      rintro (h | h | h) <;> cases h
    | failed =>
      by_cases hexhausted : step.maxAttempts ≤ (step.attempts : ℤ) + 1
      · refine iff_of_true (Or.inr (Or.inr ?_)) hexhausted
        exact if_pos hexhausted
      · refine iff_of_false ?_ hexhausted
        have hagain : (if step.maxAttempts ≤ ((step.attempts + 1 : ℕ) : ℤ) then
            PlanStepStatus.failed
            else .pending) = .pending := if_neg hexhausted
        rintro (h | h | h) <;> exact absurd (hagain.symm.trans h) (by decide)

theorem mem_of_isDone (h : isDone (plan.statusById dep) = true) :
    ∃ step ∈ plan.steps, step.id = dep ∧ isDone step.status = true := by
  unfold PlanDag.statusById at h
  cases hfind : plan.byId dep with
  | none =>
    rw [hfind] at h
    cases h
  | some step =>
    rw [hfind] at h
    have hid := List.find?_some hfind
    exact ⟨step, mem_reverse.1 (mem_of_find?_eq_some hfind), beq_iff_eq.1 hid, h⟩

theorem mem_call_of_ended (hstep : step ∈ plan.steps) (h : step.Ended) :
    step ∈ (plan.call call).steps := by
  obtain ⟨i, hi⟩ := mem_iff_getElem?.1 hstep
  exact mem_iff_getElem?.2 ⟨i, call_ended hi h⟩

/-- What is done stays done. -/
theorem isDone_call (hnodup : plan.ids.Nodup) (h : isDone (plan.statusById dep) = true) :
    isDone ((plan.call call).statusById dep) = true := by
  obtain ⟨step, hstep, rfl, hdone⟩ := mem_of_isDone h
  have hended : step.Ended :=
    PlanStep.ended_iff.2 fun hopen => PlanStep.open_iff.1 hopen (Or.inl hdone)
  rwa [statusById_eq (by rwa [ids_call]) (mem_call_of_ended hstep hended)]

/-- A call decides nothing about the other steps. -/
theorem isDone_of_call (hnodup : plan.ids.Nodup) (hne : dep ≠ call.stepId)
    (h : isDone ((plan.call call).statusById dep) = true) :
    isDone (plan.statusById dep) = true := by
  obtain ⟨step, hstep, rfl, hdone⟩ := mem_of_isDone h
  rw [call_steps] at hstep
  obtain ⟨before, hbefore, rfl⟩ := mem_map.1 hstep
  split at hne
  · next hid => exact absurd ((update_id call before).trans hid) hne
  · next hid =>
    rw [if_neg hid] at hdone ⊢
    rwa [statusById_eq hnodup hbefore]

theorem call_precede (hnodup : plan.ids.Nodup) (hready : StartsReady plan call)
    (h : DependenciesPrecede plan) : DependenciesPrecede (plan.call call) := by
  intro step hstep hstarted
  rw [call_steps] at hstep
  obtain ⟨before, hbefore, rfl⟩ := mem_map.1 hstep
  -- the dependencies were done before the call
  have hdone : DependenciesDone plan before := by
    by_cases hid : before.id = call.stepId
    · rw [if_pos hid] at hstarted
      cases hstatus : before.status with
      | pending => exact hready before hbefore hid hstatus ((update_started_iff hstatus).1 hstarted)
      | running => exact h before hbefore (Or.inl hstatus)
      | completed => exact h before hbefore (Or.inr (Or.inl hstatus))
      | failed => exact h before hbefore (Or.inr (Or.inr hstatus))
      | skipped =>
        rw [update_ended (Or.inr (Or.inl hstatus))] at hstarted
        rcases hstarted with hs | hs | hs <;> exact absurd (hstatus.symm.trans hs) (by decide)
    · rw [if_neg hid] at hstarted
      exact h before hbefore hstarted
  intro dep hdep
  refine isDone_call hnodup (hdone dep ?_)
  split at hdep
  · rwa [update_dependsOn] at hdep
  · exact hdep

/-- No step depends on itself. -/
theorem SoundShape.ne_of_dep (hsound : SoundShape plan.shape) (hstep : step ∈ plan.steps)
    (hdep : dep ∈ step.dependsOn) : dep ≠ step.id := by
  rintro rfl
  have hentry : (step.id, step.dependsOn) ∈ plan.shape := mem_map_of_mem hstep
  exact hsound.acyclic step.id (.single ⟨step.dependsOn, hentry, hdep⟩)

theorem startsReady_of_precede (hsound : SoundShape plan.shape)
    (h : DependenciesPrecede (plan.call call)) : StartsReady plan call := by
  intro step hstep hid hpending hstarts dep hdep
  have hnodup : plan.ids.Nodup := by
    rw [← shape_ids]
    exact hsound.nodup
  have hmem : call.update step ∈ (plan.call call).steps := by
    rw [call_steps]
    exact mem_map.2 ⟨step, hstep, if_pos hid⟩
  have hdone := h _ hmem ((update_started_iff hpending).2 hstarts) dep (by rwa [update_dependsOn])
  refine isDone_of_call hnodup ?_ hdone
  rw [← hid]
  exact hsound.ne_of_dep hstep hdep

theorem buildPlanDag_precede (steps : List PlanStepInput) :
    DependenciesPrecede (buildPlanDag steps) := by
  intro step hstep hstarted
  obtain ⟨input, -, rfl⟩ := mem_map.1 hstep
  rcases hstarted with h | h | h <;> cases h

theorem runPlan_take_succ {calls : List PlanCall} {k : ℕ} (h : calls[k]? = some call) :
    runPlan plan (calls.take (k + 1)) = (runPlan plan (calls.take k)).call call := by
  rw [take_add_one, h, runPlan, foldl_append]
  rfl

end Precedence

/-- **When dependencies come first.** In an accepted plan every started step has its dependencies
done, in every state of a run, exactly when no call of the run starts a step whose dependencies are
not. -/
theorem dependencies_precede_iff (steps : List PlanStepInput)
    (hvalid : (validatePlanDag (buildPlanDag steps)).valid = true) (calls : List PlanCall) :
    (∀ k, DependenciesPrecede (runPlan (buildPlanDag steps) (calls.take k))) ↔
      ∀ k call, calls[k]? = some call →
        StartsReady (runPlan (buildPlanDag steps) (calls.take k)) call := by
  have hsound : ∀ k, SoundShape (runPlan (buildPlanDag steps) (calls.take k)).shape := by
    intro k
    rw [runPlan_shape]
    exact validatePlanDag_sound hvalid
  constructor
  · intro h k call hcall
    have hnext := h (k + 1)
    rw [runPlan_take_succ hcall] at hnext
    exact startsReady_of_precede (hsound k) hnext
  · intro h k
    induction k with
    | zero => exact buildPlanDag_precede steps
    | succ k ih =>
      cases hcall : calls[k]? with
      | none =>
        rw [take_add_one, hcall, Option.toList_none, append_nil]
        exact ih
      | some call =>
        rw [runPlan_take_succ hcall]
        refine call_precede ?_ (h k call hcall) ih
        rw [← shape_ids]
        exact (hsound k).nodup

/-- The two steps of the examples. -/
def twoSteps : List PlanStepInput :=
  [{ id := "a", title := "close stale PR" },
    { id := "b", title := "land PR 2", dependsOn := some ["a"] }]

theorem twoSteps_valid : (validatePlanDag (buildPlanDag twoSteps)).valid = true := by decide +kernel

/-- In order, the dependencies come first. -/
theorem dependencies_precede_in_order :
    DependenciesPrecede (runPlan (buildPlanDag twoSteps)
      [.applyResult "a" .completed none, .markRunning "b"]) := by
  refine (dependencies_precede_iff twoSteps twoSteps_valid
    [.applyResult "a" .completed none, .markRunning "b"]).2 (fun k call hcall => ?_) 2
  match k, hcall with
  | 0, hcall =>
    cases hcall
    unfold StartsReady DependenciesDone
    decide +kernel
  | 1, hcall =>
    cases hcall
    unfold StartsReady DependenciesDone
    decide +kernel

/-- The second step is marked as running while the first is pending. -/
theorem dependency_pending :
    (validatePlanDag (buildPlanDag twoSteps)).valid = true ∧
      ¬DependenciesPrecede (runPlan (buildPlanDag twoSteps) [.markRunning "b"]) := by
  refine ⟨twoSteps_valid, ?_⟩
  unfold DependenciesPrecede PlanStep.Started DependenciesDone
  decide +kernel

end LoopOver
