import LoopOver.Plan.Dag

/-!
# The order of a plan that is printed

`packages/loopover-engine/src/plan-export.ts` prints the steps of a plan, valid or not, in an order
in which the dependencies of a step come before it (`orderByDependency`). It goes over the remaining
steps again and again, and takes those out whose dependencies have all been emitted, until a pass
takes out none.

* `SelfContained emitted steps` is what a pass keeps of the steps it emits: the dependencies of each
  are among `emitted` and the steps before it.
* `Grounded` steps are those that have no missing ancestor and none on a cycle.
* **`plan_order_by_dependency`**: the order is a permutation of the steps, the grounded ones come
  first, each of them after its dependencies, and the others keep their order.
-/

namespace LoopOver

open List

/-! ## The order -/

/-- One pass over the remaining steps: those that it emits, and those that remain. -/
def emitReady (emitted : List String) : List PlanStep → List PlanStep × List PlanStep
  | [] => ([], [])
  | step :: rest =>
    if step.dependsOn.all fun dep => emitted.contains dep then
      let pass := emitReady (step.id :: emitted) rest
      (step :: pass.1, pass.2)
    else
      let pass := emitReady emitted rest
      (pass.1, step :: pass.2)

theorem emitReady_length (emitted : List String) (remaining : List PlanStep) :
    (emitReady emitted remaining).1.length + (emitReady emitted remaining).2.length =
      remaining.length := by
  induction remaining generalizing emitted with
  | nil => rfl
  | cons step rest ih =>
    rw [emitReady]
    split
    · have hrest := ih (step.id :: emitted)
      simp only [length_cons]
      omega
    · have hrest := ih emitted
      simp only [length_cons]
      omega

/-- The loop: go on while steps remain and the last pass has emitted some. -/
def orderRemaining (emitted : List String) (ordered remaining : List PlanStep) : List PlanStep :=
  if (emitReady emitted remaining).1 = [] then ordered ++ remaining
  else
    orderRemaining ((emitReady emitted remaining).1.map PlanStep.id ++ emitted)
      (ordered ++ (emitReady emitted remaining).1) (emitReady emitted remaining).2
termination_by remaining.length
decreasing_by
  have hlength := emitReady_length emitted remaining
  have hpos := length_pos_iff.2 ‹¬(emitReady emitted remaining).1 = []›
  omega

/-- The steps in the order in which they are printed. -/
def orderByDependency (steps : List PlanStep) : List PlanStep := orderRemaining [] [] steps

/-! ## What a pass does -/

/-- The dependencies of each step are among the given ids and the steps before it. -/
def SelfContained : List String → List PlanStep → Prop
  | _, [] => True
  | emitted, step :: rest => step.dependsOn ⊆ emitted ∧ SelfContained (step.id :: emitted) rest

section Pass

variable {emitted : List String} {remaining steps : List PlanStep}

theorem SelfContained.mono {more : List String} (h : SelfContained emitted steps)
    (hsub : emitted ⊆ more) :
    SelfContained more steps := by
  induction steps generalizing emitted more with
  | nil => trivial
  | cons step rest ih =>
    obtain ⟨hdeps, hrest⟩ := h
    exact ⟨fun dep hdep => hsub (hdeps hdep), ih hrest (cons_subset_cons step.id hsub)⟩

theorem SelfContained.append {more : List PlanStep} (h : SelfContained emitted steps)
    (hmore : SelfContained (steps.map PlanStep.id ++ emitted) more) :
    SelfContained emitted (steps ++ more) := by
  induction steps generalizing emitted with
  | nil => exact hmore
  | cons step rest ih =>
    obtain ⟨hdeps, hrest⟩ := h
    refine ⟨hdeps, ih hrest (hmore.mono fun id hid => ?_)⟩
    simp only [map_cons, cons_append, mem_cons, mem_append] at hid ⊢
    tauto

/-- The dependencies of a step are among the ids and the steps before it. -/
theorem SelfContained.before {before after : List PlanStep} {step : PlanStep}
    (h : SelfContained emitted (before ++ step :: after)) :
    step.dependsOn ⊆ before.map PlanStep.id ++ emitted := by
  induction before generalizing emitted with
  | nil => exact h.1
  | cons first before ih =>
    intro dep hdep
    have hmem := ih h.2 hdep
    simp only [map_cons, cons_append, mem_cons, mem_append] at hmem ⊢
    tauto

theorem emitReady_settled (emitted : List String) (remaining : List PlanStep) :
    SelfContained emitted (emitReady emitted remaining).1 := by
  induction remaining generalizing emitted with
  | nil => trivial
  | cons step rest ih =>
    rw [emitReady]
    split
    · next hready => exact ⟨fun dep hdep => by simpa using all_eq_true.1 hready dep hdep,
        ih (step.id :: emitted)⟩
    · exact ih emitted

theorem emitReady_perm (emitted : List String) (remaining : List PlanStep) :
    ((emitReady emitted remaining).1 ++ (emitReady emitted remaining).2).Perm remaining := by
  induction remaining generalizing emitted with
  | nil => exact .nil
  | cons step rest ih =>
    rw [emitReady]
    split
    · exact (ih (step.id :: emitted)).cons step
    · exact perm_middle.trans ((ih emitted).cons step)

theorem emitReady_sublist (emitted : List String) (remaining : List PlanStep) :
    (emitReady emitted remaining).2.Sublist remaining := by
  induction remaining generalizing emitted with
  | nil => exact .slnil
  | cons step rest ih =>
    rw [emitReady]
    split
    · exact (ih (step.id :: emitted)).cons step
    · exact (ih emitted).cons_cons step

/-- A pass that emits nothing has found every step waiting. -/
theorem waiting_of_emitReady (h : (emitReady emitted remaining).1 = []) :
    ∀ step ∈ remaining, ∃ dep ∈ step.dependsOn, dep ∉ emitted := by
  induction remaining with
  | nil => simp
  | cons first rest ih =>
    rw [emitReady] at h
    split at h
    · cases h
    · next hwaits =>
      intro step hstep
      rcases mem_cons.1 hstep with rfl | hstep
      · simpa using hwaits
      · exact ih h step hstep

end Pass

/-! ## What the loop leaves -/

/-- An emitted part in which every step comes after its dependencies, and a part in which every step
waits for another one, in its old order. -/
structure Emitted (steps front back : List PlanStep) : Prop where
  perm : (front ++ back).Perm steps
  settled : SelfContained [] front
  waiting : ∀ step ∈ back, ∃ dep ∈ step.dependsOn, dep ∉ front.map PlanStep.id
  sublist : back.Sublist steps

theorem orderRemaining_emitted {steps ordered remaining : List PlanStep} {emitted : List String}
    (hids : ∀ id, id ∈ emitted ↔ id ∈ ordered.map PlanStep.id)
    (hperm : (ordered ++ remaining).Perm steps) (hsettled : SelfContained [] ordered)
    (hsublist : remaining.Sublist steps) :
    ∃ front back, orderRemaining emitted ordered remaining = front ++ back ∧
      Emitted steps front back := by
  induction emitted, ordered, remaining using orderRemaining.induct with
  | case1 emitted ordered remaining hnone =>
    rw [orderRemaining, if_pos hnone]
    refine ⟨ordered, remaining, rfl, hperm, hsettled, fun step hstep => ?_, hsublist⟩
    obtain ⟨dep, hdep, hwaits⟩ := waiting_of_emitReady hnone step hstep
    exact ⟨dep, hdep, fun hmem => hwaits ((hids dep).2 hmem)⟩
  | case2 emitted ordered remaining hsome ih =>
    rw [orderRemaining, if_neg hsome]
    refine ih (fun id => ?_) ?_ ?_ ((emitReady_sublist emitted remaining).trans hsublist)
    · rw [mem_append, hids, map_append, mem_append, or_comm]
    · rw [append_assoc]
      exact ((emitReady_perm emitted remaining).append_left ordered).trans hperm
    · refine hsettled.append ((emitReady_settled emitted remaining).mono fun id hid => ?_)
      rw [append_nil]
      exact (hids id).1 hid

theorem orderByDependency_emitted (steps : List PlanStep) :
    ∃ front back, orderByDependency steps = front ++ back ∧ Emitted steps front back :=
  orderRemaining_emitted (fun _ => Iff.rfl) (List.Perm.refl steps) trivial (List.Sublist.refl steps)

/-! ## Grounded steps -/

/-- A step with the id `a` has `b` among its dependencies. -/
def Needs (steps : List PlanStep) (a b : String) : Prop :=
  ∃ step ∈ steps, step.id = a ∧ b ∈ step.dependsOn

/-- No ancestor of the step is missing from the plan or on a cycle. -/
def Grounded (steps : List PlanStep) (id : String) : Prop :=
  ∀ ancestor, Relation.TransGen (Needs steps) id ancestor →
    ancestor ∈ steps.map PlanStep.id ∧ ¬Relation.TransGen (Needs steps) ancestor ancestor

section Ground

variable {steps front back : List PlanStep} {step : PlanStep}

theorem needs_iff (hnodup : (steps.map PlanStep.id).Nodup) (hstep : step ∈ steps) {dep : String} :
    Needs steps step.id dep ↔ dep ∈ step.dependsOn := by
  constructor
  · rintro ⟨other, hother, hid, hdep⟩
    rwa [inj_on_of_nodup_map hnodup hother hstep hid] at hdep
  · exact fun hdep => ⟨step, hstep, rfl, hdep⟩

/-- In the emitted part an ancestor of a step has an earlier position. -/
theorem Emitted.ancestor_before (h : Emitted steps front back)
    (hnodup : (steps.map PlanStep.id).Nodup) {a b : String} (ha : a ∈ front.map PlanStep.id)
    (hab : Relation.TransGen (Needs steps) a b) :
    b ∈ front.map PlanStep.id ∧
      (front.map PlanStep.id).idxOf b < (front.map PlanStep.id).idxOf a := by
  have hone : ∀ {a b : String}, a ∈ front.map PlanStep.id → Needs steps a b →
      b ∈ front.map PlanStep.id ∧
        (front.map PlanStep.id).idxOf b < (front.map PlanStep.id).idxOf a := by
    intro a b ha hneeds
    obtain ⟨step, hstep, rfl⟩ := mem_map.1 ha
    have hmem : step ∈ steps := h.perm.subset (mem_append_left back hstep)
    have hdep := (needs_iff hnodup hmem).1 hneeds
    obtain ⟨before, after, rfl⟩ := append_of_mem hstep
    have hbefore : b ∈ before.map PlanStep.id := by simpa using h.settled.before hdep
    have hfirst : step.id ∉ before.map PlanStep.id := by
      have hfront : ((before ++ step :: after).map PlanStep.id).Nodup :=
        (((h.perm.map PlanStep.id).nodup_iff.2 hnodup).sublist
          ((sublist_append_left _ back).map PlanStep.id))
      rw [map_append, map_cons] at hfront
      exact fun hid => (nodup_append.1 hfront).2.2 _ hid _ mem_cons_self rfl
    rw [map_append, map_cons]
    refine ⟨mem_append_left _ hbefore, ?_⟩
    rw [idxOf_append_of_mem hbefore, idxOf_append_of_notMem hfirst]
    have := idxOf_lt_length_iff.2 hbefore
    omega
  induction hab with
  | single hneeds => exact hone ha hneeds
  | tail _ hneeds ih =>
    obtain ⟨hmem, hlt⟩ := ih
    obtain ⟨hmem', hlt'⟩ := hone hmem hneeds
    exact ⟨hmem', Nat.lt_trans hlt' hlt⟩

theorem Emitted.grounded (h : Emitted steps front back) (hnodup : (steps.map PlanStep.id).Nodup)
    (hstep : step ∈ front) : Grounded steps step.id := by
  intro ancestor hancestor
  obtain ⟨hmem, -⟩ := h.ancestor_before hnodup (mem_map_of_mem hstep) hancestor
  refine ⟨?_, fun hcycle => ?_⟩
  · exact (h.perm.map PlanStep.id).subset (by simpa using Or.inl hmem)
  · exact Nat.lt_irrefl _ (h.ancestor_before hnodup hmem hcycle).2

/-- A step that is left over waits for one that is left over, or for none of the plan. -/
theorem Emitted.waits (h : Emitted steps front back) (hnodup : (steps.map PlanStep.id).Nodup)
    (hstep : step ∈ back) : ∃ dep, Needs steps step.id dep ∧
      (dep ∈ steps.map PlanStep.id → dep ∈ back.map PlanStep.id) := by
  have hmem : step ∈ steps := h.perm.subset (mem_append_right front hstep)
  obtain ⟨dep, hdep, hwaits⟩ := h.waiting step hstep
  refine ⟨dep, (needs_iff hnodup hmem).2 hdep, fun hid => ?_⟩
  have hall := (h.perm.map PlanStep.id).symm.subset hid
  rw [map_append] at hall
  exact (mem_append.1 hall).resolve_left hwaits

theorem Grounded.of_needs {a b : String} (h : Grounded steps a) (hab : Needs steps a b) :
    Grounded steps b :=
  fun ancestor hancestor => h ancestor (hancestor.head hab)

theorem Emitted.not_grounded (h : Emitted steps front back) (hnodup : (steps.map PlanStep.id).Nodup)
    (hstep : step ∈ back) : ¬Grounded steps step.id := by
  intro hgrounded
  classical
  have hacyclic : Acyclic fun a b => Grounded steps a ∧ Needs steps a b := by
    intro a hcycle
    have hneeds : Relation.TransGen (Needs steps) a a :=
      Relation.TransGen.mono (fun _ _ h => h.2) a a hcycle
    obtain ⟨b, ⟨ha, -⟩, -⟩ := Relation.TransGen.head'_iff.1 hcycle
    exact (ha a hneeds).2 hneeds
  -- among the grounded ids that are left over one needs no other of them
  have hne : (back.map PlanStep.id).filter (fun id => Grounded steps id) ≠ [] :=
    ne_nil_of_mem (mem_filter.2 ⟨mem_map_of_mem hstep, decide_eq_true hgrounded⟩)
  obtain ⟨last, hlast, hnone⟩ := hacyclic.exists_last hne
  obtain ⟨hback, hlastGrounded⟩ := mem_filter.1 hlast
  have hlastGrounded : Grounded steps last := of_decide_eq_true hlastGrounded
  obtain ⟨other, hother, rfl⟩ := mem_map.1 hback
  obtain ⟨dep, hneeds, hleft⟩ := h.waits hnodup hother
  have hdep : dep ∈ back.map PlanStep.id := hleft (hlastGrounded dep (.single hneeds)).1
  refine hnone dep (mem_filter.2 ⟨hdep, decide_eq_true (hlastGrounded.of_needs hneeds)⟩) ?_
  exact ⟨hlastGrounded, hneeds⟩

end Ground

/-- A permutation of the steps in which the grounded ones come first, each after its dependencies,
and the others follow in their order. -/
structure DependencyOrder (steps ordered : List PlanStep) : Prop where
  perm : ordered.Perm steps
  after_dependencies : ∀ before step after, ordered = before ++ step :: after →
    Grounded steps step.id →
    step.dependsOn ⊆ before.map PlanStep.id
  ungrounded_last : ∃ front back, ordered = front ++ back ∧
    (∀ step ∈ front, Grounded steps step.id) ∧
    (∀ step ∈ back, ¬Grounded steps step.id) ∧ back.Sublist steps

/-- **Steps are printed after their dependencies.** -/
theorem plan_order_by_dependency (steps : List PlanStep) (hnodup : (steps.map PlanStep.id).Nodup) :
    DependencyOrder steps (orderByDependency steps) := by
  obtain ⟨front, back, hordered, hemitted⟩ := orderByDependency_emitted steps
  rw [hordered]
  refine ⟨hemitted.perm, fun before step after hsplit hgrounded => ?_, front, back, rfl,
    fun step hstep => hemitted.grounded hnodup hstep,
      fun step hstep => hemitted.not_grounded hnodup hstep,
    hemitted.sublist⟩
  -- a grounded step is in the emitted part
  rcases append_eq_append_iff.1 hsplit with ⟨rest, rfl, hback⟩ | ⟨rest, rfl, hfront⟩
  · have hstep : step ∈ back := by simp [hback]
    exact absurd hgrounded (hemitted.not_grounded hnodup hstep)
  · cases rest with
    | nil =>
      have hstep : step ∈ back := by
        rw [nil_append] at hfront
        simp [← hfront]
      exact absurd hgrounded (hemitted.not_grounded hnodup hstep)
    | cons first rest =>
      obtain ⟨rfl, -⟩ := List.cons.inj hfront
      simpa using hemitted.settled.before

/-- A step before its dependency, two that need each other, and one that needs a step that is
missing. -/
def tangledSteps : List PlanStep :=
  (buildPlanDag [{ id := "release", title := "Release", dependsOn := some ["build"] },
    { id := "left", title := "Left", dependsOn := some ["right"] },
    { id := "orphan", title := "Orphan", dependsOn := some ["gone"] },
    { id := "build", title := "Build" },
    { id := "right", title := "Right", dependsOn := some ["left"] }]).steps

theorem plan_order_tangled :
    (tangledSteps.map PlanStep.id).Nodup ∧
      DependencyOrder tangledSteps (orderByDependency tangledSteps) :=
  ⟨by decide, plan_order_by_dependency tangledSteps (by decide)⟩

end LoopOver
