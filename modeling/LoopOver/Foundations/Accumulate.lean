import Mathlib.Data.List.Basic

/-!
# Lists built up by stages

A planner often grows one list: every stage reads what the earlier stages pushed and appends its
own entries. `accumulate stages init` is that list, and the lemmas here are the rules by which a
property of the result is read off the stages.

* `mem_accumulate` says where an entry comes from: it was there at the start, or some stage pushed
  it onto what the stages before it had built.
* `exists_mem_accumulate` says when an entry is there in the end, and `accumulate_induction` is the
  rule for a property of the list as a whole.
* `pushWhen` is the stage body that pushes one entry under a guard.
-/

namespace LoopOver

open List

variable {α : Type*}

/-! ## Guarded pushes -/

/-- Push `a` when `guard` holds. -/
def pushWhen (guard : Bool) (a : α) : List α := if guard then [a] else []

@[simp] theorem mem_pushWhen {guard : Bool} {a x : α} :
    x ∈ pushWhen guard a ↔ guard = true ∧ x = a := by
  cases guard <;> simp [pushWhen]

@[simp] theorem pushWhen_true (a : α) : pushWhen true a = [a] := rfl

@[simp] theorem pushWhen_false (a : α) : pushWhen false a = [] := rfl

theorem length_pushWhen_le (guard : Bool) (a : α) : (pushWhen guard a).length ≤ 1 := by
  cases guard <;> simp

theorem filter_pushWhen (p : α → Bool) (guard : Bool) (a : α) :
    (pushWhen guard a).filter p = pushWhen (guard && p a) a := by
  cases guard <;> cases h : p a <;> simp [pushWhen, h]

/-! ## Stages -/

/-- The list built from `init` by running the stages in order, each on the list so far. -/
def accumulate (stages : List (List α → List α)) (init : List α) : List α :=
  stages.foldl (fun acc stage => acc ++ stage acc) init

@[simp] theorem accumulate_nil (init : List α) : accumulate [] init = init := rfl

@[simp] theorem accumulate_cons (stage : List α → List α) (stages : List (List α → List α))
    (init : List α) :
    accumulate (stage :: stages) init = accumulate stages (init ++ stage init) := rfl

theorem accumulate_append (front back : List (List α → List α)) (init : List α) :
    accumulate (front ++ back) init = accumulate back (accumulate front init) :=
  foldl_append

/-- What is there at the start stays there, in place. -/
theorem accumulate_eq_append (stages : List (List α → List α)) (init : List α) :
    ∃ pushed, accumulate stages init = init ++ pushed := by
  induction stages generalizing init with
  | nil => exact ⟨[], by simp⟩
  | cons stage stages ih =>
    obtain ⟨pushed, h⟩ := ih (init ++ stage init)
    exact ⟨stage init ++ pushed, by rw [accumulate_cons, h, append_assoc]⟩

variable {stages : List (List α → List α)}

/-- **Where an entry comes from**: the start, or a stage run on what the stages before it built. -/
theorem mem_accumulate {init : List α} {x : α} :
    x ∈ accumulate stages init ↔ x ∈ init ∨
      ∃ front stage back, stages = front ++ stage :: back ∧
        x ∈ stage (accumulate front init) := by
  induction stages generalizing init with
  | nil => simp
  | cons stage stages ih =>
    rw [accumulate_cons, ih, mem_append, or_assoc]
    refine or_congr Iff.rfl ⟨?_, ?_⟩
    · rintro (h | ⟨front, s, back, rfl, h⟩)
      · exact ⟨[], stage, stages, rfl, h⟩
      · exact ⟨stage :: front, s, back, rfl, h⟩
    · rintro ⟨front, s, back, e, h⟩
      cases front with
      | nil =>
        obtain ⟨rfl, rfl⟩ := List.cons.inj e
        exact Or.inl h
      | cons f front =>
        obtain ⟨rfl, rfl⟩ := List.cons.inj e
        exact Or.inr ⟨front, s, back, rfl, h⟩

/-- A stage that pushes an entry with `P` wherever there is none yet leaves one in the result. -/
theorem exists_mem_accumulate (init : List α) {stage : List α → List α} {P : α → Prop}
    (hs : stage ∈ stages) (h : ∀ acc, (∀ x ∈ acc, ¬P x) → ∃ x ∈ stage acc, P x) :
    ∃ x ∈ accumulate stages init, P x := by
  obtain ⟨front, back, rfl⟩ := append_of_mem hs
  obtain ⟨pushed, he⟩ := accumulate_eq_append (stage :: back) (accumulate front init)
  by_cases hacc : ∃ x ∈ accumulate front init, P x
  · obtain ⟨x, hx, hp⟩ := hacc
    exact ⟨x, by rw [accumulate_append, he]; exact mem_append_left _ hx, hp⟩
  · obtain ⟨x, hx, hp⟩ := h _ fun x hx hp => hacc ⟨x, hx, hp⟩
    exact ⟨x, mem_accumulate.2 (Or.inr ⟨front, stage, back, rfl, hx⟩), hp⟩

/-- A property of lists that every stage keeps holds of the result. -/
theorem accumulate_induction {init : List α} {P : List α → Prop} (hinit : P init)
    (hstage : ∀ stage ∈ stages, ∀ acc, P acc → P (acc ++ stage acc)) :
    P (accumulate stages init) := by
  induction stages generalizing init with
  | nil => exact hinit
  | cons stage stages ih =>
    exact ih (hstage stage (by simp) init hinit) fun s hs => hstage s (by simp [hs])

end LoopOver
