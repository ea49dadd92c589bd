import Mathlib.Order.Basic
import Mathlib.Tactic.SplitIfs

/-!
# Loops that end by a break

`for (;;) { …; if (done) break; }` as a function of its body: a step gives the next state and tells
whether the loop ends with it. `Loop.run` takes fuel for the rounds.

* `run_invariant`: what a round keeps, the loop keeps; `run_last` has the state before the break.
* `run_map`: a simulation of the step is one of the loop.
* `exists_run_eq`: when every round that does not end the loop makes a measure smaller, fuel above
  the measure is enough.
-/

namespace LoopOver.Loop

variable {σ : Type*} {step : σ → σ × Bool}

/-- Repeat the step until it ends the loop; `none` when the fuel runs out before. -/
def run (step : σ → σ × Bool) : ℕ → σ → Option σ
  | 0, _ => none
  | fuel + 1, s => if (step s).2 then some (step s).1 else run step fuel (step s).1

theorem run_invariant {P : σ → Prop} (hstep : ∀ s, P s → P (step s).1) {fuel : ℕ} {s s' : σ}
    (h : run step fuel s = some s') (hs : P s) : P s' := by
  induction fuel generalizing s with
  | zero => cases h
  | succ fuel ih =>
    rw [run] at h
    split at h
    · obtain rfl := Option.some.inj h
      exact hstep s hs
    · exact ih h (hstep s hs)

/-- The last round starts in a state that has what the rounds keep. -/
theorem run_last {P : σ → Prop} (hstep : ∀ s, P s → P (step s).1) {fuel : ℕ} {s s' : σ}
    (h : run step fuel s = some s') (hs : P s) :
    ∃ last, P last ∧ (step last).2 = true ∧ (step last).1 = s' := by
  induction fuel generalizing s with
  | zero => cases h
  | succ fuel ih =>
    rw [run] at h
    split at h
    · next hends => exact ⟨s, hs, hends, Option.some.inj h⟩
    · exact ih h (hstep s hs)

/-- A loop that another one simulates, round by round. -/
theorem run_map {τ : Type*} {step' : τ → τ × Bool} (view : σ → τ)
    (hstep : ∀ s, step' (view s) = (view (step s).1, (step s).2)) (fuel : ℕ) (s : σ) :
    run step' fuel (view s) = (run step fuel s).map view := by
  induction fuel generalizing s with
  | zero => rfl
  | succ fuel ih =>
    rw [run, run, hstep]
    split_ifs
    · rfl
    · exact ih (step s).1

theorem exists_run_eq (step : σ → σ × Bool) (measure : σ → ℕ)
    (hstep : ∀ s, (step s).2 = false → measure (step s).1 < measure s) {fuel : ℕ} {s : σ}
    (hfuel : measure s < fuel) : ∃ s', run step fuel s = some s' := by
  induction fuel generalizing s with
  | zero => exact absurd hfuel (Nat.not_lt_zero _)
  | succ fuel ih =>
    rw [run]
    split
    · exact ⟨_, rfl⟩
    · next hgoes =>
      have hless := hstep s (Bool.eq_false_iff.2 hgoes)
      exact ih (by omega)

end LoopOver.Loop
