import Mathlib.Data.List.Basic

/-!
# Runs of a partial step function

A system is a step function that a state may not allow: `step s a = none` where the action `a`
cannot happen in `s`. A run is a list of actions.

* `run_invariant` and `run_invariant_of`: what every step keeps, a run keeps; the second has a
  condition on the steps of the run.
* `exists_leaving`: a run that loses a property has a step that loses it; `exists_leaving_within` is
  about a part of a run.
* `run_iff_allSteps`: where every step keeps a property exactly under a condition, so does a run.
* `Occurs` is a step of a run, with the states before and after it; `occurs_append` and
  `run_of_occurs` take a run apart at one.
-/

namespace LoopOver.Runs

variable {σ α : Type*} (step : σ → α → Option σ)

/-- The state after a run. -/
def run : σ → List α → Option σ
  | s, [] => some s
  | s, a :: rest => (step s a).bind fun s' => run s' rest

/-- Every step of the run has the property, as long as the run goes on. -/
def AllSteps (P : σ → α → Prop) : σ → List α → Prop
  | _, [] => True
  | s, a :: rest => P s a ∧ ∀ s', step s a = some s' → AllSteps P s' rest

/-- In the run, the action happens in `before` and leads to `after`. -/
def Occurs (start : σ) (actions : List α) (before : σ) (a : α) (after : σ) : Prop :=
  ∃ front back, actions = front ++ a :: back ∧ run step start front = some before ∧
    step before a = some after

variable {step} {start s s' : σ} {a : α} {actions front back : List α}

@[simp] theorem run_nil : run step s [] = some s := rfl

theorem run_cons :
    run step s (a :: actions) = some s' ↔
      ∃ m, step s a = some m ∧ run step m actions = some s' := by
  rw [run, Option.bind_eq_some_iff]

theorem run_append :
    run step s (front ++ back) = some s' ↔
      ∃ m, run step s front = some m ∧ run step m back = some s' := by
  induction front generalizing s with
  | nil => simp
  | cons a front ih =>
    simp only [List.cons_append, run_cons, ih]
    constructor
    · rintro ⟨m, hm, m', hfront, hback⟩
      exact ⟨m', ⟨m, hm, hfront⟩, hback⟩
    · rintro ⟨m', ⟨m, hm, hfront⟩, hback⟩
      exact ⟨m, hm, m', hfront, hback⟩

theorem run_concat :
    run step s (actions ++ [a]) = some s' ↔
      ∃ m, run step s actions = some m ∧ step m a = some s' := by
  simp only [run_append, run_cons, run_nil, Option.some.injEq, exists_eq_right]

variable {P : σ → α → Prop}

/-- **What every step keeps, a run keeps**, as long as its steps meet the condition. -/
theorem run_invariant_of {Inv : σ → Prop}
    (hstep : ∀ {s a s'}, Inv s → P s a → step s a = some s' → Inv s')
    (hrun : run step s actions = some s') (hall : AllSteps step P s actions) (hs : Inv s) :
    Inv s' := by
  induction actions generalizing s with
  | nil =>
    obtain rfl := Option.some.inj hrun
    exact hs
  | cons a actions ih =>
    obtain ⟨m, hm, hrest⟩ := run_cons.1 hrun
    exact ih hrest (hall.2 m hm) (hstep hs hall.1 hm)

theorem allSteps_true (s : σ) (actions : List α) : AllSteps step (fun _ _ => True) s actions := by
  induction actions generalizing s with
  | nil => trivial
  | cons a actions ih => exact ⟨trivial, fun s' _ => ih s'⟩

/-- A run that loses a property has a step that loses it. -/
theorem exists_leaving {P : σ → Prop} (hrun : run step s actions = some s') (hs : P s)
    (hs' : ¬P s') :
    ∃ before a after, Occurs step s actions before a after ∧ P before ∧ ¬P after := by
  induction actions generalizing s with
  | nil =>
    obtain rfl := Option.some.inj hrun
    exact absurd hs hs'
  | cons a actions ih =>
    obtain ⟨m, hm, hrest⟩ := run_cons.1 hrun
    by_cases hkept : P m
    · obtain ⟨before, b, after, ⟨front, back, rfl, hfront, hb⟩, hbefore, hafter⟩ := ih hrest hkept
      exact ⟨before, b, after, ⟨a :: front, back, rfl, run_cons.2 ⟨m, hm, hfront⟩, hb⟩,
        hbefore, hafter⟩
    · exact ⟨s, a, m, ⟨[], actions, rfl, rfl, hm⟩, hs, hkept⟩

theorem allSteps_isSome (hrun : run step s actions = some s') :
    AllSteps step (fun s a => (step s a).isSome = true) s actions := by
  induction actions generalizing s with
  | nil => trivial
  | cons a actions ih =>
    obtain ⟨m, hm, hrest⟩ := run_cons.1 hrun
    refine ⟨Option.isSome_iff_exists.2 ⟨m, hm⟩, fun m' hm' => ?_⟩
    obtain rfl := Option.some.inj (hm.symm.trans hm')
    exact ih hrest

theorem AllSteps.mono {P Q : σ → α → Prop} (hPQ : ∀ s a, P s a → Q s a)
    (h : AllSteps step P s actions) :
    AllSteps step Q s actions := by
  induction actions generalizing s with
  | nil => trivial
  | cons a actions ih => exact ⟨hPQ s a h.1, fun m hm => ih (h.2 m hm)⟩

theorem allSteps_and {P Q : σ → α → Prop} :
    AllSteps step (fun s a => P s a ∧ Q s a) s actions ↔
      AllSteps step P s actions ∧ AllSteps step Q s actions := by
  induction actions generalizing s with
  | nil => exact ⟨fun _ => ⟨trivial, trivial⟩, fun _ => trivial⟩
  | cons a actions ih =>
    constructor
    · rintro ⟨⟨hP, hQ⟩, hrest⟩
      exact ⟨⟨hP, fun m hm => (ih.1 (hrest m hm)).1⟩, hQ, fun m hm => (ih.1 (hrest m hm)).2⟩
    · rintro ⟨⟨hP, hrest⟩, hQ, hrest'⟩
      exact ⟨⟨hP, hQ⟩, fun m hm => ih.2 ⟨hrest m hm, hrest' m hm⟩⟩

/-- What a condition gives in the states of an invariant, it gives throughout a run, where it keeps
the invariant. -/
theorem allSteps_of_invariant {P Q : σ → α → Prop} (Inv : σ → Prop)
    (hPQ : ∀ s a, Inv s → P s a → Q s a)
    (hstep : ∀ s a s', Inv s → P s a → step s a = some s' → Inv s') (hs : Inv s)
    (hall : AllSteps step P s actions) : AllSteps step Q s actions := by
  induction actions generalizing s with
  | nil => trivial
  | cons a actions ih =>
    exact ⟨hPQ s a hs hall.1, fun m hm => ih (hstep s a m hs hall.1 hm) (hall.2 m hm)⟩

/-- Two conditions that agree in the states of an invariant agree on runs, where the first of them
keeps it. -/
theorem allSteps_congr {P Q : σ → α → Prop} (Inv : σ → Prop) (hiff : ∀ s a, Inv s → (P s a ↔ Q s a))
    (hstep : ∀ s a s', Inv s → P s a → step s a = some s' → Inv s') (hs : Inv s) :
    AllSteps step P s actions ↔ AllSteps step Q s actions := by
  constructor
  · exact allSteps_of_invariant Inv (fun s a hs => (hiff s a hs).1) hstep hs
  · refine allSteps_of_invariant Inv (fun s a hs => (hiff s a hs).2) (fun s a s' hs hQ => ?_) hs
    exact hstep s a s' hs ((hiff s a hs).2 hQ)

instance decidableAllSteps {P : σ → α → Prop} [∀ s a, Decidable (P s a)] :
    ∀ s actions, Decidable (AllSteps step P s actions)
  | _, [] => isTrue trivial
  | s, a :: rest =>
    haveI : Decidable (∀ s', step s a = some s' → AllSteps step P s' rest) :=
      match h : step s a with
      | none => isTrue (by simp)
      | some s' =>
        haveI := decidableAllSteps (P := P) s' rest
        decidable_of_iff (AllSteps step P s' rest) (by simp)
    inferInstanceAs (Decidable (_ ∧ _))

theorem run_invariant {Inv : σ → Prop} (hstep : ∀ {s a s'}, Inv s → step s a = some s' → Inv s')
    (hrun : run step s actions = some s') (hs : Inv s) : Inv s' :=
  run_invariant_of (fun hs _ hm => hstep hs hm) hrun (allSteps_true s actions) hs

theorem allSteps_append {m : σ} (hall : AllSteps step P s (front ++ back))
    (hfront : run step s front = some m) : AllSteps step P s front ∧ AllSteps step P m back := by
  induction front generalizing s with
  | nil =>
    obtain rfl := Option.some.inj hfront
    exact ⟨trivial, hall⟩
  | cons a front ih =>
    obtain ⟨n, hn, hrest⟩ := run_cons.1 hfront
    refine ⟨⟨hall.1, fun s' hs' => ?_⟩, (ih (hall.2 n hn) hrest).2⟩
    obtain rfl := Option.some.inj (hn.symm.trans hs')
    exact (ih (hall.2 n hn) hrest).1

/-- A condition on all steps is one on every action that the run comes to. -/
theorem allSteps_iff :
    AllSteps step P s actions ↔
      ∀ front a back m, actions = front ++ a :: back → run step s front = some m → P m a := by
  constructor
  · rintro hall front a back m rfl hfront
    exact (allSteps_append hall hfront).2.1
  · intro h
    induction actions generalizing s with
    | nil => trivial
    | cons a actions ih =>
      refine ⟨h [] a actions s rfl rfl, fun m hm => ih fun front b back n hsplit hfront => ?_⟩
      exact h (a :: front) b back n (hsplit ▸ rfl) (run_cons.2 ⟨m, hm, hfront⟩)

/-- **A condition that is exact for a step is exact for a run**: where a step keeps a property just
if it meets the condition, and nothing that is lost comes back. -/
theorem run_iff_allSteps {Inv Good : σ → Prop}
    (hinv : ∀ {s a s'}, Inv s → step s a = some s' → Inv s')
    (hgood : ∀ {s a s'}, Inv s → step s a = some s' → (Good s' ↔ Good s ∧ P s a)) (hs : Inv s)
    (hrun : run step s actions = some s') : Good s' ↔ Good s ∧ AllSteps step P s actions := by
  induction actions generalizing s with
  | nil =>
    obtain rfl := Option.some.inj hrun
    exact (and_iff_left trivial).symm
  | cons a actions ih =>
    obtain ⟨m, hm, hrest⟩ := run_cons.1 hrun
    rw [ih (hinv hs hm) hrest, hgood hs hm, and_assoc]
    refine and_congr_right fun _ => and_congr_right fun _ =>
      ⟨fun hall m' hm' => ?_, fun hall => hall m hm⟩
    obtain rfl := Option.some.inj (hm.symm.trans hm')
    exact hall

/-- The state before a step of a run is reached by a run whose steps meet the condition, and so does
the step. -/
theorem run_of_occurs {before after : σ} (hall : AllSteps step P start actions)
    (h : Occurs step start actions before a after) :
    ∃ front, run step start front = some before ∧ AllSteps step P start front ∧ P before a := by
  obtain ⟨front, back, rfl, hfront, _⟩ := h
  obtain ⟨hbefore, hback⟩ := allSteps_append hall hfront
  exact ⟨front, hfront, hbefore, hback.1⟩

/-- A part of a run that loses a property has a step that loses it, where the condition of the run
holds. -/
theorem exists_leaving_within {P : σ → Prop} {Q : σ → α → Prop} {m m' : σ}
    (hall : AllSteps step Q s (front ++ actions ++ back)) (hfront : run step s front = some m)
    (hrun : run step m actions = some m') (hm : P m) (hm' : ¬P m') :
    ∃ before a after, Occurs step m actions before a after ∧ P before ∧ ¬P after ∧
      ∃ reached, run step s reached = some before ∧ Q before a ∧ step before a = some after := by
  obtain ⟨before, a, after, hoccurs, hbefore, hafter⟩ := exists_leaving hrun hm hm'
  refine ⟨before, a, after, hoccurs, hbefore, hafter, ?_⟩
  obtain ⟨first, last, rfl, hfirst, hstep⟩ := hoccurs
  have hwhole : Occurs step s (front ++ (first ++ a :: last) ++ back) before a after :=
    ⟨front ++ first, last ++ back, by simp, run_append.2 ⟨m, hfront, hfirst⟩, hstep⟩
  obtain ⟨reached, hreached, _, hQ⟩ := run_of_occurs hall hwhole
  exact ⟨reached, hreached, hQ, hstep⟩

end LoopOver.Runs
