import LoopOver.Foundations.Interaction
import Mathlib.Logic.Function.Basic

/-!
# Scripts that share a store

Several programs run at the same time and call one host. The host keeps a store, and every call is
one atomic step on it: `answers g call reply g'` says that in the store `g` the call may get the
reply and leave the store `g'`. `Interleaves answers pool g trace pool' g'` is a run of such a pool,
in any order of the steps, up to any point.

* `Interleaves.follows` and `Interleaves.evolves` take a run apart: every program sees a run of its
  own, and the store goes through all the steps in their order.
* `Prog.Follows.exists_runs` extends what a program has done so far to a complete run of it.
* `play` runs a pool by a schedule, and `interleaves_of_play` says that this is a run.
* `Script.Performs` is a script that has the store to itself, with a rule for each way to build one.
-/

namespace LoopOver

open List

variable {Call : Type} {Reply : Call → Type} {Store α β : Type}

/-! ## What a program has done so far -/

variable {front back : List (Event Reply)} {value : α}

namespace Prog

/-- From `p`, the calls of the trace with their replies lead to `p'`. -/
def Follows : Prog Reply α → List (Event Reply) → Prog Reply α → Prop
  | p, [], p' => p' = p
  | p, e :: trace, p' => ∃ next, p = .ask e.call next ∧ (next e.reply).Follows trace p'

theorem runs_iff_follows {p : Prog Reply α} {trace : List (Event Reply)} :
    p.Runs trace value ↔ p.Follows trace (.ret value) := by
  induction trace generalizing p with
  | nil =>
    cases p with
    | ret v => simp [Runs, Follows]
    | ask call next => simp [Runs, Follows]
  | cons e trace ih =>
    cases p with
    | ret v => simp [Runs, Follows]
    | ask call next =>
      constructor
      · rintro ⟨reply, rest, h, hrest⟩
        obtain ⟨rfl, rfl⟩ := List.cons.inj h
        exact ⟨next, rfl, ih.1 hrest⟩
      · rintro ⟨next', h, hrest⟩
        obtain ⟨hcall, hnext⟩ := Prog.ask.inj h
        subst hcall
        obtain rfl := eq_of_heq hnext
        exact ⟨e.reply, trace, rfl, ih.2 hrest⟩

theorem follows_append {p p' : Prog Reply α} :
    p.Follows (front ++ back) p' ↔ ∃ p₁, p.Follows front p₁ ∧ p₁.Follows back p' := by
  induction front generalizing p with
  | nil => simp [Follows]
  | cons e front ih =>
    simp only [cons_append, Follows, ih]
    constructor
    · rintro ⟨next, hp, p₁, hfront, hback⟩
      exact ⟨p₁, ⟨next, hp, hfront⟩, hback⟩
    · rintro ⟨p₁, ⟨next, hp, hfront⟩, hback⟩
      exact ⟨next, hp, p₁, hfront, hback⟩

/-- A program always has a run to its end. -/
theorem exists_runs [∀ call, Nonempty (Reply call)] (p : Prog Reply α) :
    ∃ trace value, p.Runs trace value := by
  induction p with
  | ret value => exact ⟨[], value, rfl, rfl⟩
  | ask call next ih =>
    obtain ⟨reply⟩ := ‹∀ call, Nonempty (Reply call)› call
    obtain ⟨trace, value, h⟩ := ih reply
    exact ⟨⟨call, reply⟩ :: trace, value, reply, trace, rfl, h⟩

/-- What a program has done so far is the beginning of a complete run. -/
theorem Follows.exists_runs [∀ call, Nonempty (Reply call)] {p p' : Prog Reply α}
    {trace : List (Event Reply)} (h : p.Follows trace p') :
    ∃ rest value, p.Runs (trace ++ rest) value := by
  induction trace generalizing p with
  | nil =>
    obtain ⟨rest, value, hrest⟩ := p.exists_runs
    exact ⟨rest, value, hrest⟩
  | cons e trace ih =>
    obtain ⟨next, rfl, h⟩ := h
    obtain ⟨rest, value, hrest⟩ := ih h
    exact ⟨rest, value, e.reply, trace ++ rest, rfl, hrest⟩

end Prog

/-! ## Interleavings -/

section Interleaves

variable {ι : Type} [DecidableEq ι]

/-- How a store answers a call. -/
abbrev Answers (Reply : Call → Type) (Store : Type) : Type :=
  Store → (call : Call) → Reply call → Store → Prop

/-- A run of a pool of programs on one store: at each step one of them makes its next call. -/
inductive Interleaves (answers : Answers Reply Store) :
    (ι → Prog Reply α) → Store → List (ι × Event Reply) → (ι → Prog Reply α) → Store → Prop
  | done (pool : ι → Prog Reply α) (g : Store) : Interleaves answers pool g [] pool g
  | step {pool pool' : ι → Prog Reply α} {g g₁ g' : Store} {trace : List (ι × Event Reply)}
      (thread : ι) {call : Call} {next : Reply call → Prog Reply α} {reply : Reply call}
      (hthread : pool thread = .ask call next) (hanswer : answers g call reply g₁)
      (rest : Interleaves answers (Function.update pool thread (next reply)) g₁ trace pool' g') :
      Interleaves answers pool g ((thread, ⟨call, reply⟩) :: trace) pool' g'

/-- The calls of one program. -/
def ownEvents (thread : ι) (trace : List (ι × Event Reply)) : List (Event Reply) :=
  trace.filterMap fun step => if step.1 = thread then some step.2 else none

@[simp] theorem ownEvents_nil (thread : ι) :
    ownEvents thread ([] : List (ι × Event Reply)) = [] := rfl

theorem ownEvents_cons (thread : ι) (step : ι × Event Reply) (trace : List (ι × Event Reply)) :
    ownEvents thread (step :: trace) =
      if step.1 = thread then step.2 :: ownEvents thread trace else ownEvents thread trace := by
  unfold ownEvents
  by_cases h : step.1 = thread <;> simp [h]

theorem ownEvents_append (thread : ι) (front back : List (ι × Event Reply)) :
    ownEvents thread (front ++ back) = ownEvents thread front ++ ownEvents thread back :=
  filterMap_append

variable {thread : ι}

theorem mem_ownEvents {e : Event Reply} {trace : List (ι × Event Reply)} :
    e ∈ ownEvents thread trace ↔ (thread, e) ∈ trace := by
  induction trace with
  | nil => simp
  | cons step trace ih =>
    obtain ⟨owner, own⟩ := step
    rw [ownEvents_cons]
    by_cases h : owner = thread
    · subst h
      simp [ih]
    · have hne : (thread, e) ≠ (owner, own) := by
        rintro heq
        exact h (congrArg Prod.fst heq).symm
      simp [h, ih, hne]

/-- What the events of a trace say, each with the program that made the call. -/
def readings (read : Event Reply → Option β) (trace : List (ι × Event Reply)) : List (ι × β) :=
  trace.filterMap fun step => (read step.2).map (Prod.mk step.1)

section Readings

variable {read : Event Reply → Option β}

omit [DecidableEq ι] in
theorem readings_append (front back : List (ι × Event Reply)) :
    readings read (front ++ back) = readings read front ++ readings read back :=
  filterMap_append

omit [DecidableEq ι] in
theorem readings_singleton (thread : ι) (e : Event Reply) :
    readings read [(thread, e)] = ((read e).map (Prod.mk thread)).toList := by
  unfold readings
  cases h : read e <;> simp [h]

theorem mem_readings {value : β} {trace : List (ι × Event Reply)} :
    (thread, value) ∈ readings read trace ↔
      ∃ e ∈ ownEvents thread trace, read e = some value := by
  simp only [readings, mem_filterMap, mem_ownEvents]
  constructor
  · rintro ⟨⟨owner, e⟩, hmem, hread⟩
    obtain ⟨value', hvalue, hpair⟩ := Option.map_eq_some_iff.1 hread
    obtain ⟨rfl, rfl⟩ := Prod.mk.inj hpair
    exact ⟨e, hmem, hvalue⟩
  · rintro ⟨e, hmem, hread⟩
    exact ⟨(thread, e), hmem, by rw [hread, Option.map_some]⟩

/-- Where all that is read is of one program, its own events say as much. -/
theorem length_readings_of_owner {trace : List (ι × Event Reply)}
    (h : ∀ owner value, (owner, value) ∈ readings read trace → owner = thread) :
    (readings read trace).length = ((ownEvents thread trace).filterMap read).length := by
  induction trace with
  | nil => rfl
  | cons step trace ih =>
    obtain ⟨owner, e⟩ := step
    have hsplit : readings read ((owner, e) :: trace) =
        ((read e).map (Prod.mk owner)).toList ++ readings read trace := by
      rw [← readings_singleton, ← readings_append]
      rfl
    have hrest := ih fun owner' value hmem => h owner' value (by
      rw [hsplit]
      exact mem_append_right _ hmem)
    rw [hsplit, length_append, hrest, ownEvents_cons]
    cases hread : read e with
    | none => by_cases howner : owner = thread <;> simp [howner, hread]
    | some value =>
      have howner : owner = thread := h owner value (by simp [hsplit, hread])
      simp [howner, hread]
      omega

end Readings

/-- The store goes through the events, in their order. -/
def Evolves (answers : Answers Reply Store) : Store → List (Event Reply) → Store → Prop
  | g, [], g' => g' = g
  | g, e :: trace, g' => ∃ g₁, answers g e.call e.reply g₁ ∧ Evolves answers g₁ trace g'

variable {answers : Answers Reply Store} {pool pool' : ι → Prog Reply α} {g g' : Store}
  {trace : List (ι × Event Reply)}

variable {answers' : Answers Reply Store}

namespace Interleaves

variable {left : (ι → Prog Reply α) → Prop}

/-- A run, step by step, to programs with the property `left`. -/
theorem exists_step {g₁ : Store} (thread : ι) {call : Call} {next : Reply call → Prog Reply α}
    {reply : Reply call} (hthread : pool thread = .ask call next)
    (hanswer : answers g call reply g₁)
    (rest : ∃ pool',
      Interleaves answers (Function.update pool thread (next reply)) g₁ trace pool' g' ∧
      left pool') :
    ∃ pool', Interleaves answers pool g ((thread, ⟨call, reply⟩) :: trace) pool' g' ∧
      left pool' := by
  obtain ⟨pool', rest, hleft⟩ := rest
  exact ⟨pool', .step thread hthread hanswer rest, hleft⟩

/-- A run in which one program makes some calls in a row. -/
theorem exists_calls {g₁ : Store} {p : Prog Reply α} {calls : List (Event Reply)}
    (hfollows : (pool thread).Follows calls p)
    (hevolves : Evolves answers g calls g₁)
    (rest : ∃ pool', Interleaves answers (Function.update pool thread p) g₁ trace pool' g' ∧
      left pool') :
    ∃ pool', Interleaves answers pool g (calls.map (Prod.mk thread) ++ trace) pool' g' ∧
      left pool' := by
  induction calls generalizing pool g with
  | nil =>
    obtain rfl : p = pool thread := hfollows
    obtain rfl : g₁ = g := hevolves
    rwa [Function.update_eq_self] at rest
  | cons e calls ih =>
    obtain ⟨next, hthread, hnext⟩ := hfollows
    obtain ⟨g₀, hanswer, hrest⟩ := hevolves
    refine exists_step thread hthread hanswer (ih ?_ hrest ?_)
    · rwa [Function.update_self]
    · rwa [Function.update_idem]

/-- Every program of the pool sees a run of its own. -/
theorem follows (h : Interleaves answers pool g trace pool' g') (thread : ι) :
    (pool thread).Follows (ownEvents thread trace) (pool' thread) := by
  induction h with
  | done pool g => rfl
  | step owner hthread hanswer _ ih =>
    rw [ownEvents_cons]
    by_cases howner : owner = thread
    · subst howner
      rw [if_pos rfl]
      refine ⟨_, hthread, ?_⟩
      simpa using ih
    · rw [if_neg howner]
      rwa [Function.update_of_ne (Ne.symm howner)] at ih

/-- A program that has ended has run through its own calls. -/
theorem runs (h : Interleaves answers pool g trace pool' g')
    (hended : pool' thread = .ret value) : (pool thread).Runs (ownEvents thread trace) value := by
  rw [Prog.runs_iff_follows, ← hended]
  exact h.follows thread

/-- **Induction over the history of a run.** A step is one of some program, whose own calls so far,
with this one, are the beginning of a run of it. -/
theorem history_induction (h : Interleaves answers pool g trace pool' g')
    {motive : List (ι × Event Reply) → Store → Prop} (start : motive [] g)
    (step : ∀ past g₁ thread e g₂, motive past g₁ → answers g₁ e.call e.reply g₂ →
      (∃ p', (pool thread).Follows (ownEvents thread past ++ [e]) p') →
      motive (past ++ [(thread, e)]) g₂) : motive trace g' := by
  -- generalized to a pool that has already gone through `past`
  have hfrom : ∀ {pool₁ pool₂ : ι → Prog Reply α} {g₁ g₂ : Store} {trace₁ : List (ι × Event Reply)},
      Interleaves answers pool₁ g₁ trace₁ pool₂ g₂ → ∀ past,
      (∀ thread, (pool thread).Follows (ownEvents thread past) (pool₁ thread)) → motive past g₁ →
      motive (past ++ trace₁) g₂ := by
    intro pool₁ pool₂ g₁ g₂ trace₁ hrun
    induction hrun with
    | done pool₁ g₁ =>
      intro past _ hpast
      rwa [append_nil]
    | @step pool₁ pool₂ g₁ g₂ g₃ trace₁ thread call next reply hthread hanswer _ ih =>
      intro past hfollows hpast
      have hown : (pool thread).Follows (ownEvents thread past ++ [⟨call, reply⟩]) (next reply) :=
        Prog.follows_append.2 ⟨pool₁ thread, hfollows thread, next, hthread, rfl⟩
      have hnext := step past g₁ thread ⟨call, reply⟩ g₂ hpast hanswer ⟨_, hown⟩
      have hrest := ih (past ++ [(thread, ⟨call, reply⟩)]) ?_ hnext
      · rwa [append_assoc] at hrest
      · intro other
        rw [ownEvents_append, ownEvents_cons, ownEvents_nil]
        by_cases hother : thread = other
        · subst hother
          rw [if_pos rfl, Function.update_self]
          exact hown
        · rw [if_neg hother, append_nil, Function.update_of_ne (Ne.symm hother)]
          exact hfollows other
  exact hfrom h [] (fun _ => rfl) start

/-- A run is one under answers that allow more. -/
theorem mono (h : Interleaves answers pool g trace pool' g')
    (hle : ∀ g call reply g', answers g call reply g' → answers' g call reply g') :
    Interleaves answers' pool g trace pool' g' := by
  induction h with
  | done pool g => exact .done pool g
  | step thread hthread hanswer _ ih => exact .step thread hthread (hle _ _ _ _ hanswer) ih

/-- The store goes through all the calls. -/
theorem evolves (h : Interleaves answers pool g trace pool' g') :
    Evolves answers g (trace.map Prod.snd) g' := by
  induction h with
  | done pool g => rfl
  | step thread hthread hanswer _ ih => exact ⟨_, hanswer, ih⟩

end Interleaves

/-! ### Replies of a store -/

/-- A call that takes effect and replies, or fails before or after it took effect. -/
def Outcome (g effect : Store) (value : α) (reply : Except String α) (g' : Store) : Prop :=
  (reply = .ok value ∧ g' = effect) ∨ (∃ e, reply = .error e) ∧ (g' = g ∨ g' = effect)

/-- A call that only reads, where the reply has the property unless the call fails. -/
def Reads (g : Store) (holds : α → Prop) (reply : Except String α) (g' : Store) : Prop :=
  g' = g ∧ ∀ value, reply = .ok value → holds value

omit [DecidableEq ι] in
theorem Outcome.cases {effect : Store} {reply : Except String α}
    (h : Outcome g effect value reply g') :
    g' = g ∨ g' = effect := by
  obtain ⟨_, hafter⟩ | ⟨_, hafter⟩ := h
  · exact Or.inr hafter
  · exact hafter

/-! ### Playing a schedule -/

section Play

variable {χ : Type}

/-- Let the programs make their calls in the order of the schedule, and answer each one as it
says. -/
def play (answer : χ → Store → (call : Call) → Option (Reply call × Store)) :
    List (ι × χ) → (ι → Prog Reply α) → Store →
      Option (List (ι × Event Reply) × (ι → Prog Reply α) × Store)
  | [], pool, g => some ([], pool, g)
  | (thread, choice) :: schedule, pool, g =>
    match pool thread with
    | .ret _ => none
    | .ask call next => (answer choice g call).bind fun (reply, g₁) =>
      (play answer schedule (Function.update pool thread (next reply)) g₁).map fun (trace, out) =>
        ((thread, ⟨call, reply⟩) :: trace, out)

/-- What is played is a run. -/
theorem interleaves_of_play {answer : χ → Store → (call : Call) → Option (Reply call × Store)}
    {schedule : List (ι × χ)}
    (hanswer : ∀ choice g call reply g₁, answer choice g call = some (reply, g₁) →
      answers g call reply g₁)
    (h : play answer schedule pool g = some (trace, pool', g')) :
    Interleaves answers pool g trace pool' g' := by
  induction schedule generalizing pool g trace with
  | nil =>
    obtain ⟨rfl, rfl, rfl⟩ : [] = trace ∧ pool = pool' ∧ g = g' := by simpa [play] using h
    exact .done pool g
  | cons turn schedule ih =>
    obtain ⟨thread, choice⟩ := turn
    cases hthread : pool thread with
    | ret value => simp [play, hthread] at h
    | ask call next =>
      simp only [play, hthread, Option.bind_eq_some_iff, Option.map_eq_some_iff] at h
      obtain ⟨⟨reply, g₁⟩, hreply, ⟨trace', out⟩, hrest, hout⟩ := h
      obtain ⟨rfl, rfl⟩ := Prod.mk.inj hout
      exact .step thread hthread (hanswer choice g call reply g₁ hreply) (ih hrest)

end Play

/-- A property that every step keeps holds at the end, when it held at the start. -/
theorem Evolves.induction {events : List (Event Reply)} {motive : Store → Prop}
    (h : Evolves answers g events g') (start : motive g)
    (step : ∀ g₁ e g₂, e ∈ events → motive g₁ → answers g₁ e.call e.reply g₂ → motive g₂) :
    motive g' := by
  induction events generalizing g with
  | nil =>
    obtain rfl := h
    exact start
  | cons e events ih =>
    obtain ⟨g₁, hanswer, hrest⟩ := h
    refine ih hrest (step g e g₁ mem_cons_self start hanswer) ?_
    intro g₂ e' g₃ hmem
    exact step g₂ e' g₃ (mem_cons_of_mem _ hmem)

theorem Evolves.mono {events : List (Event Reply)} (h : Evolves answers g events g')
    (hle : ∀ g call reply g', answers g call reply g' → answers' g call reply g') :
    Evolves answers' g events g' := by
  induction events generalizing g with
  | nil => exact h
  | cons e events ih =>
    obtain ⟨g₁, hanswer, hrest⟩ := h
    exact ⟨g₁, hle _ _ _ _ hanswer, ih hrest⟩

/-- The store at any event of the run. -/
theorem Evolves.exists_before {e : Event Reply} (h : Evolves answers g (front ++ e :: back) g') :
    ∃ g₁ g₂, Evolves answers g front g₁ ∧ answers g₁ e.call e.reply g₂ ∧
      Evolves answers g₂ back g' := by
  induction front generalizing g with
  | nil =>
    obtain ⟨g₂, hanswer, hrest⟩ := h
    exact ⟨g, g₂, rfl, hanswer, hrest⟩
  | cons e' front ih =>
    obtain ⟨g₀, hanswer, hrest⟩ := h
    obtain ⟨g₁, g₂, hfront, he, hback⟩ := ih hrest
    exact ⟨g₁, g₂, ⟨g₀, hanswer, hfront⟩, he, hback⟩

theorem evolves_append :
    Evolves answers g (front ++ back) g' ↔
      ∃ g₁, Evolves answers g front g₁ ∧ Evolves answers g₁ back g' := by
  induction front generalizing g with
  | nil => simp [Evolves]
  | cons e front ih =>
    simp only [cons_append, Evolves, ih]
    constructor
    · rintro ⟨g₁, hanswer, g₂, hfront, hback⟩
      exact ⟨g₂, ⟨g₁, hanswer, hfront⟩, hback⟩
    · rintro ⟨g₂, ⟨g₁, hanswer, hfront⟩, hback⟩
      exact ⟨g₁, hanswer, g₂, hfront, hback⟩

end Interleaves

/-! ## A script alone on the store -/

namespace Script

variable {σ ε : Type} {answers : Answers Reply Store} {s s' : σ} {g g' : Store} {r : Except ε α}

/-- The script runs with the store to itself. -/
def Performs (answers : Answers Reply Store) (p : Script Reply σ ε α) (s : σ) (g : Store)
    (r : Except ε α) (s' : σ) (g' : Store) : Prop :=
  ∃ trace, p.Ends s trace r s' ∧ Evolves answers g trace g'

/-- Where every call gets an answer, every script has a run. -/
theorem exists_performs (htotal : ∀ g call, ∃ reply g', answers g call reply g')
    (p : Script Reply σ ε α) (s : σ) (g : Store) : ∃ r s' g', p.Performs answers s g r s' g' := by
  have hprog : ∀ (q : Prog Reply (Except ε α × σ)) (g : Store),
      ∃ trace value g', q.Runs trace value ∧ Evolves answers g trace g' := by
    intro q
    induction q with
    | ret value => exact fun g => ⟨[], value, g, ⟨rfl, rfl⟩, rfl⟩
    | ask call next ih =>
      intro g
      obtain ⟨reply, g₁, hanswer⟩ := htotal g call
      obtain ⟨trace, value, g', hruns, hevolves⟩ := ih reply g₁
      exact ⟨⟨call, reply⟩ :: trace, value, g', ⟨reply, trace, rfl, hruns⟩, g₁, hanswer, hevolves⟩
  obtain ⟨trace, ⟨r, s'⟩, g', hruns, hevolves⟩ := hprog (p s) g
  exact ⟨r, s', g', trace, hruns, hevolves⟩

theorem performs_pure :
    (pure value : Script Reply σ ε α).Performs answers s g r s' g' ↔
      r = .ok value ∧ s' = s ∧ g' = g := by
  constructor
  · rintro ⟨trace, hends, hevolves⟩
    obtain ⟨rfl, rfl, rfl⟩ := ends_pure.1 hends
    exact ⟨rfl, rfl, hevolves⟩
  · rintro ⟨rfl, rfl, rfl⟩
    exact ⟨[], ends_pure.2 ⟨rfl, rfl, rfl⟩, rfl⟩

theorem performs_ofExcept {result : Except ε α} :
    (ofExcept result : Script Reply σ ε α).Performs answers s g r s' g' ↔
      r = result ∧ s' = s ∧ g' = g := by
  constructor
  · rintro ⟨trace, hends, hevolves⟩
    obtain ⟨rfl, rfl, rfl⟩ := ends_ofExcept.1 hends
    exact ⟨rfl, rfl, hevolves⟩
  · rintro ⟨rfl, rfl, rfl⟩
    exact ⟨[], ends_ofExcept.2 ⟨rfl, rfl, rfl⟩, rfl⟩

theorem performs_ask_bind {call : Call} {f : Reply call → Script Reply σ ε α} :
    (ask call >>= f).Performs answers s g r s' g' ↔
      ∃ reply g₁, answers g call reply g₁ ∧ (f reply).Performs answers s g₁ r s' g' := by
  constructor
  · rintro ⟨trace, hends, hevolves⟩
    obtain ⟨reply, back, rfl, hrest⟩ := ends_ask_bind.1 hends
    obtain ⟨g₁, hanswer, hback⟩ := hevolves
    exact ⟨reply, g₁, hanswer, back, hrest, hback⟩
  · rintro ⟨reply, g₁, hanswer, back, hrest, hback⟩
    exact ⟨⟨call, reply⟩ :: back, ends_ask_bind.2 ⟨reply, back, rfl, hrest⟩, g₁, hanswer, hback⟩

theorem performs_ofExcept_bind {result : Except ε β} {f : β → Script Reply σ ε α} :
    (ofExcept result >>= f).Performs answers s g r s' g' ↔
      (∃ e, result = .error e ∧ r = .error e ∧ s' = s ∧ g' = g) ∨
      ∃ value, result = .ok value ∧ (f value).Performs answers s g r s' g' := by
  constructor
  · rintro ⟨trace, hends, hevolves⟩
    rcases ends_ofExcept_bind.1 hends with ⟨e, rfl, rfl, rfl, rfl⟩ | ⟨value, rfl, hrest⟩
    · exact Or.inl ⟨e, rfl, rfl, rfl, hevolves⟩
    · exact Or.inr ⟨value, rfl, trace, hrest, hevolves⟩
  · rintro (⟨e, rfl, rfl, rfl, rfl⟩ | ⟨value, rfl, trace, hrest, hevolves⟩)
    · exact ⟨[], ends_ofExcept_bind.2 (Or.inl ⟨e, rfl, rfl, rfl, rfl⟩), rfl⟩
    · exact ⟨trace, ends_ofExcept_bind.2 (Or.inr ⟨value, rfl, hrest⟩), hevolves⟩

/-- `try p`, and go on with its outcome. -/
theorem performs_attempt_bind {p : Script Reply σ ε β} {f : Except ε β → Script Reply σ ε α} :
    (p.attempt >>= f).Performs answers s g r s' g' ↔
      ∃ r₁ s₁ g₁, p.Performs answers s g r₁ s₁ g₁ ∧ (f r₁).Performs answers s₁ g₁ r s' g' := by
  constructor
  · rintro ⟨trace, hends, hevolves⟩
    obtain ⟨front, r₁, s₁, back, hp, hf, rfl⟩ := ends_attempt_bind.1 hends
    obtain ⟨g₁, hfront, hback⟩ := evolves_append.1 hevolves
    exact ⟨r₁, s₁, g₁, ⟨front, hp, hfront⟩, back, hf, hback⟩
  · rintro ⟨r₁, s₁, g₁, ⟨front, hp, hfront⟩, back, hf, hback⟩
    exact ⟨front ++ back, ends_attempt_bind.2 ⟨front, r₁, s₁, back, hp, hf, rfl⟩,
      evolves_append.2 ⟨g₁, hfront, hback⟩⟩

end Script

end LoopOver
