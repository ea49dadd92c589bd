import LoopOver.Foundations.Interleaving

/-!
# What programs may call

A `Conduct` says in two parts what a step of a program may do to the store: which calls a program
may make in a store, and what such a call does, which is shown once for every call and not for every
program. A program then only has to show that each of its calls is allowed when it is made, whatever
the others did in between.

* `Prog.Behaves` is a program all of whose calls are allowed, and `Interleaves.behaves` the rule
  that programs which behave keep the invariant together and go on behaving.
* `Interleaves.behaves_induction` is induction over the steps of such a run, where each call is
  known to be allowed.
* `Script.Behaves` has a rule for each way to build a script; its postcondition speaks of the state
  too.
* `Conduct.keeping` allows whatever keeps an invariant and a relation, so that a program shows that
  of each of its calls.
-/

namespace LoopOver

variable {Call : Type} {Reply : Call → Type} {Store α β : Type}

/-- Which calls are allowed in a store, and what such a call keeps and may change. -/
structure Conduct (Reply : Call → Type) (Store : Type) where
  answers : Answers Reply Store
  inv : Store → Prop
  allowed : Store → Call → Prop
  rely : Store → Store → Prop
  refl : ∀ g, rely g g
  trans : ∀ {g₁ g₂ g₃}, rely g₁ g₂ → rely g₂ g₃ → rely g₁ g₃
  step : ∀ {g call reply g'}, inv g → allowed g call → answers g call reply g' → inv g' ∧ rely g g'

/-- The conduct that allows just what keeps the invariant and the relation. -/
def Conduct.keeping (answers : Answers Reply Store) (inv : Store → Prop)
    (rely : Store → Store → Prop) (refl : ∀ g, rely g g)
    (trans : ∀ g₁ g₂ g₃, rely g₁ g₂ → rely g₂ g₃ → rely g₁ g₃) : Conduct Reply Store where
  answers := answers
  inv := inv
  allowed g call := ∀ reply g', answers g call reply g' → inv g' ∧ rely g g'
  rely := rely
  refl := refl
  trans := trans _ _ _
  step _ hallowed hanswer := hallowed _ _ hanswer

namespace Prog

variable {C : Conduct Reply Store} {post : α → Store → Prop} {g g₁ : Store}

/-- Whatever the other programs do, each call of this one is allowed when it is made, and its result
satisfies `post`. -/
def Behaves (C : Conduct Reply Store) (post : α → Store → Prop) : Prog Reply α → Store → Prop
  | ret value, g => ∀ g₁, C.rely g g₁ → C.inv g₁ → post value g₁
  | ask call next, g => ∀ g₁, C.rely g g₁ → C.inv g₁ → C.allowed g₁ call ∧
      ∀ reply g₂, C.answers g₁ call reply g₂ → (next reply).Behaves C post g₂

variable {p : Prog Reply α}

/-- Good conduct survives the steps of the others. -/
theorem Behaves.stable (h : p.Behaves C post g) (hrely : C.rely g g₁) : p.Behaves C post g₁ := by
  cases p with
  | ret value =>
    intro g₂ h₂ hinv
    exact h g₂ (C.trans hrely h₂) hinv
  | ask call next =>
    intro g₂ h₂ hinv
    exact h g₂ (C.trans hrely h₂) hinv

/-- It is enough to behave in the stores that can be met. -/
theorem behaves_of_forall (h : ∀ g₁, C.rely g g₁ → C.inv g₁ → p.Behaves C post g₁) :
    p.Behaves C post g := by
  cases p with
  | ret value =>
    intro g₁ h₁ hinv
    exact h g₁ h₁ hinv g₁ (C.refl g₁) hinv
  | ask call next =>
    intro g₁ h₁ hinv
    exact h g₁ h₁ hinv g₁ (C.refl g₁) hinv

theorem Behaves.mono {post' : α → Store → Prop} (h : p.Behaves C post g)
    (hpost : ∀ value g₁, post value g₁ → post' value g₁) : p.Behaves C post' g := by
  induction p generalizing g with
  | ret value =>
    intro g₁ h₁ hinv
    exact hpost value g₁ (h g₁ h₁ hinv)
  | ask call next ih =>
    intro g₁ h₁ hinv
    obtain ⟨hallowed, hnext⟩ := h g₁ h₁ hinv
    exact ⟨hallowed, fun reply g₂ hanswer => ih reply (hnext reply g₂ hanswer)⟩

/-- The result comes in a store that can be met from the start. -/
theorem Behaves.since {g₀ : Store} (h : p.Behaves C post g) (hrely : C.rely g₀ g) :
    p.Behaves C (fun value g₁ => C.rely g₀ g₁ ∧ post value g₁) g := by
  induction p generalizing g with
  | ret value =>
    intro g₁ h₁ hinv
    exact ⟨C.trans hrely h₁, h g₁ h₁ hinv⟩
  | ask call next ih =>
    intro g₁ h₁ hinv
    obtain ⟨hallowed, hnext⟩ := h g₁ h₁ hinv
    refine ⟨hallowed, fun reply g₂ hanswer => ih reply (hnext reply g₂ hanswer) ?_⟩
    exact C.trans (C.trans hrely h₁) (C.step hinv hallowed hanswer).2

theorem behaves_bind {p : Prog Reply β} {f : β → Prog Reply α}
    (h : p.Behaves C (fun value g₁ => (f value).Behaves C post g₁) g) :
    (p.bind f).Behaves C post g := by
  induction p generalizing g with
  | ret value => exact behaves_of_forall h
  | ask call next ih =>
    intro g₁ h₁ hinv
    obtain ⟨hallowed, hnext⟩ := h g₁ h₁ hinv
    exact ⟨hallowed, fun reply g₂ hanswer => ih reply (hnext reply g₂ hanswer)⟩

/-- The next call of a program that behaves is allowed. -/
theorem Behaves.allowed {call : Call} {next : Reply call → Prog Reply α}
    (h : (ask call next).Behaves C post g) (hinv : C.inv g) : C.allowed g call :=
  (h g (C.refl g) hinv).1

end Prog

namespace Interleaves

variable {ι : Type} [DecidableEq ι] {C : Conduct Reply Store} {post : ι → α → Store → Prop}
  {pool pool' : ι → Prog Reply α} {g g' : Store} {trace : List (ι × Event Reply)}
    {answers : Answers Reply Store}

/-- **Induction over a run of programs that behave**: a step makes an allowed call in a store with
the invariant. The run may be one under answers that allow less. -/
theorem behaves_induction (h : Interleaves answers pool g trace pool' g')
    (hle : ∀ g call reply g', answers g call reply g' → C.answers g call reply g') (hinv : C.inv g)
    (hpool : ∀ thread, (pool thread).Behaves C (post thread) g) {motive : Store → Prop}
    (start : motive g)
    (step : ∀ g call reply g', C.inv g → C.allowed g call → motive g → answers g call reply g' →
      motive g') :
    motive g' ∧ C.inv g' ∧ C.rely g g' ∧ ∀ thread, (pool' thread).Behaves C (post thread) g' := by
  induction h with
  | done pool g => exact ⟨start, hinv, C.refl g, hpool⟩
  | @step pool pool' g g₁ g' trace thread call next reply hthread hanswer _ ih =>
    have hown : (Prog.ask call next).Behaves C (post thread) g := hthread ▸ hpool thread
    obtain ⟨hallowed, hnext⟩ := hown g (C.refl g) hinv
    obtain ⟨hinv₁, hrely₁⟩ := C.step hinv hallowed (hle _ _ _ _ hanswer)
    have hpool₁ : ∀ other,
        (Function.update pool thread (next reply) other).Behaves C (post other) g₁ := by
      intro other
      by_cases hother : other = thread
      · subst hother
        rw [Function.update_self]
        exact hnext reply g₁ (hle _ _ _ _ hanswer)
      · rw [Function.update_of_ne hother]
        exact (hpool other).stable hrely₁
    obtain ⟨hmotive, hinv', hrely', hpool'⟩ :=
      ih hinv₁ hpool₁ (step g call reply g₁ hinv hallowed start hanswer)
    exact ⟨hmotive, hinv', C.trans hrely₁ hrely', hpool'⟩

/-- **Programs that behave keep the invariant together**, and go on behaving. -/
theorem behaves (h : Interleaves C.answers pool g trace pool' g') (hinv : C.inv g)
    (hpool : ∀ thread, (pool thread).Behaves C (post thread) g) :
    C.inv g' ∧ C.rely g g' ∧ ∀ thread, (pool' thread).Behaves C (post thread) g' :=
  (h.behaves_induction (motive := fun _ => True) (fun _ _ _ _ hanswer => hanswer) hinv hpool trivial
    fun _ _ _ _ _ _ _ _ => trivial).2

end Interleaves

/-! ## Scripts -/

namespace Script

variable {C : Conduct Reply Store} {σ ε : Type} {s : σ} {g : Store}
  {post : Except ε α → σ → Store → Prop}

/-- The conduct of a script started in the state `s`. -/
def Behaves (C : Conduct Reply Store) (post : Except ε α → σ → Store → Prop)
    (p : Script Reply σ ε α) (s : σ) (g : Store) : Prop :=
  (p s).Behaves C (fun out => post out.1 out.2) g

theorem Behaves.stable {p : Script Reply σ ε α} {g₁ : Store} (h : p.Behaves C post s g)
    (hrely : C.rely g g₁) :
    p.Behaves C post s g₁ :=
  Prog.Behaves.stable h hrely

theorem behaves_pure {value : α} (h : ∀ g₁, C.rely g g₁ → C.inv g₁ → post (.ok value) s g₁) :
    (pure value : Script Reply σ ε α).Behaves C post s g := h

theorem behaves_ofExcept {result : Except ε α}
    (h : ∀ g₁, C.rely g g₁ → C.inv g₁ → post result s g₁) :
    (ofExcept result : Script Reply σ ε α).Behaves C post s g := h

theorem behaves_ask_bind {call : Call} {f : Reply call → Script Reply σ ε α}
    (h : ∀ g₁, C.rely g g₁ → C.inv g₁ → C.allowed g₁ call ∧ ∀ reply g₂, C.answers g₁ call reply g₂ →
      (f reply).Behaves C post s g₂) : (ask call >>= f).Behaves C post s g := h

theorem behaves_keeping_ask_bind {answers : Answers Reply Store} {inv : Store → Prop}
    {rely : Store → Store → Prop}
    {refl : ∀ g, rely g g} {trans : ∀ g₁ g₂ g₃, rely g₁ g₂ → rely g₂ g₃ → rely g₁ g₃} {call : Call}
    {f : Reply call → Script Reply σ ε α}
    (h : ∀ g₁, rely g g₁ → inv g₁ → ∀ reply g₂, answers g₁ call reply g₂ → inv g₂ ∧ rely g₁ g₂ ∧
      (f reply).Behaves (.keeping answers inv rely refl trans) post s g₂) :
    (ask call >>= f).Behaves (.keeping answers inv rely refl trans) post s g :=
  fun g₁ hrely hinv =>
    ⟨fun reply g₂ hanswer => (h g₁ hrely hinv reply g₂ hanswer).imp_right And.left,
    fun reply g₂ hanswer => (h g₁ hrely hinv reply g₂ hanswer).2.2⟩

theorem behaves_ofExcept_bind {result : Except ε β} {f : β → Script Reply σ ε α}
    (herror : ∀ e, result = .error e → ∀ g₁, C.rely g g₁ → C.inv g₁ → post (.error e) s g₁)
    (hok : ∀ value, result = .ok value → (f value).Behaves C post s g) :
    (ofExcept result >>= f).Behaves C post s g := by
  cases result with
  | error e => exact herror e rfl
  | ok value => exact hok value rfl

theorem behaves_bind {p : Script Reply σ ε β} {f : β → Script Reply σ ε α}
    (h : p.Behaves C (fun r s₁ g₁ => match r with
      | .ok value => (f value).Behaves C post s₁ g₁
      | .error e => ∀ g₂, C.rely g₁ g₂ → C.inv g₂ → post (.error e) s₁ g₂) s g) : (p >>= f).Behaves
        C post s g := by
  apply Prog.behaves_bind
  apply Prog.Behaves.mono h
  rintro ⟨r, s₁⟩ g₁ hr
  cases r with
  | ok value => exact hr
  | error e => exact hr

/-- `try p`, and go on with its outcome. -/
theorem behaves_attempt_bind {p : Script Reply σ ε β} {f : Except ε β → Script Reply σ ε α}
    (h : p.Behaves C (fun r s₁ g₁ => (f r).Behaves C post s₁ g₁) s g) :
    (p.attempt >>= f).Behaves C post s g := by
  apply Prog.behaves_bind
  apply Prog.behaves_bind
  apply Prog.Behaves.mono h
  rintro ⟨r, s₁⟩ g₁ hr g₂ hrely _
  exact hr.stable hrely

theorem behaves_get_bind {f : σ → Script Reply σ ε α} (h : (f s).Behaves C post s g) :
    (get >>= f).Behaves C post s g := h

theorem behaves_modify_bind {change : σ → σ} {f : Unit → Script Reply σ ε α}
    (h : (f ()).Behaves C post (change s) g) : (modify change >>= f).Behaves C post s g := h

theorem Behaves.mono {post' : Except ε α → σ → Store → Prop} {p : Script Reply σ ε α}
    (h : p.Behaves C post s g) (hpost : ∀ r s₁ g₁, post r s₁ g₁ → post' r s₁ g₁) :
    p.Behaves C post' s g :=
  Prog.Behaves.mono h fun out g₁ => hpost out.1 out.2 g₁

theorem Behaves.since {p : Script Reply σ ε α} (h : p.Behaves C post s g) :
    p.Behaves C (fun r s₁ g₁ => C.rely g g₁ ∧ post r s₁ g₁) s g :=
  Prog.Behaves.since h (C.refl g)

/-- What every pass through the body keeps is kept by the loop. -/
theorem behaves_forEach {ι : Type} {body : ι → Script Reply σ ε Unit} {items : List ι}
    {keeps : σ → Store → Prop} (hstable : ∀ s g g₁, C.rely g g₁ → keeps s g → keeps s g₁)
    (hbody : ∀ item ∈ items, ∀ s g, keeps s g → (body item).Behaves C (fun _ => keeps) s g)
    (h : keeps s g) :
    (forEach body items).Behaves C (fun _ => keeps) s g := by
  induction items generalizing s g with
  | nil =>
    apply behaves_pure
    intro g₁ hrely _
    exact hstable s g g₁ hrely h
  | cons item items ih =>
    apply behaves_bind
    apply (hbody item List.mem_cons_self s g h).mono
    intro r s₁ g₁ hr
    cases r with
    | ok _ => exact ih (fun other hother => hbody other (List.mem_cons_of_mem _ hother)) hr
    | error e =>
      intro g₂ hrely _
      exact hstable s₁ g₁ g₂ hrely hr

end Script

end LoopOver
