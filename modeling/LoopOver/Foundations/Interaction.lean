import Mathlib.Data.List.Basic

/-!
# Scripts that call a host

A script reads and writes a state, calls a host that may reply anything, and ends with a value or
with a thrown error; the state survives the error. Nothing is assumed about the host: a script is a
tree of calls with one branch for every reply, and `Script.Ends p s t r s'` says that `p`, started
in `s`, can make the calls of the trace `t`, with the replies recorded there, and end with `r` in
the state `s'`.

* `ends_bind`, `ends_ask`, `ends_attempt` and their companions take a run of a composite script
  apart, and `Script.Respects` is the rule for what every call and every state change of a script
  has in common.
* `Visits` cuts the run of a loop into its iterations, `ends_forEach` says that this loses nothing,
  and `Visits.before_eq` is the rule for a list that every iteration extends.
* `Script.rounds` is a counted loop that can be left with a result, and `rounds_leads` its rule.
* `Script.play` runs a script against a host given as a function, so that a run can be computed, and
  `Script.Gives` is what such a run ends with.
-/

namespace LoopOver

open List

variable {Call : Type} {Reply : Call → Type}

/-- A call together with the reply it got. -/
structure Event (Reply : Call → Type) where
  call : Call
  reply : Reply call

/-- A tree of calls, with a branch for every reply and a value at every leaf. -/
inductive Prog (Reply : Call → Type) (α : Type)
  | ret (value : α)
  | ask (call : Call) (next : Reply call → Prog Reply α)

namespace Prog

variable {α β : Type}

/-- Run `p`, then continue with its value. -/
def bind (p : Prog Reply α) (f : α → Prog Reply β) : Prog Reply β :=
  match p with
  | ret value => f value
  | ask call next => ask call fun reply => (next reply).bind f

/-- `p` can make exactly the calls of the trace, with its replies, and end with the value. -/
def Runs : Prog Reply α → List (Event Reply) → α → Prop
  | ret value, trace, result => trace = [] ∧ result = value
  | ask call next, trace, result =>
    ∃ reply rest, trace = ⟨call, reply⟩ :: rest ∧ Runs (next reply) rest result

theorem runs_bind {p : Prog Reply α} {f : α → Prog Reply β} {trace : List (Event Reply)}
    {result : β} :
    (p.bind f).Runs trace result ↔
      ∃ front value back, p.Runs front value ∧ (f value).Runs back result ∧
        trace = front ++ back := by
  induction p generalizing trace with
  | ret value =>
    constructor
    · intro h
      exact ⟨[], value, trace, ⟨rfl, rfl⟩, h, rfl⟩
    · rintro ⟨front, _, back, ⟨rfl, rfl⟩, h, rfl⟩
      exact h
  | ask call next ih =>
    constructor
    · rintro ⟨reply, rest, rfl, h⟩
      obtain ⟨front, value, back, hp, hf, rfl⟩ := (ih reply).1 h
      exact ⟨⟨call, reply⟩ :: front, value, back, ⟨reply, front, rfl, hp⟩, hf, rfl⟩
    · rintro ⟨_, value, back, ⟨reply, front, rfl, hp⟩, hf, rfl⟩
      exact ⟨reply, front ++ back, rfl, (ih reply).2 ⟨front, value, back, hp, hf, rfl⟩⟩

/-- Run against a host that answers every call by a fixed function of the call. -/
def play (host : ∀ call : Call, Reply call) : Prog Reply α → List (Event Reply) × α
  | ret value => ([], value)
  | ask call next =>
    let rest := (next (host call)).play host
    (⟨call, host call⟩ :: rest.1, rest.2)

theorem runs_play (host : ∀ call : Call, Reply call) (p : Prog Reply α) :
    p.Runs (p.play host).1 (p.play host).2 := by
  induction p with
  | ret value => exact ⟨rfl, rfl⟩
  | ask call next ih => exact ⟨host call, _, rfl, ih (host call)⟩

theorem play_bind (host : ∀ call : Call, Reply call) (p : Prog Reply α) (f : α → Prog Reply β) :
    (p.bind f).play host =
      ((p.play host).1 ++ ((f (p.play host).2).play host).1,
        ((f (p.play host).2).play host).2) := by
  induction p with
  | ret value => rfl
  | ask call next ih =>
    simp only [bind, play, ih (host call)]
    rfl

theorem reply_of_mem_play {host : ∀ call : Call, Reply call} {p : Prog Reply α} {e : Event Reply}
    (he : e ∈ (p.play host).1) : e = ⟨e.call, host e.call⟩ := by
  induction p with
  | ret value => cases he
  | ask call next ih =>
    rcases mem_cons.1 he with rfl | he
    · rfl
    · exact ih (host call) he

end Prog

/-! ## Scripts -/

variable {σ ε α β : Type}

/-- A program over a state `σ` that may throw an `ε`; the state survives a throw. -/
def Script (Reply : Call → Type) (σ ε α : Type) : Type := σ → Prog Reply (Except ε α × σ)

namespace Script

/-- Run `p`; on a value continue with it, on an error stop. -/
def bind (p : Script Reply σ ε α) (f : α → Script Reply σ ε β) : Script Reply σ ε β := fun s =>
  (p s).bind fun
    | (.ok value, s₁) => f value s₁
    | (.error e, s₁) => .ret (.error e, s₁)

instance : Monad (Script Reply σ ε) where
  pure value := fun s => .ret (.ok value, s)
  bind := bind

/-- Call the host. -/
def ask (call : Call) : Script Reply σ ε (Reply call) := fun s =>
  .ask call fun reply => .ret (.ok reply, s)

/-- Throw the error, or go on with the value. -/
def ofExcept (result : Except ε α) : Script Reply σ ε α := fun s => .ret (result, s)

/-- Read the state. -/
def get : Script Reply σ ε σ := fun s => .ret (.ok s, s)

/-- Change the state. -/
def modify (f : σ → σ) : Script Reply σ ε Unit := fun s => .ret (.ok (), f s)

/-- `try p` with the outcome of `p` as a value. -/
def attempt (p : Script Reply σ ε α) : Script Reply σ ε (Except ε α) := fun s =>
  (p s).bind fun (r, s₁) => .ret (.ok r, s₁)

/-- `try p finally q`: `q` runs in either case, and an error of `q` wins. -/
def andFinally (p : Script Reply σ ε α) (q : Script Reply σ ε Unit) : Script Reply σ ε α := do
  let r ← p.attempt
  q
  ofExcept r

/-- Call the host only under a condition. -/
def askWhen (guard : Bool) (call : Call) : Script Reply σ ε (Option (Reply call)) :=
  if guard then do
    let reply ← ask call
    pure (some reply)
  else pure none

/-- Call the host and go on whatever it replies. -/
def tell (call : Call) : Script Reply σ ε Unit := do
  let _ ← ask call
  pure ()

/-- Run the script only under a condition. -/
def runWhen (guard : Bool) (p : Script Reply σ ε Unit) : Script Reply σ ε Unit :=
  if guard then p else pure ()

/-- Run the body on every item in turn, until one throws. -/
def forEach {ι : Type} (body : ι → Script Reply σ ε Unit) : List ι → Script Reply σ ε Unit
  | [] => pure ()
  | item :: items => do
    body item
    forEach body items

/-- Run the scripts in turn until one gives a result. -/
def firstSome : List (Script Reply σ ε (Option α)) → Script Reply σ ε (Option α)
  | [] => pure none
  | p :: ps => do
    match ← p with
    | some value => pure (some value)
    | none => firstSome ps

/-- Run the body for so many numbers from `first` on, with a value that each round hands to the
next, until one gives a result. -/
def rounds {ρ : Type} (body : ℕ → ρ → Script Reply σ ε (α ⊕ ρ)) :
    ℕ → ℕ → ρ → Script Reply σ ε (α ⊕ ρ)
  | 0, _, carried => pure (.inr carried)
  | count + 1, first, carried => do
    match ← body first carried with
    | .inl value => pure (.inl value)
    | .inr next => rounds body count (first + 1) next

/-- Started in `s`, the script can run through the trace and end with `r` in the state `s'`. -/
def Ends (p : Script Reply σ ε α) (s : σ) (trace : List (Event Reply)) (r : Except ε α) (s' : σ) :
    Prop :=
  (p s).Runs trace (r, s')

variable {s s' : σ} {t : List (Event Reply)}

@[simp] theorem ends_pure {value : α} {r : Except ε α} :
    (pure value : Script Reply σ ε α).Ends s t r s' ↔ t = [] ∧ r = .ok value ∧ s' = s := by
  change t = [] ∧ (r, s') = (.ok value, s) ↔ _
  rw [Prod.mk.injEq]

@[simp] theorem ends_ofExcept {result r : Except ε α} :
    (ofExcept result : Script Reply σ ε α).Ends s t r s' ↔ t = [] ∧ r = result ∧ s' = s := by
  change t = [] ∧ (r, s') = (result, s) ↔ _
  rw [Prod.mk.injEq]

@[simp] theorem ends_get {r : Except ε σ} :
    (get : Script Reply σ ε σ).Ends s t r s' ↔ t = [] ∧ r = .ok s ∧ s' = s := by
  change t = [] ∧ (r, s') = (.ok s, s) ↔ _
  rw [Prod.mk.injEq]

@[simp] theorem ends_modify {f : σ → σ} {r : Except ε Unit} :
    (modify f : Script Reply σ ε Unit).Ends s t r s' ↔ t = [] ∧ r = .ok () ∧ s' = f s := by
  change t = [] ∧ (r, s') = (.ok (), f s) ↔ _
  rw [Prod.mk.injEq]

variable {call : Call}

@[simp] theorem ends_ask {r : Except ε (Reply call)} :
    (ask call : Script Reply σ ε (Reply call)).Ends s t r s' ↔
      ∃ reply, t = [⟨call, reply⟩] ∧ r = .ok reply ∧ s' = s := by
  change (∃ reply rest, t = ⟨call, reply⟩ :: rest ∧ rest = [] ∧ (r, s') = (.ok reply, s)) ↔ _
  constructor
  · rintro ⟨reply, _, rfl, rfl, h⟩
    rw [Prod.mk.injEq] at h
    exact ⟨reply, rfl, h.1, h.2⟩
  · rintro ⟨reply, rfl, rfl, rfl⟩
    exact ⟨reply, [], rfl, rfl, rfl⟩

variable {r : Except ε β}

theorem ends_bind {p : Script Reply σ ε α} {f : α → Script Reply σ ε β} :
    (p >>= f).Ends s t r s' ↔
      (∃ e, p.Ends s t (.error e) s' ∧ r = .error e) ∨
      ∃ front value s₁ back, p.Ends s front (.ok value) s₁ ∧ (f value).Ends s₁ back r s' ∧
        t = front ++ back := by
  change Prog.Runs (Prog.bind _ _) _ _ ↔ _
  rw [Prog.runs_bind]
  constructor
  · rintro ⟨front, ⟨r₁, s₁⟩, back, hp, hf, rfl⟩
    cases r₁ with
    | ok value => exact Or.inr ⟨front, value, s₁, back, hp, hf, rfl⟩
    | error e =>
      obtain ⟨rfl, h⟩ := hf
      rw [Prod.mk.injEq] at h
      obtain ⟨rfl, rfl⟩ := h
      exact Or.inl ⟨e, by simpa [Ends] using hp, rfl⟩
  · rintro (⟨e, hp, rfl⟩ | ⟨front, value, s₁, back, hp, hf, rfl⟩)
    · exact ⟨t, (.error e, s'), [], hp, ⟨rfl, rfl⟩, by simp⟩
    · exact ⟨front, (.ok value, s₁), back, hp, hf, rfl⟩

@[simp] theorem ends_attempt {p : Script Reply σ ε α} {r : Except ε (Except ε α)} :
    p.attempt.Ends s t r s' ↔ ∃ r₁, p.Ends s t r₁ s' ∧ r = .ok r₁ := by
  change Prog.Runs (Prog.bind _ _) _ _ ↔ _
  rw [Prog.runs_bind]
  constructor
  · rintro ⟨front, ⟨r₁, s₁⟩, back, hp, ⟨rfl, h⟩, rfl⟩
    rw [Prod.mk.injEq] at h
    obtain ⟨rfl, rfl⟩ := h
    exact ⟨r₁, by simpa [Ends] using hp, rfl⟩
  · rintro ⟨r₁, hp, rfl⟩
    exact ⟨t, (r₁, s'), [], hp, ⟨rfl, rfl⟩, by simp⟩

theorem ends_bind_ok {p : Script Reply σ ε α} {f : α → Script Reply σ ε β} {value : β} :
    (p >>= f).Ends s t (.ok value) s' ↔
      ∃ front a s₁ back, p.Ends s front (.ok a) s₁ ∧ (f a).Ends s₁ back (.ok value) s' ∧
        t = front ++ back := by
  rw [ends_bind]
  constructor
  · rintro (⟨e, -, h⟩ | h)
    · cases h
    · exact h
  · exact Or.inr

theorem ends_ask_bind {f : Reply call → Script Reply σ ε β} :
    (ask call >>= f).Ends s t r s' ↔
      ∃ reply back, t = ⟨call, reply⟩ :: back ∧ (f reply).Ends s back r s' := by
  rw [ends_bind]
  constructor
  · rintro (⟨e, h, -⟩ | ⟨front, value, s₁, back, h, hf, rfl⟩)
    · simp at h
    · obtain ⟨reply, rfl, hreply, rfl⟩ := ends_ask.1 h
      obtain rfl := Except.ok.inj hreply
      exact ⟨value, back, rfl, hf⟩
  · rintro ⟨reply, back, rfl, hf⟩
    exact Or.inr ⟨[⟨call, reply⟩], reply, s, back, ends_ask.2 ⟨reply, rfl, rfl, rfl⟩, hf, rfl⟩

theorem ends_get_bind {f : σ → Script Reply σ ε β} :
    (get >>= f).Ends s t r s' ↔ (f s).Ends s t r s' :=
  Iff.rfl

theorem ends_modify_bind {g : σ → σ} {f : Unit → Script Reply σ ε β} :
    (modify g >>= f).Ends s t r s' ↔ (f ()).Ends (g s) t r s' :=
  Iff.rfl

theorem ends_tell_bind {f : Unit → Script Reply σ ε β} :
    (tell call >>= f).Ends s t r s' ↔
      ∃ reply back, t = ⟨call, reply⟩ :: back ∧ (f ()).Ends s back r s' := by
  rw [ends_bind]
  constructor
  · rintro (⟨e, h, -⟩ | ⟨front, value, s₁, back, h, hf, rfl⟩)
    · obtain ⟨reply, rest, rfl, hrest⟩ := ends_ask_bind.1 h
      obtain ⟨-, hr, -⟩ := ends_pure.1 hrest
      cases hr
    · obtain ⟨reply, rest, rfl, hrest⟩ := ends_ask_bind.1 h
      obtain ⟨rfl, -, rfl⟩ := ends_pure.1 hrest
      exact ⟨reply, back, rfl, hf⟩
  · rintro ⟨reply, back, rfl, hf⟩
    refine Or.inr ⟨[⟨call, reply⟩], (), s, back, ?_, hf, rfl⟩
    exact ends_ask_bind.2 ⟨reply, [], rfl, ends_pure.2 ⟨rfl, rfl, rfl⟩⟩

theorem ends_attempt_bind {p : Script Reply σ ε α} {f : Except ε α → Script Reply σ ε β} :
    (p.attempt >>= f).Ends s t r s' ↔
      ∃ front r₁ s₁ back, p.Ends s front r₁ s₁ ∧ (f r₁).Ends s₁ back r s' ∧ t = front ++ back := by
  rw [ends_bind]
  constructor
  · rintro (⟨e, h, -⟩ | ⟨front, r₁, s₁, back, h, hf, rfl⟩)
    · obtain ⟨_, _, hok⟩ := ends_attempt.1 h
      cases hok
    · obtain ⟨r₂, hp, hok⟩ := ends_attempt.1 h
      obtain rfl := Except.ok.inj hok
      exact ⟨front, r₁, s₁, back, hp, hf, rfl⟩
  · rintro ⟨front, r₁, s₁, back, hp, hf, rfl⟩
    exact Or.inr ⟨front, r₁, s₁, back, ends_attempt.2 ⟨r₁, hp, rfl⟩, hf, rfl⟩

theorem ends_ofExcept_bind {result : Except ε α} {f : α → Script Reply σ ε β} :
    (ofExcept result >>= f).Ends s t r s' ↔
      (∃ e, result = .error e ∧ t = [] ∧ r = .error e ∧ s' = s) ∨
      ∃ value, result = .ok value ∧ (f value).Ends s t r s' := by
  rw [ends_bind]
  constructor
  · rintro (⟨e, h, rfl⟩ | ⟨front, value, s₁, back, h, hf, rfl⟩)
    · obtain ⟨rfl, rfl, rfl⟩ := ends_ofExcept.1 h
      exact Or.inl ⟨e, rfl, rfl, rfl, rfl⟩
    · obtain ⟨rfl, rfl, rfl⟩ := ends_ofExcept.1 h
      exact Or.inr ⟨value, rfl, hf⟩
  · rintro (⟨e, rfl, rfl, rfl, rfl⟩ | ⟨value, rfl, hf⟩)
    · exact Or.inl ⟨e, ends_ofExcept.2 ⟨rfl, rfl, rfl⟩, rfl⟩
    · exact Or.inr ⟨[], value, s, t, ends_ofExcept.2 ⟨rfl, rfl, rfl⟩, hf, rfl⟩

/-- A result whose failure is renamed, then a continuation. -/
theorem ends_ofExcept_mapError_bind {δ : Type} {result : Except δ α} {rename : δ → ε}
    {f : α → Script Reply σ ε β} :
    (ofExcept (result.mapError rename) >>= f).Ends s t r s' ↔
      (∃ e, result = .error e ∧ t = [] ∧ r = .error (rename e) ∧ s' = s) ∨
        ∃ value, result = .ok value ∧ (f value).Ends s t r s' := by
  rw [ends_ofExcept_bind]
  cases result with
  | error e => simp [Except.mapError]
  | ok value => simp [Except.mapError]

variable {guard : Bool}

theorem ends_askWhen {r : Except ε (Option (Reply call))} :
    (askWhen guard call : Script Reply σ ε _).Ends s t r s' ↔
      (guard = true ∧ ∃ reply, t = [⟨call, reply⟩] ∧ r = .ok (some reply) ∧ s' = s) ∨
      (guard = false ∧ t = [] ∧ r = .ok none ∧ s' = s) := by
  cases guard
  · simp [askWhen]
  · simp only [askWhen, if_true, ends_ask_bind, ends_pure, true_and, Bool.true_eq_false,
      false_and, or_false]
    constructor
    · rintro ⟨reply, _, rfl, rfl, rfl, rfl⟩
      exact ⟨reply, rfl, rfl, rfl⟩
    · rintro ⟨reply, rfl, rfl, rfl⟩
      exact ⟨reply, [], rfl, rfl, rfl, rfl⟩

theorem ends_ite {c : Prop} [Decidable c] {p q : Script Reply σ ε α} {r : Except ε α} :
    (if c then p else q).Ends s t r s' ↔ c ∧ p.Ends s t r s' ∨ ¬c ∧ q.Ends s t r s' := by
  by_cases h : c <;> simp [h]

/-- A run of `try p finally q` runs both, in this order. -/
theorem ends_andFinally {p : Script Reply σ ε α} {q : Script Reply σ ε Unit} {r : Except ε α} :
    (p.andFinally q).Ends s t r s' ↔ ∃ front r₁ s₁ back r₂, p.Ends s front r₁ s₁ ∧
      q.Ends s₁ back r₂ s' ∧ t = front ++ back ∧ r = r₂.bind fun _ => r₁ := by
  rw [andFinally, ends_bind]
  constructor
  · rintro (⟨e, h, rfl⟩ | ⟨front, r₁, s₁, back, hp, hq, rfl⟩)
    · simp at h
    · obtain ⟨r', hp, h⟩ := ends_attempt.1 hp
      obtain rfl := Except.ok.inj h
      rcases ends_bind.1 hq with ⟨e, hq₁, rfl⟩ | ⟨front', _, s₂, back', hq₁, hr, rfl⟩
      · exact ⟨front, r₁, s₁, back, .error e, hp, hq₁, rfl, rfl⟩
      · obtain ⟨rfl, rfl, rfl⟩ := ends_ofExcept.1 hr
        exact ⟨front, r, s₁, front', .ok (), hp, hq₁, by simp, rfl⟩
  · rintro ⟨front, r₁, s₁, back, r₂, hp, hq, rfl, rfl⟩
    refine Or.inr ⟨front, r₁, s₁, back, ends_attempt.2 ⟨r₁, hp, rfl⟩, ?_, rfl⟩
    cases r₂ with
    | error e => exact ends_bind.2 (Or.inl ⟨e, hq, rfl⟩)
    | ok _ =>
      exact ends_bind.2 (Or.inr ⟨back, (), s', [], hq, ends_ofExcept.2 ⟨rfl, rfl, rfl⟩, by simp⟩)

variable {ps : List (Script Reply σ ε (Option α))}

/-- When no script of the list gave a result, each of them ran and gave none. -/
theorem ends_firstSome_none (h : (firstSome ps).Ends s t (.ok none) s') :
    ∀ p ∈ ps, ∃ s₁ t₁ s₂, p.Ends s₁ t₁ (.ok none) s₂ ∧ t₁ ⊆ t := by
  induction ps generalizing s t with
  | nil => simp
  | cons p ps ih =>
    rcases ends_bind.1 h with ⟨e, -, he⟩ | ⟨front, value, s₁, back, hp, hrest, rfl⟩
    · cases he
    · cases value with
      | some value =>
        obtain ⟨-, hv, -⟩ := ends_pure.1 hrest
        cases hv
      | none =>
        intro q hq
        rcases mem_cons.1 hq with rfl | hq
        · exact ⟨s, front, s₁, hp, subset_append_left _ _⟩
        · obtain ⟨s₂, t₁, s₃, hq, hsub⟩ := ih hrest q hq
          exact ⟨s₂, t₁, s₃, hq, List.Subset.trans hsub (subset_append_right _ _)⟩

/-- A round goes on with the invariant, or leaves with what is wanted. -/
def RoundLeads {ρ : Type} (invariant : ρ → σ → List (Event Reply) → Prop)
    (wanted : Except ε α → σ → List (Event Reply) → Prop) (seen : List (Event Reply)) (s' : σ) :
    Except ε (α ⊕ ρ) → Prop
  | .ok (.inr next) => invariant next s' seen
  | .ok (.inl value) => wanted (.ok value) s' seen
  | .error e => wanted (.error e) s' seen

/-- **The rule for rounds.** The invariant may speak of the number of the round and of all calls
before. -/
theorem rounds_leads {ρ : Type} {body : ℕ → ρ → Script Reply σ ε (α ⊕ ρ)}
    (invariant : ℕ → ρ → σ → List (Event Reply) → Prop)
    (wanted : Except ε α → σ → List (Event Reply) → Prop) {count first : ℕ}
    (hbody : ∀ n, first ≤ n → n < first + count →
      ∀ carried s seen t r s', invariant n carried s seen →
      (body n carried).Ends s t r s' → RoundLeads (invariant (n + 1)) wanted (seen ++ t) s' r)
    {carried : ρ} {s s' : σ} {seen t : List (Event Reply)} {r : Except ε (α ⊕ ρ)}
    (hstart : invariant first carried s seen)
    (h : (rounds body count first carried).Ends s t r s') :
    RoundLeads (invariant (first + count)) wanted (seen ++ t) s' r := by
  induction count generalizing first carried s seen t with
  | zero =>
    obtain ⟨rfl, rfl, rfl⟩ := ends_pure.1 h
    rw [append_nil]
    exact hstart
  | succ count ih =>
    have hfirst := fun t r s' => hbody first (Nat.le_refl _) (by omega) carried s seen t r s' hstart
    rcases ends_bind.1 h with ⟨e, hround, rfl⟩ | ⟨front, value, s₁, back, hround, hrest, rfl⟩
    · exact hfirst t _ s' hround
    · rw [← append_assoc]
      cases value with
      | inl value =>
        obtain ⟨rfl, rfl, rfl⟩ := ends_pure.1 hrest
        rw [append_nil]
        exact hfirst front _ s' hround
      | inr next =>
        have hnext := hfirst front _ s₁ hround
        rw [show first + (count + 1) = first + 1 + count by omega]
        exact ih (fun n hn hlt => hbody n (by omega) (by omega)) hnext hrest

/-! ## What all calls and state changes of a script have in common -/

/-- Every call of the script is allowed, and every run of it moves the state along `moves`. -/
def Respects (allowed : Call → Prop) (moves : σ → σ → Prop) (p : Script Reply σ ε α) : Prop :=
  ∀ s t r s', p.Ends s t r s' → (∀ e ∈ t, allowed e.call) ∧ moves s s'

section Respects

variable {allowed : Call → Prop} {moves : σ → σ → Prop}

theorem respects_pure [Std.Refl moves] (value : α) :
    Respects allowed moves (pure value : Script Reply σ ε α) := by
  intro s t r s' h
  obtain ⟨rfl, -, rfl⟩ := ends_pure.1 h
  exact ⟨by simp, refl_of moves _⟩

theorem respects_ofExcept [Std.Refl moves] (result : Except ε α) :
    Respects allowed moves (ofExcept result : Script Reply σ ε α) := by
  intro s t r s' h
  obtain ⟨rfl, -, rfl⟩ := ends_ofExcept.1 h
  exact ⟨by simp, refl_of moves _⟩

theorem respects_get [Std.Refl moves] :
    Respects allowed moves (get : Script Reply σ ε σ) := by
  intro s t r s' h
  obtain ⟨rfl, -, rfl⟩ := ends_get.1 h
  exact ⟨by simp, refl_of moves _⟩

theorem respects_ask [Std.Refl moves] (hcall : allowed call) :
    Respects allowed moves (ask call : Script Reply σ ε (Reply call)) := by
  intro s t r s' h
  obtain ⟨reply, rfl, -, rfl⟩ := ends_ask.1 h
  exact ⟨by simpa using hcall, refl_of moves _⟩

theorem respects_askWhen [Std.Refl moves] (hcall : allowed call) :
    Respects allowed moves (askWhen guard call : Script Reply σ ε (Option (Reply call))) := by
  intro s t r s' h
  rcases ends_askWhen.1 h with ⟨-, reply, rfl, -, rfl⟩ | ⟨-, rfl, -, rfl⟩
  · exact ⟨by simpa using hcall, refl_of moves _⟩
  · exact ⟨by simp, refl_of moves _⟩

theorem respects_modify {f : σ → σ} (hf : ∀ s, moves s (f s)) :
    Respects allowed moves (modify f : Script Reply σ ε Unit) := by
  intro s t r s' h
  obtain ⟨rfl, -, rfl⟩ := ends_modify.1 h
  exact ⟨by simp, hf s⟩

variable {p : Script Reply σ ε α}

theorem respects_bind [IsTrans σ moves] {f : α → Script Reply σ ε β}
    (hp : Respects allowed moves p) (hf : ∀ value, Respects allowed moves (f value)) :
    Respects allowed moves (p >>= f) := by
  intro s t r s' h
  rcases ends_bind.1 h with ⟨e, h, -⟩ | ⟨front, value, s₁, back, h₁, h₂, rfl⟩
  · exact hp s t _ s' h
  · obtain ⟨hcalls₁, hmove₁⟩ := hp s front _ s₁ h₁
    obtain ⟨hcalls₂, hmove₂⟩ := hf value s₁ back r s' h₂
    refine ⟨fun e he => ?_, trans_of moves hmove₁ hmove₂⟩
    exact (mem_append.1 he).elim (hcalls₁ e) (hcalls₂ e)

theorem respects_attempt (hp : Respects allowed moves p) :
    Respects allowed moves p.attempt := by
  intro s t r s' h
  obtain ⟨r₁, h, -⟩ := ends_attempt.1 h
  exact hp s t r₁ s' h

theorem respects_ite {c : Prop} [Decidable c] {p q : Script Reply σ ε α}
    (hp : c → Respects allowed moves p) (hq : ¬c → Respects allowed moves q) :
    Respects allowed moves (if c then p else q) := by
  by_cases h : c
  · simpa [h] using hp h
  · simpa [h] using hq h

theorem respects_tell [Std.Refl moves] (hcall : allowed call) :
    Respects allowed moves (tell call : Script Reply σ ε Unit) := by
  intro s t r s' h
  obtain ⟨reply, back, rfl, hback⟩ := ends_ask_bind.1 h
  obtain ⟨rfl, -, rfl⟩ := ends_pure.1 hback
  exact ⟨by simpa using hcall, refl_of moves _⟩

theorem respects_runWhen [Std.Refl moves] {p : Script Reply σ ε Unit}
    (hp : guard = true → Respects allowed moves p) : Respects allowed moves (runWhen guard p) :=
  respects_ite hp fun _ => respects_pure ()

theorem respects_firstSome [Std.Refl moves] [IsTrans σ moves]
    (h : ∀ p ∈ ps, Respects allowed moves p) :
    Respects allowed moves (firstSome ps) := by
  induction ps with
  | nil => exact respects_pure none
  | cons p ps ih =>
    refine respects_bind (h p (by simp)) fun value => ?_
    cases value with
    | some value => exact respects_pure _
    | none => exact ih fun q hq => h q (by simp [hq])

theorem Respects.mono {allowed' : Call → Prop} {moves' : σ → σ → Prop}
    (hp : Respects allowed moves p) (hcall : ∀ call, allowed call → allowed' call)
    (hmove : ∀ s s', moves s s' → moves' s s') : Respects allowed' moves' p := by
  intro s t r s' h
  obtain ⟨hcalls, hm⟩ := hp s t r s' h
  exact ⟨fun e he => hcall _ (hcalls e he), hmove s s' hm⟩

end Respects

/-! ## Scripts that never throw -/

/-- No reply of the host makes the script throw. -/
def NeverThrows (p : Script Reply σ ε α) : Prop := ∀ s t e s', ¬p.Ends s t (.error e) s'

theorem neverThrows_pure (value : α) : NeverThrows (pure value : Script Reply σ ε α) := by
  intro s t e s' h
  obtain ⟨-, hr, -⟩ := ends_pure.1 h
  cases hr

theorem neverThrows_ask (call : Call) :
    NeverThrows (ask call : Script Reply σ ε (Reply call)) := by
  intro s t e s' h
  obtain ⟨reply, -, hr, -⟩ := ends_ask.1 h
  cases hr

theorem neverThrows_bind {p : Script Reply σ ε α} {f : α → Script Reply σ ε β}
    (hp : NeverThrows p) (hf : ∀ value, NeverThrows (f value)) : NeverThrows (p >>= f) := by
  intro s t e s' h
  rcases ends_bind.1 h with ⟨e', h, -⟩ | ⟨front, value, s₁, back, -, h, -⟩
  · exact hp s t e' s' h
  · exact hf value s₁ back e s' h

theorem neverThrows_runWhen {p : Script Reply σ ε Unit} (hp : NeverThrows p) :
    NeverThrows (runWhen guard p) := by
  cases guard
  · exact neverThrows_pure ()
  · exact hp

/-- Run against a host given as a function. -/
def play (host : ∀ call : Call, Reply call) (p : Script Reply σ ε α) (s : σ) :
    List (Event Reply) × Except ε α × σ :=
  (p s).play host

theorem ends_play (host : ∀ call : Call, Reply call) (p : Script Reply σ ε α) (s : σ) :
    p.Ends s (p.play host s).1 (p.play host s).2.1 (p.play host s).2.2 :=
  Prog.runs_play host (p s)

section Play

variable {host : ∀ call : Call, Reply call} {p : Script Reply σ ε α}
  {f : α → Script Reply σ ε β} {value : α}
  {s₁ : σ}

/-- Against the host the script ends with the value. -/
def Gives (host : ∀ call : Call, Reply call) (p : Script Reply σ ε α) (s : σ) (value : α) (s' : σ) :
    Prop :=
  (p.play host s).2 = (.ok value, s')

theorem gives_pure (host : ∀ call : Call, Reply call) (value : α) (s : σ) :
    Gives host (pure value : Script Reply σ ε α) s value s := rfl

theorem gives_ask (host : ∀ call : Call, Reply call) (call : Call) (s : σ) :
    Gives host (ask call : Script Reply σ ε _) s (host call) s := rfl

theorem gives_ofExcept (host : ∀ call : Call, Reply call) {result : Except ε α}
    (h : result = .ok value) (s : σ) :
    Gives host (ofExcept result) s value s := by
  rw [h]
  rfl

theorem gives_askWhen (host : ∀ call : Call, Reply call) (guard : Bool) (call : Call) (s : σ) :
    Gives host (askWhen guard call : Script Reply σ ε _) s (if guard then some (host call)
      else none) s := by
  cases guard <;> rfl

theorem play_bind_of_gives (h : Gives host p s value s₁) :
    (p >>= f).play host s =
      ((p.play host s).1 ++ ((f value).play host s₁).1, ((f value).play host s₁).2) := by
  change Prog.play host (Prog.bind _ _) = _
  rw [Prog.play_bind]
  have hvalue : (Prog.play host (p s)).2 = (.ok value, s₁) := h
  rw [hvalue]
  rfl

theorem Gives.bind {result : β} {s₂ : σ} (h : Gives host p s value s₁)
    (hf : Gives host (f value) s₁ result s₂) :
    Gives host (p >>= f) s result s₂ := by
  rw [Gives, play_bind_of_gives h]
  exact hf

/-- What happens after the script has ended with its value happens. -/
theorem Gives.mem_play_bind (h : Gives host p s value s₁) {e : Event Reply}
    (he : e ∈ ((f value).play host s₁).1) : e ∈ ((p >>= f).play host s).1 := by
  rw [play_bind_of_gives h]
  exact mem_append_right _ he

theorem mem_play_ask_bind {f : Reply call → Script Reply σ ε β} :
    ⟨call, host call⟩ ∈ ((ask call >>= f).play host s).1 := mem_cons_self

theorem reply_of_mem_play {e : Event Reply} (he : e ∈ (p.play host s).1) :
    e = ⟨e.call, host e.call⟩ :=
  Prog.reply_of_mem_play he

end Play

end Script

/-! ## The iterations of a loop -/

section Loop

variable {ι : Type}

/-- One iteration of a loop: its item, the states around it, its calls and how it ended. -/
structure Visit (Reply : Call → Type) (σ ε ι : Type) where
  item : ι
  before : σ
  events : List (Event Reply)
  result : Except ε Unit
  after : σ

/-- The visits are the iterations of a run of the loop over the items: each starts where the one
before it ended, and one that throws is the last. -/
inductive Visits (body : ι → Script Reply σ ε Unit) :
    List ι → σ → List (Visit Reply σ ε ι) → Except ε Unit → σ → Prop
  | done (s : σ) : Visits body [] s [] (.ok ()) s
  | threw {item : ι} {items : List ι} {s s' : σ} {t : List (Event Reply)} {e : ε}
      (h : (body item).Ends s t (.error e) s') :
      Visits body (item :: items) s [⟨item, s, t, .error e, s'⟩] (.error e) s'
  | step {item : ι} {items : List ι} {s s₁ s' : σ} {t : List (Event Reply)}
      {visits : List (Visit Reply σ ε ι)} {r : Except ε Unit}
      (h : (body item).Ends s t (.ok ()) s₁) (rest : Visits body items s₁ visits r s') :
      Visits body (item :: items) s (⟨item, s, t, .ok (), s₁⟩ :: visits) r s'

variable {body : ι → Script Reply σ ε Unit} {items : List ι} {s s' : σ} {r : Except ε Unit}
  {visits : List (Visit Reply σ ε ι)}

/-- **A run of a loop is the run of its iterations**, one after the other. -/
theorem ends_forEach {t : List (Event Reply)} :
    (Script.forEach body items).Ends s t r s' ↔
      ∃ visits, Visits body items s visits r s' ∧ t = visits.flatMap Visit.events := by
  induction items generalizing s t with
  | nil =>
    rw [Script.forEach, Script.ends_pure]
    constructor
    · rintro ⟨rfl, rfl, rfl⟩
      exact ⟨[], .done _, rfl⟩
    · rintro ⟨_, h, rfl⟩
      cases h
      exact ⟨rfl, rfl, rfl⟩
  | cons item items ih =>
    rw [Script.forEach, Script.ends_bind]
    constructor
    · rintro (⟨e, h, rfl⟩ | ⟨front, _, s₁, back, h, hrest, rfl⟩)
      · exact ⟨_, .threw h, by simp⟩
      · obtain ⟨visits, hv, rfl⟩ := ih.1 hrest
        exact ⟨_, .step h hv, by simp⟩
    · rintro ⟨_, h, rfl⟩
      cases h with
      | threw h => exact Or.inl ⟨_, by simpa using h, rfl⟩
      | step h hrest =>
        exact Or.inr ⟨_, (), _, _, h, ih.2 ⟨_, hrest, rfl⟩, by simp⟩

namespace Visits

variable {v : Visit Reply σ ε ι}

theorem ends (h : Visits body items s visits r s') (hv : v ∈ visits) :
    (body v.item).Ends v.before v.events v.result v.after := by
  induction h with
  | done s => cases hv
  | threw h =>
    obtain rfl := mem_singleton.1 hv
    exact h
  | step h _ ih =>
    rcases mem_cons.1 hv with rfl | hv
    · exact h
    · exact ih hv

theorem map_item_isPrefix (h : Visits body items s visits r s') :
    visits.map Visit.item <+: items := by
  induction h with
  | done s => exact nil_prefix
  | threw h => simp
  | step h _ ih => simpa [prefix_cons_inj] using ih

theorem map_item_eq (h : Visits body items s visits r s') (hr : r = .ok ()) :
    visits.map Visit.item = items := by
  induction h with
  | done s => rfl
  | threw h => cases hr
  | step h _ ih => rw [map_cons, ih hr]

/-- No visit of a loop that ends normally has thrown. -/
theorem result_eq (h : Visits body items s visits r s') (hr : r = .ok ())
    (hv : v ∈ visits) : v.result = .ok () := by
  induction h with
  | done s => cases hv
  | threw h => cases hr
  | step h _ ih =>
    rcases mem_cons.1 hv with rfl | hv
    · rfl
    · exact ih hr hv

variable {front back : List (Visit Reply σ ε ι)}

/-- Only the last visit can have thrown. -/
theorem result_eq_of_front (h : Visits body items s visits r s') {v w : Visit Reply σ ε ι}
    (hsplit : visits = front ++ v :: back) (hw : w ∈ front) : w.result = .ok () := by
  induction h generalizing front with
  | done s => simp at hsplit
  | threw h =>
    cases front with
    | nil => cases hw
    | cons u front => simp at hsplit
  | step h _ ih =>
    cases front with
    | nil => cases hw
    | cons u front =>
      obtain ⟨rfl, hrest⟩ := List.cons.inj hsplit
      rcases mem_cons.1 hw with rfl | hw
      · rfl
      · exact ih hrest hw

/-- A list in the state that every iteration extends: where a visit starts, it holds what the
visits before it have added. -/
theorem before_eq {γ : Type} (list : σ → List γ) {added : Visit Reply σ ε ι → List γ}
    (h : Visits body items s visits r s') (hsplit : visits = front ++ v :: back)
    (hadd : ∀ w ∈ front, list w.after = list w.before ++ added w) :
    list v.before = list s ++ front.flatMap added := by
  induction h generalizing front with
  | done s => simp at hsplit
  | threw h =>
    cases front with
    | nil =>
      obtain ⟨rfl, -⟩ := List.cons.inj hsplit
      simp
    | cons w front => simp at hsplit
  | step h _ ih =>
    cases front with
    | nil =>
      obtain ⟨rfl, -⟩ := List.cons.inj hsplit
      simp
    | cons w front =>
      obtain ⟨rfl, hrest⟩ := List.cons.inj hsplit
      have hfirst := hadd _ mem_cons_self
      simp only at hfirst
      rw [ih hrest fun w hw => hadd w (mem_cons_of_mem _ hw), hfirst]
      simp

/-- A list in the state that every iteration extends: at the end it holds all that was added. -/
theorem after_eq {γ : Type} (list : σ → List γ) {added : Visit Reply σ ε ι → List γ}
    (h : Visits body items s visits r s')
    (hadd : ∀ v ∈ visits, list v.after = list v.before ++ added v) :
    list s' = list s ++ visits.flatMap added := by
  induction h with
  | done s => simp
  | threw h => simpa using hadd _ mem_cons_self
  | step h _ ih =>
    have hfirst := hadd _ mem_cons_self
    simp only at hfirst
    rw [ih fun v hv => hadd v (by simp [hv]), hfirst]
    simp

end Visits

/-- The iterations of a run of the loop against a host given as a function. -/
def playVisits (host : ∀ call : Call, Reply call) (body : ι → Script Reply σ ε Unit) :
    List ι → σ → List (Visit Reply σ ε ι) × Except ε Unit × σ
  | [], s => ([], .ok (), s)
  | item :: items, s =>
    match (body item).play host s with
    | (t, .error e, s') => ([⟨item, s, t, .error e, s'⟩], .error e, s')
    | (t, .ok (), s₁) =>
      let rest := playVisits host body items s₁
      (⟨item, s, t, .ok (), s₁⟩ :: rest.1, rest.2)

theorem visits_playVisits (host : ∀ call : Call, Reply call) (body : ι → Script Reply σ ε Unit)
    (items : List ι) (s : σ) :
    Visits body items s (playVisits host body items s).1 (playVisits host body items s).2.1
      (playVisits host body items s).2.2 := by
  induction items generalizing s with
  | nil => exact .done s
  | cons item items ih =>
    have hends := (body item).ends_play host s
    rw [playVisits]
    split
    · next t e s' heq =>
      rw [heq] at hends
      exact .threw hends
    · next t s₁ heq =>
      rw [heq] at hends
      exact .step hends (ih s₁)

end Loop

end LoopOver
