import LoopOver.Foundations.Interaction

/-!
# A script alone with its store

A `Service` says what each call replies in a store, and which store it leaves. A script that has the
store to itself then is a function of it: `Script.exec`. There is one rule for each way to build a
script, and `Prog.exec_keeps` is the rule for what every call keeps.
-/

namespace LoopOver

variable {Call : Type} {Reply : Call → Type} {Store : Type}

/-- What a call replies in a store, and the store that it leaves. -/
abbrev Service (Reply : Call → Type) (Store : Type) : Type :=
  Store → (call : Call) → Reply call × Store

namespace Prog

variable {α β : Type} (serve : Service Reply Store)

/-- The result of a program that has the store to itself, and the store that it leaves. -/
def exec : Prog Reply α → Store → α × Store
  | ret value, g => (value, g)
  | ask call next, g => exec (next (serve g call).1) (serve g call).2

variable {serve}

theorem exec_bind (p : Prog Reply α) (f : α → Prog Reply β) (g : Store) :
    (p.bind f).exec serve g = (f (p.exec serve g).1).exec serve (p.exec serve g).2 := by
  induction p generalizing g with
  | ret value => rfl
  | ask call next ih => exact ih (serve g call).1 (serve g call).2

/-- What every call keeps, a program keeps. -/
theorem exec_keeps {Inv : Store → Prop} (hserve : ∀ g call, Inv g → Inv (serve g call).2)
    (p : Prog Reply α) {g : Store} (hg : Inv g) : Inv (p.exec serve g).2 := by
  induction p generalizing g with
  | ret value => exact hg
  | ask call next ih => exact ih (serve g call).1 (hserve g call hg)

end Prog

namespace Script

variable {σ ε α β : Type} (serve : Service Reply Store)

/-- How a script that has the store to itself ends, with its state and the store that it leaves. -/
def exec (p : Script Reply σ ε α) (s : σ) (g : Store) : (Except ε α × σ) × Store :=
  (p s).exec serve g

variable {serve} {s s' : σ} {g g' : Store}

@[simp] theorem exec_pure {value : α} :
    (pure value : Script Reply σ ε α).exec serve s g = ((.ok value, s), g) := rfl

@[simp] theorem exec_ofExcept {result : Except ε α} :
    (ofExcept result : Script Reply σ ε α).exec serve s g = ((result, s), g) := rfl

@[simp] theorem exec_ask {call : Call} :
    (ask call : Script Reply σ ε (Reply call)).exec serve s g =
      ((.ok (serve g call).1, s), (serve g call).2) := rfl

@[simp] theorem exec_tell {call : Call} :
    (tell call : Script Reply σ ε Unit).exec serve s g = ((.ok (), s), (serve g call).2) := rfl

theorem exec_ask_bind {call : Call} {f : Reply call → Script Reply σ ε α} :
    (ask call >>= f).exec serve s g = (f (serve g call).1).exec serve s (serve g call).2 := rfl

variable {f : β → Script Reply σ ε α}

theorem exec_ofExcept_bind {value : β} :
    (ofExcept (.ok value) >>= f).exec serve s g = (f value).exec serve s g := rfl

theorem exec_bind_ok {p : Script Reply σ ε β} {value : β}
    (h : p.exec serve s g = ((.ok value, s'), g')) :
    (p >>= f).exec serve s g = (f value).exec serve s' g' := by
  show ((p s).bind _).exec serve g = _
  rw [Prog.exec_bind]
  show _ = (f value s').exec serve g'
  rw [show (p s).exec serve g = ((.ok value, s'), g') from h]

theorem exec_attempt_bind {p : Script Reply σ ε β} {f : Except ε β → Script Reply σ ε α}
    {r : Except ε β} (h : p.exec serve s g = ((r, s'), g')) :
    (p.attempt >>= f).exec serve s g = (f r).exec serve s' g' := by
  apply exec_bind_ok
  show ((p s).bind _).exec serve g = _
  rw [Prog.exec_bind, show (p s).exec serve g = ((r, s'), g') from h]
  rfl

theorem exec_runWhen {guard : Bool} {p : Script Reply σ ε Unit} :
    (runWhen guard p).exec serve s g = if guard then p.exec serve s g else ((.ok (), s), g) := by
  cases guard <;> rfl

/-- What every call keeps, a script keeps. -/
theorem exec_keeps {Inv : Store → Prop} (hserve : ∀ g call, Inv g → Inv (serve g call).2)
    (p : Script Reply σ ε α) (hg : Inv g) : Inv (p.exec serve s g).2 :=
  Prog.exec_keeps hserve (p s) hg

end Script

end LoopOver
