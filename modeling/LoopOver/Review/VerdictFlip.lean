import Mathlib.Data.List.DropRight

/-!
# The guard against verdict shopping

The verdicts of the AI reviewer are not deterministic. `src/review/verdict-flip-guard.ts` keeps, for
each pull request, how often the verdict on the same content has changed, and holds the pull request
for a human from three changes on.

* `nextVerdictFlipState` is the step, and `guardAfter` what a sequence of fresh verdicts leads to.
* `currentRun` is the content under review as the whole history has it: the verdicts at its end with
  the fingerprint of the last one. `guardAfter_counts` has the state in terms of it.
* **`guard_counts_flips`**: the guard counts the changes in this run, and what it holds it keeps on
  holding.
-/

namespace LoopOver.VerdictFlip

open List

/-! ## The guard -/

def verdictFlipEscalationThreshold : ℕ := 3

structure VerdictFlipState where
  lastHadDefect : Bool
  flipCount : ℕ
  /-- Missing in rows that are older than the column. -/
  lastFingerprint : Option String
  deriving DecidableEq

structure VerdictFlipResult extends VerdictFlipState where
  escalate : Bool
  deriving DecidableEq

def nextVerdictFlipState (prior : Option VerdictFlipState) (hadDefect : Bool)
    (fingerprint : Option String) :
    VerdictFlipResult :=
  match prior with
  | none => ⟨⟨hadDefect, 0, fingerprint⟩, false⟩
  | some prior =>
    -- Only a verdict on unchanged content can be a flip.
    if fingerprint = none ∨ prior.lastFingerprint = none ∨ prior.lastFingerprint ≠ fingerprint then
      ⟨⟨hadDefect, 0, fingerprint⟩, false⟩
    else
      let flipCount :=
        if prior.lastHadDefect = hadDefect then prior.flipCount else prior.flipCount + 1
      ⟨⟨hadDefect, flipCount, fingerprint⟩, verdictFlipEscalationThreshold ≤ flipCount⟩

/-- A fresh verdict, and the content it is about. -/
structure Observation where
  fingerprint : Option String
  hadDefect : Bool

def observe (state : Option VerdictFlipResult) (observation : Observation) :
    Option VerdictFlipResult :=
  some (nextVerdictFlipState (state.map (·.toVerdictFlipState)) observation.hadDefect
    observation.fingerprint)

/-- The last result of the guard, for verdicts from the oldest on. -/
def guardAfter (history : List Observation) : Option VerdictFlipResult := history.foldl observe none

/-! ## Changes of the verdict -/

def verdictChanges : List Bool → ℕ
  | a :: b :: rest => (if a = b then 0 else 1) + verdictChanges (b :: rest)
  | _ => 0

/-- The verdicts at the end that are about the content of the last one, where that content is
known. -/
def currentRun (history : List Observation) : List Observation :=
  match history.getLast? with
  | none => []
  | some current =>
    if current.fingerprint = none then []
    else history.rtakeWhile fun observation => observation.fingerprint = current.fingerprint

/-- The changes in the run. -/
def flips (history : List Observation) : ℕ :=
  verdictChanges ((currentRun history).map (·.hadDefect))

section Changes

variable {history : List Observation} {last current : Observation}

theorem verdictChanges_concat (front : List Bool) (a b : Bool) :
    verdictChanges (front ++ [a] ++ [b]) = verdictChanges (front ++ [a]) + if a = b then 0
      else 1 := by
  induction front with
  | nil => exact Nat.add_comm _ 0
  | cons c front ih =>
    cases front with
    | nil =>
      show (if c = a then 0 else 1) + verdictChanges [a, b] = (if c = a then 0 else 1) +
        verdictChanges [a] + _
      rw [Nat.add_assoc]
      exact congrArg _ ih
    | cons d front =>
      show (if c = d then 0 else 1) + verdictChanges (d :: front ++ [a] ++ [b]) =
        (if c = d then 0 else 1) + verdictChanges (d :: front ++ [a]) + _
      rw [ih, Nat.add_assoc]

theorem currentRun_concat (history : List Observation) (current : Observation) :
    currentRun (history ++ [current]) =
      if current.fingerprint = none then []
      else history.rtakeWhile (fun observation => observation.fingerprint = current.fingerprint) ++
        [current] := by
  rw [currentRun, List.getLast?_concat]
  exact congrArg (ite _ _) (rtakeWhile_concat_pos _ _ _ (decide_eq_true rfl))

theorem flips_eq_zero_of_unknown (h : current.fingerprint = none) :
    flips (history ++ [current]) = 0 := by
  rw [flips, currentRun_concat, if_pos h]
  rfl

/-- The first verdict on some content flips nothing. -/
theorem flips_eq_zero_of_changed
    (h : ∀ last ∈ history.getLast?, last.fingerprint ≠ current.fingerprint) :
    flips (history ++ [current]) = 0 := by
  by_cases hknown : current.fingerprint = none
  · exact flips_eq_zero_of_unknown hknown
  · have hrun : history.rtakeWhile (fun observation =>
        observation.fingerprint = current.fingerprint) = [] := by
      rw [rtakeWhile_eq_nil_iff]
      intro hne
      have hlast := h _ (List.getLast?_eq_some_getLast hne)
      simpa using hlast
    rw [flips, currentRun_concat, if_neg hknown, hrun]
    rfl

/-- A verdict on the same content goes on with the run. -/
theorem flips_concat_same (hknown : current.fingerprint ≠ none)
    (hsame : last.fingerprint = current.fingerprint) :
    flips (history ++ [last] ++ [current]) =
      flips (history ++ [last]) + if last.hadDefect = current.hadDefect then 0 else 1 := by
  have hrun := currentRun_concat (history ++ [last]) current
  rw [if_neg hknown,
    rtakeWhile_concat_pos (fun observation => observation.fingerprint = current.fingerprint)
      history last (decide_eq_true hsame)] at hrun
  rw [flips, flips, hrun, currentRun_concat, if_neg (hsame ▸ hknown), ← hsame]
  simp only [map_append, map_cons, map_nil]
  exact verdictChanges_concat _ _ _

end Changes

/-! ## What the guard counts -/

/-- The result for a history that ends with the verdict. -/
structure Counts (history : List Observation) (current : Observation) (result : VerdictFlipResult) :
    Prop where
  lastHadDefect : result.lastHadDefect = current.hadDefect
  lastFingerprint : result.lastFingerprint = current.fingerprint
  flipCount : result.flipCount = flips (history ++ [current])
  escalate : result.escalate = decide (verdictFlipEscalationThreshold ≤ result.flipCount)

section Guard

variable {history : List Observation} {last current : Observation} {result : VerdictFlipResult}

/-- A result that starts over. -/
theorem Counts.restart
    (h : ∀ last ∈ history.getLast?, current.fingerprint = none ∨
      last.fingerprint ≠ current.fingerprint) :
    Counts history current ⟨⟨current.hadDefect, 0, current.fingerprint⟩, false⟩ := by
  refine ⟨rfl, rfl, ?_, rfl⟩
  by_cases hknown : current.fingerprint = none
  · exact (flips_eq_zero_of_unknown hknown).symm
  · exact (flips_eq_zero_of_changed fun last hlast => (h last hlast).resolve_left hknown).symm

/-- One more verdict. -/
theorem Counts.next (h : Counts history last result) (current : Observation) :
    Counts (history ++ [last]) current
      (nextVerdictFlipState (some result.toVerdictFlipState) current.hadDefect
        current.fingerprint) := by
  rw [nextVerdictFlipState]
  by_cases hchanged : current.fingerprint = none ∨ result.lastFingerprint = none ∨
      result.lastFingerprint ≠ current.fingerprint
  · rw [if_pos hchanged]
    refine Counts.restart fun last' hlast => ?_
    rw [List.getLast?_concat, Option.mem_some_iff] at hlast
    rw [h.lastFingerprint, hlast] at hchanged
    by_cases hknown : current.fingerprint = none
    · exact Or.inl hknown
    · rcases hchanged with hnone | hnone | hne
      · exact Or.inl hnone
      · exact Or.inr fun heq => hknown (heq ▸ hnone)
      · exact Or.inr hne
  · rw [if_neg hchanged]
    rw [not_or, not_or, not_not, h.lastFingerprint] at hchanged
    refine ⟨rfl, rfl, ?_, rfl⟩
    rw [flips_concat_same hchanged.1 hchanged.2.2, ← h.flipCount, ← h.lastHadDefect]
    show (if _ then _ else _) = _
    split_ifs <;> rfl

theorem guardAfter_concat (history : List Observation) (current : Observation) :
    guardAfter (history ++ [current]) = observe (guardAfter history) current := by
  rw [guardAfter, foldl_concat]
  rfl

theorem guardAfter_counts (history : List Observation) (current : Observation) :
    ∃ result, guardAfter (history ++ [current]) = some result ∧ Counts history current result := by
  induction history using List.reverseRecOn generalizing current with
  | nil => exact ⟨_, rfl, Counts.restart nofun⟩
  | append_singleton history last ih =>
    obtain ⟨result, hresult, hcounts⟩ := ih last
    refine ⟨_, ?_, hcounts.next current⟩
    rw [guardAfter_concat, hresult]
    rfl

/-- While the content stays the same, the count does not go down. -/
theorem flips_le_of_same (history : List Observation) (current : Observation)
    (hknown : current.fingerprint ≠ none) {more : List Observation}
    (hsame : ∀ later ∈ more, later.fingerprint = current.fingerprint) :
    flips (history ++ [current]) ≤ flips (history ++ current :: more) := by
  induction more generalizing history current with
  | nil => exact le_rfl
  | cons later more ih =>
    have hlater := hsame later mem_cons_self
    have hrest := ih (history ++ [current]) later (hlater ▸ hknown)
      fun other hother => (hsame other (mem_cons_of_mem _ hother)).trans hlater.symm
    rw [flips_concat_same (hlater ▸ hknown) hlater.symm, append_assoc, singleton_append] at hrest
    exact (Nat.le_add_right _ _).trans hrest

/-- The guard counts the changes of the verdict on the current content, holds from the threshold on,
and keeps on holding while the content stays the same. -/
theorem guard_counts_flips (history : List Observation) (current : Observation) :
    ∃ result, guardAfter (history ++ [current]) = some result ∧
      result.flipCount = flips (history ++ [current]) ∧
      (result.escalate = true ↔ verdictFlipEscalationThreshold ≤ flips (history ++ [current])) ∧
      (result.escalate = true → ∀ more : List Observation,
        (∀ later ∈ more, later.fingerprint = current.fingerprint) →
          ∃ final, guardAfter (history ++ current :: more) = some final ∧
            final.escalate = true) := by
  obtain ⟨result, hresult, hcounts⟩ := guardAfter_counts history current
  have hescalate : result.escalate = true ↔
      verdictFlipEscalationThreshold ≤ flips (history ++ [current]) := by
    rw [hcounts.escalate, hcounts.flipCount, decide_eq_true_iff]
  refine ⟨result, hresult, hcounts.flipCount, hescalate, fun hheld more hsame => ?_⟩
  have hknown : current.fingerprint ≠ none := by
    intro hnone
    have hbound := hescalate.1 hheld
    rw [flips_eq_zero_of_unknown hnone] at hbound
    exact absurd hbound (by decide)
  have hbound := (hescalate.1 hheld).trans (flips_le_of_same history current hknown hsame)
  induction more using List.reverseRecOn with
  | nil => exact ⟨result, hresult, hheld⟩
  | append_singleton more final _ =>
    rw [← cons_append, ← append_assoc] at hbound ⊢
    obtain ⟨last, hlast, hcounts'⟩ := guardAfter_counts (history ++ current :: more) final
    exact ⟨last, hlast, by rw [hcounts'.escalate, hcounts'.flipCount, decide_eq_true hbound]⟩

example :
    (guardAfter [⟨some "a", true⟩, ⟨some "b", false⟩, ⟨some "b", true⟩, ⟨some "b", false⟩,
      ⟨some "b", true⟩]).map
    (·.escalate) = some true := by decide

end Guard

end LoopOver.VerdictFlip
