import LoopOver.Benchmark.GroundTruth
import LoopOver.Review.ReliabilityCurve

/-!
# Scoring the proposals of an agent

`packages/loopover-engine/src/calibration/benchmark-score.ts` compares what an agent proposed for
the work units of a snapshot with what was realized. Each action is scored against the rest by
`scoreBacktest` of `backtest-score.ts`, and the reports are put together with the coverage of the
answers.

* `scoreBacktest` counts a confusion matrix; `scoreBacktest_pairs` reads the counts of an action off
  the decided units.
* `scoreBenchmarkProposals` keeps the last proposal of each unit, and `score_eq` says what the
  report is made of.
* `Conserved` are the laws between the counts, and `Unpadded` says what a list of proposals cannot
  change.
* **`score_not_padded`**: both hold for every ground truth and every list of proposals.

Ratios are exact, but for the rounding that the source does itself.
-/

namespace LoopOver.Benchmark

open Reliability (CaseLabel)
open List

/-! ## One action against the rest -/

/-- What `scoreBacktest` reads of a case. -/
structure BacktestCase (μ : Type) where
  ruleId : String
  label : CaseLabel
  metadata : μ

structure BacktestScoreReport where
  ruleId : String
  caseCount : ℕ
  truePositive : ℕ
  falsePositive : ℕ
  trueNegative : ℕ
  falseNegative : ℕ
  precision : Option ℚ
  «recall» : Option ℚ
  deriving DecidableEq

/-- The counts of a confusion matrix, where a reversal is the positive class. -/
structure Confusion where
  caseCount : ℕ
  truePositive : ℕ
  falsePositive : ℕ
  trueNegative : ℕ
  falseNegative : ℕ

/-- A turn of the loop over the cases. -/
def Confusion.add {μ : Type} (ruleId : String) (classify : BacktestCase μ → CaseLabel)
    (c : Confusion) (backtestCase : BacktestCase μ) : Confusion :=
  if backtestCase.ruleId ≠ ruleId then c
  else
    match classify backtestCase, backtestCase.label with
    | .reversed, .reversed =>
      { c with caseCount := c.caseCount + 1, truePositive := c.truePositive + 1 }
    | .reversed, .confirmed =>
      { c with caseCount := c.caseCount + 1, falsePositive := c.falsePositive + 1 }
    | .confirmed, .confirmed =>
      { c with caseCount := c.caseCount + 1, trueNegative := c.trueNegative + 1 }
    | .confirmed, .reversed =>
      { c with caseCount := c.caseCount + 1, falseNegative := c.falseNegative + 1 }

def scoreBacktest {μ : Type} (ruleId : String) (cases : List (BacktestCase μ))
    (classify : BacktestCase μ → CaseLabel) :
    BacktestScoreReport :=
  let c := cases.foldl (Confusion.add ruleId classify) ⟨0, 0, 0, 0, 0⟩
  { ruleId := ruleId
    caseCount := c.caseCount
    truePositive := c.truePositive
    falsePositive := c.falsePositive
    trueNegative := c.trueNegative
    falseNegative := c.falseNegative
    precision := if 0 < c.truePositive + c.falsePositive
      then some ((c.truePositive : ℚ) / (c.truePositive + c.falsePositive : ℕ)) else none
    «recall» := if 0 < c.truePositive + c.falseNegative
      then some ((c.truePositive : ℚ) / (c.truePositive + c.falseNegative : ℕ)) else none }

/-! ## Proposals -/

/-- What the predictor answers. -/
inductive BenchmarkPrediction
  | abstain
  | act (kind : BenchmarkActionKind)
  deriving DecidableEq

/-- What the scorer reads of a proposal. -/
structure BenchmarkProposal where
  workUnitId : String
  prediction : BenchmarkPrediction
  deriving DecidableEq

def BenchmarkActionKind.name : BenchmarkActionKind → String
  | merge => "merge"
  | close => "close"
  | requestChanges => "request_changes"
  | label => "label"
  | hold => "hold"

/-- `SCORED_ACTIONS`. -/
def scoredActions : List BenchmarkActionKind := [.merge, .close, .requestChanges, .label, .hold]

/-- The mean over the kinds. -/
structure MacroScore where
  precision : Option ℚ
  «recall» : Option ℚ
  actionsScored : ℕ
  deriving DecidableEq

/-- The score over all pairs. -/
structure MicroScore where
  precision : Option ℚ
  «recall» : Option ℚ
  accuracy : Option ℚ
  deriving DecidableEq

structure ScoreCoverage where
  decided : ℕ
  abstained : ℕ
  coverage : Option ℚ
  unresolvedExcluded : ℕ
  unscorableProposals : ℕ
  deriving DecidableEq

structure BenchmarkScoreReport where
  snapshotRef : String
  subjectId : String
  perAction : BenchmarkActionKind → BacktestScoreReport
  macroScore : MacroScore
  microScore : MicroScore
  coverage : ScoreCoverage

/-- A settled unit with the action that was realized. -/
structure ScoreableTruth where
  workUnitId : String
  action : BenchmarkActionKind
  deriving DecidableEq

def scoreableGroundTruths (truths : BenchmarkGroundTruthSet) : List ScoreableTruth :=
  truths.truths.filterMap fun truth =>
    match truth with
    | .unresolved _ => none
    | .settled workUnitId action _ _ _ _ => some ⟨workUnitId, action⟩

def ratio (numerator denominator : ℕ) : Option ℚ :=
  if 0 < denominator then some (JsNumber.round ((numerator : ℚ) / denominator * 1000) / 1000)
    else none

structure MacroMean where
  mean : Option ℚ
  counted : ℕ

def macroMean (values : List (Option ℚ)) : MacroMean :=
  let present := values.filterMap id
  if present.length = 0 then ⟨none, 0⟩
  else ⟨some (JsNumber.round (present.sum / present.length * 1000) / 1000), present.length⟩

/-- A prediction beside the truth. -/
structure DecidedPair where
  realized : BenchmarkActionKind
  predicted : BenchmarkActionKind
  deriving DecidableEq

/-- A turn of the loop over the proposals: the last one of each unit, and how many are about no
scoreable unit. -/
def collect (scoreableIds : List String) (state : List (String × BenchmarkProposal) × ℕ)
    (proposal : BenchmarkProposal) :
    List (String × BenchmarkProposal) × ℕ :=
  if proposal.workUnitId ∈ scoreableIds then
    (Record.set proposal.workUnitId proposal state.1, state.2)
  else (state.1, state.2 + 1)

/-- A turn of the loop over the scoreable units. -/
def decideUnit (proposalByUnit : List (String × BenchmarkProposal)) (state : List DecidedPair × ℕ)
    (truth : ScoreableTruth) : List DecidedPair × ℕ :=
  match proposalByUnit.lookup truth.workUnitId with
  | some ⟨_, .act predicted⟩ => (state.1 ++ [⟨truth.action, predicted⟩], state.2)
  | _ => (state.1, state.2 + 1)

/-- The report of an action against the rest. -/
def scoreAction (decided : List DecidedPair) (action : BenchmarkActionKind) : BacktestScoreReport :=
  scoreBacktest action.name
    (decided.map fun pair => ⟨action.name, if pair.realized = action then .reversed else .confirmed,
      pair.predicted⟩)
    fun backtestCase => if backtestCase.metadata = action then .reversed else .confirmed

def scoreBenchmarkProposals (subjectId : String) (groundTruth : BenchmarkGroundTruthSet)
    (proposals : List BenchmarkProposal) : BenchmarkScoreReport :=
  let scoreable := scoreableGroundTruths groundTruth
  let collected := proposals.foldl (collect (scoreable.map (·.workUnitId))) ([], 0)
  let answers := scoreable.foldl (decideUnit collected.1) ([], 0)
  let decided := answers.1
  let perAction := scoreAction decided
  let macroPrecision := macroMean (scoredActions.map fun action => (perAction action).precision)
  let macroRecall := macroMean (scoredActions.map fun action => (perAction action).«recall»)
  let micro := ratio (decided.countP fun pair => pair.predicted = pair.realized) decided.length
  { snapshotRef := groundTruth.snapshotRef
    subjectId := subjectId
    perAction := perAction
    macroScore := ⟨macroPrecision.mean, macroRecall.mean, macroPrecision.counted⟩
    microScore := ⟨micro, micro, micro⟩
    coverage := {
      decided := decided.length
      abstained := answers.2
      coverage := ratio decided.length (decided.length + answers.2)
      unresolvedExcluded := groundTruth.coverage.unresolved
      unscorableProposals := collected.2 } }

/-! ## What a report has to be -/

section Laws

variable (groundTruth : BenchmarkGroundTruthSet) (proposals : List BenchmarkProposal)

/-- The answer of a unit: the prediction of its last proposal. -/
def answer (workUnitId : String) : Option BenchmarkPrediction :=
  (proposals.reverse.find? (·.workUnitId = workUnitId)).map (·.prediction)

/-- The scoreable units that are answered with an action, with both of their actions. -/
def decidedPairs : List DecidedPair :=
  (scoreableGroundTruths groundTruth).filterMap fun truth =>
    match answer proposals truth.workUnitId with
    | some (.act predicted) => some ⟨truth.action, predicted⟩
    | _ => none

/-- The unit is settled in the ground truth. -/
def Scoreable (workUnitId : String) : Prop :=
  workUnitId ∈ (scoreableGroundTruths groundTruth).map (·.workUnitId)

instance (workUnitId : String) : Decidable (Scoreable groundTruth workUnitId) :=
  inferInstanceAs (Decidable (_ ∈ _))

/-- The counts of a report belong together. -/
structure Conserved (report : BenchmarkScoreReport) : Prop where
  answered : report.coverage.decided + report.coverage.abstained =
    (scoreableGroundTruths groundTruth).length
  decided : report.coverage.decided = (decidedPairs groundTruth proposals).length
  correct : (scoredActions.map fun action => (report.perAction action).truePositive).sum =
    (decidedPairs groundTruth proposals).countP fun pair => pair.predicted = pair.realized
  predicted : (scoredActions.map fun action =>
      (report.perAction action).truePositive + (report.perAction action).falsePositive).sum =
    (decidedPairs groundTruth proposals).countP fun pair => pair.predicted ∈ scoredActions
  realized : (scoredActions.map fun action =>
      (report.perAction action).truePositive + (report.perAction action).falseNegative).sum =
    (decidedPairs groundTruth proposals).countP fun pair => pair.realized ∈ scoredActions

/-- The report without the number of its unscorable proposals. -/
def BenchmarkScoreReport.numbers (report : BenchmarkScoreReport) : BenchmarkScoreReport :=
  { report with coverage := { report.coverage with unscorableProposals := 0 } }

/-- What a list of proposals cannot change of the numbers. -/
structure Unpadded (subjectId : String) : Prop where
  /-- Proposals for units that are unknown or unresolved. -/
  unscorable : ∀ padded : List BenchmarkProposal,
    padded.filter (fun proposal => Scoreable groundTruth proposal.workUnitId) =
      proposals.filter (fun proposal => Scoreable groundTruth proposal.workUnitId) →
    (scoreBenchmarkProposals subjectId groundTruth padded).numbers =
      (scoreBenchmarkProposals subjectId groundTruth proposals).numbers
  /-- An explicit abstention of a unit without an answer, anywhere in the list. -/
  abstention : ∀ front back workUnitId, proposals = front ++ back →
    answer proposals workUnitId = none →
    (scoreBenchmarkProposals subjectId groundTruth
      (front ++ ⟨workUnitId, .abstain⟩ :: back)).numbers =
      (scoreBenchmarkProposals subjectId groundTruth proposals).numbers
  /-- A proposal for a unit that is answered later. -/
  earlier : ∀ front back proposal, proposals = front ++ back →
    (∃ later ∈ back, later.workUnitId = proposal.workUnitId) →
    (scoreBenchmarkProposals subjectId groundTruth (front ++ proposal :: back)).numbers =
      (scoreBenchmarkProposals subjectId groundTruth proposals).numbers
  /-- The order of proposals for different units. -/
  reordered : ∀ other : List BenchmarkProposal,
    (∀ workUnitId, other.filter (·.workUnitId = workUnitId) =
      proposals.filter (·.workUnitId = workUnitId)) →
    (scoreBenchmarkProposals subjectId groundTruth other).numbers =
      (scoreBenchmarkProposals subjectId groundTruth proposals).numbers

end Laws

/-! ## The three loops -/

section Loops

variable {groundTruth : BenchmarkGroundTruthSet} {proposals other : List BenchmarkProposal}
  {workUnitId : String}

theorem foldl_collect_fst (scoreableIds : List String) (proposals : List BenchmarkProposal)
    (state : List (String × BenchmarkProposal) × ℕ) :
    (proposals.foldl (collect scoreableIds) state).1 = Record.setAll state.1
      ((proposals.filter (·.workUnitId ∈ scoreableIds)).map fun proposal =>
        (proposal.workUnitId, proposal)) := by
  induction proposals generalizing state with
  | nil => rfl
  | cons proposal rest ih =>
    rw [foldl_cons, ih, collect]
    by_cases h : proposal.workUnitId ∈ scoreableIds
    · rw [if_pos h, filter_cons_of_pos (by simpa using h), map_cons, Record.setAll_cons]
    · rw [if_neg h, filter_cons_of_neg (by simpa using h)]

theorem lookup_map_unit (proposals : List BenchmarkProposal) (workUnitId : String) :
    (proposals.map fun proposal => (proposal.workUnitId, proposal)).lookup workUnitId =
      proposals.find? (·.workUnitId = workUnitId) := by
  induction proposals with
  | nil => rfl
  | cons proposal rest ih =>
    rw [map_cons, Record.lookup_cons_eq, ih, List.find?_cons]
    by_cases h : workUnitId = proposal.workUnitId
    · simp [h]
    · rw [if_neg h, decide_eq_false (Ne.symm h)]

/-- The map of the proposals answers a scoreable unit with its last proposal. -/
theorem lookup_collect {scoreableIds : List String} (h : workUnitId ∈ scoreableIds) :
    (proposals.foldl (collect scoreableIds) ([], 0)).1.lookup workUnitId =
      proposals.reverse.find? (·.workUnitId = workUnitId) := by
  rw [foldl_collect_fst, Record.lookup_setAll, lookup_nil, Option.or_none, ← map_reverse,
    lookup_map_unit, ← filter_reverse, List.find?_filter]
  congr 1
  funext proposal
  by_cases hunit : proposal.workUnitId = workUnitId
  · simp [hunit, h]
  · simp [hunit]

/-- The pair that a scoreable unit is decided with. -/
def decidedPair (answer : Option BenchmarkPrediction) (action : BenchmarkActionKind) :
    Option DecidedPair :=
  match answer with
  | some (.act predicted) => some ⟨action, predicted⟩
  | _ => none

theorem foldl_decideUnit (byUnit : List (String × BenchmarkProposal)) (truths : List ScoreableTruth)
    (state : List DecidedPair × ℕ) :
    let pairs := truths.filterMap fun truth =>
      decidedPair ((byUnit.lookup truth.workUnitId).map (·.prediction)) truth.action
    (truths.foldl (decideUnit byUnit) state).1 = state.1 ++ pairs ∧
      pairs.length + (truths.foldl (decideUnit byUnit) state).2 = truths.length + state.2 := by
  induction truths generalizing state with
  | nil => simp
  | cons truth rest ih =>
    obtain ⟨hpairs, hcount⟩ := ih (decideUnit byUnit state truth)
    rw [foldl_cons, length_cons]
    cases hlookup : byUnit.lookup truth.workUnitId with
    | none =>
      simp only [decideUnit, hlookup, decidedPair, filterMap_cons,
        Option.map_none] at hpairs hcount ⊢
      exact ⟨hpairs, by omega⟩
    | some proposal =>
      obtain ⟨unit, prediction⟩ := proposal
      cases prediction with
      | abstain =>
        simp only [decideUnit, hlookup, decidedPair, filterMap_cons,
          Option.map_some] at hpairs hcount ⊢
        exact ⟨hpairs, by omega⟩
      | act predicted =>
        simp only [decideUnit, hlookup, decidedPair, filterMap_cons, Option.map_some, length_cons]
          at hpairs hcount ⊢
        exact ⟨by rw [hpairs, append_assoc, singleton_append], by omega⟩

theorem decidedPairs_eq (groundTruth : BenchmarkGroundTruthSet)
    (proposals : List BenchmarkProposal) :
    decidedPairs groundTruth proposals = (scoreableGroundTruths groundTruth).filterMap fun truth =>
      decidedPair (answer proposals truth.workUnitId) truth.action := rfl

/-- **The answers of a snapshot**: the decided pairs, and an abstention for each of the other
scoreable units. -/
theorem answers_eq (groundTruth : BenchmarkGroundTruthSet) (proposals : List BenchmarkProposal) :
    let scoreable := scoreableGroundTruths groundTruth
    scoreable.foldl
      (decideUnit (proposals.foldl (collect (scoreable.map (·.workUnitId))) ([], 0)).1) ([], 0) =
      (decidedPairs groundTruth proposals,
        scoreable.length - (decidedPairs groundTruth proposals).length) := by
  intro scoreable
  obtain ⟨hpairs, hcount⟩ := foldl_decideUnit
    (proposals.foldl (collect (scoreable.map (·.workUnitId))) ([], 0)).1 scoreable ([], 0)
  have hanswers : (scoreable.filterMap fun truth => decidedPair
      (((proposals.foldl (collect (scoreable.map (·.workUnitId))) ([], 0)).1.lookup
        truth.workUnitId).map
        (·.prediction)) truth.action) = decidedPairs groundTruth proposals := by
    rw [decidedPairs_eq]
    refine filterMap_congr fun truth hmem => ?_
    rw [lookup_collect (mem_map_of_mem hmem), answer]
  rw [hanswers] at hpairs hcount
  exact Prod.ext hpairs (by simp only [Nat.add_zero] at hcount; simp only; omega)

end Loops

/-! ## The confusion matrices -/

section Matrices

variable (decided : List DecidedPair) (action : BenchmarkActionKind)

/-- **The matrix of an action**, read off the decided pairs. -/
theorem scoreAction_counts :
    (scoreAction decided action).truePositive =
        decided.countP (fun pair => pair.predicted = action ∧ pair.realized = action) ∧
      (scoreAction decided action).truePositive + (scoreAction decided action).falsePositive =
        decided.countP (·.predicted = action) ∧
      (scoreAction decided action).truePositive + (scoreAction decided action).falseNegative =
        decided.countP (·.realized = action) := by
  suffices h : ∀ c : Confusion,
      let total := (decided.map fun pair =>
        (⟨action.name, if pair.realized = action then .reversed else .confirmed, pair.predicted⟩ :
          BacktestCase BenchmarkActionKind)).foldl (Confusion.add action.name fun backtestCase =>
            if backtestCase.metadata = action then .reversed else .confirmed) c
      total.truePositive = c.truePositive +
          decided.countP (fun pair => pair.predicted = action ∧ pair.realized = action) ∧
        total.truePositive + total.falsePositive =
          c.truePositive + c.falsePositive + decided.countP (·.predicted = action) ∧
        total.truePositive + total.falseNegative =
          c.truePositive + c.falseNegative + decided.countP (·.realized = action) by
    obtain ⟨htrue, hpredicted, hrealized⟩ := h ⟨0, 0, 0, 0, 0⟩
    simp only [Nat.zero_add] at htrue hpredicted hrealized
    exact ⟨htrue, hpredicted, hrealized⟩
  induction decided with
  | nil => exact fun c => ⟨rfl, rfl, rfl⟩
  | cons pair rest ih =>
    intro c
    rw [map_cons, foldl_cons]
    obtain ⟨htrue, hpredicted, hrealized⟩ := ih (Confusion.add action.name _ c _)
    refine ⟨htrue.trans ?_, hpredicted.trans ?_, hrealized.trans ?_⟩ <;>
      simp only [countP_cons, Confusion.add] <;>
      by_cases hp : pair.predicted = action <;> by_cases hr : pair.realized =
        action <;> simp [hp, hr] <;> omega

end Matrices

/-- Entries counted action by action. -/
theorem sum_countP {α : Type} (q : α → BenchmarkActionKind) (r : α → Bool) (l : List α) :
    (scoredActions.map fun action => l.countP fun a => q a = action ∧ r a).sum =
      l.countP fun a => q a ∈ scoredActions ∧ r a := by
  induction l with
  | nil => rfl
  | cons a rest ih =>
    simp only [scoredActions, map_cons, map_nil, sum_cons, sum_nil, countP_cons] at ih ⊢
    cases q a <;> cases r a <;> simp at ih ⊢ <;> omega

/-! ## Padding -/

section Padding

variable {subjectId : String} {groundTruth : BenchmarkGroundTruthSet}
  {proposals other front back : List BenchmarkProposal}
  {workUnitId : String}

theorem score_decided : (scoreBenchmarkProposals subjectId groundTruth proposals).coverage.decided =
    (decidedPairs groundTruth proposals).length := by
  rw [scoreBenchmarkProposals]
  simp only [answers_eq]

theorem score_abstained :
    (scoreBenchmarkProposals subjectId groundTruth proposals).coverage.abstained =
    (scoreableGroundTruths groundTruth).length - (decidedPairs groundTruth proposals).length := by
  rw [scoreBenchmarkProposals]
  simp only [answers_eq]

theorem score_perAction (action : BenchmarkActionKind) :
    (scoreBenchmarkProposals subjectId groundTruth proposals).perAction action =
      scoreAction (decidedPairs groundTruth proposals) action := by
  rw [scoreBenchmarkProposals]
  simp only [answers_eq]

/-- The numbers of a report are made of the decided pairs. -/
theorem numbers_congr (h : decidedPairs groundTruth other = decidedPairs groundTruth proposals) :
    (scoreBenchmarkProposals subjectId groundTruth other).numbers =
      (scoreBenchmarkProposals subjectId groundTruth proposals).numbers := by
  simp only [scoreBenchmarkProposals, BenchmarkScoreReport.numbers, answers_eq, h]

theorem numbers_of_answers (h : ∀ workUnitId, Scoreable groundTruth workUnitId → ∀ action,
    decidedPair (answer other workUnitId) action =
      decidedPair (answer proposals workUnitId) action) :
    (scoreBenchmarkProposals subjectId groundTruth other).numbers =
      (scoreBenchmarkProposals subjectId groundTruth proposals).numbers := by
  refine numbers_congr ?_
  rw [decidedPairs_eq, decidedPairs_eq]
  exact filterMap_congr fun truth hmem => h truth.workUnitId (mem_map_of_mem hmem) truth.action

/-- An answer depends on the proposals for its unit only. -/
theorem answer_eq_filter (proposals : List BenchmarkProposal) (workUnitId : String) :
    answer proposals workUnitId =
      ((proposals.filter (·.workUnitId = workUnitId)).getLast?).map (·.prediction) := by
  rw [answer, ← List.head?_filter, filter_reverse, List.head?_reverse]

theorem answer_append (front back : List BenchmarkProposal) (workUnitId : String) :
    answer (front ++ back) workUnitId = (answer back workUnitId).or (answer front workUnitId) := by
  rw [answer, answer, answer, reverse_append, List.find?_append]
  cases back.reverse.find? (·.workUnitId = workUnitId) <;> rfl

theorem answer_cons (proposal : BenchmarkProposal) (back : List BenchmarkProposal)
    (workUnitId : String) :
    answer (proposal :: back) workUnitId = (answer back workUnitId).or
      (if proposal.workUnitId = workUnitId then some proposal.prediction else none) := by
  rw [← singleton_append, answer_append]
  congr 1
  by_cases h : proposal.workUnitId = workUnitId <;> simp [answer, h]

theorem answer_ne_none {later : BenchmarkProposal} (h : later ∈ back) :
    answer back later.workUnitId ≠ none := by
  rw [answer, Ne, Option.map_eq_none_iff, List.find?_eq_none]
  exact fun hnone => hnone later (mem_reverse.2 h) (by simp)

theorem numbers_unscorable
    (h : other.filter (fun proposal => Scoreable groundTruth proposal.workUnitId) =
      proposals.filter (fun proposal => Scoreable groundTruth proposal.workUnitId)) :
    (scoreBenchmarkProposals subjectId groundTruth other).numbers =
      (scoreBenchmarkProposals subjectId groundTruth proposals).numbers := by
  refine numbers_of_answers fun workUnitId hscoreable action => ?_
  have honly (l : List BenchmarkProposal) : l.filter (·.workUnitId = workUnitId) =
      (l.filter fun proposal => Scoreable groundTruth proposal.workUnitId).filter
        (·.workUnitId = workUnitId) := by
    rw [filter_filter]
    refine filter_congr fun proposal _ => ?_
    by_cases hunit : proposal.workUnitId = workUnitId
    · simp [hunit, hscoreable]
    · simp [hunit]
  rw [answer_eq_filter, answer_eq_filter, honly, h, ← honly]

theorem numbers_abstention (h : answer (front ++ back) workUnitId = none) :
    (scoreBenchmarkProposals subjectId groundTruth
      (front ++ ⟨workUnitId, .abstain⟩ :: back)).numbers =
      (scoreBenchmarkProposals subjectId groundTruth (front ++ back)).numbers := by
  refine numbers_of_answers fun unit _ action => ?_
  by_cases hunit : workUnitId = unit
  · subst hunit
    rw [h]
    rw [answer_append, Option.or_eq_none_iff] at h
    rw [answer_append, answer_cons, if_pos rfl, h.1, h.2]
    rfl
  · rw [answer_append, answer_cons, if_neg hunit, Option.or_none, ← answer_append]

theorem numbers_earlier {proposal : BenchmarkProposal}
    (h : ∃ later ∈ back, later.workUnitId = proposal.workUnitId) :
    (scoreBenchmarkProposals subjectId groundTruth (front ++ proposal :: back)).numbers =
      (scoreBenchmarkProposals subjectId groundTruth (front ++ back)).numbers := by
  refine numbers_of_answers fun unit _ action => ?_
  rw [answer_append, answer_cons, answer_append front back]
  by_cases hunit : proposal.workUnitId = unit
  · obtain ⟨later, hlater, heq⟩ := h
    obtain ⟨prediction, hanswer⟩ := Option.ne_none_iff_exists'.1 (answer_ne_none hlater)
    rw [← hunit, ← heq, hanswer]
    rfl
  · rw [if_neg hunit, Option.or_none]

theorem conserved (subjectId : String) (groundTruth : BenchmarkGroundTruthSet)
    (proposals : List BenchmarkProposal) :
    Conserved groundTruth proposals (scoreBenchmarkProposals subjectId groundTruth proposals) where
  answered := by
    rw [score_decided, score_abstained]
    have hlength : (decidedPairs groundTruth proposals).length ≤
        (scoreableGroundTruths groundTruth).length :=
      length_filterMap_le _ _
    omega
  decided := score_decided
  correct := by
    have hsum := sum_countP DecidedPair.realized (fun pair => pair.predicted = pair.realized)
      (decidedPairs groundTruth proposals)
    simp only [score_perAction, (scoreAction_counts _ _).1]
    refine Eq.trans ?_ (hsum.trans (countP_congr fun pair _ => ?_))
    · congr 1
      refine map_congr_left fun action _ => countP_congr fun pair _ => ?_
      simp only [decide_eq_true_eq]
      exact ⟨fun h => ⟨h.2, h.1.trans h.2.symm⟩, fun h => ⟨h.2.trans h.1, h.1⟩⟩
    · cases pair.realized <;> simp [scoredActions]
  predicted := by
    simp only [score_perAction, (scoreAction_counts _ _).2.1]
    simpa using sum_countP DecidedPair.predicted (fun _ => true)
      (decidedPairs groundTruth proposals)
  realized := by
    simp only [score_perAction, (scoreAction_counts _ _).2.2]
    simpa using sum_countP DecidedPair.realized (fun _ => true) (decidedPairs groundTruth proposals)

/-- **Scores are not gamed by padding.** -/
theorem score_not_padded (subjectId : String) (groundTruth : BenchmarkGroundTruthSet)
    (proposals : List BenchmarkProposal) :
    Conserved groundTruth proposals (scoreBenchmarkProposals subjectId groundTruth proposals) ∧
      Unpadded groundTruth proposals subjectId := by
  refine ⟨conserved subjectId groundTruth proposals, ?_, ?_, ?_, ?_⟩
  · exact fun padded h => numbers_unscorable h
  · rintro front back workUnitId rfl h
    exact numbers_abstention h
  · rintro front back proposal rfl h
    exact numbers_earlier h
  · refine fun other h => numbers_of_answers fun workUnitId _ action => ?_
    rw [answer_eq_filter, answer_eq_filter, h]

end Padding

end LoopOver.Benchmark
