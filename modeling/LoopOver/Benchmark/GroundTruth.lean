import LoopOver.Foundations.Record
import LoopOver.Number
import LoopOver.Text
import Mathlib.Data.List.MinMax
import Mathlib.Data.List.Pairwise

/-!
# The ground truth of the benchmark

`packages/loopover-engine/src/calibration/benchmark-ground-truth.ts` labels the work units of a
snapshot with what their maintainers did within a horizon: the last action of each unit, and the
first reversal that came after it.

* `benchmarkHorizonEnd` and `withinHorizon` are the window, both ends of which belong to it.
* `deriveBenchmarkGroundTruth` settles the events into a map by unit, and looks for a reversal of
  each.
* `lookup_settle` and `foldl_earlier` read the two loops as a first maximum and a first minimum of a
  list.
* **`ground_truth_stable`**: every unit has the label that its events and reversals in the window
  give it, whatever else there is and in whatever order it comes.

Dates are read by the host; `Clock` says that it reads back the text of a date.
-/

namespace LoopOver.Benchmark

open List

/-! ## The window -/

/-- The dates of the host. -/
structure Clock where
  /-- `Date.parse`; `none` is its `NaN`. -/
  parse : String → Option ℤ
  isoText : ℤ → String
  parse_isoText : ∀ ms, InDateRange ms → parse (isoText ms) = some ms

def msPerDay : ℚ := 24 * 60 * 60 * 1000

/-- What a maintainer did with the work unit. -/
inductive BenchmarkActionKind
  | merge | close | requestChanges | label | hold
  deriving DecidableEq

/-- Why a maintainer closed it. -/
inductive BenchmarkCloseReasonClass
  | defective | duplicate | spam | stale | outOfScope
  deriving DecidableEq

/-- How the action was undone. -/
inductive RealizedReversalKind
  | reopened | reverted | superseded
  deriving DecidableEq

/-- An action as it happened. -/
structure RealizedMaintainerEvent where
  workUnitId : String
  action : BenchmarkActionKind
  occurredAt : String
  reasonClass : Option BenchmarkCloseReasonClass
  labels : Option (List String)
  deriving DecidableEq

/-- Its undoing, as it happened. -/
structure RealizedReversalEvent where
  workUnitId : String
  kind : RealizedReversalKind
  occurredAt : String
  deriving DecidableEq

structure Reversal where
  kind : RealizedReversalKind
  occurredAt : String
  deriving DecidableEq

/-- What is known of one work unit. -/
inductive BenchmarkGroundTruth
  | unresolved (workUnitId : String)
  | settled (workUnitId : String) (action : BenchmarkActionKind)
      (reasonClass : Option BenchmarkCloseReasonClass)
      (labels : Option (List String)) (settledAt : String) (reversal : Option Reversal)
  deriving DecidableEq

def BenchmarkGroundTruth.isUnresolved : BenchmarkGroundTruth → Bool
  | unresolved _ => true
  | settled .. => false

/-- How many work units are settled. -/
structure TruthCoverage where
  workUnits : ℕ
  scoreable : ℕ
  unresolved : ℕ
  unresolvedRate : Option ℚ
  deriving DecidableEq

structure BenchmarkGroundTruthSet where
  snapshotRef : String
  horizonDays : JsNumber
  frozenAt : String
  horizonEnd : String
  truths : List BenchmarkGroundTruth
  coverage : TruthCoverage
  deriving DecidableEq

structure GroundTruthInput where
  snapshotRef : String
  frozenAt : String
  horizonDays : JsNumber
  workUnitIds : List String
  events : List RealizedMaintainerEvent
  reversals : List RealizedReversalEvent

section Derive

variable (clock : Clock)

/-- The inclusive end of the window, or the text of the error that is thrown. -/
def benchmarkHorizonEnd (frozenAt : String) (horizonDays : JsNumber) : Except String String :=
  match clock.parse frozenAt with
  | none => .error ("invalid_frozen_at: " ++ frozenAt)
  | some frozenAtMs =>
    match horizonDays with
    | .nan => .error "invalid_horizon_days: NaN"
    | .infinite negative =>
      .error ("invalid_horizon_days: " ++ if negative then "-Infinity" else "Infinity")
    | .finite days =>
      let time := frozenAtMs + days * msPerDay
      if |time| ≤ 8640000000000000 then .ok (clock.isoText (JsNumber.truncate time))
        else .error "Invalid time value"

def withinHorizon (occurredAt : String) (frozenAtMs horizonEndMs : Option ℤ) : Bool :=
  match clock.parse occurredAt, frozenAtMs, horizonEndMs with
  | some ms, some frozenAtMs, some horizonEndMs => frozenAtMs ≤ ms && ms ≤ horizonEndMs
  | _, _, _ => false

/-- `Date.parse(a) < Date.parse(b)`. -/
def before (a b : String) : Bool :=
  match clock.parse a, clock.parse b with
  | some a, some b => a < b
  | _, _ => false

/-- `Date.parse(a) <= Date.parse(b)`. -/
def upTo (a b : String) : Bool :=
  match clock.parse a, clock.parse b with
  | some a, some b => a ≤ b
  | _, _ => false

variable (inside : String → Bool)

/-- A turn of the loop over the events. -/
def settle (settled : List (String × RealizedMaintainerEvent)) (event : RealizedMaintainerEvent) :
    List (String × RealizedMaintainerEvent) :=
  if inside event.occurredAt then
    match settled.lookup event.workUnitId with
    | none => Record.set event.workUnitId event settled
    | some current =>
      if before clock current.occurredAt event.occurredAt then
        Record.set event.workUnitId event settled else settled
  else settled

/-- A turn of the loop over the reversals. -/
def earlier (workUnitId settledAt : String) (best : Option RealizedReversalEvent)
    (reversal : RealizedReversalEvent) :
    Option RealizedReversalEvent :=
  if reversal.workUnitId = workUnitId ∧ inside reversal.occurredAt ∧
    ¬upTo clock reversal.occurredAt settledAt then
    match best with
    | none => some reversal
    | some current =>
      if before clock reversal.occurredAt current.occurredAt then some reversal else best
  else best

def reversalFor (reversals : List RealizedReversalEvent) (workUnitId settledAt : String) :
    Option Reversal :=
  (reversals.foldl (earlier clock inside workUnitId settledAt) none).map fun best =>
    ⟨best.kind, best.occurredAt⟩

def truthOf (settled : List (String × RealizedMaintainerEvent))
    (reversals : List RealizedReversalEvent) (workUnitId : String) : BenchmarkGroundTruth :=
  match settled.lookup workUnitId with
  | none => .unresolved workUnitId
  | some event => .settled workUnitId event.action
      (if event.action = .close then event.reasonClass else none)
      (if event.action = .label then event.labels else none)
      event.occurredAt (reversalFor clock inside reversals workUnitId event.occurredAt)

/-- The first id that stands in the roster a second time. -/
def firstDuplicate (seen : List String) : List String → Option String
  | [] => none
  | workUnitId :: rest =>
    if workUnitId ∈ seen then some workUnitId else firstDuplicate (workUnitId :: seen) rest

def deriveBenchmarkGroundTruth (input : GroundTruthInput) :
    Except String BenchmarkGroundTruthSet := do
  let horizonEnd ← benchmarkHorizonEnd clock input.frozenAt input.horizonDays
  match firstDuplicate [] input.workUnitIds with
  | some workUnitId => .error ("invalid_duplicate_work_unit_id: " ++ workUnitId)
  | none =>
    let inside := fun occurredAt => withinHorizon clock occurredAt (clock.parse input.frozenAt)
      (clock.parse horizonEnd)
    let settled := input.events.foldl (settle clock inside) []
    let truths := input.workUnitIds.map (truthOf clock inside settled input.reversals)
    let workUnits := input.workUnitIds.length
    let unresolved := truths.countP BenchmarkGroundTruth.isUnresolved
    return {
      snapshotRef := input.snapshotRef
      horizonDays := input.horizonDays
      frozenAt := input.frozenAt
      horizonEnd := horizonEnd
      truths := truths
      coverage := {
        workUnits := workUnits
        scoreable := workUnits - unresolved
        unresolved := unresolved
        unresolvedRate := if workUnits = 0 then none
          else some (JsNumber.round ((unresolved : ℚ) / workUnits * 1000) / 1000) } }

end Derive

/-! ## Labels -/

section Labels

variable (clock : Clock) (input : GroundTruthInput)

/-- The roster is frozen at a date, and the end of its window is one. -/
def ValidWindow : Prop := ∃ frozenAtMs days, clock.parse input.frozenAt = some frozenAtMs ∧
  input.horizonDays = .finite days ∧ |frozenAtMs + days * msPerDay| ≤ 8640000000000000

/-- The end of the window, in whole milliseconds. -/
def windowEnd : Option ℤ :=
  match clock.parse input.frozenAt, input.horizonDays with
  | some frozenAtMs, .finite days => some (JsNumber.truncate (frozenAtMs + days * msPerDay))
  | _, _ => none

/-- The time is in the window, the ends of which belong to it. -/
def Inside (occurredAt : String) : Prop := ∃ ms ∈ clock.parse occurredAt,
  (∃ start ∈ clock.parse input.frozenAt, start ≤ ms) ∧ ∃ last ∈ windowEnd clock input, ms ≤ last

instance (occurredAt : String) : Decidable (Inside clock input occurredAt) :=
  inferInstanceAs (Decidable (∃ _ ∈ _, _))

/-- The milliseconds of a date. -/
def instant (occurredAt : String) : ℤ := (clock.parse occurredAt).getD 0

/-- What overturned an action: the first reversal of the unit in the window that came strictly after
it. -/
inductive FirstReversal (workUnitId settledAt : String) : Option Reversal → Prop
  | kept (h : ∀ other ∈ input.reversals, other.workUnitId = workUnitId →
    Inside clock input other.occurredAt →
      instant clock other.occurredAt ≤ instant clock settledAt) : FirstReversal workUnitId
        settledAt none
  | overturned {reversal : RealizedReversalEvent} (hmem : reversal ∈ input.reversals)
      (hunit : reversal.workUnitId = workUnitId) (hinside : Inside clock input reversal.occurredAt)
      (hafter : instant clock settledAt < instant clock reversal.occurredAt)
      (hfirst : ∀ other ∈ input.reversals, other.workUnitId = workUnitId →
        Inside clock input other.occurredAt →
        instant clock settledAt < instant clock other.occurredAt →
        instant clock reversal.occurredAt ≤ instant clock other.occurredAt) :
      FirstReversal workUnitId settledAt (some ⟨reversal.kind, reversal.occurredAt⟩)

/-- **The label of a unit**: unresolved where nothing happened to it in the window, else its latest
action there. -/
inductive Labelled (workUnitId : String) : BenchmarkGroundTruth → Prop
  | unresolved (h : ∀ event ∈ input.events, event.workUnitId = workUnitId →
      ¬Inside clock input event.occurredAt) :
      Labelled workUnitId (.unresolved workUnitId)
  | settled {event : RealizedMaintainerEvent} {reversal : Option Reversal}
      (hmem : event ∈ input.events)
      (hunit : event.workUnitId = workUnitId) (hinside : Inside clock input event.occurredAt)
      (hlatest : ∀ other ∈ input.events, other.workUnitId = workUnitId →
        Inside clock input other.occurredAt →
        instant clock other.occurredAt ≤ instant clock event.occurredAt)
      (hreversal : FirstReversal clock input workUnitId event.occurredAt reversal) :
      Labelled workUnitId (.settled workUnitId event.action
        (if event.action = .close then event.reasonClass else none)
        (if event.action = .label then event.labels else none) event.occurredAt reversal)

/-- Entries of one unit that are dated at different times. -/
def DistinctTimes {α : Type} (unit occurredAt : α → String) (entries : List α) : Prop :=
  entries.Pairwise fun a b => unit a = unit b → ∀ ms, clock.parse (occurredAt a) = some ms →
    clock.parse (occurredAt b) ≠ some ms

/-- The same input with other events and reversals. -/
def GroundTruthInput.withHistory (events : List RealizedMaintainerEvent)
    (reversals : List RealizedReversalEvent) :
    GroundTruthInput :=
  { input with events := events, reversals := reversals }

/-- The entry is dated in the window and about a unit of the roster. -/
def Counts (workUnitId occurredAt : String) : Prop :=
  Inside clock input occurredAt ∧ workUnitId ∈ input.workUnitIds

instance (workUnitId occurredAt : String) : Decidable (Counts clock input workUnitId occurredAt) :=
  inferInstanceAs (Decidable (_ ∧ _))

/-- **What the labels of a snapshot have to be.** -/
structure StableTruth (truths : BenchmarkGroundTruthSet) : Prop where
  labels : List.Forall₂ (Labelled clock input) input.workUnitIds truths.truths
  /-- Entries outside the window, without a date or about other units make no difference. -/
  padded : ∀ events reversals,
    events.filter (fun event => Counts clock input event.workUnitId event.occurredAt) =
      input.events.filter (fun event => Counts clock input event.workUnitId event.occurredAt) →
    reversals.filter (fun reversal => Counts clock input reversal.workUnitId reversal.occurredAt) =
      input.reversals.filter (fun reversal =>
        Counts clock input reversal.workUnitId reversal.occurredAt) →
    deriveBenchmarkGroundTruth clock (input.withHistory events reversals) = .ok truths
  reordered : ∀ events reversals, events.Perm input.events → reversals.Perm input.reversals →
    DistinctTimes clock (·.workUnitId) (·.occurredAt) input.events →
    DistinctTimes clock (·.workUnitId) (·.occurredAt) input.reversals →
    deriveBenchmarkGroundTruth clock (input.withHistory events reversals) = .ok truths
  counted : truths.coverage.scoreable + truths.coverage.unresolved = input.workUnitIds.length
  unresolved : truths.coverage.unresolved = truths.truths.countP BenchmarkGroundTruth.isUnresolved

end Labels

/-! ## Extremes of lists -/

section Extremes

variable {α β : Type} [LinearOrder β] {f : α → β} {l l' : List α}

/-- A list whose entries have different values has its maximum wherever that stands. -/
theorem argmax_perm (h : l.Perm l') (hinj : ∀ a ∈ l, ∀ b ∈ l, f a = f b → a = b) :
    l.argmax f = l'.argmax f := by
  cases hmax : l.argmax f with
  | none =>
    obtain rfl := argmax_eq_none.1 hmax
    exact (argmax_eq_none.2 h.nil_eq.symm).symm
  | some m =>
    cases hmax' : l'.argmax f with
    | none =>
      obtain rfl := argmax_eq_none.1 hmax'
      rw [h.eq_nil] at hmax
      cases hmax
    | some m' =>
      have hm := argmax_mem hmax
      have hm' := h.mem_iff.2 (argmax_mem hmax')
      rw [hinj m hm m' hm' (le_antisymm (le_of_mem_argmax (h.mem_iff.1 hm) hmax')
        (le_of_mem_argmax hm' hmax))]

theorem argmin_perm (h : l.Perm l') (hinj : ∀ a ∈ l, ∀ b ∈ l, f a = f b → a = b) :
    l.argmin f = l'.argmin f :=
  argmax_perm (β := βᵒᵈ) h hinj

end Extremes

/-! ## The two loops -/

/-- The order of the instants, one that computes. -/
local instance instantOrder : Preorder ℤ := Int.instLinearOrder.toPreorder

section Loops

variable {clock : Clock} {inside : String → Bool}
  (hinside : ∀ occurredAt, inside occurredAt → (clock.parse occurredAt).isSome)

include hinside

theorem before_of_inside {a b : String} (ha : inside a) (hb : inside b) :
    before clock a b = decide (instant clock a < instant clock b) := by
  obtain ⟨s, hs⟩ := Option.isSome_iff_exists.1 (hinside a ha)
  obtain ⟨t, ht⟩ := Option.isSome_iff_exists.1 (hinside b hb)
  simp [before, instant, hs, ht]

theorem upTo_of_inside {a b : String} (ha : inside a) (hb : inside b) :
    upTo clock a b = decide (instant clock a ≤ instant clock b) := by
  obtain ⟨s, hs⟩ := Option.isSome_iff_exists.1 (hinside a ha)
  obtain ⟨t, ht⟩ := Option.isSome_iff_exists.1 (hinside b hb)
  simp [upTo, instant, hs, ht]

/-- **The map of settled events** has the first of the latest events of each unit. -/
theorem lookup_settle (events : List RealizedMaintainerEvent) (workUnitId : String) :
    (events.foldl (settle clock inside) []).lookup workUnitId =
      (events.filter fun event => inside event.occurredAt ∧ event.workUnitId = workUnitId).argmax
        fun event => instant clock event.occurredAt := by
  induction events using List.reverseRecOn generalizing workUnitId with
  | nil => rfl
  | append_singleton events event ih =>
    rw [foldl_append, foldl_cons, foldl_nil, filter_append, settle]
    by_cases hevent : inside event.occurredAt
    · rw [if_pos hevent, ih]
      by_cases hunit : event.workUnitId = workUnitId
      · subst hunit
        have hsingle : [event].filter (fun e => inside e.occurredAt ∧
            e.workUnitId = event.workUnitId) = [event] := by
          simp [hevent]
        rw [hsingle, argmax_concat]
        cases hmax : (events.filter fun e => inside e.occurredAt ∧
            e.workUnitId = event.workUnitId).argmax
            fun e => instant clock e.occurredAt with
        | none => simp [Record.lookup_set]
        | some current =>
          have hcurrent := (mem_filter.1 (argmax_mem hmax)).2
          simp only [decide_eq_true_eq] at hcurrent
          simp only [before_of_inside hinside hcurrent.1 hevent, decide_eq_true_eq]
          split
          · simp [Record.lookup_set]
          · rw [ih, hmax]
      · have hnone : [event].filter (fun e => inside e.occurredAt ∧
            e.workUnitId = workUnitId) = [] := by
          simp [hunit]
        rw [hnone, append_nil, ← ih workUnitId]
        split
        · rw [Record.lookup_set, if_neg (Ne.symm hunit)]
        · split
          · rw [Record.lookup_set, if_neg (Ne.symm hunit)]
          · rfl
    · have hnone : [event].filter (fun e => inside e.occurredAt ∧
          e.workUnitId = workUnitId) = [] := by
        simp [hevent]
      rw [if_neg hevent, hnone, append_nil, ih]

/-- The loop over the reversals finds the first of the earliest that overturn an action. -/
theorem foldl_earlier {settledAt : String} (hsettled : inside settledAt)
    (reversals : List RealizedReversalEvent) (workUnitId : String) :
    reversals.foldl (earlier clock inside workUnitId settledAt) none =
      (reversals.filter fun reversal => reversal.workUnitId = workUnitId ∧
        inside reversal.occurredAt ∧
        instant clock settledAt < instant clock reversal.occurredAt).argmin
          fun reversal => instant clock reversal.occurredAt := by
  induction reversals using List.reverseRecOn with
  | nil => rfl
  | append_singleton reversals reversal ih =>
    rw [foldl_append, foldl_cons, foldl_nil, filter_append, ih, earlier.eq_def]
    by_cases hcounts : reversal.workUnitId = workUnitId ∧ inside reversal.occurredAt ∧
        instant clock settledAt < instant clock reversal.occurredAt
    · obtain ⟨hunit, hreversal, hafter⟩ := hcounts
      have hupTo : ¬upTo clock reversal.occurredAt settledAt := by
        rw [upTo_of_inside hinside hreversal hsettled, decide_eq_true_eq, not_le]
        exact hafter
      have hsingle : [reversal].filter (fun r => r.workUnitId = workUnitId ∧ inside r.occurredAt ∧
          instant clock settledAt < instant clock r.occurredAt) = [reversal] := by
        simp [hunit, hreversal, hafter]
      rw [if_pos ⟨hunit, hreversal, hupTo⟩, hsingle, argmin_concat]
      cases hmin : (reversals.filter fun r => r.workUnitId = workUnitId ∧ inside r.occurredAt ∧
          instant clock settledAt < instant clock r.occurredAt).argmin fun r =>
            instant clock r.occurredAt with
      | none => rfl
      | some current =>
        have hcurrent := (mem_filter.1 (argmin_mem hmin)).2
        simp only [decide_eq_true_eq] at hcurrent
        simp only [before_of_inside hinside hreversal hcurrent.2.1, decide_eq_true_eq]
    · have hnone : [reversal].filter (fun r => r.workUnitId = workUnitId ∧ inside r.occurredAt ∧
          instant clock settledAt < instant clock r.occurredAt) = [] := by
        simpa using hcounts
      rw [hnone, append_nil, if_neg]
      rintro ⟨hunit, hreversal, hupTo⟩
      rw [upTo_of_inside hinside hreversal hsettled, decide_eq_true_eq, not_le] at hupTo
      exact hcounts ⟨hunit, hreversal, hupTo⟩

end Loops

/-! ## The set -/

section Set

variable {clock : Clock} {input : GroundTruthInput}

theorem firstDuplicate_eq_none {seen ids : List String} :
    firstDuplicate seen ids = none ↔ ids.Nodup ∧ ∀ workUnitId ∈ ids, workUnitId ∉ seen := by
  induction ids generalizing seen with
  | nil => simp [firstDuplicate]
  | cons first rest ih =>
    rw [firstDuplicate, nodup_cons, forall_mem_cons]
    by_cases hseen : first ∈ seen
    · simp [hseen]
    · rw [if_neg hseen, ih]
      constructor
      · rintro ⟨hnodup, hrest⟩
        refine ⟨⟨fun hmem => hrest first hmem mem_cons_self, hnodup⟩, hseen,
          fun other hother hin => ?_⟩
        exact hrest other hother (mem_cons_of_mem _ hin)
      · rintro ⟨⟨hfirst, hnodup⟩, -, hrest⟩
        refine ⟨hnodup, fun other hother hin => ?_⟩
        rcases mem_cons.1 hin with rfl | hin
        · exact hfirst hother
        · exact hrest other hother hin

theorem truncate_inDateRange {time : ℚ} (h : |time| ≤ 8640000000000000) :
    InDateRange (JsNumber.truncate time) := by
  obtain ⟨hlow, hhigh⟩ := abs_le.1 h
  have hcast : ((8640000000000000 : ℤ) : ℚ) = 8640000000000000 := by norm_num
  have hcast' : ((-8640000000000000 : ℤ) : ℚ) = -8640000000000000 := by norm_num
  unfold JsNumber.truncate
  split_ifs with hsign
  · have hfloor : ⌊time⌋ ≤ 8640000000000000 := by
      have := (Int.floor_le time).trans hhigh
      rw [← hcast] at this
      exact_mod_cast this
    have hnonneg := Int.floor_nonneg.2 hsign
    constructor <;> omega
  · have hceil : -8640000000000000 ≤ ⌈time⌉ := by
      have := hlow.trans (Int.le_ceil time)
      rw [← hcast'] at this
      exact_mod_cast this
    have hnonpos : ⌈time⌉ ≤ 0 := Int.ceil_le.2 (by push_cast; exact (not_le.1 hsign).le)
    constructor <;> omega

/-- The end of a valid window is written and read back. -/
theorem exists_horizonEnd (h : ValidWindow clock input) :
    ∃ horizonEnd, benchmarkHorizonEnd clock input.frozenAt input.horizonDays = .ok horizonEnd ∧
      clock.parse horizonEnd = windowEnd clock input := by
  obtain ⟨frozenAtMs, days, hfrozen, hdays, hrange⟩ := h
  refine ⟨clock.isoText (JsNumber.truncate (frozenAtMs + days * msPerDay)), ?_, ?_⟩
  · simp only [benchmarkHorizonEnd, hfrozen, hdays, if_pos hrange]
  · rw [clock.parse_isoText _ (truncate_inDateRange hrange), windowEnd, hfrozen, hdays]

/-- `Inside`, as the code decides it. -/
def isInside (clock : Clock) (input : GroundTruthInput) (occurredAt : String) : Bool :=
  Inside clock input occurredAt

theorem isInside_iff {occurredAt : String} :
    isInside clock input occurredAt = true ↔ Inside clock input occurredAt :=
  decide_eq_true_iff

theorem withinHorizon_eq (occurredAt : String) :
    withinHorizon clock occurredAt (clock.parse input.frozenAt) (windowEnd clock input) =
      isInside clock input occurredAt := by
  rw [Bool.eq_iff_iff, isInside_iff]
  unfold withinHorizon Inside
  cases clock.parse occurredAt with
  | none => simp
  | some ms =>
    cases clock.parse input.frozenAt with
    | none => simp
    | some start => cases windowEnd clock input <;> simp

/-- The label that the code gives a unit. -/
def labelOf (clock : Clock) (input : GroundTruthInput) (workUnitId : String) :
    BenchmarkGroundTruth :=
  truthOf clock (isInside clock input) (input.events.foldl (settle clock (isInside clock input)) [])
    input.reversals
    workUnitId

/-- **What is derived** of a valid input, in terms of the labels of its units. -/
theorem derive_eq (hroster : input.workUnitIds.Nodup) (hwindow : ValidWindow clock input) :
    ∃ horizonEnd, benchmarkHorizonEnd clock input.frozenAt input.horizonDays = .ok horizonEnd ∧
      deriveBenchmarkGroundTruth clock input = .ok {
        snapshotRef := input.snapshotRef
        horizonDays := input.horizonDays
        frozenAt := input.frozenAt
        horizonEnd := horizonEnd
        truths := input.workUnitIds.map (labelOf clock input)
        coverage := {
          workUnits := input.workUnitIds.length
          scoreable := input.workUnitIds.length -
            (input.workUnitIds.map (labelOf clock input)).countP BenchmarkGroundTruth.isUnresolved
          unresolved := (input.workUnitIds.map (labelOf clock input)).countP
            BenchmarkGroundTruth.isUnresolved
          unresolvedRate := if input.workUnitIds.length = 0 then none
            else some (JsNumber.round (((input.workUnitIds.map (labelOf clock input)).countP
              BenchmarkGroundTruth.isUnresolved : ℚ) / input.workUnitIds.length * 1000) / 1000) }
                } := by
  obtain ⟨horizonEnd, hend, hparse⟩ := exists_horizonEnd hwindow
  refine ⟨horizonEnd, hend, ?_⟩
  have hduplicate : firstDuplicate [] input.workUnitIds = none :=
    firstDuplicate_eq_none.2 ⟨hroster, fun _ _ => not_mem_nil⟩
  have hinside : (fun occurredAt => withinHorizon clock occurredAt (clock.parse input.frozenAt)
      (clock.parse horizonEnd)) =
      isInside clock input := by
    ext occurredAt
    rw [hparse, withinHorizon_eq]
  unfold deriveBenchmarkGroundTruth
  rw [hend]
  show (match firstDuplicate [] input.workUnitIds with | some _ => _ | none => _) = _
  simp only [hduplicate, hinside]
  rfl

theorem isSome_of_isInside (occurredAt : String) (h : isInside clock input occurredAt) :
    (clock.parse occurredAt).isSome := by
  obtain ⟨ms, hms, -⟩ := isInside_iff.1 h
  rw [Option.mem_def.1 hms]
  rfl

/-- The latest event of a unit in the window. -/
def latestEvent (clock : Clock) (input : GroundTruthInput) (workUnitId : String) :
    Option RealizedMaintainerEvent :=
  (input.events.filter fun event => isInside clock input event.occurredAt ∧
    event.workUnitId = workUnitId).argmax
    fun event => instant clock event.occurredAt

/-- The first reversal of a unit in the window after a time. -/
def firstReversal (clock : Clock) (input : GroundTruthInput) (workUnitId settledAt : String) :
    Option RealizedReversalEvent :=
  (input.reversals.filter fun reversal => reversal.workUnitId = workUnitId ∧
    isInside clock input reversal.occurredAt ∧
    instant clock settledAt < instant clock reversal.occurredAt).argmin fun reversal =>
      instant clock reversal.occurredAt

theorem labelOf_eq (workUnitId : String) : labelOf clock input workUnitId =
    match latestEvent clock input workUnitId with
    | none => .unresolved workUnitId
    | some event => .settled workUnitId event.action
        (if event.action = .close then event.reasonClass else none)
        (if event.action = .label then event.labels else none) event.occurredAt
        ((firstReversal clock input workUnitId event.occurredAt).map fun best =>
          ⟨best.kind, best.occurredAt⟩) := by
  rw [labelOf, truthOf, lookup_settle isSome_of_isInside]
  cases hlatest : latestEvent clock input workUnitId with
  | none =>
    rw [latestEvent] at hlatest
    rw [hlatest]
  | some event =>
    have hinside : isInside clock input event.occurredAt :=
      (of_decide_eq_true (mem_filter.1 (argmax_mem hlatest)).2).1
    rw [latestEvent] at hlatest
    rw [hlatest]
    simp only [reversalFor, foldl_earlier isSome_of_isInside hinside, firstReversal]

theorem firstReversal_spec (workUnitId settledAt : String) :
    FirstReversal clock input workUnitId settledAt
    ((firstReversal clock input workUnitId settledAt).map fun best =>
      ⟨best.kind, best.occurredAt⟩) := by
  have hfound {other : RealizedReversalEvent} (hother : other ∈ input.reversals)
      (hunit : other.workUnitId = workUnitId)
      (hinside : Inside clock input other.occurredAt)
        (hafter : instant clock settledAt < instant clock other.occurredAt) :
      other ∈ input.reversals.filter fun reversal => reversal.workUnitId = workUnitId ∧
        isInside clock input reversal.occurredAt ∧
          instant clock settledAt < instant clock reversal.occurredAt :=
    mem_filter.2 ⟨hother, decide_eq_true ⟨hunit, isInside_iff.2 hinside, hafter⟩⟩
  cases hfirst : firstReversal clock input workUnitId settledAt with
  | none =>
    refine .kept fun other hother hunit hinside => not_lt.1 fun hafter => ?_
    have hmem := hfound hother hunit hinside hafter
    rw [argmin_eq_none.1 hfirst] at hmem
    exact not_mem_nil hmem
  | some reversal =>
    rw [firstReversal] at hfirst
    obtain ⟨hmem, hcounts⟩ := mem_filter.1 (argmin_mem hfirst)
    obtain ⟨hunit, hinside, hafter⟩ := of_decide_eq_true hcounts
    refine .overturned hmem hunit (isInside_iff.1 hinside) hafter
      fun other hother hunit' hinside' hafter' => ?_
    exact le_of_mem_argmin (f := fun reversal => instant clock reversal.occurredAt)
      (hfound hother hunit' hinside' hafter') hfirst

theorem labelled_labelOf (workUnitId : String) :
    Labelled clock input workUnitId (labelOf clock input workUnitId) := by
  have hfound {other : RealizedMaintainerEvent} (hother : other ∈ input.events)
      (hunit : other.workUnitId = workUnitId)
      (hinside : Inside clock input other.occurredAt) : other ∈ input.events.filter fun event =>
        isInside clock input event.occurredAt ∧ event.workUnitId = workUnitId :=
    mem_filter.2 ⟨hother, decide_eq_true ⟨isInside_iff.2 hinside, hunit⟩⟩
  rw [labelOf_eq]
  cases hlatest : latestEvent clock input workUnitId with
  | none =>
    refine .unresolved fun event hevent hunit hinside => ?_
    have hmem := hfound hevent hunit hinside
    rw [argmax_eq_none.1 hlatest] at hmem
    exact not_mem_nil hmem
  | some event =>
    rw [latestEvent] at hlatest
    obtain ⟨hmem, hcounts⟩ := mem_filter.1 (argmax_mem hlatest)
    obtain ⟨hinside, hunit⟩ := of_decide_eq_true hcounts
    refine .settled hmem hunit (isInside_iff.1 hinside) (fun other hother hunit' hinside' => ?_)
      (firstReversal_spec _ _)
    exact le_of_mem_argmax (f := fun event => instant clock event.occurredAt)
      (hfound hother hunit' hinside') hlatest

/-- Where the events of every unit and its reversals come to the same, so does what is derived. -/
theorem derive_congr (hroster : input.workUnitIds.Nodup) (hwindow : ValidWindow clock input)
    {events : List RealizedMaintainerEvent} {reversals : List RealizedReversalEvent}
    (hlatest : ∀ workUnitId ∈ input.workUnitIds,
      latestEvent clock (input.withHistory events reversals) workUnitId =
        latestEvent clock input workUnitId)
    (hfirst : ∀ workUnitId ∈ input.workUnitIds, ∀ settledAt,
      firstReversal clock (input.withHistory events reversals) workUnitId settledAt =
        firstReversal clock input workUnitId settledAt) :
    deriveBenchmarkGroundTruth clock (input.withHistory events reversals) =
      deriveBenchmarkGroundTruth clock input := by
  obtain ⟨horizonEnd, hend, hderive⟩ := derive_eq hroster hwindow
  obtain ⟨horizonEnd', hend', hderive'⟩ :=
    derive_eq (show (input.withHistory events reversals).workUnitIds.Nodup from hroster) hwindow
  obtain rfl : horizonEnd' = horizonEnd := Except.ok.inj (hend'.symm.trans hend)
  have hlabels : (input.withHistory events reversals).workUnitIds.map
      (labelOf clock (input.withHistory events reversals)) =
      input.workUnitIds.map (labelOf clock input) := by
    refine map_congr_left fun workUnitId hunit => ?_
    rw [labelOf_eq, labelOf_eq, hlatest workUnitId hunit]
    cases latestEvent clock input workUnitId with
    | none => rfl
    | some event => simp only [hfirst workUnitId hunit]
  rw [hderive, hderive', hlabels]
  rfl

/-- Filtering by a unit of the roster reads only what counts. -/
theorem filter_counts {α : Type} {unit occurredAt : α → String} {q : α → Bool}
    {entries entries' : List α}
    (h : entries.filter (fun a => Counts clock input (unit a) (occurredAt a)) =
      entries'.filter fun a => Counts clock input (unit a) (occurredAt a))
    (hq : ∀ a, q a → Counts clock input (unit a) (occurredAt a)) :
    entries.filter q = entries'.filter q := by
  have hfilter (l : List α) : l.filter q =
      (l.filter fun a => Counts clock input (unit a) (occurredAt a)).filter q := by
    rw [filter_filter]
    refine filter_congr fun a _ => ?_
    rw [Bool.eq_iff_iff, Bool.and_eq_true, decide_eq_true_eq]
    exact ⟨fun ha => ⟨ha, hq a ha⟩, And.left⟩
  rw [hfilter, h, ← hfilter]

/-- Entries of one unit in the window are told apart by their times. -/
theorem DistinctTimes.injOn {α : Type} {unit occurredAt : α → String} {entries : List α}
    (h : DistinctTimes clock unit occurredAt entries) {q : α → Bool} (workUnitId : String)
    (hq : ∀ a, q a → unit a = workUnitId ∧ (clock.parse (occurredAt a)).isSome) :
    ∀ a ∈ entries.filter q, ∀ b ∈ entries.filter q,
      instant clock (occurredAt a) = instant clock (occurredAt b) → a = b := by
  have hpairwise : (entries.filter q).Pairwise fun a b =>
      instant clock (occurredAt a) ≠ instant clock (occurredAt b) := by
    refine (h.filter q).imp_of_mem fun {a b} ha hb hdistinct heq => ?_
    obtain ⟨hunit, hsome⟩ := hq a (mem_filter.1 ha).2
    obtain ⟨hunit', hsome'⟩ := hq b (mem_filter.1 hb).2
    obtain ⟨s, hs⟩ := Option.isSome_iff_exists.1 hsome
    obtain ⟨t, ht⟩ := Option.isSome_iff_exists.1 hsome'
    have hst : s = t := by simpa [instant, hs, ht] using heq
    exact hdistinct (hunit.trans hunit'.symm) s hs (hst ▸ ht)
  intro a ha b hb heq
  by_contra hne
  have : Std.Symm fun a b => instant clock (occurredAt a) ≠ instant clock (occurredAt b) :=
    ⟨fun _ _ => Ne.symm⟩
  exact hpairwise.forall ha hb hne heq

/-- **The labels of a snapshot are stable**, for every roster without repetitions, every window and
every history. -/
theorem ground_truth_stable (clock : Clock) (input : GroundTruthInput)
    (hroster : input.workUnitIds.Nodup) (hwindow : ValidWindow clock input) :
    ∃ truths, deriveBenchmarkGroundTruth clock input = .ok truths ∧
      StableTruth clock input truths := by
  obtain ⟨horizonEnd, hend, hderive⟩ := derive_eq hroster hwindow
  refine ⟨_, hderive, ?_, fun events reversals hevents hreversals => ?_,
    fun events reversals hevents hreversals htimes htimes' => ?_, ?_, rfl⟩
  · rw [forall₂_map_right_iff, forall₂_same]
    exact fun workUnitId _ => labelled_labelOf workUnitId
  · rw [← hderive]
    refine derive_congr hroster hwindow (fun workUnitId hunit => ?_)
      fun workUnitId hunit settledAt => ?_
    · refine congrArg _ (filter_counts hevents fun event hevent => ?_)
      obtain ⟨hinside, rfl⟩ := of_decide_eq_true hevent
      exact ⟨isInside_iff.1 hinside, hunit⟩
    · refine congrArg _ (filter_counts hreversals fun reversal hreversal => ?_)
      obtain ⟨rfl, hinside, -⟩ := of_decide_eq_true hreversal
      exact ⟨isInside_iff.1 hinside, hunit⟩
  · rw [← hderive]
    refine derive_congr hroster hwindow (fun workUnitId hunit => ?_)
      fun workUnitId hunit settledAt => ?_
    · refine (argmax_perm (hevents.symm.filter _)
        (htimes.injOn workUnitId fun event hevent => ?_)).symm
      obtain ⟨hinside, hunit⟩ := of_decide_eq_true hevent
      exact ⟨hunit, isSome_of_isInside _ hinside⟩
    · refine (argmin_perm (hreversals.symm.filter _)
        (htimes'.injOn workUnitId fun reversal hreversal => ?_)).symm
      obtain ⟨hunit, hinside, -⟩ := of_decide_eq_true hreversal
      exact ⟨hunit, isSome_of_isInside _ hinside⟩
  · have hle := countP_le_length (p := BenchmarkGroundTruth.isUnresolved)
      (l := input.workUnitIds.map (labelOf clock input))
    rw [length_map] at hle
    exact Nat.sub_add_cancel hle

end Set

/-! ## A snapshot -/

/-- The dates of two days, and other times as strokes. -/
def sampleClock : Clock where
  parse text :=
    if text = "1970-01-01T00:00:00.000Z" then some 0
    else if text = "1970-01-01T12:00:00.000Z" then some 43200000
    else if text = "1970-01-02T00:00:00.000Z" then some 86400000
    else match text.toList with
      | '+' :: strokes => some strokes.length
      | '-' :: strokes => some (-strokes.length)
      | _ => none
  isoText ms :=
    if ms = 0 then "1970-01-01T00:00:00.000Z"
    else if ms = 43200000 then "1970-01-01T12:00:00.000Z"
    else if ms = 86400000 then "1970-01-02T00:00:00.000Z"
    else String.ofList ((if 0 ≤ ms then '+' else '-') :: List.replicate ms.natAbs '|')
  parse_isoText ms _ := by
    have hdate (sign : Char) (strokes : List Char) (rest : String) (hsign : sign ≠ '1') :
        String.ofList (sign :: strokes) ≠ "1" ++ rest := by
      intro h
      have hlist := congrArg String.toList h
      rw [String.toList_ofList, String.toList_append] at hlist
      exact hsign (List.cons.inj hlist).1
    have hstrokes (sign : Char) (strokes : List Char) (hsign : sign ≠ '1') :
        String.ofList (sign :: strokes) ≠ "1970-01-01T00:00:00.000Z" ∧
          String.ofList (sign :: strokes) ≠ "1970-01-01T12:00:00.000Z" ∧
          String.ofList (sign :: strokes) ≠ "1970-01-02T00:00:00.000Z" :=
      ⟨hdate sign strokes "970-01-01T00:00:00.000Z" hsign,
        hdate sign strokes "970-01-01T12:00:00.000Z" hsign,
        hdate sign strokes "970-01-02T00:00:00.000Z" hsign⟩
    by_cases hzero : ms = 0
    · subst hzero
      rfl
    by_cases hnoon : ms = 43200000
    · subst hnoon
      rfl
    by_cases hday : ms = 86400000
    · subst hday
      rfl
    rw [if_neg hzero, if_neg hnoon, if_neg hday]
    by_cases hsign : 0 ≤ ms
    · obtain ⟨hfirst, hsecond, hthird⟩ := hstrokes '+' (List.replicate ms.natAbs '|') (by decide)
      rw [if_pos hsign, if_neg hfirst, if_neg hsecond, if_neg hthird, String.toList_ofList]
      simp only [length_replicate, Int.natCast_natAbs, abs_of_nonneg hsign]
    · obtain ⟨hfirst, hsecond, hthird⟩ := hstrokes '-' (List.replicate ms.natAbs '|') (by decide)
      rw [if_neg hsign, if_neg hfirst, if_neg hsecond, if_neg hthird, String.toList_ofList]
      simp only [length_replicate, Int.natCast_natAbs, abs_of_neg (not_le.1 hsign), neg_neg]

/-- One unit is merged at noon and reverted at the end of the day, and nothing happens to the
other. -/
def sampleInput : GroundTruthInput where
  snapshotRef := "0f"
  frozenAt := "1970-01-01T00:00:00.000Z"
  horizonDays := .finite 1
  workUnitIds := ["octo/repo#1", "octo/repo#2"]
  events := [⟨"octo/repo#1", .merge, "1970-01-01T12:00:00.000Z", none, none⟩]
  reversals := [⟨"octo/repo#1", .reverted, "1970-01-02T00:00:00.000Z"⟩]

theorem ground_truth_stable_merged : ∃ truths,
    deriveBenchmarkGroundTruth sampleClock sampleInput = .ok truths ∧
      StableTruth sampleClock sampleInput truths :=
  ground_truth_stable sampleClock sampleInput (by decide) ⟨0, 1, rfl, rfl, by norm_num [msPerDay]⟩

end LoopOver.Benchmark
