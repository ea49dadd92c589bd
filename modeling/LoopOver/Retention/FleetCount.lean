import LoopOver.Retention.Ingest
import Mathlib.Algebra.BigOperators.Finprod

/-!
# How often a signal is counted

The rollups of an instance and its live signals count every pull request that it sent once, and once
more each time that it was sent again after its row had been folded: the live table tells signals
apart, and the rollups do not.

* `rolledUp` and `liveSignals` are the two parts of the count, `sentBy` and `resentBy` what it comes
  from.
* `Counted` is the invariant; `Counted.storeSignal` and `Counted.prune` are its steps.
* `fleet_counts` has it of every run, and `reexport_counts_twice` is a run that counts a pull
  request twice.
-/

namespace LoopOver

open Rollup
open Queue (JsonValue Payload)
open List
open FleetDb

/-! ## Sums over cells -/

/-- The sum over the cells of an instance. -/
noncomputable def cellSum (instanceId : String) (count : SignalCell → ℕ) : ℕ :=
  ∑ᶠ cell : SignalCell, if cell.instanceId = instanceId then count cell else 0

section Cells

variable {instanceId : String} {f g : SignalCell → ℕ}

theorem finite_support_ite (hf : (Function.support f).Finite) :
    (Function.support fun cell : SignalCell => if cell.instanceId = instanceId then f cell
      else 0).Finite := by
  apply hf.subset
  intro cell hcell hzero
  simp [hzero] at hcell

theorem cellSum_add (hf : (Function.support f).Finite) (hg : (Function.support g).Finite) :
    cellSum instanceId (fun cell => f cell + g cell) = cellSum instanceId f +
      cellSum instanceId g := by
  rw [cellSum, cellSum, cellSum,
    ← finsum_add_distrib (finite_support_ite hf) (finite_support_ite hg)]
  apply finsum_congr
  intro cell
  split_ifs <;> rfl

/-- What the rows count for. -/
def liveCells (rows : List OrbSignal) : SignalCell → ℕ :=
  live (fun signal => some signal.cell) (fun _ => 1) rows

theorem liveCells_cons (row : OrbSignal) (rows : List OrbSignal) :
    liveCells (row :: rows) = fun cell => (if cell = row.cell then 1 else 0) +
      liveCells rows cell := by
  funext cell
  have hentries : entries (fun signal : OrbSignal => some signal.cell) (fun _ => 1) (row :: rows) =
      [(row.cell, 1)] ++ entries (fun signal => some signal.cell) (fun _ => 1) rows := rfl
  rw [liveCells, live, hentries, groupSum_append]
  congr 1
  by_cases hcell : cell = row.cell
  · subst hcell
    simp [groupSum]
  · simp [groupSum, hcell, Ne.symm hcell]

theorem finite_support_single (cell : SignalCell) :
    (Function.support fun other : SignalCell => if other = cell then 1 else 0).Finite := by
  apply (Set.finite_singleton cell).subset
  intro other hother
  simpa using hother

theorem finite_support_liveCells (rows : List OrbSignal) :
    (Function.support (liveCells rows)).Finite := by
  induction rows with
  | nil =>
    have hempty : Function.support (liveCells []) = ∅ := Function.support_eq_empty_iff.2 rfl
    rw [hempty]
    exact Set.finite_empty
  | cons row rows ih =>
    rw [liveCells_cons]
    exact ((finite_support_single row.cell).union ih).subset (Function.support_add _ _)

theorem cellSum_single (cell : SignalCell) :
    cellSum instanceId (fun other => if other = cell then 1 else 0) =
      if cell.instanceId = instanceId then 1 else 0 := by
  rw [cellSum, finsum_eq_single _ cell]
  · rw [if_pos rfl]
  · intro other hother
    rw [if_neg hother, ite_self]

/-- The live signals of an instance, cell by cell. -/
theorem cellSum_liveCells (rows : List OrbSignal) :
    cellSum instanceId (liveCells rows) = rows.countP (·.instanceId == instanceId) := by
  induction rows with
  | nil =>
    rw [cellSum]
    exact (finsum_congr fun cell => ite_self 0).trans finsum_zero
  | cons row rows ih =>
    rw [liveCells_cons, cellSum_add (finite_support_single _) (finite_support_liveCells rows),
      cellSum_single, ih, countP_cons, Nat.add_comm]
    by_cases hinstance : row.instanceId = instanceId
    · simp [OrbSignal.cell, hinstance]
    · simp [OrbSignal.cell, hinstance]

end Cells

/-! ## The count of an instance -/

namespace FleetDb

variable (db : FleetDb) (instanceId : String)

/-- The sum of `n` over the rollups of the instance. -/
noncomputable def rolledUp : ℕ := cellSum instanceId (stored db.orbSignalRollups)

/-- The live signals of the instance. -/
def liveSignals : ℕ := db.signals.countP (·.instanceId == instanceId)

/-- The different pull requests of the instance whose signals were stored. -/
def sentBy : ℕ := db.sent.dedup.countP (·.instanceId == instanceId)

/-- How often a pull request of the instance was stored again after its row was gone. -/
def resentBy : ℕ := db.resent.countP (·.instanceId == instanceId)

end FleetDb

/-- What holds of the collector in every run. -/
structure Counted (db : FleetDb) : Prop where
  keys : (db.signals.map (·.key)).Nodup
  sent : ∀ row ∈ db.signals, row.key ∈ db.sent
  finite : (Function.support (stored db.orbSignalRollups)).Finite
  count : ∀ instanceId, db.rolledUp instanceId + db.liveSignals instanceId =
    db.sentBy instanceId + db.resentBy instanceId

section Steps

variable {db : FleetDb} {instanceId : String}

theorem rolledUp_add_liveSignals
    (hfinite : (Function.support (stored db.orbSignalRollups)).Finite) :
    db.rolledUp instanceId + db.liveSignals instanceId =
      cellSum instanceId db.retention.signalCount := by
  have hlive : db.liveSignals instanceId = cellSum instanceId
      (liveCells db.retention.orbSignals) := by
    rw [cellSum_liveCells, liveSignals, retention, countP_map]
    rfl
  rw [hlive, rolledUp, ← cellSum_add hfinite (finite_support_liveCells _)]
  rfl

/-! ## Storing a signal -/

variable {row : SignalRow}

/-- The row that a signal replaces counts as the signal does. -/
theorem countP_replaced {rows : List SignalRow} (hkeys : (rows.map (·.key)).Nodup)
    (hknown : rows.any (·.key == row.key) = true) :
    (rows.filter (·.key == row.key)).countP (·.instanceId == instanceId) =
      if row.instanceId == instanceId then 1 else 0 := by
  obtain ⟨old, hold, hkey⟩ := any_eq_true.1 hknown
  rw [beq_iff_eq] at hkey
  have hinstance : ∀ other ∈ rows.filter (·.key == row.key), other.instanceId = row.instanceId := by
    intro other hother
    have hsame := (mem_filter.1 hother).2
    rw [beq_iff_eq] at hsame
    exact congrArg SignalKey.instanceId hsame
  have hone : (rows.filter (·.key == row.key)).length = 1 := by
    apply le_antisymm
    · rw [← countP_eq_length_filter]
      exact Table.countP_key_le_one hkeys row.key
    · apply length_pos_of_mem
      exact mem_filter.2 ⟨hold, by simp [hkey]⟩
  by_cases hrow : row.instanceId = instanceId
  · rw [if_pos (by simp [hrow]), ← hone, countP_eq_length]
    intro other hother
    simp [hinstance other hother, hrow]
  · rw [if_neg (by simp [hrow]), countP_eq_zero]
    intro other hother
    simp [hinstance other hother, hrow]

theorem liveSignals_storeSignal (db : FleetDb) (row : SignalRow) (instanceId : String) :
    (db.storeSignal row).liveSignals instanceId + (db.signals.filter (·.key == row.key)).countP
        (·.instanceId == instanceId) =
      db.liveSignals instanceId + if row.instanceId == instanceId then 1 else 0 := by
  have hsplit :=
    countP_eq_countP_filter_add db.signals (fun other => other.instanceId == instanceId)
    (fun other => other.key == row.key)
  have hrow : [row].countP (fun other => other.instanceId == instanceId) =
      if row.instanceId == instanceId then 1 else 0 := countP_singleton
  rw [liveSignals, liveSignals, storeSignal, Table.deleteWhere, countP_append, hrow, hsplit]
  omega

theorem hasSignal_iff {key : SignalKey} :
    db.hasSignal key = true ↔ ∃ row ∈ db.signals, row.key = key := by
  simp [hasSignal]

/-- Where the row of a pull request is gone, its signal is new or sent again. -/
theorem sentBy_add_resentBy_of_gone (hgone : db.hasSignal row.key = false) :
    (db.storeSignal row).sentBy instanceId + (db.storeSignal row).resentBy instanceId =
      db.sentBy instanceId + db.resentBy instanceId + if row.instanceId == instanceId then 1
        else 0 := by
  have hkey : row.key.instanceId = row.instanceId := rfl
  by_cases hsent : row.key ∈ db.sent
  · have hsame : (row.key :: db.sent).dedup = db.sent.dedup := dedup_cons_of_mem hsent
    have hresent : (db.storeSignal row).resent = row.key :: db.resent :=
      if_pos (by simp [hsent, hgone])
    rw [sentBy, sentBy, resentBy, resentBy, hresent,
      storeSignal, hsame, countP_cons, hkey, Nat.add_assoc]
  · have hnew : (row.key :: db.sent).dedup = row.key :: db.sent.dedup := dedup_cons_of_notMem hsent
    have hresent : (db.storeSignal row).resent = db.resent := if_neg (by simp [hsent])
    rw [sentBy, sentBy, resentBy, resentBy, hresent,
      storeSignal, hnew, countP_cons, hkey, Nat.add_right_comm]

theorem sentBy_add_resentBy_of_known (hsent : row.key ∈ db.sent)
    (hknown : db.hasSignal row.key = true) :
    (db.storeSignal row).sentBy instanceId + (db.storeSignal row).resentBy instanceId =
      db.sentBy instanceId + db.resentBy instanceId := by
  have hsame : (row.key :: db.sent).dedup = db.sent.dedup := dedup_cons_of_mem hsent
  have hresent : (db.storeSignal row).resent = db.resent := if_neg (by simp [hknown])
  rw [sentBy, sentBy, resentBy, resentBy, hresent, storeSignal, hsame]

/-- **Storing a signal keeps the count**: a signal that replaces a row counts no more, one that was
not sent before is new, and any other one is sent again. -/
theorem Counted.storeSignal (h : Counted db) (row : SignalRow) : Counted (db.storeSignal row) where
  keys := by
    apply Table.nodup_keys_concat (h.keys.sublist (Table.keys_deleteWhere _))
    intro hmem
    obtain ⟨old, hold, hkey⟩ := mem_map.1 hmem
    have hkept := (Table.mem_deleteWhere.1 hold).2
    simp [hkey] at hkept
  sent := by
    intro other hother
    obtain hold | hnew := mem_append.1 hother
    · exact mem_cons_of_mem _ (h.sent other (Table.mem_deleteWhere.1 hold).1)
    · rw [mem_singleton.1 hnew]
      exact mem_cons_self
  finite := h.finite
  count := by
    intro instanceId
    have hcount := h.count instanceId
    have hlive := liveSignals_storeSignal db row instanceId
    have hrolled : (db.storeSignal row).rolledUp instanceId = db.rolledUp instanceId := rfl
    cases hknown : db.hasSignal row.key with
    | true =>
      obtain ⟨old, hold, hkey⟩ := hasSignal_iff.1 hknown
      rw [countP_replaced h.keys hknown] at hlive
      rw [sentBy_add_resentBy_of_known (hkey ▸ h.sent old hold) hknown]
      omega
    | false =>
      have hnone : db.signals.filter (·.key == row.key) = [] := by
        rw [filter_eq_nil_iff]
        exact fun other hother => any_eq_false.1 hknown other hother
      rw [hnone, countP_nil] at hlive
      rw [sentBy_add_resentBy_of_gone hknown]
      omega

theorem Counted.ingestEvents (h : Counted db) (dateParse : String → Option ℤ)
    (instanceId receivedAt : String) (events : List JsonValue) (accepted : ℕ) :
    Counted (LoopOver.ingestEvents dateParse instanceId receivedAt events accepted db).2 := by
  fun_induction LoopOver.ingestEvents dateParse instanceId receivedAt events accepted db with
  | case1 accepted db => exact h
  | case2 events accepted db => exact h
  | case3 event events accepted db hevent hnone ih => exact ih h
  | case4 event events accepted db hevent row hrow ih => exact ih (h.storeSignal row)

theorem Counted.handleOrbIngest (h : Counted db) (dateParse : String → Option ℤ)
    (receivedAt : String) (body : Payload) :
    Counted (LoopOver.handleOrbIngest dateParse receivedAt body db).2 := by
  unfold LoopOver.handleOrbIngest
  split
  · exact h
  · split
    · split_ifs
      · exact h
      · exact h.ingestEvents dateParse _ _ _ _
    · exact h

/-! ## Pruning -/

/-- **The prune keeps the count**, cell by cell. -/
theorem Counted.prune (h : Counted db) (toISOString : ℤ → String) (options : PruneOptions) :
    Counted (db.prune toISOString options) := by
  have hages := ages_prune toISOString options db
  have hpruned := (prune_retention toISOString options db).2
  have hcells : (db.prune toISOString options).retention.signalCount = db.retention.signalCount :=
    funext hpruned.signalCount_eq
  have hfinite : (Function.support
      (stored (db.prune toISOString options).orbSignalRollups)).Finite := by
    have hbefore : (Function.support db.retention.signalCount).Finite :=
      (h.finite.union (finite_support_liveCells db.retention.orbSignals)).subset
        (Function.support_add _ _)
    rw [← hcells] at hbefore
    apply hbefore.subset
    intro cell hcell hzero
    exact hcell (Nat.eq_zero_of_add_eq_zero_right hzero)
  refine ⟨h.keys.sublist (hages.signals.map _), ?_, hfinite, ?_⟩
  · intro row hrow
    rw [hages.sent]
    exact h.sent row (hages.signals.subset hrow)
  · intro instanceId
    have hsent : (db.prune toISOString options).sentBy instanceId = db.sentBy instanceId := by
      rw [sentBy, sentBy, hages.sent]
    have hresent : (db.prune toISOString options).resentBy instanceId = db.resentBy instanceId := by
      rw [resentBy, resentBy, hages.resent]
    rw [rolledUp_add_liveSignals hfinite, hcells, ← rolledUp_add_liveSignals h.finite,
      h.count instanceId, hsent, hresent]

end Steps

/-! ## Runs -/

inductive FleetAction
  | ingest (receivedAt : String) (body : Payload)
  | prune (options : PruneOptions)

section Runs

variable (toISOString : ℤ → String) (dateParse : String → Option ℤ)

def FleetDb.act (db : FleetDb) : FleetAction → FleetDb
  | .ingest receivedAt body => (handleOrbIngest dateParse receivedAt body db).2
  | .prune options => db.prune toISOString options

/-- No instance has sent a signal; the tables of other data are as they may be. -/
def fleetStart (other : RetentionDb) : FleetDb :=
  ⟨[], fun _ => none, other.orbPrOutcomes, other.orbOutcomeRollups, other.installations,
    other.logs, [], []⟩

def fleetRun (other : RetentionDb) (actions : List FleetAction) : FleetDb :=
  actions.foldl (act toISOString dateParse) (fleetStart other)

theorem counted_fleetStart (other : RetentionDb) : Counted (fleetStart other) := by
  have hstored : stored (fleetStart other).orbSignalRollups = fun _ => 0 := rfl
  refine ⟨nodup_nil, fun row hrow => absurd hrow not_mem_nil, ?_, fun instanceId => ?_⟩
  · rw [hstored, Function.support_fun_zero]
    exact Set.finite_empty
  · rw [rolledUp, hstored, cellSum]
    exact (congrArg (· + 0) ((finsum_congr fun cell => ite_self 0).trans finsum_zero)).trans rfl

theorem counted_fleetRun (other : RetentionDb) (actions : List FleetAction) :
    Counted (fleetRun toISOString dateParse other actions) := by
  rw [fleetRun]
  have hstart := counted_fleetStart other
  generalize fleetStart other = db at hstart
  induction actions generalizing db with
  | nil => exact hstart
  | cons action actions ih =>
    apply ih
    cases action with
    | ingest receivedAt body => exact hstart.handleOrbIngest dateParse receivedAt body
    | prune options => exact hstart.prune toISOString options

/-- **In every run, the rollups and the live signals of an instance count every pull request that it
sent once**, and once more each time that it was sent again after its row had been folded. -/
theorem fleet_counts (other : RetentionDb) (actions : List FleetAction) (instanceId : String) :
    (fleetRun toISOString dateParse other actions).rolledUp instanceId +
        (fleetRun toISOString dateParse other actions).liveSignals instanceId =
      (fleetRun toISOString dateParse other actions).sentBy instanceId +
        (fleetRun toISOString dateParse other actions).resentBy instanceId :=
  (counted_fleetRun toISOString dateParse other actions).count instanceId

end Runs

/-- A database without other rows. -/
def noOtherRows : RetentionDb :=
  ⟨[], fun _ => none, [], fun _ => none, fun _ => none, fun _ => ⟨[], nodup_nil⟩⟩

/-- One pull request of one instance. -/
def oneSignal (reversal : String) : Payload :=
  some (.object [("instance_id", .string "instance"),
    ("events", .array [.object [("repo_hash", .string "repo"),
    ("pr_hash", .string "pr"), ("outcome", .string "merged"),
      ("reversal_flag", .string reversal)]])])

/-- A pull request is sent, its row is folded after 90 days, and it is sent again when it was
reverted. -/
def reexport : List FleetAction :=
  [.ingest "2026-01-01 00:00:00" (oneSignal "none"),
    .prune ⟨false, 1782777600000, 1000, .finite 250000, by decide⟩,
    .ingest "2026-06-30 00:00:00" (oneSignal "reverted")]

/-- The days that the windows of the policy end on, at the end of June. -/
def juneIso (ms : ℤ) : String :=
  if ms = 1782604800000 then "2026-06-28T00:00:00.000Z"
  else if ms = 1781568000000 then "2026-06-16T00:00:00.000Z"
  else if ms = 1780185600000 then "2026-05-31T00:00:00.000Z"
  else if ms = 1779753600000 then "2026-05-26T00:00:00.000Z"
  else if ms = 1775001600000 then "2026-04-01T00:00:00.000Z"
  else "2026-01-01T00:00:00.000Z"

/-- **A pull request that is sent again after its row was folded counts twice.** -/
theorem reexport_counts_twice :
    (fleetRun juneIso (fun _ => none) noOtherRows reexport).sentBy "instance" = 1 ∧
      (fleetRun juneIso (fun _ => none) noOtherRows reexport).rolledUp "instance" +
        (fleetRun juneIso (fun _ => none) noOtherRows reexport).liveSignals "instance" = 2 := by
  have hcounts : (let db := fleetRun juneIso (fun _ => none) noOtherRows reexport
      (db.sentBy "instance", db.resentBy "instance")) = (1, 1) := by decide +kernel
  obtain ⟨hsent, hresent⟩ := Prod.mk.inj hcounts
  refine ⟨hsent, ?_⟩
  rw [(counted_fleetRun juneIso (fun _ => none) noOtherRows reexport).count "instance", hsent,
    hresent]

end LoopOver
