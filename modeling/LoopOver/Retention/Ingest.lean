import LoopOver.Contract.Digest
import LoopOver.Foundations.Table
import LoopOver.Queue.Keys
import LoopOver.Retention.Conserve
import Mathlib.Algebra.Order.BigOperators.Group.List
import Mathlib.Algebra.Order.Group.Nat

/-!
# The fleet collector

`handleOrbIngest` of `src/orb/ingest.ts` stores what the instances of the fleet send: one row of
`orb_signals` for each pull request of an instance, where a signal that is sent again replaces the
one before it. Retention folds old rows into `orb_signal_rollups`, which has counts only.

`FleetDb` is the database of the prune with what tells signals apart, and `FleetDb.retention`
forgets it again: `prune_retention` says that the prune is the one of `pruneExpiredRecords`. Of an
ingest, the health of the instance, its calibrations and its reuse counters are left out; they go
into tables of their own.
-/

namespace LoopOver

open Rollup
open Queue (JsonValue Payload)
open List

/-! ## Rows -/

/-- `UNIQUE (instance_id, repo_hash, pr_hash)`. -/
structure SignalKey where
  instanceId : String
  repoHash : String
  prHash : String
  deriving DecidableEq

/-- A row of `orb_signals`. -/
structure SignalRow extends OrbSignal where
  repoHash : String
  prHash : String
  timeToCloseMs : Option ℤ
  outcomeTimestamp : Option String
  sentAt : Option String

def SignalRow.key (row : SignalRow) : SignalKey := ⟨row.instanceId, row.repoHash, row.prHash⟩

/-- The tables of the collector. -/
structure FleetDb where
  signals : List SignalRow
  orbSignalRollups : Keyed SignalCell ℕ
  orbPrOutcomes : List OrbPrOutcome
  orbOutcomeRollups : Keyed String OutcomeTotals
  installations : ℤ → Option OrbInstallation
  logs : String → LogTable
  /-- The pull requests whose signals were stored so far; no statement reads them. -/
  sent : List SignalKey
  /-- Those of them that were stored again when they had no row any more. -/
  resent : List SignalKey

namespace FleetDb

/-- The database as the prune sees it. -/
def retention (db : FleetDb) : RetentionDb :=
  ⟨db.signals.map (·.toOrbSignal), db.orbSignalRollups, db.orbPrOutcomes, db.orbOutcomeRollups,
    db.installations,
    db.logs⟩

/-- Change what the prune of another table changes. -/
def withRetention (db : FleetDb) (retention : RetentionDb) : FleetDb :=
  { db with
    orbPrOutcomes := retention.orbPrOutcomes
    orbOutcomeRollups := retention.orbOutcomeRollups
    logs := retention.logs }

end FleetDb

/-! ## Ingest -/

section Ingest

def maxBatch : ℕ := 500

def maxInstanceIdChars : ℕ := 64

def maxHashChars : ℕ := 128

def maxBucketChars : ℕ := 64

def maxVerdictChars : ℕ := 32

def maxTimestampChars : ℕ := 64

/-- A second. -/
def minCycleMs : ℚ := 1000

/-- A year. -/
def maxCycleMs : ℚ := 31536000000

def validOutcomes : List String := ["merged", "closed"]

def validReversals : List String := ["none", "reopened", "reverted", "superseded"]

def validVerdicts : List String := ["merge", "close", "hold"]

def validReasoncodeBuckets : List String :=
  ["none", "policy_action", "issue_policy", "duplicate_risk", "slop_advisory", "ai_quality",
    "author_policy",
    "ci_readiness", "other"]

/-- A text that is not empty and not too long. -/
def hashText (value : JsonValue) : Option String :=
  value.text?.filter fun text => text != "" && decide (textLength text ≤ maxHashChars)

/-- A text of a vocabulary. -/
def knownText (maxChars : ℕ) (vocabulary : List String) (value : JsonValue) : Option String :=
  value.text?.filter fun text => decide (textLength text ≤ maxChars) && vocabulary.contains text

def clampCycleMs (value : JsonValue) : Option ℤ :=
  (value.number?.filter fun ms => decide (minCycleMs ≤ ms) &&
    decide (ms ≤ maxCycleMs)).map JsNumber.round

variable (dateParse : String → Option ℤ)

def normalizeIngestTimestamp (value : JsonValue) : Option String :=
  value.text?.filter fun text => decide (textLength text ≤ maxTimestampChars) &&
    (dateParse text).isSome

/-- The row of an event; an event without both hashes and a known outcome has none. -/
def signalRow (instanceId receivedAt : String) (event : JsonValue) : Option SignalRow := do
  let repoHash ← hashText (event.field "repo_hash")
  let prHash ← hashText (event.field "pr_hash")
  let outcome ← (event.field "outcome").text?.filter validOutcomes.contains
  pure {
    instanceId := instanceId
    gateVerdict := knownText maxVerdictChars validVerdicts (event.field "gate_verdict")
    outcome := outcome
    reversalFlag := ((event.field "reversal_flag").text?.filter validReversals.contains).getD "none"
    gateReasoncodeBucket :=
      knownText maxBucketChars validReasoncodeBuckets (event.field "gate_reasoncode_bucket")
    decisionTimestamp := normalizeIngestTimestamp dateParse (event.field "decision_timestamp")
    receivedAt := receivedAt
    repoHash := repoHash
    prHash := prHash
    timeToCloseMs := clampCycleMs (event.field "time_to_close_ms")
    outcomeTimestamp := normalizeIngestTimestamp dateParse (event.field "outcome_timestamp")
    sentAt := normalizeIngestTimestamp dateParse (event.field "outcome_timestamp") }

namespace FleetDb

variable (db : FleetDb)

def hasSignal (key : SignalKey) : Bool := db.signals.any (·.key == key)

/-- `INSERT OR REPLACE`. -/
def storeSignal (row : SignalRow) : FleetDb :=
  { db with
    signals := Table.deleteWhere (·.key == row.key) db.signals ++ [row]
    sent := row.key :: db.sent
    resent := if db.sent.contains row.key && !db.hasSignal row.key then row.key :: db.resent
      else db.resent }

end FleetDb

inductive IngestError
  | invalidJson
  | invalidPayload
  /-- An event that is `null` has no fields to read. -/
  | threw
  deriving DecidableEq

/-- The loop over the events of a batch. -/
def ingestEvents (instanceId receivedAt : String) :
    List JsonValue → ℕ → FleetDb → Except IngestError ℕ × FleetDb
  | [], accepted, db => (.ok accepted, db)
  | .null :: _, _, db => (.error .threw, db)
  | event :: events, accepted, db =>
    match signalRow dateParse instanceId receivedAt event with
    | none => ingestEvents instanceId receivedAt events accepted db
    | some row => ingestEvents instanceId receivedAt events (accepted + 1) (db.storeSignal row)

/-- `payload.health`, which is absent or says whether the instance is healthy. -/
def readHealth (payload : JsonValue) : Except IngestError (Option Bool) :=
  match payload with
  | .object fields =>
    match fields.find? (·.1 == "health") with
    | none => .ok none
    | some (_, .object health) =>
      match (JsonValue.object health).field "ok" with
      | .bool ok => .ok (some ok)
      | _ => .error .invalidPayload
    | some _ => .error .invalidPayload
  | _ => .ok none

/-- Store a batch; the body is what `JSON.parse` gives. -/
def handleOrbIngest (receivedAt : String) (body : Payload) (db : FleetDb) :
    Except IngestError ℕ × FleetDb :=
  match body with
  | none => (.error .invalidJson, db)
  | some payload =>
    match (payload.field "instance_id").text?, (payload.field "events").items?,
      readHealth payload with
    | some instanceId, some events, .ok health =>
      if instanceId = "" ∨ maxInstanceIdChars < textLength instanceId ∨
        (events = [] ∧ health = none) then
        (.error .invalidPayload, db)
      else ingestEvents dateParse instanceId receivedAt (events.take maxBatch) 0 db
    | _, _, _ => (.error .invalidPayload, db)

end Ingest

/-! ## The prune -/

namespace FleetDb

/-- Fold the signals of a slice into their cells, and delete them. -/
def foldAndDelete (inSlice : String → Bool) (db : FleetDb) : FleetDb :=
  { db with
    orbSignalRollups := foldInto db.orbSignalRollups
      (entries (fun signal => some signal.cell) (fun _ => 1)
        ((db.signals.filter fun signal => inSlice signal.receivedAt).map (·.toOrbSignal)))
    signals := db.signals.filter fun signal => !inSlice signal.receivedAt }

def stamps (db : FleetDb) : List String := db.signals.map (·.receivedAt)

/-- One round of the loop over the slices of `orb_signals`. -/
def sliceStep (cutoff : String) (batchSize : ℕ) (maxPerTable : JsNumber) (state : FleetDb × ℕ) :
    (FleetDb × ℕ) × Bool :=
  let boundary := sliceBoundary cutoff batchSize state.1.stamps
  let db := state.1.foldAndDelete (inSlice cutoff boundary)
  let changes := state.1.stamps.length - db.stamps.length
  let deleted := state.2 + changes
  ((db, deleted), boundary.isNone || changes == 0 || reachesCap maxPerTable deleted)

variable (toISOString : ℤ → String)

/-- One rule of the policy; those of other tables leave the signals. -/
def pruneRule (fuel : ℕ) (options : PruneOptions) (rule : RetentionRule) (db : FleetDb) :
    Except PruneFailure (FleetDb × PruneResult) :=
  if rule.table = "orb_signals" ∧ isSafeIdentifier rule.column = true ∧ options.dryRun = false then
    let cutoff := cutoffIso toISOString rule.days options.nowMs
    match Loop.run (sliceStep cutoff options.batchSize options.maxPerTable) fuel (db, 0) with
    | none => .error .outOfFuel
    | some (db, deleted) => .ok (db, ⟨rule.table, rule.column, cutoff, deleted⟩)
  else
    match LoopOver.pruneRule toISOString fuel options rule db.retention with
    | .error failure => .error failure
    | .ok (retention, result) => .ok (db.withRetention retention, result)

def pruneRules (fuel : ℕ) (options : PruneOptions) :
    List RetentionRule → FleetDb → Except PruneFailure (FleetDb × List PruneResult)
  | [], db => .ok (db, [])
  | rule :: policy, db => do
    let (db, result) ← pruneRule toISOString fuel options rule db
    let (db, results) ← pruneRules fuel options policy db
    pure (db, result :: results)

/-- More rounds than any loop of the prune can take. -/
def enoughFuel (db : FleetDb) : ℕ :=
  (retentionPolicy.map fun rule => db.retention.rowCount rule.table).sum + 1

/-- `pruneExpiredRecords`; it does not fail: `prune_retention`. -/
def prune (options : PruneOptions) (db : FleetDb) : FleetDb :=
  match pruneRules toISOString db.enoughFuel options retentionPolicy db with
  | .error _ => db
  | .ok (db, _) => db

end FleetDb

/-! ## What the prune keeps -/

namespace FleetDb

theorem retention_foldAndDelete (inSlice : String → Bool) (db : FleetDb) :
    (db.foldAndDelete inSlice).retention = orbSignalsTable.foldAndDelete inSlice db.retention := by
  simp only [retention, foldAndDelete, orbSignalsTable, filter_map]
  rfl

theorem stamps_retention (db : FleetDb) : orbSignalsTable.stamps db.retention = db.stamps := by
  simp only [orbSignalsTable, retention, stamps, map_map]
  rfl

theorem sliceStep_retention (cutoff : String) (batchSize : ℕ) (maxPerTable : JsNumber)
    (state : FleetDb × ℕ) :
    orbSignalsTable.sliceStep cutoff batchSize maxPerTable (state.1.retention, state.2) =
      (((sliceStep cutoff batchSize maxPerTable state).1.1.retention,
        (sliceStep cutoff batchSize maxPerTable state).1.2),
          (sliceStep cutoff batchSize maxPerTable state).2) := by
  simp only [SlicedTable.sliceStep, sliceStep, stamps_retention, ← retention_foldAndDelete]

/-- What only the loop over the slices changes. -/
structure SameSignals (db db' : RetentionDb) : Prop where
  signals : db'.orbSignals = db.orbSignals
  rollups : db'.orbSignalRollups = db.orbSignalRollups
  installations : db'.installations = db.installations

theorem sameSignals_ruleStep {table : String} {db : RetentionDb} (htable : table ≠ "orb_signals")
    (cutoff : String) (batchSize : ℕ) (maxPerTable : JsNumber) (state : RetentionDb × ℕ)
    (h : SameSignals db state.1) :
    SameSignals db (ruleStep table cutoff batchSize maxPerTable state).1.1 := by
  rw [ruleStep, if_neg htable]
  split_ifs
  · exact ⟨h.signals, h.rollups, h.installations⟩
  · exact ⟨h.signals, h.rollups, h.installations⟩

variable {toISOString : ℤ → String} {fuel : ℕ} {options : PruneOptions} {rule : RetentionRule}

/-- A rule that does not prune the signals leaves them. -/
theorem sameSignals_pruneRule {db db' : RetentionDb} {result : PruneResult}
    (hrule : ¬(rule.table = "orb_signals" ∧ isSafeIdentifier rule.column = true ∧
      options.dryRun = false))
    (h : LoopOver.pruneRule toISOString fuel options rule db = .ok (db', result)) :
    SameSignals db db' := by
  have hsame : SameSignals db db := ⟨rfl, rfl, rfl⟩
  rw [LoopOver.pruneRule] at h
  split_ifs at h with hunsafe hdry
  · obtain rfl := (Prod.mk.inj (Except.ok.inj h)).1
    exact hsame
  · have htable : rule.table ≠ "orb_signals" := by
      intro htable
      simp only [Bool.or_eq_true, Bool.not_eq_true', not_or, Bool.not_eq_false] at hunsafe
      exact hrule ⟨htable, hunsafe.2, Bool.eq_false_iff.2 hdry⟩
    generalize hrun : Loop.run _ fuel (db, 0) = final at h
    cases final with
    | none => cases h
    | some final =>
      obtain rfl := (Prod.mk.inj (Except.ok.inj h)).1
      exact Loop.run_invariant (P := fun state => SameSignals db state.1)
        (sameSignals_ruleStep htable _ _ _) hrun
        hsame

theorem retention_withRetention {db : FleetDb} {retention : RetentionDb}
    (h : SameSignals db.retention retention) :
    (db.withRetention retention).retention = retention := by
  obtain ⟨signals, rollups, outcomes, totals, installations, logs⟩ := retention
  obtain ⟨rfl, rfl, rfl⟩ := h
  rfl

/-- **A rule does the same to the signals that are told apart.** -/
theorem pruneRule_retention (db : FleetDb) :
    LoopOver.pruneRule toISOString fuel options rule db.retention =
      (pruneRule toISOString fuel options rule db).map fun out => (out.1.retention, out.2) := by
  rw [pruneRule]
  split_ifs with hrule
  · obtain ⟨htable, hcolumn, hdry⟩ := hrule
    have hsafe : isSafeIdentifier rule.table = true := by
      rw [htable]
      decide +kernel
    have hloop := Loop.run_map (fun state : FleetDb × ℕ => (state.1.retention, state.2))
      (sliceStep_retention (cutoffIso toISOString rule.days options.nowMs) options.batchSize
        options.maxPerTable) fuel
      (db, 0)
    have hstep : ruleStep rule.table (cutoffIso toISOString rule.days options.nowMs)
        options.batchSize
        options.maxPerTable = orbSignalsTable.sliceStep
          (cutoffIso toISOString rule.days options.nowMs)
          options.batchSize options.maxPerTable := if_pos htable
    simp only [LoopOver.pruneRule, hsafe, hcolumn, hdry, hstep, hloop, Bool.not_true, Bool.or_self,
      Bool.false_eq_true, if_false]
    cases Loop.run _ fuel (db, 0) with
    | none => rfl
    | some final => rfl
  · cases hrun : LoopOver.pruneRule toISOString fuel options rule db.retention with
    | error failure => rfl
    | ok out =>
      show Except.ok out = Except.ok ((db.withRetention out.1).retention, out.2)
      rw [retention_withRetention (sameSignals_pruneRule hrule hrun)]

theorem pruneRules_retention (policy : List RetentionRule) (db : FleetDb) :
    LoopOver.pruneRules toISOString fuel options policy db.retention =
      (pruneRules toISOString fuel options policy db).map fun out => (out.1.retention, out.2) := by
  induction policy generalizing db with
  | nil => rfl
  | cons rule policy ih =>
    rw [LoopOver.pruneRules, pruneRules, pruneRule_retention]
    cases pruneRule toISOString fuel options rule db with
    | error failure => rfl
    | ok out =>
      obtain ⟨db', result⟩ := out
      simp only [Except.map, bind, Except.bind, ih]
      cases pruneRules toISOString fuel options policy db' with
      | error failure => rfl
      | ok out => rfl

/-- **The prune is the one of `pruneExpiredRecords`**, which comes to an end and keeps the
counts. -/
theorem prune_retention (toISOString : ℤ → String) (options : PruneOptions) (db : FleetDb) :
    (∃ results, pruneExpiredRecords toISOString db.enoughFuel options db.retention =
      .ok ((db.prune toISOString options).retention, results)) ∧
    Pruned db.retention (db.prune toISOString options).retention := by
  have hfuel : ∀ rule ∈ retentionPolicy, db.retention.rowCount rule.table < db.enoughFuel := by
    intro rule hrule
    exact Nat.lt_succ_of_le (le_sum_of_mem (mem_map_of_mem hrule))
  obtain ⟨after, results, hrun, hpruned⟩ :=
    pruneRules_pruned toISOString options retentionPolicy_safe hfuel
  rw [pruneRules_retention] at hrun
  rw [pruneExpiredRecords, pruneRules_retention, prune]
  cases hrules : pruneRules toISOString db.enoughFuel options retentionPolicy db with
  | error failure =>
    rw [hrules] at hrun
    cases hrun
  | ok out =>
    rw [hrules] at hrun
    obtain ⟨rfl, rfl⟩ := Prod.mk.inj (Except.ok.inj hrun)
    exact ⟨⟨_, rfl⟩, hpruned⟩

/-- The prune only deletes signals. -/
structure Ages (db db' : FleetDb) : Prop where
  signals : db'.signals.Sublist db.signals
  sent : db'.sent = db.sent
  resent : db'.resent = db.resent

theorem Ages.refl (db : FleetDb) : Ages db db := ⟨List.Sublist.refl _, rfl, rfl⟩

theorem Ages.trans {db db' db'' : FleetDb} (h : Ages db db') (h' : Ages db' db'') : Ages db db'' :=
  ⟨h'.signals.trans h.signals, h'.sent.trans h.sent, h'.resent.trans h.resent⟩

theorem ages_pruneRule {db db' : FleetDb} {result : PruneResult}
    (h : pruneRule toISOString fuel options rule db = .ok (db', result)) : Ages db db' := by
  rw [pruneRule] at h
  split_ifs at h with hrule
  · dsimp only at h
    generalize hrun : Loop.run _ fuel (db, 0) = final at h
    cases final with
    | none => cases h
    | some final =>
      obtain rfl := (Prod.mk.inj (Except.ok.inj h)).1
      refine Loop.run_invariant (P := fun state : FleetDb × ℕ => Ages db state.1) ?_ hrun
        (Ages.refl db)
      intro state hstate
      exact hstate.trans ⟨filter_sublist, rfl, rfl⟩
  · generalize LoopOver.pruneRule toISOString fuel options rule db.retention = out at h
    cases out with
    | error failure => cases h
    | ok out =>
      obtain rfl := (Prod.mk.inj (Except.ok.inj h)).1
      exact ⟨List.Sublist.refl _, rfl, rfl⟩

theorem ages_pruneRules {policy : List RetentionRule} {db db' : FleetDb}
    {results : List PruneResult}
    (h : pruneRules toISOString fuel options policy db = .ok (db', results)) : Ages db db' := by
  induction policy generalizing db results with
  | nil =>
    obtain rfl := (Prod.mk.inj (Except.ok.inj h)).1
    exact Ages.refl db
  | cons rule policy ih =>
    rw [pruneRules] at h
    cases hrule : pruneRule toISOString fuel options rule db with
    | error failure =>
      rw [hrule] at h
      cases h
    | ok out =>
      rw [hrule] at h
      simp only [bind, Except.bind] at h
      cases hrules : pruneRules toISOString fuel options policy out.1 with
      | error failure =>
        rw [hrules] at h
        cases h
      | ok later =>
        rw [hrules] at h
        obtain rfl := (Prod.mk.inj (Except.ok.inj h)).1
        exact (ages_pruneRule hrule).trans (ih hrules)

theorem ages_prune (toISOString : ℤ → String) (options : PruneOptions) (db : FleetDb) :
    Ages db (db.prune toISOString options) := by
  rw [prune]
  cases hrules : pruneRules toISOString db.enoughFuel options retentionPolicy db with
  | error failure => exact Ages.refl db
  | ok out => exact ages_pruneRules hrules

end FleetDb

end LoopOver
