import LoopOver.Foundations.Loop
import LoopOver.Foundations.Rollup
import LoopOver.Number
import Mathlib.Algebra.Group.Nat.Defs
import Mathlib.Algebra.Group.Prod
import Mathlib.Data.String.Basic

/-!
# The retention prune

`pruneExpiredRecords` of `src/db/retention.ts` deletes what is older than the window of its table.
Two of the tables feed cumulative counters, so that their rows are folded into rollups in the batch
that deletes them: `orb_signals` into one count for each cell of the confusion matrix and day, and
`orb_pr_outcomes` into the totals of an account, for the rows that the live statistics count.

* `SlicedTable` is what the two prunes share: slices cut at the timestamp of a row.
* `pruneExpiredRecords` is one run over the policy. The loops over slices and batches take fuel.
-/

namespace LoopOver

open Rollup

/-! ## The policy -/

/-- How long the rows of a table are kept. -/
structure RetentionRule where
  table : String
  column : String
  days : ℕ

/-- `DURABLE_AUDIT_EVENT_TYPES`. -/
def durableAuditEventTypes : List String := ["github_app.pr_public_surface_published"]

/-- `RETENTION_POLICY`. -/
def retentionPolicy : List RetentionRule :=
  [⟨"orb_pr_outcomes", "occurred_at", 90⟩,
   ⟨"service_status_samples", "sampled_at", 35⟩,
   ⟨"orb_signals", "received_at", 90⟩,
   ⟨"audit_events", "created_at", 90⟩,
   ⟨"ai_usage_events", "created_at", 90⟩,
   ⟨"product_usage_events", "occurred_at", 180⟩,
   ⟨"github_rate_limit_observations", "observed_at", 30⟩,
   ⟨"signal_snapshots", "generated_at", 90⟩,
   ⟨"score_previews", "generated_at", 90⟩,
   ⟨"repo_snapshots", "fetched_at", 90⟩,
   ⟨"agent_context_snapshots", "created_at", 30⟩,
   ⟨"webhook_events", "received_at", 14⟩,
   ⟨"notification_deliveries", "created_at", 90⟩,
   ⟨"predicted_gate_calls", "created_at", 90⟩,
   ⟨"grounding_file_content_cache", "fetched_at", 2⟩,
   ⟨"ai_review_cache", "created_at", 30⟩,
   ⟨"ai_slop_cache", "created_at", 30⟩,
   ⟨"linked_issue_satisfaction_cache", "created_at", 30⟩,
   ⟨"review_audit", "created_at", 90⟩,
   ⟨"decision_records", "created_at", 180⟩,
   ⟨"orb_webhook_events", "received_at", 14⟩,
   ⟨"check_summaries", "updated_at", 30⟩,
   ⟨"pull_request_files", "updated_at", 30⟩,
   ⟨"repo_github_totals_snapshots", "fetched_at", 30⟩,
   ⟨"recent_merged_pull_requests", "updated_at", 30⟩,
   ⟨"pull_request_reviews", "updated_at", 30⟩,
   ⟨"predicted_gate_calibration_ledger", "created_at", 90⟩,
   ⟨"contributor_gate_history", "created_at", 90⟩,
   ⟨"decision_replay_inputs", "created_at", 180⟩,
   ⟨"decision_replay_prompts", "created_at", 30⟩,
   ⟨"submitter_outcome_log", "recorded_at", 90⟩,
   ⟨"alert_dedup_claims", "created_at", 14⟩]

/-- `SAFE_IDENTIFIER`. -/
def isSafeIdentifier (name : String) : Bool :=
  !name.toList.isEmpty && name.toList.all fun c => c.isLower || c == '_'

/-! ## The tables -/

/-- A row of `orb_signals`. -/
structure OrbSignal where
  instanceId : String
  gateVerdict : Option String
  outcome : String
  reversalFlag : String
  gateReasoncodeBucket : Option String
  decisionTimestamp : Option String
  receivedAt : String

/-- The primary key of `orb_signal_rollups`. -/
structure SignalCell where
  instanceId : String
  day : String
  gateVerdict : String
  outcome : String
  reversalFlag : String
  gateReasoncodeBucket : String
  deriving DecidableEq

/-- A row of `orb_pr_outcomes`. -/
structure OrbPrOutcome where
  repositoryFullName : String
  prNumber : ℤ
  installationId : Option ℤ
  outcome : String
  occurredAt : String

/-- A row of `orb_github_installations`. -/
structure OrbInstallation where
  accountLogin : Option String
  registered : Bool

/-- The columns `merged`, `closed` and `total` of `orb_outcome_rollups`. -/
abbrev OutcomeTotals : Type := ℕ × ℕ × ℕ

/-- A row of another table of the policy: its primary key and its retention column, and what the
join on `audit_events` reads. -/
structure LogRow where
  pk : String
  stamp : String
  eventType : String := ""
  targetKey : Option String := none

structure LogTable where
  rows : List LogRow
  pk_nodup : (rows.map LogRow.pk).Nodup

structure RetentionDb where
  orbSignals : List OrbSignal
  orbSignalRollups : Keyed SignalCell ℕ
  orbPrOutcomes : List OrbPrOutcome
  orbOutcomeRollups : Keyed String OutcomeTotals
  /-- `orb_github_installations` by its primary key. -/
  installations : ℤ → Option OrbInstallation
  /-- The other tables, `audit_events` among them. -/
  logs : String → LogTable

/-! ## What a row counts for -/

/-- The cell of a signal. -/
def OrbSignal.cell (signal : OrbSignal) : SignalCell where
  instanceId := signal.instanceId
  day := String.ofList ((signal.decisionTimestamp.getD signal.receivedAt).toList.take 10)
  gateVerdict := signal.gateVerdict.getD ""
  outcome := signal.outcome
  reversalFlag := signal.reversalFlag
  gateReasoncodeBucket := signal.gateReasoncodeBucket.getD ""

/-- `LOWER`, which changes the letters of ASCII only. -/
def sqlLower (text : String) : String := String.ofList (text.toList.map Char.toLower)

/-- The pull request has an event that says its review surface was published. -/
def publishedSurface (auditEvents : List LogRow) (outcome : OrbPrOutcome) : Bool :=
  auditEvents.any fun event =>
    event.eventType == "github_app.pr_public_surface_published" &&
      event.targetKey == some s!"{outcome.repositoryFullName}#{outcome.prNumber}"

/-- The account that the statistics count an outcome for: the installation is registered, and the
pull request published no review surface. -/
def RetentionDb.countedAccount (db : RetentionDb) (outcome : OrbPrOutcome) : Option String :=
  match outcome.installationId.bind db.installations with
  | some installation =>
    if installation.registered && !publishedSurface (db.logs "audit_events").rows outcome then
      some (sqlLower (installation.accountLogin.getD ""))
    else none
  | none => none

def OrbPrOutcome.totals (outcome : OrbPrOutcome) : OutcomeTotals :=
  (if outcome.outcome = "merged" then 1 else 0, if outcome.outcome = "closed" then 1 else 0, 1)

/-- The rollup of a cell and its live signals. -/
def RetentionDb.signalCount (db : RetentionDb) (cell : SignalCell) : ℕ :=
  stored db.orbSignalRollups cell + live (fun signal => some signal.cell) (fun _ => 1)
    db.orbSignals cell

/-- The rollup of an account and its live outcomes that the statistics count. -/
def RetentionDb.outcomeCount (db : RetentionDb) (account : String) : OutcomeTotals :=
  stored db.orbOutcomeRollups account +
    live db.countedAccount OrbPrOutcome.totals db.orbPrOutcomes account

/-! ## Slices -/

/-- What the prunes of the two folded tables differ in: the retention column, and the batch that
folds and deletes the rows of a slice. -/
structure SlicedTable where
  stamps : RetentionDb → List String
  foldAndDelete : (String → Bool) → RetentionDb → RetentionDb

def orbSignalsTable : SlicedTable where
  stamps db := db.orbSignals.map OrbSignal.receivedAt
  foldAndDelete inSlice db :=
    { db with
      orbSignalRollups := foldInto db.orbSignalRollups
        (entries (fun signal => some signal.cell) (fun _ => 1)
          (db.orbSignals.filter fun signal => inSlice signal.receivedAt))
      orbSignals := db.orbSignals.filter fun signal => !inSlice signal.receivedAt }

def orbPrOutcomesTable : SlicedTable where
  stamps db := db.orbPrOutcomes.map OrbPrOutcome.occurredAt
  foldAndDelete inSlice db :=
    { db with
      orbOutcomeRollups := foldInto db.orbOutcomeRollups
        (entries db.countedAccount OrbPrOutcome.totals
          (db.orbPrOutcomes.filter fun outcome => inSlice outcome.occurredAt))
      orbPrOutcomes := db.orbPrOutcomes.filter fun outcome => !inSlice outcome.occurredAt }

/-- The timestamp of the row at `OFFSET batchSize - 1` among the expired ones. -/
def sliceBoundary (cutoff : String) (batchSize : ℕ) (stamps : List String) : Option String :=
  ((stamps.filter (· < cutoff)).mergeSort (· ≤ ·))[batchSize - 1]?

/-- Up to the boundary, ties included; without one, all that is left below the cutoff. -/
def inSlice (cutoff : String) : Option String → String → Bool
  | none, stamp => stamp < cutoff
  | some boundary, stamp => stamp ≤ boundary

/-- `deleted >= maxPerTable`. -/
def reachesCap : JsNumber → ℕ → Bool
  | .finite cap, deleted => decide (cap ≤ deleted)
  | .infinite negative, _ => negative
  | .nan, _ => false

/-- One round of the loop over the slices, on the database and the number deleted so far. -/
def SlicedTable.sliceStep (table : SlicedTable) (cutoff : String) (batchSize : ℕ)
    (maxPerTable : JsNumber) (state : RetentionDb × ℕ) : (RetentionDb × ℕ) × Bool :=
  let boundary := sliceBoundary cutoff batchSize (table.stamps state.1)
  let db := table.foldAndDelete (inSlice cutoff boundary) state.1
  let changes := (table.stamps state.1).length - (table.stamps db).length
  let deleted := state.2 + changes
  ((db, deleted), boundary.isNone || changes == 0 || reachesCap maxPerTable deleted)

/-! ## The other tables -/

/-- `retentionWhere`: older than the cutoff, and no durable audit event. -/
def isExpired (table cutoff : String) (row : LogRow) : Bool :=
  row.stamp < cutoff && !(table == "audit_events" && durableAuditEventTypes.contains row.eventType)

/-- Delete the oldest expired rows of a table, by their keys. -/
def LogTable.deleteBatch (table : String) (cutoff : String) (batchSize : ℕ) (log : LogTable) :
    LogTable :=
  let keys := (((log.rows.filter (isExpired table cutoff)).mergeSort
    fun a b => a.stamp ≤ b.stamp).take batchSize).map LogRow.pk
  { rows := log.rows.filter fun row => !keys.contains row.pk
    pk_nodup := log.pk_nodup.sublist (List.filter_sublist.map _) }

/-- One round of the loop over the batches. -/
def batchStep (table cutoff : String) (batchSize : ℕ) (maxPerTable : JsNumber)
    (state : RetentionDb × ℕ) :
    (RetentionDb × ℕ) × Bool :=
  let log := (state.1.logs table).deleteBatch table cutoff batchSize
  let changes := (state.1.logs table).rows.length - log.rows.length
  let deleted := state.2 + changes
  (({ state.1 with logs := Function.update state.1.logs table log }, deleted),
    decide (changes < batchSize) || reachesCap maxPerTable deleted)

/-! ## A run -/

structure PruneOptions where
  dryRun : Bool := false
  nowMs : ℤ
  batchSize : ℕ
  maxPerTable : JsNumber
  batchSize_pos : 1 ≤ batchSize

structure PruneResult where
  table : String
  column : String
  cutoff : String
  deleted : ℕ

/-- Why a prune did not end. -/
inductive PruneFailure
  | unsafeIdentifier (message : String)
  | outOfFuel
  deriving DecidableEq

section Run

variable (toISOString : ℤ → String)

def cutoffIso (days : ℕ) (nowMs : ℤ) : String := toISOString (nowMs - days * 86400000)

/-- The number of rows that a dry run reports. -/
def countExpired (db : RetentionDb) (table cutoff : String) : ℕ :=
  if table = "orb_signals" then ((orbSignalsTable.stamps db).filter (· < cutoff)).length
  else if table = "orb_pr_outcomes" then ((orbPrOutcomesTable.stamps db).filter (· < cutoff)).length
  else ((db.logs table).rows.filter (isExpired table cutoff)).length

/-- The round of the loop that a rule runs. -/
def ruleStep (table cutoff : String) (batchSize : ℕ) (maxPerTable : JsNumber) :
    RetentionDb × ℕ → (RetentionDb × ℕ) × Bool :=
  if table = "orb_signals" then orbSignalsTable.sliceStep cutoff batchSize maxPerTable
  else if table = "orb_pr_outcomes" then orbPrOutcomesTable.sliceStep cutoff batchSize maxPerTable
  else batchStep table cutoff batchSize maxPerTable

/-- One rule of the policy. -/
def pruneRule (fuel : ℕ) (options : PruneOptions) (rule : RetentionRule) (db : RetentionDb) :
    Except PruneFailure (RetentionDb × PruneResult) :=
  let cutoff := cutoffIso toISOString rule.days options.nowMs
  if !isSafeIdentifier rule.table || !isSafeIdentifier rule.column then
    .error (.unsafeIdentifier s!"Unsafe retention identifier: {rule.table}.{rule.column}")
  else if options.dryRun then
    .ok (db, ⟨rule.table, rule.column, cutoff, countExpired db rule.table cutoff⟩)
  else
    match Loop.run (ruleStep rule.table cutoff options.batchSize options.maxPerTable) fuel
      (db, 0) with
    | none => .error .outOfFuel
    | some (db, deleted) => .ok (db, ⟨rule.table, rule.column, cutoff, deleted⟩)

/-- One run over a policy. -/
def pruneRules (fuel : ℕ) (options : PruneOptions) :
    List RetentionRule → RetentionDb → Except PruneFailure (RetentionDb × List PruneResult)
  | [], db => .ok (db, [])
  | rule :: policy, db => do
    let (db, result) ← pruneRule toISOString fuel options rule db
    let (db, results) ← pruneRules fuel options policy db
    pure (db, result :: results)

def pruneExpiredRecords (fuel : ℕ) (options : PruneOptions) (db : RetentionDb) :
    Except PruneFailure (RetentionDb × List PruneResult) :=
  pruneRules toISOString fuel options retentionPolicy db

/-- One run after the other. -/
def pruneRuns (fuel : ℕ) : List PruneOptions → RetentionDb → Except PruneFailure RetentionDb
  | [], db => .ok db
  | options :: runs, db => do
    let (db, _) ← pruneExpiredRecords toISOString fuel options db
    pruneRuns fuel runs db

end Run

end LoopOver
