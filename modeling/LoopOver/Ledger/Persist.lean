import LoopOver.Ledger.Append
import LoopOver.Ledger.Verify
import LoopOver.Text

/-!
# Persisting decision records

`persistDecisionRecord` of `src/review/decision-record.ts` stores a verdict and appends it to the
ledger. A head that has a verdict already gets a further revision, numbered by how many are stored,
and the call has to say why it repeats the evaluation. `pruneExpiredRecords` of
`src/db/retention.ts` deletes the records past their retention, in batches.

* `persistDecisionRecord` and `pruneDecisionRecords` are the two scripts.
* `LedgerDb.serves` is the tables when only a taken key makes a statement fail, and `serves_total`
  says that every statement gets an answer there.
* `persist_performs` is what a call does that has the tables to itself.
-/

namespace LoopOver

open List Script

/-! ## Records -/

/-- The published record of a verdict. -/
structure DecisionRecord where
  repoFullName : String
  pullNumber : ℤ
  headSha : String
  action : String
  reasonCode : String
  findingsCount : Option ℤ
  decidedAt : String
  /-- The fields that persisting a record only serializes. -/
  otherFields : List (String × Json)

/-- The record as the serialization sees it. -/
def DecisionRecord.toJson (record : DecisionRecord) : Json :=
  .object ([("repoFullName", .string record.repoFullName),
    ("pullNumber", .number (toString record.pullNumber)), ("headSha", .string record.headSha),
    ("action", .string record.action), ("reasonCode", .string record.reasonCode),
    ("findingsCount", (record.findingsCount.map fun n => Json.number (toString n)).getD .null),
    ("decidedAt", .string record.decidedAt)] ++ record.otherFields)

/-- Why a head was evaluated more than once. -/
inductive ReevaluationReason
  | scheduledRecheck
  | pipelineError
  | configChange
  | maintainerRequest
  | upstreamStateChange
  deriving DecidableEq

def ReevaluationReason.text : ReevaluationReason → String
  | scheduledRecheck => "scheduled_recheck"
  | pipelineError => "pipeline_error"
  | configChange => "config_change"
  | maintainerRequest => "maintainer_request"
  | upstreamStateChange => "upstream_state_change"

/-- The provenance of a re-evaluation: why it happened, and which verdict it supersedes. -/
structure ReevaluationContext where
  reason : ReevaluationReason
  supersedesRecordId : Option String := none
  actor : Option String := none

/-- `UndeclaredReevaluationError`: a repeated evaluation that does not say why. -/
structure UndeclaredReevaluationError where
  target : String
  priorCount : ℕ
  deriving DecidableEq

structure ResolvedReevaluation where
  reason : ReevaluationReason
  supersedesRecordId : String
  actor : Option String

/-- What a verdict is about: a commit of a pull request. -/
structure RecordHead where
  repoFullName : String
  pullNumber : ℤ
  headSha : String
  deriving DecidableEq

namespace RecordHead

variable (head : RecordHead)

/-- `<repo>#<pull>@<head>`. -/
def target : String :=
  head.repoFullName ++ "#" ++ toString head.pullNumber ++ "@" ++ head.headSha

def baseId : String := sliceText 250 ("record:" ++ head.target)

/-- The repository as the table stores it. -/
def storedRepo : String := sliceText 200 head.repoFullName

end RecordHead

/-- A call of `persistDecisionRecord`. -/
structure PersistCall where
  record : DecisionRecord
  recordDigest : String
  attempts : ℕ := 3
  reevaluation : Option ReevaluationContext := none
  holdCause : Option String := none

def PersistCall.head (call : PersistCall) : RecordHead :=
  ⟨call.record.repoFullName, call.record.pullNumber, call.record.headSha⟩

/-- The id of a revision of a head after `priorCount` others. -/
def nextRevisionId (baseId : String) (priorCount : ℕ) : String :=
  if priorCount = 0 then baseId else baseId ++ ":rev" ++ toString (priorCount + 1)

/-- A first evaluation resolves to nothing; a repeated one must declare its reason. -/
def resolveReevaluation (text : Runtime) (priorCount : ℕ) (baseId : String)
    (context : Option ReevaluationContext) (target : String) :
    Except UndeclaredReevaluationError (Option ResolvedReevaluation) :=
  if priorCount = 0 then .ok none
  else
    match context with
    | none => .error ⟨target, priorCount⟩
    | some context => .ok (some
      { reason := context.reason
        supersedesRecordId := context.supersedesRecordId.getD
          (if priorCount = 1 then baseId else baseId ++ ":rev" ++ toString priorCount)
        actor := truthy (context.actor.map text.trim) })

/-- The row that an attempt inserts. -/
def PersistCall.row (call : PersistCall) (priorCount : ℕ)
    (reevaluated : Option ResolvedReevaluation) :
    DecisionRecordRow where
  id := nextRevisionId call.head.baseId priorCount
  repoFullName := call.head.storedRepo
  pullNumber := call.record.pullNumber
  headSha := call.record.headSha
  action := call.record.action
  reasonCode := sliceText 200 call.record.reasonCode
  recordDigest := call.recordDigest
  recordJson := canonicalJson call.record.toJson
  createdAt := call.record.decidedAt
  reevaluationReason := reevaluated.map fun resolved => resolved.reason.text
  supersedesRecordId := reevaluated.map ResolvedReevaluation.supersedesRecordId
  reevaluationActor := reevaluated.bind ResolvedReevaluation.actor
  findingsCount := call.record.findingsCount
  holdCause := call.holdCause

/-! ## The scripts -/

/-- How a call of `persistDecisionRecord` ends. -/
inductive PersistOutcome
  /-- The id of the record that was written. -/
  | persisted (id : String)
  /-- `null`, after a failure that is logged and swallowed. -/
  | failed
  /-- The error of an undeclared re-evaluation, which is thrown on. -/
  | refused (error : UndeclaredReevaluationError)
  deriving DecidableEq

section Scripts

variable (rt : LedgerRuntime) (text : Runtime)

/-- The loop over the attempts, with the number of retries left. -/
def persistAttempts (call : PersistCall) (retries : ℕ) : LedgerScript PersistOutcome := do
  let priorCount ← ofExcept
    (← query (.countRevisions call.head.storedRepo call.head.pullNumber call.head.headSha))
  match resolveReevaluation text priorCount call.head.baseId call.reevaluation call.head.target with
  | .error error => pure (.refused error)
  | .ok reevaluated =>
    match ← query (.insertRecord (call.row priorCount reevaluated)) with
    | .ok () =>
      -- a failed append is logged, and the record stays
      let _ ← (appendDecisionLedger rt (nextRevisionId call.head.baseId priorCount)
        call.recordDigest 3).attempt
      pure (.persisted (nextRevisionId call.head.baseId priorCount))
    | .error error =>
      match retries with
      | 0 => ofExcept (.error error)
      | retries + 1 => persistAttempts call retries

/-- Persist the record, and append a row for it to the ledger. -/
def persistDecisionRecord (call : PersistCall) : LedgerScript PersistOutcome := do
  match ← (persistAttempts rt text call (call.attempts - 1)).attempt with
  | .ok outcome => pure outcome
  | .error _ => pure .failed

/-- `BATCH_SIZE`. -/
def pruneBatchSize : ℕ := 1000

/-- `MAX_DELETED_PER_TABLE`. -/
def maxDeletedPerTable : ℕ := 250000

/-- The loop over the batches. Every batch but the last is full, so that the fuel of
`pruneDecisionRecords` does not run out. -/
def pruneBatches (cutoff : String) (batchSize maxPerTable : ℕ) : ℕ → ℕ → LedgerScript ℕ
  | 0, deleted => pure deleted
  | fuel + 1, deleted => do
    let changes ← ofExcept (← query (.deleteExpired cutoff batchSize))
    if changes < batchSize ∨ deleted + changes ≥ maxPerTable then pure (deleted + changes)
    else pruneBatches cutoff batchSize maxPerTable fuel (deleted + changes)

/-- `pruneExpiredRecords` on `decision_records`. -/
def pruneDecisionRecords (nowMs : ℤ) : LedgerScript ℕ :=
  pruneBatches (retentionCutoffIso rt nowMs) pruneBatchSize maxDeletedPerTable
    (maxDeletedPerTable + 1) 0

end Scripts

/-! ## A call with the tables to itself -/

/-- The statement fails on a key that is taken. -/
def LedgerDb.rejects (db : LedgerDb) : LedgerCall → Prop
  | .insertLedgerRow row => ∃ r ∈ db.ledger, r.seq = row.seq
  | .insertRecord row => row.id ∈ db.records.map DecisionRecordRow.id
  | _ => False

/-- The statement has thrown. -/
def LedgerCall.threw : (call : LedgerCall) → LedgerReply call → Prop
  | .nowIso, _ => False
  | .readTip, reply => ∃ error, reply = .error error
  | .insertLedgerRow _, reply => ∃ error, reply = .error error
  | .countRevisions _ _ _, reply => ∃ error, reply = .error error
  | .insertRecord _, reply => ∃ error, reply = .error error
  | .deleteExpired _ _, reply => ∃ error, reply = .error error

/-- The tables, when no statement fails but on a key that is taken. -/
def LedgerDb.serves : Answers LedgerReply LedgerDb := fun db call reply db' =>
  db.answers call reply db' ∧ (call.threw reply → db.rejects call)

/-- There is always a batch of the oldest expired records. -/
theorem LedgerDb.exists_expiredBatch (db : LedgerDb) (cutoff : String) (batchSize : ℕ) :
    ∃ ids, db.IsExpiredBatch cutoff batchSize ids := by
  let expired := db.records.filter fun row => row.createdAt < cutoff
  let sorted := expired.insertionSort fun a b => a.createdAt ≤ b.createdAt
  have hperm : sorted.Perm expired := perm_insertionSort _ _
  have hmem : ∀ row, row ∈ sorted ↔ row ∈ db.records ∧ row.createdAt < cutoff := by
    intro row
    rw [hperm.mem_iff, mem_filter, decide_eq_true_eq]
  have hsorted : sorted.Pairwise fun a b => a.createdAt ≤ b.createdAt :=
    pairwise_insertionSort _ _
  have hsplit := take_append_drop batchSize sorted
  have hnodup : (sorted.map DecisionRecordRow.id).Nodup :=
    (hperm.map _).nodup_iff.2 (db.records_nodup.sublist (filter_sublist.map _))
  have hunique : ∀ a ∈ db.records, ∀ b ∈ db.records, a.id = b.id → a = b :=
    fun a ha b hb h => inj_on_of_nodup_map db.records_nodup ha hb h
  refine ⟨(sorted.take batchSize).map DecisionRecordRow.id, ?_, ?_, ?_, ?_, ?_⟩
  · exact hnodup.sublist ((take_sublist _ _).map _)
  · intro id hid
    obtain ⟨row, hrow, rfl⟩ := mem_map.1 hid
    obtain ⟨hstored, hexpired⟩ := (hmem row).1 (mem_of_mem_take hrow)
    exact ⟨row, hstored, rfl, hexpired⟩
  · rw [length_map, length_take]
    omega
  · intro hlength row hrow hexpired
    rw [length_map, length_take] at hlength
    rw [take_of_length_le (by omega)]
    exact mem_map_of_mem ((hmem row).2 ⟨hrow, hexpired⟩)
  · intro gone hgone hid row hrow hexpired hkept
    obtain ⟨taken, htaken, heq⟩ := mem_map.1 hid
    obtain rfl := hunique taken ((hmem taken).1 (mem_of_mem_take htaken)).1 gone hgone heq
    have hlater : row ∈ sorted.drop batchSize := by
      have hsort := (hmem row).2 ⟨hrow, hexpired⟩
      rw [← hsplit, mem_append] at hsort
      exact hsort.resolve_left fun htake => hkept (mem_map_of_mem htake)
    rw [← hsplit] at hsorted
    exact (pairwise_append.1 hsorted).2.2 taken htaken row hlater

/-- Every statement gets an answer. -/
theorem LedgerDb.serves_total (db : LedgerDb) (call : LedgerCall) :
    ∃ reply db', db.serves call reply db' := by
  cases call with
  | nowIso => exact ⟨"", db, rfl, fun h => h.elim⟩
  | readTip =>
    refine ⟨.ok db.tip, db, ⟨rfl, fun tip h => (Except.ok.inj h).symm⟩, ?_⟩
    rintro ⟨error, h⟩
    cases h
  | insertLedgerRow row =>
    by_cases htaken : ∃ r ∈ db.ledger, r.seq = row.seq
    · exact ⟨.error { message := "UNIQUE constraint failed" }, db, rfl, fun _ => htaken⟩
    · refine ⟨.ok (), db.insertLedgerRow row, ⟨fun r hr h => htaken ⟨r, hr, h⟩, rfl⟩, ?_⟩
      rintro ⟨error, h⟩
      cases h
  | countRevisions repoFullName pullNumber headSha =>
    refine ⟨.ok _, db, ⟨rfl, fun n h => (Except.ok.inj h).symm⟩, ?_⟩
    rintro ⟨error, h⟩
    cases h
  | insertRecord row =>
    by_cases htaken : row.id ∈ db.records.map DecisionRecordRow.id
    · exact ⟨.error { message := "UNIQUE constraint failed" }, db, rfl, fun _ => htaken⟩
    · refine ⟨.ok (), db.insertRecord row htaken, ⟨htaken, rfl⟩, ?_⟩
      rintro ⟨error, h⟩
      cases h
  | deleteExpired cutoff batchSize =>
    obtain ⟨ids, hids⟩ := db.exists_expiredBatch cutoff batchSize
    refine ⟨.ok ids.length, db.deleteRecords ids, ⟨ids, hids, rfl, rfl⟩, ?_⟩
    rintro ⟨error, h⟩
    cases h

/-- The stored revisions of a head. -/
def LedgerDb.revisionsOf (db : LedgerDb) (head : RecordHead) : List DecisionRecordRow :=
  db.revisions head.storedRepo head.pullNumber head.headSha

section Alone

variable {rt : LedgerRuntime} {text : Runtime} {db db' : LedgerDb} {call : PersistCall} {n : ℕ}
  {reevaluated : Option ResolvedReevaluation}

/-- An append leaves the records alone. -/
theorem append_records {recordId recordDigest : String} {attempts : ℕ} {r : Except HostError Unit}
    (h : (appendDecisionLedger rt recordId recordDigest attempts).Performs
      LedgerDb.serves () db r ()
      db') : db'.records = db.records := by
  induction attempts generalizing db with
  | zero =>
    obtain ⟨-, -, rfl⟩ := performs_pure.1 h
    rfl
  | succ attempts ih =>
    rw [appendDecisionLedger] at h
    obtain ⟨tip, db₁, ⟨⟨rfl, -⟩, -⟩, h₁⟩ := performs_ask_bind.1 h
    rcases performs_ofExcept_bind.1 h₁ with ⟨-, -, -, -, rfl⟩ | ⟨tip, -, h₂⟩
    · rfl
    obtain ⟨createdAt, db₂, ⟨hnow, -⟩, h₃⟩ := performs_ask_bind.1 h₂
    obtain rfl : db₂ = db₁ := hnow
    obtain ⟨inserted, db₃, ⟨hinsert, -⟩, h₄⟩ := performs_ask_bind.1 h₃
    cases inserted with
    | ok _ =>
      obtain ⟨-, rfl⟩ := hinsert
      obtain ⟨-, -, rfl⟩ := performs_pure.1 h₄
      rfl
    | error error =>
      obtain rfl : db₃ = db₂ := hinsert
      dsimp only at h₄
      split at h₄
      · obtain ⟨-, -, rfl⟩ := performs_ofExcept.1 h₄
        rfl
      · exact ih h₄

/-- The count that an attempt reads. -/
theorem count_served {head : RecordHead} {reply : Except HostError ℕ}
    (h : db.serves (.countRevisions head.storedRepo head.pullNumber head.headSha) reply db') :
    reply = .ok (db.revisionsOf head).length ∧ db' = db := by
  obtain ⟨⟨rfl, hcount⟩, hfailed⟩ := h
  cases reply with
  | ok m => exact ⟨congrArg _ (hcount m rfl), rfl⟩
  | error error => exact (hfailed ⟨error, rfl⟩).elim

variable (hcount : (db.revisionsOf call.head).length = n)
  (hresolve : resolveReevaluation text n call.head.baseId call.reevaluation call.head.target =
    .ok reevaluated)

include hcount hresolve

variable {r : Except HostError PersistOutcome}

/-- An attempt whose id is free stores the revision; one whose id is taken leaves the tables alone,
and it is up to the next one. -/
theorem persistAttempts_performs {retries : ℕ}
    (h : (persistAttempts rt text call retries).Performs LedgerDb.serves () db r () db') :
    (nextRevisionId call.head.baseId n ∉ db.records.map DecisionRecordRow.id ∧
      r = .ok (.persisted (nextRevisionId call.head.baseId n)) ∧
      db'.records = db.records ++ [call.row n reevaluated]) ∨
    (nextRevisionId call.head.baseId n ∈ db.records.map DecisionRecordRow.id ∧
      ∃ error : HostError, (match retries with
        | 0 => ofExcept (.error error)
        | retries + 1 => persistAttempts rt text call retries).Performs LedgerDb.serves () db r
          () db') := by
  rw [persistAttempts] at h
  obtain ⟨reply, db₁, hread, h₁⟩ := performs_ask_bind.1 h
  obtain ⟨rfl, rfl⟩ := count_served hread
  rcases performs_ofExcept_bind.1 h₁ with ⟨error, herror, -⟩ | ⟨m, hm, h₂⟩
  · cases herror
  obtain rfl : n = m := hcount.symm.trans (Except.ok.inj hm)
  rw [hresolve] at h₂
  obtain ⟨inserted, db₂, ⟨hinsert, hfailed⟩, h₃⟩ := performs_ask_bind.1 h₂
  cases inserted with
  | error error =>
    obtain rfl : db₂ = db₁ := hinsert
    exact Or.inr ⟨hfailed ⟨error, rfl⟩, error, h₃⟩
  | ok _ =>
    obtain ⟨hnew, rfl⟩ := hinsert
    obtain ⟨appended, _, db₃, happend, h₄⟩ := performs_attempt_bind.1 h₃
    obtain ⟨rfl, -, rfl⟩ := performs_pure.1 h₄
    exact Or.inl ⟨hnew, rfl, append_records happend⟩

theorem persistAttempts_collides {retries : ℕ}
    (h : (persistAttempts rt text call retries).Performs LedgerDb.serves () db r () db')
    (htaken : nextRevisionId call.head.baseId n ∈ db.records.map DecisionRecordRow.id) :
    (∃ error, r = .error error) ∧ db' = db := by
  induction retries with
  | zero =>
    obtain ⟨hfree, -⟩ | ⟨-, error, hlast⟩ := persistAttempts_performs hcount hresolve h
    · exact absurd htaken hfree
    obtain ⟨rfl, -, rfl⟩ := performs_ofExcept.1 hlast
    exact ⟨⟨error, rfl⟩, rfl⟩
  | succ retries ih =>
    obtain ⟨hfree, -⟩ | ⟨-, error, hnext⟩ := persistAttempts_performs hcount hresolve h
    · exact absurd htaken hfree
    exact ih hnext

omit hcount hresolve in
/-- **What a call does that has the tables to itself**, in terms of the revisions that are
stored. -/
theorem persist_performs {outcome : Except HostError PersistOutcome}
    (h : (persistDecisionRecord rt text call).Performs LedgerDb.serves () db outcome () db')
    (hcount : (db.revisionsOf call.head).length = n)
    (hresolve : resolveReevaluation text n call.head.baseId call.reevaluation call.head.target =
      .ok reevaluated) :
    (nextRevisionId call.head.baseId n ∉ db.records.map DecisionRecordRow.id ∧
      outcome = .ok (.persisted (nextRevisionId call.head.baseId n)) ∧
      db'.records = db.records ++ [call.row n reevaluated]) ∨
    (nextRevisionId call.head.baseId n ∈ db.records.map DecisionRecordRow.id ∧
      outcome = .ok .failed ∧ db' = db) := by
  rw [persistDecisionRecord] at h
  obtain ⟨r, _, db₁, hattempts, h₁⟩ := performs_attempt_bind.1 h
  obtain ⟨hfree, rfl, hrecords⟩ | ⟨htaken, -⟩ := persistAttempts_performs hcount hresolve hattempts
  · obtain ⟨rfl, -, rfl⟩ := performs_pure.1 h₁
    exact Or.inl ⟨hfree, rfl, hrecords⟩
  · obtain ⟨⟨error, rfl⟩, rfl⟩ := persistAttempts_collides hcount hresolve hattempts htaken
    obtain ⟨rfl, -, rfl⟩ := performs_pure.1 h₁
    exact Or.inr ⟨htaken, rfl, rfl⟩

end Alone

/-! ## A head for concrete runs

Records of one head, with the real digests, on a platform whose clock stands at 15 July 2026. -/

def widgetHead : RecordHead := ⟨"acme/widgets", 7, "c0ffee"⟩

/-- A verdict on the head, decided at the given time. -/
def widgetRecord (decidedAt : String) : DecisionRecord where
  repoFullName := "acme/widgets"
  pullNumber := 7
  headSha := "c0ffee"
  action := "hold"
  reasonCode := "success"
  findingsCount := some 0
  decidedAt := decidedAt
  otherFields := [("schemaVersion", .string "6"), ("baseSha", .null),
    ("configDigest", .string "44136fa355b3678a1146ad16f7e8649e94fb4fc21fe77e8310c060f61caaff8a"),
    ("settingsDigest", .null), ("gatePack", .null), ("ciState", .null), ("modelIds", .null),
    ("promptDigest", .null), ("aiConfidence", .null), ("aiAgreement", .null),
    ("salvageability", .null), ("divertedByHoldout", .bool false)]

/-- The times of the verdicts, with the digests of their records. -/
def widgetDigests : List (String × String) :=
  [("2026-01-01T00:00:00.000Z", "b7ed0eebb68a8dd82ac6bbdaef7af910ca66457c641ac5fa091a6cb324547c8c"),
    ("2026-01-15T23:59:59.900Z",
      "52e85951a5e3f8479e6f29cf019a8641b9a9b9c537961488bdc78ad5db7682fd"),
    ("2026-02-01T00:00:00.000Z",
      "65d0cc03ddb8148bbf2666c1fca57591ecd5f129486cbc6ecc9746c8222ad7e4"),
    ("2026-03-01T00:00:00.000Z",
      "52acb01f9a9aad49e27b6a99744fcfcc41acafc3d5bd72757b7b3c1c3d94f4e7"),
    ("2026-07-15T00:00:00.000Z",
      "292f697e9854f874d5bf5bb1557f14e4f174527ece904419a15efd6870958b6c")]

/-- The first row of a ledger, for the verdict with the given digest. -/
def widgetRowFields (recordDigest createdAt : String) : LedgerRowFields :=
  ⟨1, "record:acme/widgets#7@c0ffee", recordDigest, createdAt⟩

/-- The rows that the concrete runs append, with their hashes. -/
def widgetRowHashes : List (LedgerRowFields × String) :=
  [(widgetRowFields "b7ed0eebb68a8dd82ac6bbdaef7af910ca66457c641ac5fa091a6cb324547c8c"
      "2026-01-01T00:00:00.100Z",
      "4807effe12629d130a5d2a16065572f22cf3c49f5c1a0c205bd246c3b6acb1fb"),
    (widgetRowFields "52e85951a5e3f8479e6f29cf019a8641b9a9b9c537961488bdc78ad5db7682fd"
      "2026-01-16T00:00:00.100Z",
      "d3acecc684c6b106a8e40516b643f28841bdb25d360706cf828175aec03c3190")]

/-- A platform for the concrete runs. It is asked for the times 180 days and five minutes before. -/
def widgetRuntime : LedgerRuntime where
  sha256Hex := tableHash
    (widgetDigests.map (fun entry => (canonicalJson (widgetRecord entry.1).toJson, entry.2)) ++
      widgetRowHashes.map fun entry => (ledgerGenesisHash ++ canonicalJson entry.1.toJson, entry.2))
  jsonParse text :=
    (widgetDigests.map fun entry => (widgetRecord entry.1).toJson).find? fun value =>
    canonicalJson value == text
  toISOString ms :=
    if ms < 1784073300000 then "2026-01-16T00:00:00.000Z" else "2026-07-14T23:55:00.000Z"

/-- 15 July 2026, in milliseconds. -/
def julyNowMs : ℤ := 1784073600000

/-- An evaluation of the head, decided at the given time. -/
def widgetCall (decidedAt : String) : PersistCall where
  record := widgetRecord decidedAt
  recordDigest := contentDigest widgetRuntime (widgetRecord decidedAt).toJson
  reevaluation := some { reason := .scheduledRecheck }

end LoopOver
