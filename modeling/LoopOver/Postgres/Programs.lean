import LoopOver.Postgres.Store

/-!
# The Postgres queue: programs

The functions of `src/selfhost/pg-queue.ts` that enqueue, claim, run, retry and bury jobs, as
scripts of statements. The gates before a consume, the outcome of the consume, what kind of error it
threw, the lane of a claim, and which jobs an instance runs itself, are whatever the environment
replies.

* `enqueue`, `claimNextWhere` and `processOne` are the functions of the source, in parts.
-/

namespace LoopOver.Postgres

open Queue
open Script

variable {P σ α : Type}

abbrev PgScript (P σ : Type) := Script (PgReply P) σ String

/-- Make a call. -/
abbrev request (call : PgCall P) : PgScript P σ (PgReply P call) := Script.ask call

section Programs

variable (reader : JobReader P)

/-! ## Enqueue -/

section Enqueue

variable (now : ℚ) (message : P) (delaySeconds : ℚ)

/-- A pending full job absorbs a path-scoped one. -/
def absorb : PgScript P σ Bool :=
  match reader.jobCoalesceAbsorbedByKey message with
  | none => pure false
  | some key => do
    let existing ← ofExcept (← request (.selectFirst (isPendingKey key)))
    pure existing.isSome

/-- The pending path-scoped jobs that the message may be merged into. -/
def isMergeable (start : String) (row : Row P) : Bool :=
  isPendingPrefix start row && row.jobKey != reader.jobCoalesceAbsorbedByKey message

/-- Merge into a pending path-scoped job; this fails where the row has changed since it was read. -/
def mergeJob : PgScript P σ Bool :=
  match reader.jobCoalesceMergeKeyPrefix message with
  | none => pure false
  | some start => do
    let candidate ← ofExcept (← request (.selectFirst (isMergeable reader message start)))
    match candidate.bind fun row => (reader.jobCoalesceMergedPayload row.payload message).map
      (Prod.mk row) with
    | none => pure false
    | some (row, merged) => do
      let changed ← ofExcept
        (← request (.update (.merge now message merged delaySeconds row.id row.jobKey)))
      pure (decide (0 < changed))

/-- A full job takes the place of the pending jobs of its repository. -/
def supersede : PgScript P σ Bool :=
  match (reader.jobCoalesceKey message).bind fun _ =>
    reader.jobCoalesceSupersededKeyPrefix message with
  | none => pure false
  | some start => do
    let existing ← ofExcept (← request (.selectFirst (isPendingPrefix start)))
    match existing with
    | none => pure false
    | some row => do
      let _ ← ofExcept (← request (.update (.supersede now message delaySeconds row.id)))
      ofExcept (← request (.delete (.superseded row.id start)))
      pure true

/-- The message takes the place of the pending job with its key. -/
def coalesce : PgScript P σ Bool :=
  match reader.jobCoalesceKey message with
  | none => pure false
  | some key => do
    let existing ← ofExcept (← request (.selectFirst (isPendingKey key)))
    match existing with
    | none => pure false
    | some row => do
      let _ ← ofExcept (← request (.update (.coalesce now message delaySeconds row.id)))
      pure true

def enqueue : PgScript P σ Unit := do
  let now ← request .now
  if ← absorb reader message then pure ()
  else if ← mergeJob reader now message delaySeconds then pure ()
  else if ← supersede reader now message delaySeconds then pure ()
  else if ← coalesce reader now message delaySeconds then pure ()
  else ofExcept (← request (.insertJob now message delaySeconds))

end Enqueue

/-! ## Claims -/

/-- Call the same again. -/
def repeatCall (call : PgScript P σ Unit) : ℕ → PgScript P σ Unit
  | 0 => pure ()
  | n + 1 => do
    call
    repeatCall call n

/-- Look at each candidate, lock the first that can be locked, and claim it. -/
def claimNextWhere (now : ℚ) (eligible : Row P → Bool) : PgScript P σ (Option (PgRow P)) := do
  let (token, candidates) ← ofExcept (← request (.beginClaim now eligible))
  repeatCall (do ofExcept (← request (.scan token))) candidates
  repeatCall (do ofExcept (← request (.lockNext token))) candidates
  ofExcept (← request (.commitClaim token))

/-- A lane, then the foreground, then the background while there is a slot. -/
def claimNext : PgScript P σ (Option (PgRow P)) := do
  let now ← request .now
  let ofLane ← match ← request .foregroundLane with
    | none => pure none
    | some eligible => claimNextWhere now eligible
  match ofLane with
  | some job => pure (some job)
  | none => do
    match ← claimNextWhere now fun row => isForegroundJobPriority row.priority with
    | some job => pure (some job)
    | none => do
      if ← request .backgroundSlot then
        claimNextWhere now fun row => !isForegroundJobPriority row.priority
      else pure none

/-! ## Jobs -/

/-- What is fixed while an instance runs. -/
structure PgSetting where
  maxRetries : ℕ
  maxExtraAttempts : ℕ
  processingTimeoutMs : ℚ
  /-- `isPgConnectionError`. -/
  isConnectionError : String → Bool

variable (setting : PgSetting)

/-- Run a statement that writes. -/
def execute (u : RowUpdate P) : PgScript P σ Unit := do
  let _ ← ofExcept (← request (.update u))
  pure ()

/-- Leases that have expired cost an attempt. -/
def reclaimExpiredProcessingJobs : PgScript P σ Unit :=
  if setting.processingTimeoutMs ≤ 0 then pure ()
  else do
    let now ← request .now
    let expired ← ofExcept (← request (.selectAll fun row =>
      row.status == .processing && decide (row.runAfter ≤ now - setting.processingTimeoutMs)))
    forEach (fun row => do
      if ← request (.isActive row.id) then pure ()
      else if setting.maxRetries ≤ row.attempts + 1 then
        execute (.buryExpired now (row.attempts + 1) row.id)
      else do
        let jitter ← request (.jitter row.id)
        execute (.requeueExpired (row.attempts + 1) (now + jitter) row.id)) expired

/-- `retryPoolQuery` on the `DELETE` of a job that was consumed; a connection that stays lost leaves
the row. -/
def completeJob (job : PgRow P) (start : ℕ) : ℕ → PgScript P σ Unit
  | 0 => pure ()
  | retries + 1 => do
    match ← request (.delete (.complete job start)) with
    | .ok _ => pure ()
    | .error e =>
      if setting.isConnectionError e then completeJob job start retries else ofExcept (.error e)

/-- The pending job with the key of another job. -/
def isSibling (job : PgRow P) (row : Row P) : Bool :=
  row.status == .pending && row.jobKey.isSome && row.jobKey == job.jobKey && row.id != job.id

/-- A rate-limited job gives way to a pending one with its key. -/
def mergeRescheduledJobIntoPending (job : PgRow P) (runAfter : ℚ) (error : String) :
    PgScript P σ Bool := do
  let existing ← ofExcept (← request (.selectFirst (isSibling job)))
  match existing with
  | none => pure false
  | some row => do
    execute (.reschedule runAfter error row.id)
    ofExcept (← request (.delete (.rescheduled job.id)))
    pure true

/-- Which pending rows a rate limit puts off, and until when, depends on their payloads. -/
def deferPendingJobsForRateLimit (retryAfter : ℚ) : PgScript P σ Unit := do
  let rows ← ofExcept (← request (.selectAll fun row => row.status == .pending))
  forEach (fun row => do
    if ← request (.isActive row.id) then execute (.deferPending retryAfter row.id)
      else pure ()) rows

/-- What an error of a job does to its row. -/
def failJob (job : PgRow P) (error : String) : PgScript P σ Unit := do
  match ← request (.classify error) with
  | .connectionLost => pure ()
  | .lockContended runAfter => execute (.lockContended runAfter error job.id)
  | .rateLimited retryAfter => do
    deferPendingJobsForRateLimit retryAfter
    let merged ← if job.jobKey.isSome then mergeRescheduledJobIntoPending job retryAfter error
      else pure false
    if merged then pure () else execute (.rateLimited retryAfter error job.id)
  | .failed runAfter =>
    if setting.maxRetries ≤ job.attempts + 1 then do
      let now ← request .now
      execute (.bury now (job.attempts + 1) error job.id)
    else execute (.retry (job.attempts + 1) runAfter error job.id)

/-- Consume a job and delete its row. -/
def consumeJob (job : PgRow P) : PgScript P σ Unit := do
  let start ← request (.startConsume job)
  let outcome ← attempt do
    ofExcept (← request (.endConsume job start))
    completeJob setting job start 4
  match outcome with
  | .ok _ => pure ()
  | .error e => failJob setting job e

/-- A claimed job, up to its `finally`. -/
def processJob (job : PgRow P) : PgScript P σ Unit :=
  if reader.parses job.payload then do
    match ← request (.gate job) with
    | some deferral => execute (.putOff deferral.retryAfter deferral.error deferral.tag job.id)
    | none => consumeJob setting job
  else do
    let now ← request .now
    execute (.unparseable now job.id)

def processOne : PgScript P σ Unit := do
  reclaimExpiredProcessingJobs setting
  match ← claimNext with
  | none => pure ()
  | some job => processJob reader setting job

end Programs

/-! ## A host to play with -/

section Play

variable (reader : JobReader P)

/-- The reply and the effect of a call on a host where nothing fails but a consume: the clock stands
still, the gates let every job pass, a failed job is due again at once, and there is no lane to
prefer. -/
def PgDb.serve? (outcome : Except String Unit) (db : PgDb P) :
    (call : PgCall P) → Option (PgReply P call × PgDb P)
  | .now => some (0, db)
  | .beginEnqueue => some (db.clock, db)
  | .selectFirst wanted =>
    some (.ok (Table.firstBy siblingFirst (fun row => wanted row.toRow) db.rows), db)
  | .selectAll wanted => some (.ok (db.rows.filter fun row => wanted row.toRow), db)
  | .update u =>
    if db.rows.all fun row => !u.hits row.toRow ||
      db.statements.all fun claim => !claim.locked.contains row.id then
      some (.ok (db.rowCount u.hits), db.update reader u)
    else none
  | .insertJob now message delaySeconds =>
    some (.ok (), db.insertJob reader now message delaySeconds)
  | .delete d =>
    if db.rows.all fun row => !d.hits row.toRow ||
      db.statements.all fun claim => !claim.locked.contains row.id then
      some (.ok (), db.delete d)
    else none
  | .beginClaim now eligible =>
    some (.ok (db.clock, (db.candidates now eligible).length), db.beginClaim now eligible)
  | .scan token => some (.ok (), db.stepClaim token db.scan)
  | .lockNext token => some (.ok (), db.stepClaim token db.lockNext)
  | .commitClaim token => some (.ok (db.commitClaim token).1, (db.commitClaim token).2)
  | .foregroundLane => some (none, db)
  | .backgroundSlot => some (true, db)
  | .isActive _ => some (false, db)
  | .gate _ => some (none, db)
  | .startConsume _ => some (db.clock, db)
  | .endConsume job start =>
    some (outcome, if outcome.isOk then { db with consumed := (job.payload, start) :: db.consumed }
      else db)
  | .classify _ => some (.failed 0, db)
  | .jitter _ => some (0, db)

def PgDb.playCall (outcome : Except String Unit) (db : PgDb P) (call : PgCall P) :
    Option (PgReply P call × PgDb P) :=
  (db.serve? reader outcome call).map fun served =>
    (served.1, { served.2 with clock := db.clock + 1 })

variable {reader} {db after : PgDb P} {call : PgCall P} {reply : PgReply P call}
  {outcome : Except String Unit}

theorem unlocked_of_all {hits : Row P → Bool} (h : (db.rows.all fun row => !hits row.toRow ||
    db.statements.all fun claim => !claim.locked.contains row.id) = true) : db.Unlocked hits := by
  intro row hrow hhits claim hclaim hlocked
  have hfree := List.all_eq_true.1 h row hrow
  rw [hhits, Bool.not_true, Bool.false_or, List.all_eq_true] at hfree
  have hclear := hfree claim hclaim
  rw [List.contains_iff_mem.2 hlocked] at hclear
  cases hclear

theorem serves_of_serve? (h : db.serve? reader outcome call = some (reply, after)) :
    PgDb.serves reader db call reply after := by
  cases call with
  | update u =>
    simp only [PgDb.serve?] at h
    split_ifs at h with hunlocked
    obtain ⟨rfl, rfl⟩ := Prod.mk.inj (Option.some.inj h)
    exact ⟨unlocked_of_all hunlocked, Or.inl ⟨rfl, rfl⟩⟩
  | delete d =>
    simp only [PgDb.serve?] at h
    split_ifs at h with hunlocked
    obtain ⟨rfl, rfl⟩ := Prod.mk.inj (Option.some.inj h)
    exact ⟨unlocked_of_all hunlocked, Or.inl ⟨rfl, rfl⟩⟩
  | selectFirst wanted =>
    obtain ⟨rfl, rfl⟩ := Prod.mk.inj (Option.some.inj h)
    exact ⟨rfl, fun _ hrow => (Except.ok.inj hrow).symm⟩
  | selectAll wanted =>
    obtain ⟨rfl, rfl⟩ := Prod.mk.inj (Option.some.inj h)
    refine ⟨rfl, fun rows hrows row => ?_⟩
    obtain rfl := Except.ok.inj hrows
    exact List.mem_filter
  | insertJob now message delaySeconds =>
    obtain ⟨rfl, rfl⟩ := Prod.mk.inj (Option.some.inj h)
    exact Or.inl ⟨rfl, rfl⟩
  | beginClaim now eligible =>
    obtain ⟨rfl, rfl⟩ := Prod.mk.inj (Option.some.inj h)
    exact Or.inl ⟨rfl, rfl⟩
  | scan token =>
    obtain ⟨rfl, rfl⟩ := Prod.mk.inj (Option.some.inj h)
    exact Or.inl ⟨rfl, rfl⟩
  | lockNext token =>
    obtain ⟨rfl, rfl⟩ := Prod.mk.inj (Option.some.inj h)
    exact Or.inl ⟨rfl, rfl⟩
  | commitClaim token =>
    obtain ⟨rfl, rfl⟩ := Prod.mk.inj (Option.some.inj h)
    exact Or.inl ⟨rfl, rfl⟩
  | beginEnqueue =>
    exact ⟨(Prod.mk.inj (Option.some.inj h)).1.symm, (Prod.mk.inj (Option.some.inj h)).2.symm⟩
  | startConsume job =>
    exact ⟨(Prod.mk.inj (Option.some.inj h)).1.symm, (Prod.mk.inj (Option.some.inj h)).2.symm⟩
  | endConsume job start =>
    obtain ⟨rfl, rfl⟩ := Prod.mk.inj (Option.some.inj h)
    rfl
  | _ => exact (Prod.mk.inj (Option.some.inj h)).2.symm

theorem answers_of_playCall (h : db.playCall reader outcome call = some (reply, after)) :
    PgDb.answers reader db call reply after := by
  obtain ⟨⟨given, served⟩, hserved, hout⟩ := Option.map_eq_some_iff.1 h
  obtain ⟨rfl, rfl⟩ := Prod.mk.inj hout
  exact ⟨served, serves_of_serve? hserved, rfl⟩

end Play

end LoopOver.Postgres
