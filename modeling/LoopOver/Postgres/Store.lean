import LoopOver.Foundations.Conduct
import LoopOver.Queue.Newest

/-!
# The Postgres queue: rows and statements

`src/selfhost/pg-queue.ts` keeps the jobs of several instances in one table. Each of its statements
is a transaction of its own, under READ COMMITTED. All but the claim write rows that they name, and
are one step. The claim picks a row: it reads a snapshot taken when it began, takes an advisory lock
for each key that it looks at, and locks the row; it is a step for each candidate, and other
statements run in between.

* `RowUpdate` and `RowDelete` are the statements that write, with the rows that they hit.
* `ClaimStatement` is a claim in progress. `PgDb.scan` looks at a candidate, `PgDb.lockNext` locks
  one (`FOR UPDATE SKIP LOCKED`), and `PgDb.commitClaim` is the end of the statement.
* `PgCall` are the calls of the instances, and `PgDb.answers` is what they do.

Each row has the number of the call that last wrote its payload or its status, and a claim has the
keys that others have claimed since it began; no statement reads either.
-/

namespace LoopOver.Postgres

open Queue

/-! ## Rows -/

structure PgRow (P : Type) extends Row P where
  version : ℕ

variable {P : Type}

/-- `ORDER BY priority DESC, run_after DESC, id`. -/
def siblingFirst (a b : PgRow P) : Prop := siblingOrder a.toRow b.toRow

/-- `ORDER BY priority DESC, claim_sort_key, run_after, id`. -/
def claimFirst (a b : PgRow P) : Prop := claimOrder a.toRow b.toRow

instance : DecidableRel (siblingFirst (P := P)) :=
  fun a b => inferInstanceAs (Decidable (siblingOrder a.toRow b.toRow))

instance : DecidableRel (claimFirst (P := P)) :=
  fun a b => inferInstanceAs (Decidable (claimOrder a.toRow b.toRow))

/-! ## Statements that write -/

/-- The `UPDATE`s, but for the claim. -/
inductive RowUpdate (P : Type)
  | merge (now : ℚ) (message merged : P) (delaySeconds : ℚ) (id : ℕ) (jobKey : Option String)
  | supersede (now : ℚ) (message : P) (delaySeconds : ℚ) (id : ℕ)
  | coalesce (now : ℚ) (message : P) (delaySeconds : ℚ) (id : ℕ)
  | unparseable (now : ℚ) (id : ℕ)
  /-- A gate puts a claimed job off. -/
  | putOff (retryAfter : ℚ) (error : String) (tag : DeferredBy) (id : ℕ)
  | lockContended (runAfter : ℚ) (error : String) (id : ℕ)
  | rateLimited (retryAfter : ℚ) (error : String) (id : ℕ)
  /-- The pending row that a rate-limited job gives way to. -/
  | reschedule (runAfter : ℚ) (error : String) (id : ℕ)
  | deferPending (runAfter : ℚ) (id : ℕ)
  | bury (now : ℚ) (attempts : ℕ) (error : String) (id : ℕ)
  | retry (attempts : ℕ) (runAfter : ℚ) (error : String) (id : ℕ)
  | buryExpired (now : ℚ) (attempts : ℕ) (id : ℕ)
  | requeueExpired (attempts : ℕ) (runAfter : ℚ) (id : ℕ)
  | heartbeat (now : ℚ) (id : ℕ)
  | recover (runAfter : ℚ) (id : ℕ)
  | abandon (now : ℚ) (ids : List ℕ)
  | revive (runAfter : ℚ) (id : ℕ)
  | replay (now : ℚ) (id : ℕ)

namespace RowUpdate

/-- `WHERE`. -/
def hits : RowUpdate P → Row P → Bool
  | merge _ _ _ _ id jobKey, row => row.id == id && row.status == .pending && row.jobKey == jobKey
  | supersede _ _ _ id, row | coalesce _ _ _ id, row | unparseable _ id, row | putOff _ _ _ id, row
  | lockContended _ _ id, row | rateLimited _ _ id, row | reschedule _ _ id,
    row | bury _ _ _ id, row
  | retry _ _ _ id, row => row.id == id
  | deferPending _ id, row => row.id == id && row.status == .pending
  | buryExpired _ _ id, row | requeueExpired _ _ id, row | heartbeat _ id,
      row | recover _ id, row =>
    row.id == id && row.status == .processing
  | abandon _ ids, row => ids.contains row.id && row.status == .processing
  | revive _ id, row | replay _ id, row => row.id == id && row.status == .dead

/-- `SET`. -/
def set (reader : JobReader P) : RowUpdate P → Row P → Row P
  | merge now message merged delaySeconds _ _, row =>
    mergeInto reader now message merged delaySeconds row
  | supersede now message delaySeconds _, row =>
    replaceIn reader now message delaySeconds (reader.jobCoalesceKey message) row
  | coalesce now message delaySeconds _, row =>
    replaceIn reader now message delaySeconds row.jobKey row
  | unparseable now _, row =>
    { row with
      status := .dead
      attempts := row.attempts + 1
      lastError := some "unparseable payload"
      deadAt := some now }
  | putOff retryAfter error tag _, row =>
    { row with
      status := .pending
      runAfter := max row.runAfter retryAfter
      lastError := row.lastError.or (some error)
      deferredBy := row.deferredBy.or (some tag) }
  | lockContended runAfter error _, row =>
    { row with
      status := .pending, runAfter := runAfter, lastError := some error,
      deferredBy := some .lockContended }
  | rateLimited retryAfter error _, row =>
    { row with
      status := .pending, runAfter := retryAfter, lastError := some error,
      deferredBy := some .rateLimit }
  | reschedule runAfter error _, row =>
    { row with
      runAfter := max row.runAfter runAfter
      lastError := some error
      deferredBy := row.deferredBy.or (some .rateLimit) }
  | deferPending runAfter _, row =>
    { row with
      runAfter := max row.runAfter runAfter
      lastError := row.lastError.or (some "github rate-limit budget deferred")
      deferredBy := row.deferredBy.or (some .rateLimit) }
  | bury now attempts error _, row =>
    { row with status := .dead, attempts := attempts, lastError := some error, deadAt := some now }
  | retry attempts runAfter error _, row =>
    { row with
      status := .pending, attempts := attempts, runAfter := runAfter, lastError := some error }
  | buryExpired now attempts _, row =>
    { row with
      status := .dead
      attempts := attempts
      lastError := some "processing lease expired repeatedly; dead-lettered"
      deadAt := some now }
  | requeueExpired attempts runAfter _, row =>
    { row with
      status := .pending
      runAfter := runAfter
      attempts := attempts
      lastError := row.lastError.or (some "processing lease expired; requeued") }
  | heartbeat now _, row => { row with runAfter := now }
  | recover runAfter _, row | abandon runAfter _, row =>
    { row with status := .pending, runAfter := runAfter }
  | revive runAfter _, row =>
    { row with status := .pending, runAfter := runAfter, lastError := none, deadAt := none }
  | replay now _, row =>
    { row with
      status := .pending, runAfter := now, lastError := none, deadAt := none, attempts := 0 }

/-- The statements that write neither the payload nor the status. -/
def keepsVersion : RowUpdate P → Bool
  | reschedule .. | deferPending .. | heartbeat .. => true
  | _ => false

end RowUpdate

/-- The `DELETE`s. -/
inductive RowDelete (P : Type)
  /-- The job was consumed; the consume began with the given call. -/
  | complete (job : PgRow P) (start : ℕ)
  /-- The job gave way to a pending row with its key. -/
  | rescheduled (id : ℕ)
  | superseded (id : ℕ) (start : String)
  | deadLetter (id : ℕ)
  | deadLetters

def RowDelete.hits : RowDelete P → Row P → Bool
  | complete job _, row => row.id == job.id
  | rescheduled id, row => row.id == id
  | superseded id start, row => row.id != id && isPendingPrefix start row
  | deadLetter id, row => row.id == id && row.status == .dead
  | deadLetters, row => row.status == .dead

/-- What an operator deletes. -/
def RowDelete.isOperator : RowDelete P → Bool
  | deadLetter _ | deadLetters => true
  | _ => false

/-! ## Claims in progress -/

/-- A claim that has begun and not ended. -/
structure ClaimStatement (P : Type) where
  token : ℕ
  now : ℚ
  eligible : Row P → Bool
  /-- The rows when the statement began. -/
  snapshot : List (PgRow P)
  /-- The candidates that are still to be looked at. -/
  unscanned : List (PgRow P)
  /-- The candidates that passed the `WHERE`. -/
  passed : List (PgRow P)
  /-- The keys whose advisory locks the statement holds. -/
  held : List String
  /-- The rows that the statement has locked. -/
  locked : List ℕ
  chosen : Option ℕ
  /-- The keys of the rows that other statements claimed since this one began. -/
  overlapped : List String

/-- `status='pending' AND run_after<=$1`, with what the caller asks for. -/
def isCandidate (now : ℚ) (eligible : Row P → Bool) (row : Row P) : Bool :=
  row.status == .pending && decide (row.runAfter ≤ now) && eligible row

/-- `NOT EXISTS (… status='processing' AND job_key=candidate.job_key)`. -/
def keyIdle (rows : List (PgRow P)) (key : String) : Bool :=
  !rows.any fun row => row.status == .processing && row.jobKey == some key

/-! ## The database -/

structure PgDb (P : Type) where
  rows : List (PgRow P)
  nextId : ℕ
  statements : List (ClaimStatement P)
  /-- The calls so far. -/
  clock : ℕ
  /-- The payloads whose consume succeeded, with the call that began it. -/
  consumed : List (P × ℕ)
  /-- The payloads of the dead letters that an operator deleted. -/
  buried : List P

def emptyPgDb : PgDb P := ⟨[], 1, [], 0, [], []⟩

namespace PgDb

variable (reader : JobReader P) (db : PgDb P)

/-! ### Writes -/

/-- No claim in progress has locked one of the rows. -/
def Unlocked (hits : Row P → Bool) : Prop :=
  ∀ row ∈ db.rows, hits row.toRow = true → ∀ claim ∈ db.statements, row.id ∉ claim.locked

def setRow (u : RowUpdate P) (row : PgRow P) : PgRow P where
  toRow := u.set reader row.toRow
  version := if u.keepsVersion then row.version else db.clock

def update (u : RowUpdate P) : PgDb P :=
  { db with rows := Table.updateWhere (fun row => u.hits row.toRow) (db.setRow reader u) db.rows }

def rowCount (hits : Row P → Bool) : ℕ := db.rows.countP fun row => hits row.toRow

def insertJob (now : ℚ) (message : P) (delaySeconds : ℚ) : PgDb P :=
  { db with
    rows := db.rows ++
      [⟨insertedRow reader { (emptyQueue : QueueState P) with nextId := db.nextId } now message
        delaySeconds, db.clock⟩]
    nextId := db.nextId + 1 }

def delete (d : RowDelete P) : PgDb P :=
  { db with
    rows := Table.deleteWhere (fun row => d.hits row.toRow) db.rows
    buried :=
      if d.isOperator then (db.rows.filter fun row => d.hits row.toRow).map (·.payload) ++ db.buried
      else db.buried }

/-! ### Claims -/

def candidates (now : ℚ) (eligible : Row P → Bool) : List (PgRow P) :=
  db.rows.filter fun row => isCandidate now eligible row.toRow

def beginClaim (now : ℚ) (eligible : Row P → Bool) : PgDb P :=
  { db with
    statements :=
      ⟨db.clock, now, eligible, db.rows, db.candidates now eligible, [], [], [], none, []⟩ ::
      db.statements }

/-- `pg_try_advisory_xact_lock`: a statement may take the same lock again. -/
def lockFree (token : ℕ) (key : String) : Bool :=
  db.statements.all fun other => other.token == token || !other.held.contains key

/-- Whether a candidate passes the test on its key, and the locks that the statement holds after
it. -/
def keyTest (claim : ClaimStatement P) : Option String → Bool × List String
  | none => (true, claim.held)
  | some key =>
    if db.lockFree claim.token key then (keyIdle claim.snapshot key, key :: claim.held)
      else (false, claim.held)

/-- Look at the next candidate. -/
def scan (claim : ClaimStatement P) : ClaimStatement P :=
  match claim.unscanned with
  | [] => claim
  | row :: unscanned =>
    let test := db.keyTest claim row.jobKey
    { claim with
      unscanned := unscanned
      held := test.2
      passed := if test.1 then claim.passed ++ [row] else claim.passed }

def lockedByOther (token id : ℕ) : Bool :=
  db.statements.any fun other => other.token != token && other.locked.contains id

/-- Lock the first row that is left, unless another statement has; the newest version of the row
must still pass. -/
def lockNext (claim : ClaimStatement P) : ClaimStatement P :=
  match claim.chosen, claim.passed.insertionSort claimFirst with
  | none, row :: passed =>
    if db.lockedByOther claim.token row.id then { claim with passed := passed }
    else match db.rows.find? fun current => current.id == row.id with
    | none => { claim with passed := passed }
    | some current =>
      let locking := { claim with passed := passed, locked := row.id :: claim.locked }
      if isCandidate claim.now claim.eligible current.toRow then
        let test := db.keyTest claim current.jobKey
        { locking with held := test.2, chosen := if test.1 then some row.id else none }
      else locking
  | _, _ => claim

/-- The statement goes on. -/
def stepClaim (token : ℕ) (f : ClaimStatement P → ClaimStatement P) : PgDb P :=
  { db with statements := db.statements.map fun claim => if claim.token = token then f claim
    else claim }

/-- The statement ends; its locks are released. -/
def endClaim (token : ℕ) : PgDb P :=
  { db with statements := db.statements.filter fun claim => claim.token ≠ token }

def claimed (now : ℚ) (row : PgRow P) : PgRow P where
  toRow := claimUpdate now row.toRow
  version := db.clock

/-- The row that the statement has chosen. -/
def chosenRow (claim : ClaimStatement P) : Option (PgRow P) :=
  claim.chosen.bind fun id => db.rows.find? fun row => row.id == id

/-- The statement of a token. -/
def statement (token : ℕ) : Option (ClaimStatement P) :=
  db.statements.find? fun claim => claim.token == token

/-- The other statements see a key that is claimed. -/
def overlap (jobKey : Option String) (claim : ClaimStatement P) : ClaimStatement P :=
  { claim with overlapped := jobKey.toList ++ claim.overlapped }

/-- The chosen row is set to processing, and the statement ends. -/
def commitClaim (token : ℕ) : Option (PgRow P) × PgDb P :=
  let ended := db.endClaim token
  match (db.statement token).bind fun claim => (db.chosenRow claim).map (Prod.mk claim) with
  | none => (none, ended)
  | some (claim, row) =>
    (some (db.claimed claim.now row),
      { ended with
        rows := Table.updateWhere (fun other => other.id == row.id) (db.claimed claim.now) db.rows
        statements := ended.statements.map (overlap row.jobKey) })

end PgDb

/-! ## Calls -/

/-- What an error of a job is. -/
inductive ErrorKind
  | connectionLost
  | lockContended (runAfter : ℚ)
  | rateLimited (retryAfter : ℚ)
  | failed (runAfter : ℚ)

/-- How a gate puts a job off. -/
structure Deferral where
  retryAfter : ℚ
  error : String
  tag : DeferredBy

inductive PgCall (P : Type)
  /-- `Date.now()`. -/
  | now
  /-- The call of `enqueue`. -/
  | beginEnqueue
  /-- `SELECT … ORDER BY priority DESC, run_after DESC, id LIMIT 1`. -/
  | selectFirst (wanted : Row P → Bool)
  | selectAll (wanted : Row P → Bool)
  | update (u : RowUpdate P)
  | insertJob (now : ℚ) (message : P) (delaySeconds : ℚ)
  | delete (d : RowDelete P)
  | beginClaim (now : ℚ) (eligible : Row P → Bool)
  | scan (token : ℕ)
  | lockNext (token : ℕ)
  | commitClaim (token : ℕ)
  /-- Which lane the next claim is for. -/
  | foregroundLane
  | backgroundSlot
  /-- Whether the instance itself runs the job. -/
  | isActive (id : ℕ)
  /-- The gates before a consume. -/
  | gate (job : PgRow P)
  | startConsume (job : PgRow P)
  | endConsume (job : PgRow P) (start : ℕ)
  | classify (error : String)
  | jitter (id : ℕ)

/-- What a call may reply; an error is thrown. -/
abbrev PgReply (P : Type) : PgCall P → Type
  | .now | .jitter _ => ℚ
  | .beginEnqueue | .startConsume _ => ℕ
  | .selectFirst _ => Except String (Option (PgRow P))
  | .selectAll _ => Except String (List (PgRow P))
  /- `rowCount`. -/
  | .update _ => Except String ℕ
  | .insertJob .. | .delete _ | .scan _ | .lockNext _ | .endConsume .. => Except String Unit
  /- The token, and how many candidates there are. -/
  | .beginClaim .. => Except String (ℕ × ℕ)
  | .commitClaim _ => Except String (Option (PgRow P))
  | .foregroundLane => Option (Row P → Bool)
  | .backgroundSlot | .isActive _ => Bool
  | .gate _ => Option Deferral
  | .classify _ => ErrorKind

section Answers

variable (reader : JobReader P)

/-- The statement goes on, or the connection is lost, which rolls it back. -/
def ClaimGoesOn (db : PgDb P) (token : ℕ) (f : ClaimStatement P → ClaimStatement P)
    (reply : Except String Unit) (after : PgDb P) : Prop :=
  (reply = .ok () ∧ after = db.stepClaim token f) ∨ (∃ e, reply = .error e) ∧
    after = db.endClaim token

/-- What a call does. A write waits for the claims that have locked its rows. -/
def PgDb.serves : Answers (PgReply P) (PgDb P)
  | db, .beginEnqueue, stamp, after => stamp = db.clock ∧ after = db
  | db, .selectFirst wanted, reply, after =>
    Reads db (· = Table.firstBy siblingFirst (fun row => wanted row.toRow) db.rows) reply after
  | db, .selectAll wanted, reply, after =>
    Reads db (fun rows => ∀ row, row ∈ rows ↔ row ∈ db.rows ∧ wanted row.toRow = true) reply after
  | db, .update u, reply, after =>
    db.Unlocked u.hits ∧ Outcome db (db.update reader u) (db.rowCount u.hits) reply after
  | db, .insertJob now message delaySeconds, reply, after =>
    Outcome db (db.insertJob reader now message delaySeconds) () reply after
  | db, .delete d, reply, after => db.Unlocked d.hits ∧ Outcome db (db.delete d) () reply after
  | db, .beginClaim now eligible, reply, after =>
    (reply = .ok (db.clock, (db.candidates now eligible).length) ∧
      after = db.beginClaim now eligible) ∨
      (∃ e, reply = .error e) ∧ after = db
  | db, .scan token, reply, after => ClaimGoesOn db token db.scan reply after
  | db, .lockNext token, reply, after => ClaimGoesOn db token db.lockNext reply after
  | db, .commitClaim token, reply, after =>
    Outcome (db.endClaim token) (db.commitClaim token).2 (db.commitClaim token).1 reply after
  | db, .startConsume _, start, after => start = db.clock ∧ after = db
  | db, .endConsume job start, reply, after =>
    after = if reply.isOk then { db with consumed := (job.payload, start) :: db.consumed } else db
  -- Nothing is known of the other replies.
  | db, _, _, after => after = db

/-- Every call counts. -/
def PgDb.answers : Answers (PgReply P) (PgDb P) := fun db call reply after =>
  ∃ served, PgDb.serves reader db call reply served ∧ after = { served with clock := db.clock + 1 }

end Answers

end LoopOver.Postgres
