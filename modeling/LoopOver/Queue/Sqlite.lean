import LoopOver.Foundations.Runs
import LoopOver.Queue.Rows
import Mathlib.Algebra.Order.Ring.Rat
import Mathlib.Logic.Function.Basic

/-!
# The SQLite queue

`src/selfhost/sqlite-queue.ts` as a system of steps. Statements run one at a time, so whatever the
source does between two awaits is one step: `enqueue`, the claim of a row (`claimNext` with the
check that its payload parses), each gate that puts a claimed job off, its admission, each way a
consume ends, the reclaim of expired leases, the revive of dead letters, the liveness sweep, and the
recovery at a start. The clock readings, the outcome of a consume and every delay that comes from a
header, a backoff or a jitter are part of the action.

A claimed job is in flight until its `finally`. What a gate does to the row and the `finally` after
it are two steps, since the source awaits in between. `Setting` has what is fixed while the process
runs.

* `enqueue`, `claimNext`, `processOne…` and so on are the operations; `step` is the system.
* `QueueState.RowsApart` says that no two rows have one id; `step_rowsApart` keeps it.
-/

namespace LoopOver.Queue

variable {P : Type}

/-! ## States and actions -/

/-- What the options, the environment and the locale fix. -/
structure Setting where
  maxRetries : ℕ
  maxExtraAttempts : ℕ
  backgroundConcurrency : ℕ
  processingTimeoutMs : ℚ
  attemptFreeRetryDeadlineMs : ℚ
  maintenanceAdmission : MaintenanceAdmissionConfig
  installationConcurrency : InstallationConcurrencyConfig
  livenessEnabled : Bool
  livenessMaxDeferMs : ℚ
  livenessMaxReleasePerSweep : ℕ
  startupJitterMinJobs : ℕ
  localeLe : String → String → Bool

/-- Where `processOne` is with a job. -/
inductive Phase
  | claimed
  | consuming
  /-- A gate put the row off; only the `finally` is left. -/
  | settled
  deriving DecidableEq

/-- A job in flight, as it was when it was claimed. -/
structure Flight (P : Type) where
  job : Row P
  phase : Phase
  backgroundSlotReserved : Bool
  installationConcurrencyKey : Option String
  deriving DecidableEq

structure QueueState (P : Type) where
  rows : List (Row P)
  nextId : ℕ
  claimSequence : ℕ
  lastBacklogRepo : Option String
  flights : List (Flight P)
  activeJobIds : List ℕ
  activeBackground : ℕ
  /-- The in-flight counts of the installations; a missing entry is zero. -/
  installationCounts : String → ℕ

/-- A queue on an empty table. -/
def emptyQueue : QueueState P := ⟨[], 1, 0, none, [], [], 0, fun _ => 0⟩

/-- The operations, with what the environment contributes. A flight is named by its place, and a
jitter by the row it is for. -/
inductive Action (P : Type)
  | enqueue (now : ℚ) (message : P) (delaySeconds : ℚ)
  | claim (now : ℚ)
  | deferRateLimit (flight : ℕ) (now delayMs : ℚ) (kind : String)
  | deferMaintenance (flight : ℕ) (now delayMs : ℚ) (signals : MaintenancePressureSignals)
  | deferInstallation (flight : ℕ) (now delayMs : ℚ)
  | settle (flight : ℕ)
  -- The job passes the gates; the four after it are the ways its consume ends.
  | consume (flight : ℕ) (now : ℚ) (signals : MaintenancePressureSignals)
  | complete (flight : ℕ)
  | lockContended (flight : ℕ) (now retryDelayMs : ℚ) (error : String)
  | rateLimited (flight : ℕ) (now delayMs : ℚ) (jitter : ℕ → ℕ) (error : String)
  | fail (flight : ℕ) (now retryDelayMs : ℚ) (error : String)
  | reclaim (now : ℚ) (jitter : ℕ → ℕ)
  | revive (now : ℚ) (jitter : ℕ → ℕ)
  | sweep (now : ℚ) (rateLimitClear : P → Bool)
  | restart (now : ℚ) (jitter : ℕ → ℕ)
  | spread (now : ℚ) (jitter : ℕ → ℕ)
  | replay (now : ℚ) (id : ℕ)
  | deleteDead (id : ℕ)
  | purgeDead

section Operations

variable (reader : JobReader P) (setting : Setting) (s : QueueState P)

/-! ## Enqueue -/

/-- The sort key of a row that another message is coalesced into. -/
def coalescedSortKey (old incoming : ℚ) : ℚ := if 0 < old then min old incoming else incoming

def isPendingKey (key : String) (row : Row P) : Bool :=
  row.status == .pending && row.jobKey == some key

def isPendingPrefix (start : String) (row : Row P) : Bool :=
  row.status == .pending && hasKeyPrefix start row.jobKey

/-- What the branch that merges two path-scoped jobs makes of a row. -/
def mergeInto (now : ℚ) (message merged : P) (delaySeconds : ℚ) (row : Row P) : Row P :=
  let runAfter := now + delaySeconds * 1000
  { row with
    payload := merged
    runAfter := max row.runAfter runAfter
    createdAt := now
    priority := max row.priority (reader.jobPriority message)
    jobKey := reader.jobCoalesceKey merged
    claimSortKey := coalescedSortKey row.claimSortKey (reader.jobClaimSortKey message runAfter)
    lastError := none
    deferredBy := none }

/-- What the branches that replace a payload make of a row; the one on an equal key does not write
the key. -/
def replaceIn (now : ℚ) (message : P) (delaySeconds : ℚ) (jobKey : Option String) (row : Row P) :
    Row P :=
  let runAfter := now + delaySeconds * 1000
  { row with
    payload := message
    runAfter := max row.runAfter runAfter
    priority := max row.priority (reader.jobPriority message)
    jobKey := jobKey
    foregroundLane := reader.foregroundLaneForJob message
    claimSortKey := coalescedSortKey row.claimSortKey (reader.jobClaimSortKey message runAfter)
    lastError := none
    deferredBy := none }

def insertedRow (now : ℚ) (message : P) (delaySeconds : ℚ) : Row P :=
  let runAfter := now + delaySeconds * 1000
  { id := s.nextId
    payload := message
    status := .pending
    attempts := 0
    runAfter := runAfter
    createdAt := now
    lastError := none
    priority := reader.jobPriority message
    jobKey := reader.jobCoalesceKey message
    claimSortKey := reader.jobClaimSortKey message runAfter
    isMaintenance := reader.isMaintenanceJobType message
    foregroundLane := reader.foregroundLaneForJob message
    deadAt := none
    deferredBy := none }

/-- A pending full job absorbs a path-scoped one. -/
def absorbingRow (message : P) : Option (Row P) :=
  (reader.jobCoalesceAbsorbedByKey message).bind fun key =>
    Table.firstBy siblingOrder (isPendingKey key) s.rows

/-- The pending path-scoped job that the message is merged into, and the merged payload. -/
def mergeCandidate (message : P) : Option (Row P × P) :=
  (reader.jobCoalesceMergeKeyPrefix message).bind fun start =>
    (Table.firstBy siblingOrder (fun row => isPendingPrefix start row &&
      row.jobKey != reader.jobCoalesceAbsorbedByKey message) s.rows).bind fun row =>
        (reader.jobCoalesceMergedPayload row.payload message).map fun merged => (row, merged)

/-- The pending job that a full one takes the place of, with the prefix of the others. -/
def supersededRow (message : P) : Option (Row P × String) :=
  (reader.jobCoalesceKey message).bind fun _ =>
    (reader.jobCoalesceSupersededKeyPrefix message).bind fun start =>
      (Table.firstBy siblingOrder (isPendingPrefix start) s.rows).map fun row => (row, start)

/-- The pending job with the same key. -/
def coalescedRow (message : P) : Option (Row P) :=
  (reader.jobCoalesceKey message).bind fun key =>
    Table.firstBy siblingOrder (isPendingKey key) s.rows

def enqueue (now : ℚ) (message : P) (delaySeconds : ℚ) : QueueState P :=
  if (absorbingRow reader s message).isSome then s
  else match mergeCandidate reader s message with
  | some (row, merged) =>
    { s with
      rows := Table.updateWhere (·.id == row.id)
        (mergeInto reader now message merged delaySeconds) s.rows }
  | none =>
  match supersededRow reader s message with
  | some (row, start) =>
    { s with
      rows := Table.deleteWhere (fun other => other.id != row.id && isPendingPrefix start other)
        (Table.updateWhere (·.id == row.id)
          (replaceIn reader now message delaySeconds (reader.jobCoalesceKey message)) s.rows) }
  | none =>
  match coalescedRow reader s message with
  | some row =>
    { s with
      rows := Table.updateWhere (·.id == row.id)
        (fun old => replaceIn reader now message delaySeconds old.jobKey old) s.rows }
  | none => { s with
    rows := s.rows ++ [insertedRow reader s now message delaySeconds], nextId := s.nextId + 1 }

/-! ## Claims -/

/-- No row with the key of the candidate is in flight. -/
def keyFree (rows : List (Row P)) (candidate : Row P) : Bool :=
  candidate.jobKey.isNone ||
    !rows.any fun processing => processing.status == .processing &&
      processing.jobKey == candidate.jobKey

def claimable (now : ℚ) (eligible : Row P → Bool) (rows : List (Row P)) (candidate : Row P) :
    Bool :=
  candidate.status == .pending && decide (candidate.runAfter ≤ now) && eligible candidate &&
    keyFree rows candidate

def claimUpdate (now : ℚ) (row : Row P) : Row P :=
  { row with status := .processing, runAfter := now }

/-- Claim the first eligible row; the job is the row as it was. -/
def claimNextWhere (now : ℚ) (eligible : Row P → Bool) : Option (Row P) × QueueState P :=
  match Table.firstBy claimOrder (claimable now eligible s.rows) s.rows with
  | none => (none, s)
  | some row =>
    let taken := Table.updateWhere (fun old => old.id == row.id &&
      old.status == .pending) (claimUpdate now) s.rows
    (some row, { s with rows := taken })

/-- The rows that are due, of one lane. -/
def dueOfLane (now : ℚ) (lane : Option ForegroundLane) : List (Row P) :=
  s.rows.filter fun row => row.status == .pending && decide (row.runAfter ≤ now) &&
    row.foregroundLane == lane

def maxDueUnclassifiedForegroundPriority (now : ℚ) : Option ℕ :=
  ((dueOfLane s now none).filter fun row => isForegroundJobPriority row.priority).foldl
    (fun best row => some (max (best.getD 0) row.priority)) none

def oldestDueForegroundLaneAgeMs (now : ℚ) (lane : ForegroundLane) : Option ℚ :=
  (dueOfLane s now (some lane)).foldl (fun oldest row =>
    some (max (oldest.getD (now - row.createdAt)) (now - row.createdAt))) none

/-- A lane has to beat the best unclassified row, unless it starved for too long. -/
def lanePriorityGate (unclassifiedPriority : Option ℕ) (oldestDueLaneAgeMs : Option ℚ)
    (priority : ℕ) : Bool :=
  match unclassifiedPriority with
  | none => isForegroundJobPriority priority
  | some unclassified =>
    if shouldEscapeLanePriorityGate oldestDueLaneAgeMs then isForegroundJobPriority priority
    else unclassified < priority

def claimNextForegroundLane (now : ℚ) : Option (Row P) × QueueState P :=
  let sequence := s.claimSequence
  let next := { s with claimSequence := sequence + 1 }
  if sequence % 5 = 4 then (none, next)
  else
    let unclassifiedPriority := maxDueUnclassifiedForegroundPriority s now
    match nextForegroundLane sequence with
    | .fresh =>
      let gate := lanePriorityGate unclassifiedPriority (oldestDueForegroundLaneAgeMs s now .fresh)
      claimNextWhere next now fun row => gate row.priority && row.foregroundLane == some .fresh
    | .backlog =>
      let gate :=
        lanePriorityGate unclassifiedPriority (oldestDueForegroundLaneAgeMs s now .backlog)
      let candidates := backlogRepoCandidatesFromJobKeys
        ((dueOfLane s now (some .backlog)).map fun row => (row.jobKey, row.createdAt)) now
      match pickBacklogRepo setting.localeLe candidates s.lastBacklogRepo with
      | none => (none, next)
      | some repo =>
        let pattern := (agentRegatePrJobKeyPrefix ++ repo ++ "#%").toList
        match claimNextWhere next now fun row => gate row.priority &&
            row.foregroundLane == some .backlog &&
            row.jobKey.any fun key => sqlLike pattern key.toList with
        | (none, after) => (none, after)
        | (some row, after) => (some row, { after with lastBacklogRepo := some repo })

/-- A lane, then the foreground, then the background while there is a slot; the flag tells whether
one was taken. -/
def claimNext (now : ℚ) : Option (Row P × Bool) × QueueState P :=
  match claimNextForegroundLane setting s now with
  | (some row, after) => (some (row, false), after)
  | (none, after) =>
    match claimNextWhere after now fun row => isForegroundJobPriority row.priority with
    | (some row, after) => (some (row, false), after)
    | (none, after) =>
      if setting.backgroundConcurrency ≤ after.activeBackground then (none, after)
      else match claimNextWhere after now fun row => !isForegroundJobPriority row.priority with
        | (none, after) => (none, after)
        | (some row, after) =>
          (some (row, true), { after with activeBackground := after.activeBackground + 1 })

/-! ## Jobs in flight -/

/-- The `finally` of `processOne`. -/
def release (flight : Flight P) : QueueState P :=
  { s with
    activeJobIds := s.activeJobIds.filter (· != flight.job.id)
    activeBackground := if flight.backgroundSlotReserved then s.activeBackground - 1
      else s.activeBackground
    installationCounts := match flight.installationConcurrencyKey with
      | none => s.installationCounts
      | some key => Function.update s.installationCounts key (s.installationCounts key - 1) }

/-- The job at a place leaves the list and its slots. -/
def land (index : ℕ) (flight : Flight P) : QueueState P :=
  release { s with flights := s.flights.eraseIdx index } flight

def setRow (id : ℕ) (f : Row P → Row P) : QueueState P :=
  { s with rows := Table.updateWhere (·.id == id) f s.rows }

/-- Claim a job. A payload that does not parse makes it a dead letter at once. -/
def processOneClaim (now : ℚ) : QueueState P :=
  match claimNext setting s now with
  | (none, after) => after
  | (some (job, backgroundSlotReserved), after) =>
    let flight : Flight P := ⟨job, .claimed, backgroundSlotReserved, none⟩
    let active := { after with activeJobIds := job.id :: after.activeJobIds }
    if reader.parses job.payload then { active with flights := active.flights ++ [flight] }
    else
      release (setRow active job.id fun row =>
        { row with
          status := .dead
          attempts := row.attempts + 1
          lastError := some "unparseable payload"
          deadAt := some now }) flight

/-- A gate puts the row of a claimed job off. -/
def putOff (index : ℕ) (flight : Flight P) (retryAfter : ℚ) (error : String) (tag : DeferredBy) :
    QueueState P :=
  let deferred := setRow s flight.job.id fun row =>
    { row with
      status := .pending
      runAfter := max row.runAfter retryAfter
      lastError := row.lastError.or (some error)
      deferredBy := row.deferredBy.or (some tag) }
  { deferred with flights := deferred.flights.set index { flight with phase := .settled } }

/-- Whether the maintenance gate applies to a job. -/
def underMaintenanceGate (job : Row P) : Bool :=
  !isForegroundJobPriority job.priority && reader.isMaintenanceJobType job.payload

/-- Past the gates: the job is counted for its installation and consumed. -/
def admitFlight (index : ℕ) (flight : Flight P) : QueueState P :=
  match reader.installationConcurrencyKeyForJob flight.job.payload with
  | none => { s with flights := s.flights.set index { flight with phase := .consuming } }
  | some key =>
    { s with
      installationCounts := Function.update s.installationCounts key (s.installationCounts key + 1)
      flights := s.flights.set index
        { flight with phase := .consuming, installationConcurrencyKey := some key } }

/-- The installation lets one more job run. -/
def installationAdmits (job : Row P) : Bool :=
  (reader.installationConcurrencyKeyForJob job.payload).all fun key =>
    (evaluateInstallationConcurrencyAdmission setting.installationConcurrency
      (s.installationCounts key)).admitted

def matchesGitHubRateLimitAdmissionTarget (candidate : Option (Option String))
    (blocked : Option String) : Bool :=
  candidate.any fun admissionKey => admissionKey == blocked || admissionKey.isNone

/-- The pending rows under the blocked target that become due before the limit is over. -/
def budgetBlocked (now delayMs : ℚ) (blocked : Option (Option String)) (row : Row P) : Bool :=
  blocked.any fun target => row.status == .pending && decide (row.runAfter ≤ now + delayMs) &&
    matchesGitHubRateLimitAdmissionTarget
      (reader.githubRateLimitAdmissionTargetForJob row.payload) target

def deferPendingJobsForRateLimit (now delayMs : ℚ) (jitter : ℕ → ℕ)
    (blocked : Option (Option String)) :
    List (Row P) → List (Row P) :=
  Table.updateWhere (budgetBlocked reader now delayMs blocked) fun row =>
    { row with
      runAfter := max row.runAfter (now + (delayMs + jitter row.id))
      lastError := row.lastError.or (some "github rate-limit budget deferred")
      deferredBy := row.deferredBy.or (some .rateLimit) }

/-- The pending row that a rate-limited job is merged into. -/
def rescheduleSibling (job : Row P) (rows : List (Row P)) : Option (Row P) :=
  job.jobKey.bind fun key => Table.firstBy siblingOrder (fun row => isPendingKey key row &&
    row.id != job.id) rows

/-- A rate-limited job gives way to a pending row with its key, and is put off where there is
none. -/
def rescheduleRateLimited (job : Row P) (retryAfter : ℚ) (error : String) (rows : List (Row P)) :
    List (Row P) :=
  match rescheduleSibling job rows with
  | some sibling =>
    Table.deleteWhere (·.id == job.id) (Table.updateWhere (·.id == sibling.id)
      (fun row => { row with
        runAfter := max row.runAfter retryAfter
        lastError := some error
        deferredBy := row.deferredBy.or (some .rateLimit) }) rows)
  | none =>
    Table.updateWhere (·.id == job.id)
      (fun row => { row with
        status := .pending
        runAfter := retryAfter
        lastError := some error
        deferredBy := some .rateLimit }) rows

def processOneRateLimited (index : ℕ) (flight : Flight P) (now delayMs : ℚ) (jitter : ℕ → ℕ)
    (error : String) :
    QueueState P :=
  let job := flight.job
  let blocked := reader.githubRateLimitAdmissionTargetForJob job.payload
  let deferred := deferPendingJobsForRateLimit reader now delayMs jitter blocked s.rows
  land { s with rows := rescheduleRateLimited job (now + (delayMs + jitter job.id)) error deferred }
    index flight

/-- A consume that failed uses up an attempt. -/
def processOneFail (index : ℕ) (flight : Flight P) (now retryDelayMs : ℚ) (error : String) :
    QueueState P :=
  let attempts := flight.job.attempts + 1
  let after :=
    if setting.maxRetries ≤ attempts then
      setRow s flight.job.id fun row =>
        { row with
          status := .dead, attempts := attempts, lastError := some error, deadAt := some now }
    else
      setRow s flight.job.id fun row =>
        { row with
          status := .pending
          attempts := attempts
          runAfter := now + retryDelayMs
          lastError := some error }
  land after index flight

/-! ## Timers and starts -/

/-- Leases that expired, of jobs that this process is not working on. -/
def reclaimExpiredProcessingJobs (now : ℚ) (jitter : ℕ → ℕ) : QueueState P :=
  if setting.processingTimeoutMs ≤ 0 then s
  else
    { s with
      rows := Table.updateWhere
        (fun row => row.status == .processing &&
          decide (row.runAfter ≤ now - setting.processingTimeoutMs) &&
          !s.activeJobIds.contains row.id)
        (fun row => { row with
          status := .pending
          runAfter := now + jitter row.id
          lastError := row.lastError.or (some "processing lease expired; requeued") }) s.rows }

def reviveEligibleDeadJobs (now : ℚ) (jitter : ℕ → ℕ) : QueueState P :=
  { s with
    rows := Table.updateWhere
      (fun row => row.status == .dead &&
        decide (row.attempts < setting.maxRetries + setting.maxExtraAttempts))
      (fun row => { row with
        status := .pending
        runAfter := now + jitter row.id
        lastError := none
        deadAt := none }) s.rows }

/-- A row that a gate put off and that is not due. -/
def isDeferredForeground (now : ℚ) (row : Row P) : Bool :=
  row.status == .pending && isForegroundJobPriority row.priority && decide (now < row.runAfter) &&
    row.deferredBy.isSome

/-- Whether the row waited too long, or its rate limit is over. -/
def isReleasable (now : ℚ) (rateLimitClear : P → Bool) (row : Row P) : Bool :=
  (setting.livenessEnabled && decide (setting.livenessMaxDeferMs ≤ now - row.createdAt)) ||
    (row.deferredBy == some .rateLimit && rateLimitClear row.payload)

/-- Clear buckets first, then the oldest, up to the cap. -/
def selectForegroundDeferralsToRelease (rateLimitClear : P → Bool) (candidates : List (Row P)) :
    List (Row P) :=
  let clear (row : Row P) : Bool := row.deferredBy == some .rateLimit && rateLimitClear row.payload
  if candidates.length ≤ setting.livenessMaxReleasePerSweep then candidates
  else
    (candidates.insertionSort fun a b =>
      (clear a = true ∧ clear b = false) ∨ clear a = clear b ∧ a.createdAt ≤ b.createdAt).take
      setting.livenessMaxReleasePerSweep

/-- The oldest and the newest of the deferred rows. -/
def sweepCandidates (now : ℚ) : List (Row P) :=
  let deferred := s.rows.filter (isDeferredForeground now)
  let oldest := (deferred.insertionSort fun a b =>
    a.createdAt < b.createdAt ∨ a.createdAt = b.createdAt ∧
      a.id ≤ b.id).take setting.livenessMaxReleasePerSweep
  let newest := (deferred.insertionSort fun a b =>
    b.createdAt < a.createdAt ∨ a.createdAt = b.createdAt ∧
      b.id ≤ a.id).take setting.livenessMaxReleasePerSweep
  oldest ++ newest.filter fun row => !(oldest.map (·.id)).contains row.id

def releaseStaleForegroundDeferrals (now : ℚ) (rateLimitClear : P → Bool) : QueueState P :=
  if !setting.livenessEnabled then s
  else
    let eligible := (sweepCandidates setting s now).filter (isReleasable setting now rateLimitClear)
    let toRelease := (selectForegroundDeferralsToRelease setting rateLimitClear eligible).map (·.id)
    { s with
      rows := Table.updateWhere
        (fun row => toRelease.contains row.id && row.status == .pending &&
          decide (now < row.runAfter))
        (fun row => { row with runAfter := now, deferredBy := none }) s.rows }

/-- The columns of a live row, computed anew from its payload. -/
def backfill (row : Row P) : Row P :=
  if row.status = .dead then row
  else
    { row with
      priority := reader.jobPriority row.payload
      jobKey := reader.jobCoalesceKey row.payload
      claimSortKey := reader.jobClaimSortKey row.payload row.runAfter
      isMaintenance := reader.isMaintenanceJobType row.payload
      foregroundLane := reader.foregroundLaneForJob row.payload }

def recoverProcessingJobs (now : ℚ) (jitter : ℕ → ℕ) : List (Row P) → List (Row P) :=
  Table.updateWhere (·.status == .processing) fun row =>
    { row with status := .pending, runAfter := now + jitter row.id }

/-- A new process on the table of the last one. -/
def startProcess (now : ℚ) (jitter : ℕ → ℕ) : QueueState P :=
  { s with
    rows := recoverProcessingJobs now jitter (s.rows.map (backfill reader))
    flights := []
    activeJobIds := []
    activeBackground := 0
    installationCounts := fun _ => 0 }

def isDue (now : ℚ) (row : Row P) : Bool := row.status == .pending && decide (row.runAfter ≤ now)

def spreadDueJobsOnStartup (now : ℚ) (jitter : ℕ → ℕ) : QueueState P :=
  if (s.rows.filter (isDue now)).length < setting.startupJitterMinJobs then s
  else
    { s with
      rows := Table.updateWhere (isDue now)
        (fun row => { row with runAfter := now + jitter row.id }) s.rows }

/-! ## What an operator does -/

def replayDeadLetterJob (now : ℚ) (id : ℕ) : QueueState P :=
  { s with
    rows := Table.updateWhere (fun row => row.id == id && row.status == .dead)
      (fun row => { row with
        status := .pending
        runAfter := now
        lastError := none
        deadAt := none
        attempts := 0 }) s.rows }

/-! ## Steps -/

/-- The job at a place, in a phase. -/
def flightIn (phase : Phase) (index : ℕ) : Option (Flight P) :=
  (s.flights[index]?).filter (·.phase == phase)

/-- One step of the queue. -/
def step : Action P → Option (QueueState P)
  | .enqueue now message delaySeconds => some (enqueue reader s now message delaySeconds)
  | .claim now => some (processOneClaim reader setting s now)
  | .deferRateLimit index now delayMs kind =>
    (flightIn s .claimed index).map fun flight =>
      putOff s index flight (now + delayMs) ("github rate-limit " ++ kind ++
        " admission") .rateLimit
  | .deferMaintenance index now delayMs signals =>
    (flightIn s .claimed index).bind fun flight =>
      let decision :=
        evaluateMaintenanceAdmission signals setting.maintenanceAdmission flight.job.createdAt now
      if underMaintenanceGate reader flight.job && !decision.admitted then
        some (putOff s index flight (now + delayMs)
          ("maintenance admission deferred: " ++ decision.reason.text)
          .maintenanceAdmission)
      else none
  | .deferInstallation index now delayMs =>
    (flightIn s .claimed index).bind fun flight =>
      if installationAdmits reader setting s flight.job then none
      else
        some (putOff s index flight (now + delayMs)
          "installation concurrency admission deferred: concurrency_high"
          .installationConcurrency)
  | .settle index => (flightIn s .settled index).map fun flight => land s index flight
  | .consume index now signals =>
    (flightIn s .claimed index).bind fun flight =>
      let decision :=
        evaluateMaintenanceAdmission signals setting.maintenanceAdmission flight.job.createdAt now
      if (!underMaintenanceGate reader flight.job || decision.admitted) &&
          installationAdmits reader setting s flight.job then
        some (admitFlight reader s index flight)
      else none
  | .complete index =>
    (flightIn s .consuming index).map fun flight =>
      land { s with rows := Table.deleteWhere (·.id == flight.job.id) s.rows } index flight
  | .lockContended index now retryDelayMs error =>
    (flightIn s .consuming index).bind fun flight =>
      if now - flight.job.createdAt < setting.attemptFreeRetryDeadlineMs then
        some (land (setRow s flight.job.id fun row =>
          { row with
            status := .pending
            runAfter := now + retryDelayMs
            lastError := some error
            deferredBy := some .lockContended }) index flight)
      else none
  | .rateLimited index now delayMs jitter error =>
    (flightIn s .consuming index).map fun flight =>
      processOneRateLimited reader s index flight now delayMs jitter error
  | .fail index now retryDelayMs error =>
    (flightIn s .consuming index).map fun flight =>
      processOneFail setting s index flight now retryDelayMs error
  | .reclaim now jitter => some (reclaimExpiredProcessingJobs setting s now jitter)
  | .revive now jitter => some (reviveEligibleDeadJobs setting s now jitter)
  | .sweep now rateLimitClear => some (releaseStaleForegroundDeferrals setting s now rateLimitClear)
  | .restart now jitter => some (startProcess reader s now jitter)
  | .spread now jitter => some (spreadDueJobsOnStartup setting s now jitter)
  | .replay now id => some (replayDeadLetterJob s now id)
  | .deleteDead id =>
    some { s with rows := Table.deleteWhere (fun row => row.id == id &&
      row.status == .dead) s.rows }
  | .purgeDead => some { s with rows := Table.deleteWhere (·.status == .dead) s.rows }

end Operations

end LoopOver.Queue
