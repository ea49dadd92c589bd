import LoopOver.Contract.Digest
import LoopOver.Foundations.Table
import Mathlib.Data.Rat.Floor

/-!
# The rows of the job queue

The self-hosted queue keeps its jobs in the table `_selfhost_jobs`, with the same columns under
SQLite (`src/selfhost/sqlite-queue.ts`) and Postgres (`src/selfhost/pg-queue.ts`). Times are
milliseconds.

A payload is read by functions of `queue-common.ts`. `JobReader` holds them; of these the coalesce
keys decide which rows stand for one need, and the others only the order in which rows are claimed
and the gates they pass. The queue is the same for every reader.

* `Row` is a row, `siblingOrder` and `claimOrder` are the two orders that queries use.
* `evaluateMaintenanceAdmission` and `evaluateInstallationConcurrencyAdmission` are the two gates
  with a policy of their own.
-/

namespace LoopOver.Queue

/-! ## Columns -/

/-- Where a job stands. -/
inductive JobStatus
  | pending
  | processing
  | dead
  deriving DecidableEq

/-- The two lanes of the foreground. -/
inductive ForegroundLane
  | backlog
  | fresh
  deriving DecidableEq

/-- Which gate put a row off. -/
inductive DeferredBy
  | rateLimit
  | maintenanceAdmission
  | installationConcurrency
  | lockContended
  deriving DecidableEq

/-- A row of the job table. -/
structure Row (P : Type) where
  id : ℕ
  payload : P
  status : JobStatus
  attempts : ℕ
  runAfter : ℚ
  createdAt : ℚ
  lastError : Option String
  priority : ℕ
  jobKey : Option String
  claimSortKey : ℚ
  isMaintenance : Bool
  foregroundLane : Option ForegroundLane
  deadAt : Option ℚ
  deferredBy : Option DeferredBy
  deriving DecidableEq

/-- What the queue reads from a payload. -/
structure JobReader (P : Type) where
  /-- Whether `JSON.parse` reads the payload. -/
  parses : P → Bool
  jobPriority : P → ℕ
  jobCoalesceKey : P → Option String
  jobCoalesceAbsorbedByKey : P → Option String
  jobCoalesceMergeKeyPrefix : P → Option String
  jobCoalesceMergedPayload : P → P → Option P
  jobCoalesceSupersededKeyPrefix : P → Option String
  foregroundLaneForJob : P → Option ForegroundLane
  jobClaimSortKey : P → ℚ → ℚ
  isMaintenanceJobType : P → Bool
  installationConcurrencyKeyForJob : P → Option String
  /-- The admission key of the rate limit that the job is under, which may itself be unknown. -/
  githubRateLimitAdmissionTargetForJob : P → Option (Option String)
  /-- The priority depends on the type of a job, and merging keeps the type. -/
  jobPriority_merged : ∀ existing incoming merged,
    jobCoalesceMergedPayload existing incoming = some merged →
      jobPriority merged = jobPriority incoming

def foregroundQueuePriorityFloor : ℕ := 8

/-- The job is of the foreground. -/
def isForegroundJobPriority (priority : ℕ) : Bool := foregroundQueuePriorityFloor ≤ priority

/-! ## Orders -/

/-- `ORDER BY priority DESC, run_after DESC, id`. -/
def siblingOrder {P : Type} (a b : Row P) : Prop :=
  b.priority < a.priority ∨ a.priority = b.priority ∧
    (b.runAfter < a.runAfter ∨ a.runAfter = b.runAfter ∧ a.id ≤ b.id)

instance {P : Type} : DecidableRel (siblingOrder (P := P)) := fun a b =>
  inferInstanceAs (Decidable (b.priority < a.priority ∨ a.priority = b.priority ∧
    (b.runAfter < a.runAfter ∨ a.runAfter = b.runAfter ∧ a.id ≤ b.id)))

/-- `ORDER BY priority DESC, claim_sort_key, run_after, id`. -/
def claimOrder {P : Type} (a b : Row P) : Prop :=
  b.priority < a.priority ∨ a.priority = b.priority ∧
    (a.claimSortKey < b.claimSortKey ∨ a.claimSortKey = b.claimSortKey ∧
      (a.runAfter < b.runAfter ∨ a.runAfter = b.runAfter ∧ a.id ≤ b.id))

instance {P : Type} : DecidableRel (claimOrder (P := P)) := fun a b =>
  inferInstanceAs (Decidable (b.priority < a.priority ∨ a.priority = b.priority ∧
    (a.claimSortKey < b.claimSortKey ∨ a.claimSortKey = b.claimSortKey ∧
      (a.runAfter < b.runAfter ∨ a.runAfter = b.runAfter ∧ a.id ≤ b.id))))

/-- `substr(job_key, 1, n) = prefix` with the length of the prefix in UTF-16 units for `n`, which
`substr` takes for a number of characters. -/
def hasKeyPrefix (start : String) : Option String → Bool
  | none => false
  | some key => key.toList.take (utf16Units start).length == start.toList

/-- `LIKE` with its two wildcards; letters of ASCII match in either case. -/
def sqlLike : List Char → List Char → Bool
  | [], text => text.isEmpty
  | c :: pattern, text =>
    if c = '%' then text.tails.any fun rest => sqlLike pattern rest
    else match text with
      | [] => false
      | d :: rest => (c == '_' || c.toLower == d.toLower) && sqlLike pattern rest

/-! ## Gates -/

/-- The limits of the pressure under which maintenance runs. -/
structure MaintenanceAdmissionConfig where
  enabled : Bool
  maxLivePendingCount : ℚ
  maxLiveJobAgeMs : ℚ
  maxMaintenancePendingCount : ℚ
  maxHostLoadAvg1PerCore : ℚ
  maxHostMemoryUsedFraction : ℚ
  maxBacklogConvergencePendingCount : ℚ
  maxDeferAgeMs : ℚ
  maintenanceDrainAgeMs : ℚ

/-- The signals that the policy reads. -/
structure MaintenancePressureSignals where
  liveRunnableNowCount : ℚ
  oldestLiveRunnableAgeMs : Option ℚ
  maintenancePendingCount : ℚ
  backlogConvergencePendingCount : ℚ
  hostLoadAvg1PerCore : Option ℚ
  hostMemoryUsedFraction : Option ℚ

/-- Why maintenance runs or not. -/
inductive MaintenanceAdmissionReason
  | disabled
  | trickleMaxDeferAge
  | livePendingHigh
  | liveJobAgeHigh
  | backlogConvergenceHigh
  | maintenancePendingHigh
  | maintenancePendingHighDrain
  | hostLoadHigh
  | hostMemoryHigh
  | pressureClear
  deriving DecidableEq

def MaintenanceAdmissionReason.text : MaintenanceAdmissionReason → String
  | .disabled => "disabled"
  | .trickleMaxDeferAge => "trickle_max_defer_age"
  | .livePendingHigh => "live_pending_high"
  | .liveJobAgeHigh => "live_job_age_high"
  | .backlogConvergenceHigh => "backlog_convergence_high"
  | .maintenancePendingHigh => "maintenance_pending_high"
  | .maintenancePendingHighDrain => "maintenance_pending_high_drain"
  | .hostLoadHigh => "host_load_high"
  | .hostMemoryHigh => "host_memory_high"
  | .pressureClear => "pressure_clear"

structure MaintenanceAdmissionDecision where
  admitted : Bool
  reason : MaintenanceAdmissionReason
  deriving DecidableEq

/-- A reading that is there and above its limit. -/
def exceeds (reading : Option ℚ) (limit : ℚ) : Bool := reading.any fun value => limit < value

/-- A job that waited too long runs under any pressure. -/
def evaluateMaintenanceAdmission (signals : MaintenancePressureSignals)
    (config : MaintenanceAdmissionConfig) (pendingSinceMs nowMs : ℚ) :
    MaintenanceAdmissionDecision :=
  if !config.enabled then ⟨true, .disabled⟩
  else if config.maxDeferAgeMs ≤ nowMs - pendingSinceMs then ⟨true, .trickleMaxDeferAge⟩
  else if config.maxLivePendingCount < signals.liveRunnableNowCount then ⟨false, .livePendingHigh⟩
  else if exceeds signals.oldestLiveRunnableAgeMs config.maxLiveJobAgeMs then
    ⟨false, .liveJobAgeHigh⟩
  else if config.maxBacklogConvergencePendingCount < signals.backlogConvergencePendingCount then
    ⟨false, .backlogConvergenceHigh⟩
  else
    let hostLoadHigh := exceeds signals.hostLoadAvg1PerCore config.maxHostLoadAvg1PerCore
    let hostMemoryHigh := exceeds signals.hostMemoryUsedFraction config.maxHostMemoryUsedFraction
    if config.maxMaintenancePendingCount < signals.maintenancePendingCount then
      if config.maintenanceDrainAgeMs ≤ nowMs - pendingSinceMs then
        if hostLoadHigh then ⟨false, .hostLoadHigh⟩
        else if hostMemoryHigh then ⟨false, .hostMemoryHigh⟩
        else ⟨true, .maintenancePendingHighDrain⟩
      else ⟨false, .maintenancePendingHigh⟩
    else if hostLoadHigh then ⟨false, .hostLoadHigh⟩
    else if hostMemoryHigh then ⟨false, .hostMemoryHigh⟩
    else ⟨true, .pressureClear⟩

/-- Whatever the signals are, a job is admitted once it is old enough. -/
theorem evaluateMaintenanceAdmission_trickle (signals : MaintenancePressureSignals)
    (config : MaintenanceAdmissionConfig) {pendingSinceMs nowMs : ℚ}
    (hage : config.maxDeferAgeMs ≤ nowMs - pendingSinceMs) :
    (evaluateMaintenanceAdmission signals config pendingSinceMs nowMs).admitted = true := by
  rw [evaluateMaintenanceAdmission]
  split_ifs <;> rfl

/-- The limit of the jobs of one installation. -/
structure InstallationConcurrencyConfig where
  enabled : Bool
  maxConcurrentPerInstallation : ℕ

/-- Why an installation may start another job or not. -/
inductive InstallationConcurrencyReason
  | disabled
  | concurrencyHigh
  | clear
  deriving DecidableEq

structure InstallationConcurrencyDecision where
  admitted : Bool
  reason : InstallationConcurrencyReason
  deriving DecidableEq

/-- An installation has at most so many jobs in flight. -/
def evaluateInstallationConcurrencyAdmission (config : InstallationConcurrencyConfig)
    (currentInFlightCount : ℕ) : InstallationConcurrencyDecision :=
  if !config.enabled then ⟨true, .disabled⟩
  else if config.maxConcurrentPerInstallation ≤ currentInFlightCount then ⟨false, .concurrencyHigh⟩
  else ⟨true, .clear⟩

/-! ## Lanes -/

/-- Three claims for the backlog, then one for what is fresh. -/
def nextForegroundLane (sequence : ℕ) : ForegroundLane :=
  if sequence % 4 < 3 then .backlog else .fresh

def foregroundLaneMaxStarveAgeMs : ℚ := 10 * 60000

/-- A lane has waited too long. -/
def shouldEscapeLanePriorityGate (oldestDueLaneAgeMs : Option ℚ) : Bool :=
  oldestDueLaneAgeMs.any fun age => foregroundLaneMaxStarveAgeMs ≤ age

/-- A repository with a backlog, and how old it is. -/
structure BacklogRepoCandidate where
  repo : String
  oldestPendingAgeMs : ℚ

def agentRegatePrJobKeyPrefix : String := "agent-regate-pr:"

/-- The repository in the key of a backlog row. -/
def backlogRepoOfKey (jobKey : Option String) : Option String :=
  jobKey.bind fun key =>
    if agentRegatePrJobKeyPrefix.toList.isPrefixOf key.toList then
      truthyText ((key.toList.drop agentRegatePrJobKeyPrefix.length).takeWhile (· ≠ '#'))
    else none
where
  truthyText (text : List Char) : Option String :=
    if text = [] then none else some (String.ofList text)

/-- Each repository with the age of its oldest row, in the order of their first rows. -/
def backlogRepoCandidatesFromJobKeys (rows : List (Option String × ℚ)) (nowMs : ℚ) :
    List BacklogRepoCandidate :=
  rows.foldl (fun found row =>
    match backlogRepoOfKey row.1 with
    | none => found
    | some repo =>
      let ageMs := max 0 (nowMs - row.2)
      if found.any (·.repo = repo) then
        found.map fun candidate =>
          if candidate.repo = repo then ⟨repo, max candidate.oldestPendingAgeMs ageMs⟩
            else candidate
      else found ++ [⟨repo, ageMs⟩]) []

/-- The repository after the last one served, from the stalest on; names of one age are in the order
of `localeCompare`. -/
def pickBacklogRepo (localeLe : String → String → Bool) (candidates : List BacklogRepoCandidate)
    (lastClaimedRepo : Option String) : Option String :=
  let sorted := candidates.insertionSort fun a b =>
    b.oldestPendingAgeMs < a.oldestPendingAgeMs ∨
      a.oldestPendingAgeMs = b.oldestPendingAgeMs ∧ localeLe a.repo b.repo = true
  let next := match lastClaimedRepo with
    | none => 0
    | some last => match sorted.findIdx? (·.repo = last) with
      | none => 0
      | some index => index + 1
  (sorted[next % sorted.length]?).map (·.repo)

end LoopOver.Queue
