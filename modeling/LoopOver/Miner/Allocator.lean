import LoopOver.Foundations.PosixPath
import LoopOver.Foundations.Runs
import LoopOver.Foundations.Table
import LoopOver.Miner.Names
import Mathlib.Logic.Function.Basic

/-!
# The worktree allocator

`packages/loopover-miner/lib/worktree-allocator.ts` leases the worktrees of a host, one slot of a
table for each, to the attempts of the miner. Its processes share the table and nothing else, so
that each statement, and the one transaction of `acquire`, is a step of its own: a sweep probes the
active slots, judges each one by its age and by its owner, and frees those that it judged orphaned
with a compare-and-set on what it has probed.

* `advance` is the next step of a call, and `step` what the processes do next.
-/

namespace LoopOver.WorktreeAllocator

/-! ## Data -/

/-- Whether a slot is leased. -/
inductive SlotStatus
  | free
  | active
  deriving DecidableEq

/-- What a sweep reads of a slot. -/
structure OrphanProbeRow where
  slotIndex : ℕ
  ownerPid : Option ℤ
  ownerHost : Option String
  allocatedAt : Option ℕ
  deriving DecidableEq

/-- A row of `worktree_slots`, and what the allocator returns of it. -/
structure WorktreeSlotRow extends OrphanProbeRow where
  worktreePath : String
  attemptId : Option String
  repoFullName : Option String
  status : SlotStatus
  deriving DecidableEq

abbrev Rows : Type := List WorktreeSlotRow

/-- An open allocator. `nowMs` is set where the clock of the sweeps is stopped. -/
structure Allocator where
  worktreeBaseDir : String
  maxConcurrency : ℕ
  maxLeaseMs : ℚ
  processPid : ℤ
  hostId : String
  nowMs : Option ℚ

structure AllocatorOptions where
  worktreeBaseDir : Option String
  maxConcurrency : Untyped
  maxLeaseMs : Untyped
  processPid : Untyped
  hostId : Untyped
  nowMs : Untyped

/-- What a process knows about itself; `worktreeBaseDir` is what `resolveWorktreeBaseDir` makes of
its environment. -/
structure Process where
  pid : ℤ
  hostname : String
  worktreeBaseDir : String

/-! ## Arguments -/

def normalizeWorktreeBaseDir (process : Process) (worktreeBaseDir : Option String) :
    Except String String :=
  let path := trimText (worktreeBaseDir.getD process.worktreeBaseDir)
  if path = "" then .error "invalid_worktree_base_dir" else .ok path

def defaultMaxConcurrency : ℕ := 2

def normalizeMaxConcurrency : Untyped → Except String ℕ
  | .undefined | .null => .ok defaultMaxConcurrency
  | value => positiveInteger "invalid_max_concurrency" value

/-- `DEFAULT_MAX_LEASE_MS`. -/
def defaultMaxLeaseMs : ℚ := 6 * 60 * 60 * 1000

def normalizeMaxLeaseMs : Untyped → Except String ℚ
  | .undefined | .null => .ok defaultMaxLeaseMs
  | .number (.finite value) => if value < 0 then .error "invalid_max_lease_ms" else .ok value
  | _ => .error "invalid_max_lease_ms"

def normalizeHostId (process : Process) : Untyped → Except String String
  | .undefined | .null => .ok process.hostname
  | .text value => if trimText value = "" then .error "invalid_host_id" else .ok (trimText value)
  | _ => .error "invalid_host_id"

def normalizeAttemptId : Untyped → Except String String
  | .text attemptId =>
    if trimText attemptId = "" then .error "invalid_attempt_id" else .ok (trimText attemptId)
  | _ => .error "invalid_attempt_id"

def processPidOf (process : Process) : Untyped → ℤ
  | .number (.finite value) => if value.den = 1 then value.num else process.pid
  | _ => process.pid

def frozenNowMs : Untyped → Option ℚ
  | .number (.finite value) => some value
  | _ => none

/-- The arguments of `openWorktreeAllocator`. -/
def normalizeOptions (process : Process) (options : AllocatorOptions) :
    Except String Allocator := do
  let worktreeBaseDir ← normalizeWorktreeBaseDir process options.worktreeBaseDir
  let maxConcurrency ← normalizeMaxConcurrency options.maxConcurrency
  let maxLeaseMs ← normalizeMaxLeaseMs options.maxLeaseMs
  let hostId ← normalizeHostId process options.hostId
  return ⟨worktreeBaseDir, maxConcurrency, maxLeaseMs,
    processPidOf process options.processPid, hostId,
    frozenNowMs options.nowMs⟩

/-! ## Statements -/

/-- One turn of `ensureSlots`: `INSERT OR IGNORE`. -/
def ensureSlot (worktreeBaseDir : String) (slotIndex : ℕ) (rows : Rows) : Rows :=
  let worktreePath :=
    String.ofList (PosixPath.join [worktreeBaseDir.toList, ("slot-" ++ toString slotIndex).toList])
  if rows.any fun row => row.slotIndex == slotIndex || row.worktreePath == worktreePath then rows
  else rows ++ [⟨⟨slotIndex, none, none, none⟩, worktreePath, none, none, .free⟩]

/-- Age in the unit of the clock. -/
def allocationAgeMs (allocatedAt : Option ℕ) (nowMs : ℚ) : Option ℚ :=
  allocatedAt.map fun ms => nowMs - ms

/-- `process.kill(pid, 0)` among the processes of the host that asks. -/
def isProcessAlive (running : ℤ → Bool) (pid : ℤ) : Bool := decide (0 < pid) && running pid

def isSlotOrphaned (running : ℤ → Bool) (row : OrphanProbeRow) (nowMs maxLeaseMs : ℚ)
    (hostId : String) : Bool :=
  if (allocationAgeMs row.allocatedAt nowMs).any fun ageMs => maxLeaseMs < ageMs then true
  else if row.ownerHost == some hostId then !row.ownerPid.any (isProcessAlive running)
  else false

def probeStatement (rows : Rows) : List OrphanProbeRow :=
  (rows.filter fun row => row.status == .active).map fun row => row.toOrphanProbeRow

/-- A slot without its lease. -/
def freeSlot (row : WorktreeSlotRow) : WorktreeSlotRow :=
  ⟨⟨row.slotIndex, none, none, none⟩, row.worktreePath, none, none, .free⟩

/-- The compare-and-set of a sweep. -/
def reclaimStatement (probed : OrphanProbeRow) (rows : Rows) : Rows :=
  Table.updateWhere (fun row => row.status == .active &&
    row.toOrphanProbeRow == probed) freeSlot rows

def getByAttempt (attemptId : String) (rows : Rows) : Option WorktreeSlotRow :=
  rows.find? fun row => row.attemptId == some attemptId

def countActive (rows : Rows) : ℕ := rows.countP fun row => row.status == .active

def selectFreeSlot (rows : Rows) : Option WorktreeSlotRow :=
  Table.firstBy (fun a b : WorktreeSlotRow => a.slotIndex ≤ b.slotIndex)
    (fun row => row.status == .free) rows

/-- A slot with a lease. -/
def leaseSlot (allocator : Allocator) (attemptId repoFullName : String) (allocatedAt : ℕ)
    (slot : WorktreeSlotRow) :
    WorktreeSlotRow :=
  ⟨⟨slot.slotIndex, some allocator.processPid, some allocator.hostId, some allocatedAt⟩,
    slot.worktreePath,
    some attemptId, some repoFullName, .active⟩

/-- The attempt of a slot is unique. -/
def markActive (allocator : Allocator) (attemptId repoFullName : String) (allocatedAt slotIndex : ℕ)
    (rows : Rows) :
    Except String Rows :=
  if rows.any fun row => row.slotIndex != slotIndex && row.attemptId == some attemptId then
    .error "UNIQUE constraint failed: worktree_slots.attempt_id"
  else .ok (Table.updateWhere (fun row => row.slotIndex == slotIndex)
    (leaseSlot allocator attemptId repoFullName allocatedAt) rows)

def releaseByAttempt (attemptId : String) (rows : Rows) : Option WorktreeSlotRow × Rows :=
  Table.updateReturning (fun row => row.attemptId == some attemptId &&
    row.status == .active) freeSlot rows

/-! ## Calls -/

/-- What a call was made for. -/
inductive Task
  | openWorktreeAllocator
  | acquire (attemptId repoFullName : Untyped)

/-- Where a call is. -/
inductive Stage
  /-- The slots before this one are there. -/
  | ensureSlots (slotIndex : ℕ)
  | readClock
  | probe (nowMs : ℚ)
  /-- The probed rows that are left to judge. -/
  | judge (nowMs : ℚ) (orphans : List OrphanProbeRow)
  /-- The first row was judged orphaned. -/
  | reclaim (nowMs : ℚ) (orphan : OrphanProbeRow) (rest : List OrphanProbeRow)
  | lookUp
  | transact (attemptId repoFullName : String)
  | opened
  | answered (answer : Except String WorktreeSlotRow)

structure Call where
  allocator : Allocator
  task : Task
  stage : Stage

/-- After the sweep. -/
def Call.swept (call : Call) : Stage :=
  match call.task with
  | .openWorktreeAllocator => .opened
  | .acquire _ _ => .lookUp

/-- The lookup of `acquire` before the transaction. -/
def lookUp (attemptId repoFullName : Untyped) (rows : Rows) : Stage :=
  match normalizeAttemptId attemptId, normalizeRepoFullName repoFullName with
  | .error e, _ => .answered (.error e)
  | .ok _, .error e => .answered (.error e)
  | .ok normalizedAttempt, .ok normalizedRepo =>
    match (getByAttempt normalizedAttempt rows).filter fun existing =>
      existing.status == .active with
    | some existing =>
      if existing.repoFullName ≠ some normalizedRepo then
        .answered (.error ("attempt_id_repo_mismatch: attempt " ++ normalizedAttempt ++
          " is already active for " ++
          existing.repoFullName.getD "null" ++ ", not " ++ normalizedRepo))
      else .answered (.ok existing)
    | none => .transact normalizedAttempt normalizedRepo

/-- The transaction of `acquire`, which a throw rolls back. -/
def transact (allocator : Allocator) (attemptId repoFullName : String) (allocatedAt : ℕ)
    (rows : Rows) :
    Except String WorktreeSlotRow × Rows :=
  match (getByAttempt attemptId rows).filter fun raced => raced.status == .active with
  | some raced => (.ok raced, rows)
  | none =>
    if allocator.maxConcurrency ≤ countActive rows then (.error "worktree_capacity_exceeded", rows)
    else
      match selectFreeSlot rows with
      | none => (.error "worktree_capacity_exceeded", rows)
      | some slot =>
        match markActive allocator attemptId repoFullName allocatedAt slot.slotIndex rows with
        | .error e => (.error e, rows)
        | .ok marked => (.ok (leaseSlot allocator attemptId repoFullName allocatedAt slot), marked)

/-- The next step of a call. The clock is that of its process. -/
def advance (running : String → ℤ → Bool) (clock : ℕ) (call : Call) (rows : Rows) :
    Option (Rows × Stage) :=
  match call.stage with
  | .ensureSlots slotIndex =>
    if slotIndex < call.allocator.maxConcurrency then
      some (ensureSlot call.allocator.worktreeBaseDir slotIndex rows, .ensureSlots (slotIndex + 1))
    else some (rows, .readClock)
  | .readClock => some (rows, .probe (call.allocator.nowMs.getD clock))
  | .probe nowMs => some (rows, .judge nowMs (probeStatement rows))
  | .judge _ [] => some (rows, call.swept)
  | .judge nowMs (row :: rest) =>
    if isSlotOrphaned (running call.allocator.hostId) row nowMs call.allocator.maxLeaseMs
      call.allocator.hostId then
      some (rows, .reclaim nowMs row rest)
    else some (rows, .judge nowMs rest)
  | .reclaim nowMs orphan rest => some (reclaimStatement orphan rows, .judge nowMs rest)
  | .lookUp =>
    match call.task with
    | .openWorktreeAllocator => none
    | .acquire attemptId repoFullName => some (rows, lookUp attemptId repoFullName rows)
  | .transact attemptId repoFullName =>
    let (answer, rows) := transact call.allocator attemptId repoFullName clock rows
    some (rows, .answered answer)
  | .opened | .answered _ => none

/-! ## The processes -/

/-- The table, the processes that run on each host, and the calls. -/
structure StoreState where
  rows : Rows
  running : String → ℤ → Bool
  calls : ℕ → Option Call

inductive Action
  | openWorktreeAllocator (call : ℕ) (process : Process) (options : AllocatorOptions)
  /-- A call to the allocator that another call has opened. -/
  | acquire (call opener : ℕ) (attemptId repoFullName : Untyped)
  | advance (call clock : ℕ)
  /-- A statement of the call throws. -/
  | fail (call : ℕ) (message : String)
  | release (attemptId : Untyped)
  /-- A process ends, for good. -/
  | exit (hostId : String) (pid : ℤ)

def StoreState.setCall (s : StoreState) (id : ℕ) (call : Call) : StoreState :=
  { s with calls := Function.update s.calls id (some call) }

def step (s : StoreState) : Action → Option StoreState
  | .openWorktreeAllocator id process options =>
    match s.calls id, normalizeOptions process options with
    | some _, _ => none
    | none, .error _ => some s
    | none, .ok allocator => some (s.setCall id ⟨allocator, .openWorktreeAllocator, .ensureSlots 0⟩)
  | .acquire id opener attemptId repoFullName =>
    match s.calls id, s.calls opener with
    | none, some ⟨allocator, _, .opened⟩ =>
      some (s.setCall id ⟨allocator, .acquire attemptId repoFullName, .readClock⟩)
    | _, _ => none
  | .advance id clock => do
    let call ← s.calls id
    let (rows, stage) ← WorktreeAllocator.advance s.running clock call s.rows
    return { s with rows := rows }.setCall id { call with stage := stage }
  | .fail id message =>
    match s.calls id with
    | none | some ⟨_, _, .opened⟩ | some ⟨_, _, .answered _⟩ => none
    | some call => some (s.setCall id { call with stage := .answered (.error message) })
  | .release attemptId =>
    match normalizeAttemptId attemptId with
    | .error _ => some s
    | .ok normalizedAttempt => some { s with rows := (releaseByAttempt normalizedAttempt s.rows).2 }
  | .exit hostId pid =>
    some { s with running := fun host other => s.running host other &&
      !(host == hostId && other == pid) }

/-- Nothing is allocated, and every process that there will be is there. -/
def emptyStore : StoreState := ⟨[], fun _ _ => true, fun _ => none⟩

end LoopOver.WorktreeAllocator
