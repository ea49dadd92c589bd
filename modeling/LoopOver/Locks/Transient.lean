import LoopOver.Foundations.Runs
import Mathlib.Algebra.Order.Field.Rat
import Mathlib.Logic.Function.Basic

/-!
# Transient locks

The workers of the queue lock a pull request, or a review of one, for a short time:
`src/queue/transient-locks.ts`. The lock of a key is a record in a `SubmissionLock` object
(`src/queue/submission-lock.ts`) where one is bound, and an entry of the cache
(`src/selfhost/redis-cache.ts`) otherwise; it has the token of its owner and a time at which it
lapses. A holder may renew it by a heartbeat, and every process keeps a registry of the locks that
it holds (`src/queue/held-lock-registry.ts`).

* `handleClaim` and `handleRelease` are those of the object; `cacheClaim`, `cacheSet`,
  `cacheRenewIfValue` and `cacheReleaseIfValue` are the commands of the cache, each one atomic.
* `LockCall` is a call with what follows it up to the release, and `LockAction` are the steps. A
  call of the backend is made in one step, takes effect in another and returns in a third. A call
  that fails has no step.
* The tokens are the numbers of the calls: `randomUUID` gives no token twice.
-/

namespace LoopOver.Locks

/-! ## Backends -/

/-- What is stored under the key of a lock. -/
structure LockRecord where
  ownerToken : ℕ
  expiresAt : ℚ
  deriving DecidableEq

/-- The time at which a lock of so many seconds lapses. -/
def expiryAt (now : ℕ) (ttlSeconds : ℚ) : ℚ := now + ttlSeconds * 1000

section Object

/-- Whether the lock is acquired, and the record after it; a time to live that is not positive is
refused. -/
def handleClaim (now : ℕ) (existing : Option LockRecord) (ownerToken : ℕ) (ttlSeconds : ℚ)
    (steal : Bool) :
    Option (Bool × Option LockRecord) :=
  if ttlSeconds ≤ 0 then none
  else if !steal && existing.any fun record =>
      decide ((now : ℚ) < record.expiresAt) && record.ownerToken != ownerToken then
    some (false, existing)
  else some (true, some ⟨ownerToken, expiryAt now ttlSeconds⟩)

def handleRelease (existing : Option LockRecord) (ownerToken : ℕ) : Option LockRecord :=
  if existing.any fun record => record.ownerToken == ownerToken then none else existing

end Object

section Cache

/-- The entry, if it has not lapsed. -/
def cacheGet (now : ℕ) (entry : Option LockRecord) : Option LockRecord :=
  entry.filter fun record => decide ((now : ℚ) < record.expiresAt)

/-- `EX` takes a positive integer. -/
def isExpiry (ttlSeconds : ℚ) : Bool := decide (0 < ttlSeconds ∧ ttlSeconds.den = 1)

/-- `SET … EX … NX`. -/
def cacheClaim (now : ℕ) (entry : Option LockRecord) (value : ℕ) (ttlSeconds : ℚ) :
    Option (Bool × Option LockRecord) :=
  if isExpiry ttlSeconds then
    some (if (cacheGet now entry).isSome then (false, entry)
      else (true, some ⟨value, expiryAt now ttlSeconds⟩))
  else none

/-- `SET … EX …`. -/
def cacheSet (now : ℕ) (value : ℕ) (ttlSeconds : ℚ) : Option (Option LockRecord) :=
  if isExpiry ttlSeconds then some (some ⟨value, expiryAt now ttlSeconds⟩) else none

/-- Compare and extend. -/
def cacheRenewIfValue (now : ℕ) (entry : Option LockRecord) (value : ℕ) (ttlSeconds : ℚ) :
    Bool × Option LockRecord :=
  if (cacheGet now entry).any fun record => record.ownerToken == value then
    (true, some ⟨value, expiryAt now ttlSeconds⟩)
  else (false, entry)

/-- Compare and delete. -/
def cacheReleaseIfValue (now : ℕ) (entry : Option LockRecord) (value : ℕ) : Option LockRecord :=
  if (cacheGet now entry).any fun record => record.ownerToken == value then none else entry

end Cache

/-! ## Calls -/

/-- What the environment has: an object, perhaps with a cache beside it, or a cache alone. -/
inductive LockBackend
  | submissionLock (withCache : Bool)
  | cache
  deriving DecidableEq

/-- A heartbeat goes to the cache. -/
def LockBackend.hasCache : LockBackend → Bool
  | submissionLock withCache => withCache
  | cache => true

/-- Where a call is: its claim is under way, was answered, has returned, and so for its release. -/
inductive LockStage
  | claiming
  | answered (acquired : Bool)
  | refused
  | holding
  | releasing
  | freed
  | done
  deriving DecidableEq

/-- Whether a holder renews its lock. -/
inductive HeartbeatState
  | absent
  | running
  | stopped
  deriving DecidableEq

/-- The release at the shutdown of the process. -/
inductive ShutdownRelease
  | absent
  | pending
  | finished
  deriving DecidableEq

/-- A call of `claimTransientLock` and what follows it. A call through `claimPrActuationLock` or
`claimAiReviewLock` registers what it holds. `requests` counts the renewals on their way to the
cache, `replies` has those on their way back, and `lost` is set by `onLost`. The last field is not
the program's: the time up to which the backend has granted the lock, until it was given up. -/
structure LockCall where
  process : ℕ
  key : String
  ttlSeconds : ℚ
  steal : Bool
  registers : Bool
  stage : LockStage
  heartbeat : HeartbeatState
  requests : ℕ
  replies : List Bool
  lost : Bool
  shutdown : ShutdownRelease
  grantedUntil : Option ℚ
  deriving DecidableEq

/-- The records, the entries, the registries of the processes, and the calls. The last two fields
are not the program's: the calls that acquired the lock of a key, the last one first, and the last
one that a process registered. -/
structure LockState where
  now : ℕ
  durable : String → Option LockRecord
  cache : String → Option LockRecord
  heldLocks : ℕ → String → Option ℕ
  calls : ℕ → Option LockCall
  owners : String → List ℕ
  lastRegistered : ℕ → String → Option ℕ

def noLocks : LockState :=
  ⟨0, fun _ => none, fun _ => none, fun _ _ => none, fun _ => none, fun _ => [], fun _ _ => none⟩

inductive LockAction
  | claimTransientLock (id process : ℕ) (key : String) (ttlSeconds : ℚ) (steal registers : Bool)
  | claimTakesEffect (id : ℕ)
  | claimReturns (id : ℕ)
  | startHeartbeat (id : ℕ)
  | stopHeartbeat (id : ℕ)
  | fireHeartbeat (id : ℕ)
  | renewalTakesEffect (id : ℕ)
  | renewalReturns (id : ℕ) (stillOurs : Bool)
  | releaseTransientLock (id : ℕ)
  | releaseTakesEffect (id : ℕ)
  | releaseReturns (id : ℕ)
  /-- `releaseAllHeldLocksAtShutdown`. -/
  | shutdown (process : ℕ)
  | shutdownReleaseTakesEffect (id : ℕ)
  | wait (ms : ℕ)

/-! ## Steps -/

section Steps

variable (backend : LockBackend) (s : LockState)

def LockState.setCall (id : ℕ) (call : LockCall) : LockState :=
  { s with calls := Function.update s.calls id (some call) }

/-- The lock of a key. -/
def LockState.lockAt (key : String) : Option LockRecord :=
  match backend with
  | .submissionLock _ => s.durable key
  | .cache => s.cache key

def LockState.setLock (key : String) (record : Option LockRecord) : LockState :=
  match backend with
  | .submissionLock _ => { s with durable := Function.update s.durable key record }
  | .cache => { s with cache := Function.update s.cache key record }

/-- What the backend makes of a claim. -/
def claimLock (now : ℕ) (existing : Option LockRecord) (ownerToken : ℕ) (ttlSeconds : ℚ)
    (steal : Bool) :
    Option (Bool × Option LockRecord) :=
  match backend with
  | .submissionLock _ => handleClaim now existing ownerToken ttlSeconds steal
  | .cache =>
    if steal then (cacheSet now ownerToken ttlSeconds).map (Prod.mk true)
    else cacheClaim now existing ownerToken ttlSeconds

/-- What the backend makes of a release. -/
def releaseLock (now : ℕ) (existing : Option LockRecord) (ownerToken : ℕ) : Option LockRecord :=
  match backend with
  | .submissionLock _ => handleRelease existing ownerToken
  | .cache => cacheReleaseIfValue now existing ownerToken

/-- `releaseTransientLockIfOwner` takes effect. -/
def LockState.release (id : ℕ) (call : LockCall) : LockState :=
  (s.setLock backend call.key (releaseLock backend s.now (s.lockAt backend call.key) id)).setCall id
    { call with grantedUntil := none }

/-- `registerHeldLock`. -/
def LockState.register (id : ℕ) (call : LockCall) : LockState :=
  if call.registers then
    { s with
      heldLocks := Function.update s.heldLocks call.process
        (Function.update (s.heldLocks call.process) call.key (some id))
      lastRegistered := Function.update s.lastRegistered call.process
        (Function.update (s.lastRegistered call.process) call.key (some id)) }
  else s

/-- `unregisterHeldLock`. -/
def LockState.unregister (id : ℕ) (call : LockCall) : LockState :=
  if s.heldLocks call.process call.key = some id then
    { s with
      heldLocks := Function.update s.heldLocks call.process
        (Function.update (s.heldLocks call.process) call.key none) }
  else s

/-- The calls whose entries are in the registry of the process are to be released. -/
def LockState.shutDown (process : ℕ) : LockState :=
  { s with
    heldLocks := Function.update s.heldLocks process fun _ => none
    calls := fun id => (s.calls id).map fun call =>
      if s.heldLocks process call.key = some id then { call with shutdown := .pending } else call }

/-- What a call does next. -/
def LockState.advance (id : ℕ) (call : LockCall) : LockAction → Option LockState
  | .claimTakesEffect _ =>
    if call.stage = .claiming then
      (claimLock backend s.now (s.lockAt backend call.key) id call.ttlSeconds call.steal).map
          fun (acquired, record) =>
        let call := { call with stage := .answered acquired }
        if acquired then
          let s := { s with owners := Function.update s.owners call.key (id :: s.owners call.key) }
          (s.setLock backend call.key record).setCall id
            { call with grantedUntil := some (expiryAt s.now call.ttlSeconds) }
        else (s.setLock backend call.key record).setCall id call
    else none
  | .claimReturns _ =>
    match call.stage with
    | .answered true => some ((s.register id call).setCall id { call with stage := .holding })
    | .answered false => some (s.setCall id { call with stage := .refused })
    | _ => none
  | .startHeartbeat _ =>
    if call.stage = .holding ∧ call.heartbeat = .absent ∧ backend.hasCache = true then
      some (s.setCall id { call with heartbeat := .running })
    else none
  | .stopHeartbeat _ =>
    if call.heartbeat = .running then some (s.setCall id { call with heartbeat := .stopped })
      else none
  | .fireHeartbeat _ =>
    if call.heartbeat = .running then
      some (s.setCall id { call with requests := call.requests + 1 }) else none
  | .renewalTakesEffect _ =>
    match call.requests with
    | 0 => none
    | requests + 1 =>
      let renewed := cacheRenewIfValue s.now (s.cache call.key) id call.ttlSeconds
      some (({ s with cache := Function.update s.cache call.key renewed.2 } : LockState).setCall id
        { call with
          requests := requests
          replies := renewed.1 :: call.replies
          grantedUntil :=
            if renewed.1 then some (expiryAt s.now call.ttlSeconds) else call.grantedUntil })
  | .renewalReturns _ stillOurs =>
    if stillOurs ∈ call.replies then
      let call := { call with replies := call.replies.erase stillOurs }
      some (s.setCall id
        (if !stillOurs && call.heartbeat == .running then
          { call with heartbeat := .stopped, lost := true } else call))
    else none
  | .releaseTransientLock _ =>
    if call.stage = .holding then some (s.setCall id { call with stage := .releasing }) else none
  | .releaseTakesEffect _ =>
    if call.stage = .releasing then some (s.release backend id { call with stage := .freed })
      else none
  | .releaseReturns _ =>
    if call.stage = .freed then
      some ((s.unregister id call).setCall id { call with stage := .done }) else none
  | .shutdownReleaseTakesEffect _ =>
    if call.shutdown = .pending then some (s.release backend id { call with shutdown := .finished })
      else none
  | _ => none

/-- The call that the action is a step of. -/
def LockAction.call? : LockAction → Option ℕ
  | .claimTakesEffect id | .claimReturns id | .startHeartbeat id | .stopHeartbeat id |
    .fireHeartbeat id
  | .renewalTakesEffect id | .renewalReturns id _ | .releaseTransientLock id |
    .releaseTakesEffect id
  | .releaseReturns id | .shutdownReleaseTakesEffect id => some id
  | .claimTransientLock .. | .shutdown _ | .wait _ => none

def LockState.step (action : LockAction) : Option LockState :=
  match action with
  | .claimTransientLock id process key ttlSeconds steal registers =>
    if s.calls id = none then
      some (s.setCall id
        ⟨process, key, ttlSeconds, steal, registers, .claiming, .absent, 0, [], false,
          .absent, none⟩)
    else none
  | .shutdown process => some (s.shutDown process)
  | .wait ms => some { s with now := s.now + ms }
  | action =>
    match action.call? with
    | none => none
    | some id => (s.calls id).bind fun call => s.advance backend id call action

end Steps

end LoopOver.Locks
