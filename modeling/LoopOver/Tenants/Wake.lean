import LoopOver.Foundations.Runs
import LoopOver.Tenants.Registry

/-!
# Waking the tenants that are due

A cron tick of the control plane wakes the containers of the hosted tenants that are due, one after
the other: `control-plane/src/ams-wake.ts`. It lists the tenants once. For each one that is due it
claims the next due time, starts the container, polls until it has stopped, and writes what came of
it; every write is of the whole record as it was listed. Delete requests
(`control-plane/src/http-app.ts`) come in between.

* `Tick` is a tick under way and `Fleet` the registry with the ticks and the delete requests on it.
* `WakeAction` are the steps, every call of the registry or of a container being one, and
  `Fleet.step` says what each does. The parameters stand for `Date`.
-/

namespace LoopOver.Tenants

/-! ## Ticks -/

/-- A record of a tenant that is due, with its schedule. -/
structure DueRecord where
  record : TenantRegistryRecord
  schedule : AmsCycleSchedule
  scheduled : record.amsSchedule = some schedule
  active : record.state = .active

/-- Where a tick is with the tenant at hand: about to write the claim, about to start the container,
polling, about to write the result, or about to write the failure. -/
inductive WakePhase
  | claiming
  | starting
  | polling
  | finishing (exitCode : Option ℤ)
  | recovering
  deriving DecidableEq

/-- A tick, with the tenants that it has still to wake; the first is at hand. The last two fields
are not the program's: the keys of the tenants that a delete request has been answered for since the
tick listed them, and the due times that were claimed when it did. -/
structure Tick where
  startedAt : ℤ
  todo : List DueRecord
  phase : WakePhase
  outdated : String → Bool
  seen : String → List String

def Tick.idle : Tick := ⟨0, [], .claiming, fun _ => false, fun _ => []⟩

/-- On to the next tenant. -/
def Tick.next (tick : Tick) : Tick := { tick with todo := tick.todo.tail, phase := .claiming }

section Due

variable (toISOString : ℤ → String) (dateParse : String → Option ℤ)

def isDue (record : TenantRegistryRecord) (now : ℤ) : Bool :=
  record.product == "ams" && record.state == .active &&
    record.amsSchedule.any fun schedule => (dateParse schedule.nextDueAt).any fun due =>
      decide (due ≤ now)

def dueRecord (now : ℤ) (record : TenantRegistryRecord) : Option DueRecord :=
  match hschedule : record.amsSchedule with
  | none => none
  | some schedule =>
    if hdue : isDue dateParse record now = true then
      some ⟨record, schedule, hschedule, by
        simp only [isDue, Bool.and_eq_true, beq_iff_eq] at hdue
        exact hdue.1.2⟩
    else none

/-- The time that a tick claims for a tenant. -/
def claimedTime (startedAt : ℤ) (schedule : AmsCycleSchedule) : ℤ :=
  ⌊(startedAt : ℚ) + schedule.intervalMs⌋

/-- The tenants that a tick wakes. A time that no `Date` can have ends it. -/
def dueRecords (startedAt : ℤ) (maxTenantsPerTick : ℕ) (records : List TenantRegistryRecord) :
    List DueRecord :=
  ((records.filterMap (dueRecord dateParse startedAt)).take maxTenantsPerTick).takeWhile fun due =>
    decide (claimedTime startedAt due.schedule ≤ 8640000000000000)

def claimedNextDueAt (startedAt : ℤ) (schedule : AmsCycleSchedule) : String :=
  toISOString (claimedTime startedAt schedule)

/-- What the tick writes in its phase; the claim has no `lastRunAt` of its own, and the failure no
exit code. -/
def Tick.written (tick : Tick) (due : DueRecord) (now : ℤ) : Option TenantRegistryRecord :=
  let nextDueAt := claimedNextDueAt toISOString tick.startedAt due.schedule
  let ranAt := some (toISOString now)
  let schedule? : Option AmsCycleSchedule := match tick.phase with
    | .claiming => some { due.schedule with nextDueAt := nextDueAt }
    | .finishing exitCode =>
      some { due.schedule with
        lastRunAt := ranAt, lastExitCode := exitCode, nextDueAt := nextDueAt }
    | .recovering => some { due.schedule with lastRunAt := ranAt, nextDueAt := nextDueAt }
    | _ => none
  schedule?.map fun schedule => { due.record with
    amsSchedule := some schedule, updatedAt := toISOString now }

end Due

/-! ## The fleet -/

/-- The registry, the ticks, and the delete requests that have read the record they are for. The
last two fields are not the program's: the keys of the tenants that a delete request has been
answered for, with no create since, and the due times that were claimed for a tenant since it was
created. -/
structure Fleet where
  kv : Kv
  ticks : ℕ → Tick
  deletes : ℕ → Option TenantRegistryRecord
  deleted : String → Bool
  claimed : String → List String

/-- How a write ends: it may fail before it took effect or after that. -/
inductive Landing
  | written
  | failed
  | unheard
  deriving DecidableEq

def Landing.lands : Landing → Bool
  | .failed => false
  | _ => true

/-- What a poll of a container ends with. -/
inductive PollReply
  | stopped (exitCode : Option ℤ)
  | waiting
  | timedOut
  | failed
  deriving DecidableEq

/-- What the ticks and the routes do to one registry. -/
inductive WakeAction
  | list (tick : ℕ) (startedAt : ℤ) (maxTenantsPerTick : ℕ) (records : List TenantRegistryRecord)
  | write (tick : ℕ) (now : ℤ) (landing : Landing)
  | start (tick : ℕ) (ok : Bool)
  | poll (tick : ℕ) (reply : PollReply)
  | readForDelete (request : ℕ) (name product : String)
  | delete (request : ℕ) (driver : DriverReplies) (now : String) (landing : Landing)
  /-- A write of a create request. -/
  | create (record : TenantRegistryRecord)

section Steps

variable (toISOString : ℤ → String) (dateParse : String → Option ℤ) (fleet : Fleet)

/-- The record is in the registry if the write lands. -/
def Fleet.put (record : TenantRegistryRecord) (landing : Landing) : Fleet :=
  if landing.lands then { fleet with kv := upsert fleet.kv record } else fleet

def Fleet.setTick (id : ℕ) (tick : Tick) : Fleet :=
  { fleet with ticks := Function.update fleet.ticks id tick }

/-- The claim is in the history if it lands. -/
def Fleet.noteClaim (due : DueRecord) (phase : WakePhase) (landing : Landing) : Fleet :=
  if phase = .claiming ∧ landing.lands = true then
    let key := due.record.key
    { fleet with
      claimed := Function.update fleet.claimed key (due.schedule.nextDueAt :: fleet.claimed key) }
  else fleet

/-- What follows a write. -/
def Tick.afterWrite (tick : Tick) (landing : Landing) : Tick :=
  match tick.phase, landing with
  | .claiming, .written => { tick with phase := .starting }
  | .finishing _, .written => tick.next
  | .recovering, _ => tick.next
  | _, _ => { tick with phase := .recovering }

def Tick.afterPoll (tick : Tick) : PollReply → Tick
  | .stopped exitCode => { tick with phase := .finishing exitCode }
  | .waiting => tick
  | .timedOut => { tick with phase := .finishing none }
  | .failed => { tick with phase := .recovering }

def Tick.mark (tick : Tick) (key : String) : Tick :=
  { tick with outdated := Function.update tick.outdated key true }

/-- The answer to a delete request. -/
def Fleet.answerDelete (key : String) : Fleet :=
  { fleet with
    deleted := Function.update fleet.deleted key true
    ticks := fun id => (fleet.ticks id).mark key }

def Fleet.step : WakeAction → Option Fleet
  | .list id startedAt maxTenantsPerTick records =>
    match (fleet.ticks id).todo with
    | _ :: _ => none
    | [] =>
      let todo := dueRecords dateParse startedAt maxTenantsPerTick records
      some (fleet.setTick id ⟨startedAt, todo, .claiming, fun _ => false, fleet.claimed⟩)
  | .write id now landing =>
    let tick := fleet.ticks id
    match tick.todo with
    | [] => none
    | due :: _ => (tick.written toISOString due now).map fun record =>
        ((fleet.put record landing).noteClaim due tick.phase landing).setTick id
          (tick.afterWrite landing)
  | .start id ok =>
    let tick := fleet.ticks id
    match tick.todo, tick.phase with
    | _ :: _, .starting =>
      some (fleet.setTick id { tick with phase := if ok then .polling else .recovering })
    | _, _ => none
  | .poll id reply =>
    let tick := fleet.ticks id
    match tick.todo, tick.phase with
    | _ :: _, .polling => some (fleet.setTick id (tick.afterPoll reply))
    | _, _ => none
  | .readForDelete request name product =>
    match get fleet.kv name product with
    | none => some fleet
    | some existing =>
      if existing.state = .provisioning then some fleet
      else some { fleet with deletes := Function.update fleet.deletes request (some existing) }
  | .delete request driver now landing =>
    match fleet.deletes request with
    | none => none
    | some existing =>
      let fleet := { fleet with deletes := Function.update fleet.deletes request none }
      match deprovisionTenant driver with
      | .error _ => some fleet
      | .ok _ =>
        let record : TenantRegistryRecord :=
          ⟨existing.tenant, existing.product, .tornDown, existing.createdAt, now, none, none, none⟩
        let fleet := fleet.put record landing
        some (if landing = .written then fleet.answerDelete record.key else fleet)
  | .create record => some
      { fleet with
        kv := upsert fleet.kv record
        deleted := Function.update fleet.deleted record.key false
        claimed := Function.update fleet.claimed record.key [] }

end Steps

end LoopOver.Tenants
