import LoopOver.Foundations.Conduct
import LoopOver.Foundations.Table
import LoopOver.Queue.Keys

/-!
# The tables of the relay

`src/orb/relay.ts` queues the webhooks of a brokered installation in `orb_relay_pending`, from where
its engine pulls them, and keeps the ones that could not be forwarded in `orb_relay_failures`.
`RelayDb` has the rows of both tables, and what passes between the orb and its engines. A statement
is one call, and takes effect at once; any call may fail, before or after it took effect.

* `RelayCall` are the statements of the orb, the requests of the engines, and what an engine does
  with an event.
* `RelayDb.answers` is what a call does.
* `GithubDeliveries` is what GitHub sent under each delivery id; a redelivery repeats it.
-/

namespace LoopOver.Relay

open Queue (JsonValue Payload KeyRuntime githubWebhookCoalesceKey)

/-! ## Events -/

/-- A delivery id: the GUID of a webhook, or `config-push:${pushId}:${installationId}`. -/
inductive DeliveryId
  | github (guid : String)
  | configPush (pushId : String) (installationId : ℕ)
  deriving DecidableEq

def DeliveryId.text : DeliveryId → String
  | .github guid => guid
  | .configPush pushId installationId => "config-push:" ++ pushId ++ ":" ++ toString installationId

/-- A webhook; its body is what `JSON.parse` gives. -/
structure RelayEvent where
  eventName : String
  installationId : Option ℕ
  rawBody : Payload

/-- The webhooks of GitHub: what was sent under each GUID, and in which order they were
delivered. -/
structure GithubDeliveries where
  event : String → RelayEvent
  deliveredAt : String → ℕ

/-- An event as an engine gets it. -/
structure OrbRelayEvent where
  deliveryId : DeliveryId
  eventName : String
  rawBody : Payload
  kind : String

/-! ## Rows -/

/-- The columns of a pending row that an insert gives. -/
structure NewPending where
  deliveryId : DeliveryId
  installationId : ℕ
  eventName : String
  rawBody : Payload
  coalesceKey : Option String
  enrollId : Option String
  kind : String

/-- A row of `orb_relay_pending`; times are in seconds. The arrival counts the inserts before it,
and no statement reads it. -/
structure PendingRow extends NewPending where
  rowid : ℕ
  createdAt : ℕ
  arrival : ℕ

/-- A row of `orb_relay_failures`. -/
structure FailureRow where
  deliveryId : String
  eventName : String
  installationId : ℕ
  rawBody : Payload
  attempts : ℕ
  lastAttemptAt : Option ℕ
  createdAt : ℕ
  expiresAt : ℕ

/-- A live row of `orb_enrollments`, as far as forwarding reads it. -/
structure LiveEnrollment where
  enrollId : String
  relayMode : String
  relayUrl : Option String

structure RelayEnrollment where
  enrollId : String
  installationId : ℕ
  deriving DecidableEq

/-- A pull request of an engine, with the secret that it authenticates with. -/
structure PullRequest where
  secret : String
  ack : List DeliveryId

/-- What became of a webhook. -/
inductive EnqueueWebhookResult
  | queued
  | duplicate
  | ignored
  | invalidJson
  | enqueueFailed
  | reviewUnavailable
  deriving DecidableEq

/-- The tables, what was sent between the orb and its engines, and what the engines did with it. -/
structure RelayDb where
  clock : ℕ
  pending : List PendingRow
  arrivals : ℕ
  failures : List FailureRow
  requests : List PullRequest
  responses : List (List OrbRelayEvent)
  /-- The deliveries that an engine with a secret took: its local enqueue did not fail. -/
  taken : List (String × DeliveryId)
  /-- The config pushes that an engine with a secret surfaced. -/
  surfaced : List (String × DeliveryId)

def emptyDb : RelayDb := ⟨0, [], 0, [], [], [], [], []⟩

/-! ## Bounds -/

def relayPendingBatchSize : ℕ := 50

/-- 24 hours. -/
def relayPendingTtlSeconds : ℕ := 24 * 3600

def relayPendingMaxPerInstallation : ℕ := 500

def relayRetryMaxAttempts : ℕ := 5

def relayRetryBatchSize : ℕ := 25

/-- 5 minutes. -/
def relayRetryBackoffSeconds : ℕ := 5 * 60

/-- An hour. -/
def relayFailureTtlSeconds : ℕ := 3600

/-! ## Statements -/

/-- `ORDER BY created_at, delivery_id`. -/
def oldestFirst (a b : PendingRow) : Prop :=
  a.createdAt < b.createdAt ∨ a.createdAt = b.createdAt ∧ a.deliveryId.text ≤ b.deliveryId.text

/-- `ORDER BY created_at DESC, delivery_id DESC`. -/
def newestFirst (a b : PendingRow) : Prop := oldestFirst b a

instance : DecidableRel oldestFirst := fun a b =>
  inferInstanceAs (Decidable (a.createdAt < b.createdAt ∨ a.createdAt = b.createdAt ∧
    a.deliveryId.text ≤ b.deliveryId.text))

instance : DecidableRel newestFirst := fun a b => inferInstanceAs (Decidable (oldestFirst b a))

/-- `ORDER BY created_at, delivery_id` of the failures. -/
def oldestFailureFirst (a b : FailureRow) : Prop :=
  a.createdAt < b.createdAt ∨ a.createdAt = b.createdAt ∧ a.deliveryId ≤ b.deliveryId

instance : DecidableRel oldestFailureFirst := fun a b =>
  inferInstanceAs (Decidable (a.createdAt < b.createdAt ∨ a.createdAt = b.createdAt ∧
    a.deliveryId ≤ b.deliveryId))

namespace RelayDb

variable (db : RelayDb)

/-- The row has outlived its time. -/
def isExpired (row : PendingRow) : Bool := row.createdAt + relayPendingTtlSeconds < db.clock

/-- The rows that outlived their time are gone. -/
def deleteExpired : RelayDb := { db with pending := Table.deleteWhere db.isExpired db.pending }

/-- The rowid of the next row. -/
def nextRowid : ℕ := (db.pending.map (·.rowid)).foldr max 0 + 1

def hasDelivery (deliveryId : DeliveryId) : Bool :=
  db.pending.any fun row => row.deliveryId == deliveryId

/-- `ON CONFLICT(delivery_id) DO NOTHING`. -/
def insertPending (row : NewPending) : RelayDb :=
  if db.hasDelivery row.deliveryId then db
  else
    { db with
      pending := db.pending ++ [⟨row, db.nextRowid, db.clock, db.arrivals⟩]
      arrivals := db.arrivals + 1 }

/-- The rowid of a delivery, where there is one. -/
def rowidOf (deliveryId : DeliveryId) : Option ℕ :=
  (db.pending.find? fun row => row.deliveryId == deliveryId).map (·.rowid)

/-- `rowid < (SELECT rowid … WHERE delivery_id = ?)`, of one installation and one key. -/
def isOvertaken (installationId : ℕ) (coalesceKey : String) (deliveryId : DeliveryId)
    (row : PendingRow) : Bool :=
  row.installationId == installationId && row.coalesceKey == some coalesceKey &&
    (db.rowidOf deliveryId).any fun rowid => decide (row.rowid < rowid)

/-- The older events of the key are gone. -/
def deleteOvertaken (installationId : ℕ) (coalesceKey : String) (deliveryId : DeliveryId) :
    RelayDb :=
  { db with
    pending := Table.deleteWhere (db.isOvertaken installationId coalesceKey deliveryId) db.pending }

/-- The rows of an installation past the newest ones that it may have. -/
def evicted (installationId : ℕ) : List PendingRow :=
  ((db.pending.filter fun row => row.installationId == installationId).insertionSort
    newestFirst).drop
    relayPendingMaxPerInstallation

def isEvicted (installationId : ℕ) (row : PendingRow) : Bool :=
  row.installationId == installationId &&
    ((db.evicted installationId).map (·.deliveryId)).contains row.deliveryId

def deleteEvicted (installationId : ℕ) : RelayDb :=
  { db with pending := Table.deleteWhere (db.isEvicted installationId) db.pending }

/-- `installation_id = ? AND (enroll_id = ? OR enroll_id IS NULL)`; nothing is equal to NULL. -/
def isOfEnrollment (installationId : ℕ) (enrollId : Option String) (row : PendingRow) : Bool :=
  row.installationId == installationId &&
    (row.enrollId.isNone || (enrollId.isSome && row.enrollId == enrollId))

def isAcked (installationId : ℕ) (enrollId : Option String) (ack : List DeliveryId)
    (row : PendingRow) : Bool :=
  isOfEnrollment installationId enrollId row && ack.contains row.deliveryId

/-- What the instance has taken is gone. -/
def deleteAcked (installationId : ℕ) (enrollId : Option String) (ack : List DeliveryId) : RelayDb :=
  { db with pending := Table.deleteWhere (isAcked installationId enrollId ack) db.pending }

def selectPending (installationId : ℕ) (enrollId : Option String) (limit : ℕ) :
    List OrbRelayEvent :=
  (((db.pending.filter (isOfEnrollment installationId enrollId)).insertionSort oldestFirst).take
      limit).map fun row =>
    ⟨row.deliveryId, row.eventName, row.rawBody, row.kind⟩

def insertFailure (deliveryId eventName : String) (installationId : ℕ) (rawBody : Payload) :
    RelayDb :=
  if db.failures.any fun row => row.deliveryId == deliveryId then db
  else
    { db with
      failures :=
        db.failures ++ [⟨deliveryId, eventName, installationId, rawBody, 0, none, db.clock,
        db.clock + relayFailureTtlSeconds⟩] }

def isFailureOver (row : FailureRow) : Bool :=
  decide (row.expiresAt < db.clock) || decide (relayRetryMaxAttempts ≤ row.attempts)

def deleteFailuresOver : RelayDb :=
  { db with failures := Table.deleteWhere db.isFailureOver db.failures }

/-- The failures whose last attempt is long enough ago. -/
def selectFailures : List FailureRow :=
  ((db.failures.filter fun row => decide (db.clock ≤ row.expiresAt) &&
    decide (row.attempts < relayRetryMaxAttempts) &&
    row.lastAttemptAt.all fun last =>
      decide (last + relayRetryBackoffSeconds ≤ db.clock)).insertionSort
      oldestFailureFirst).take relayRetryBatchSize

def deleteFailure (deliveryId : String) : RelayDb :=
  { db with failures := Table.deleteWhere (·.deliveryId == deliveryId) db.failures }

def recordRetry (deliveryId : String) : RelayDb :=
  { db with
    failures := Table.updateWhere (·.deliveryId == deliveryId)
      (fun row => { row with attempts := row.attempts + 1, lastAttemptAt := some db.clock })
        db.failures }

end RelayDb

/-! ## Calls -/

/-- The calls of the orb and of its engines. A sample is a query whose rows only go into a log
line. -/
inductive RelayCall
  | sampleExpired
  | deleteExpired
  | insertPending (row : NewPending)
  | deleteOvertaken (installationId : ℕ) (coalesceKey : String) (deliveryId : DeliveryId)
  | sampleEvicted (installationId : ℕ)
  | deleteEvicted (installationId : ℕ)
  | deleteAcked (installationId : ℕ) (enrollId : Option String) (ack : List DeliveryId)
  | selectPending (installationId : ℕ) (enrollId : Option String) (limit : ℕ)
  | insertFailure (deliveryId eventName : String) (installationId : ℕ) (rawBody : Payload)
  | sampleFailuresOver
  | deleteFailuresOver
  | selectFailures
  | deleteFailure (deliveryId : String)
  | recordRetry (deliveryId : String)
  | liveEnrollments (installationId : ℕ)
  /-- Sign the event and POST it to the relay URL of the enrollment. -/
  | postRelay (enrollment : LiveEnrollment) (deliveryId eventName : String) (rawBody : Payload)
  | validateOrbRelayEnrollment (secret : String)
  /-- The orb takes a request that reached it. -/
  | takeRequest
  | respond (events : List OrbRelayEvent)
  /-- An engine sends a request with its secret. -/
  | sendRequest (request : PullRequest)
  | receiveEvents
  /-- The engine with the secret enqueues an event locally. -/
  | enqueueWebhook (secret : String) (deliveryId : DeliveryId) (eventName : String)
      (rawBody : Payload)
  /-- The engine with the secret surfaces a config push. -/
  | surfaceConfigPush (secret : String) (deliveryId : DeliveryId) (rawBody : Payload)

/-- What a call may reply; an error is thrown. -/
abbrev RelayReply : RelayCall → Type
  | .sampleExpired | .deleteExpired | .deleteOvertaken .. | .sampleEvicted _ | .deleteEvicted _ |
    .deleteAcked ..
  | .insertFailure .. | .sampleFailuresOver | .deleteFailuresOver | .deleteFailure _ |
    .recordRetry _ | .respond _
  | .sendRequest _ | .surfaceConfigPush .. => Except String Unit
  /- `meta.changes`. -/
  | .insertPending _ => Except String ℕ
  | .selectPending .. | .receiveEvents => Except String (List OrbRelayEvent)
  | .selectFailures => Except String (List FailureRow)
  | .liveEnrollments _ => Except String (List LiveEnrollment)
  /- `res.ok`. -/
  | .postRelay .. => Except String Bool
  | .validateOrbRelayEnrollment _ => Except String (Option RelayEnrollment)
  | .takeRequest => PullRequest
  | .enqueueWebhook .. => Except String EnqueueWebhookResult

/-- The engine took the event: its enqueue did not fail. -/
def Takes : Except String EnqueueWebhookResult → Prop
  | .ok result => result ≠ .enqueueFailed
  | .error _ => False

instance (reply : Except String EnqueueWebhookResult) : Decidable (Takes reply) :=
  match reply with
  | .ok result => inferInstanceAs (Decidable (result ≠ .enqueueFailed))
  | .error _ => isFalse id

section Answers

variable (enrollmentOf : String → Option RelayEnrollment)

/-- What a call does at the time of the clock. -/
def RelayDb.serves : Answers RelayReply RelayDb
  | db, .deleteExpired, reply, after => Outcome db db.deleteExpired () reply after
  | db, .insertPending row, reply, after =>
    Outcome db (db.insertPending row) (if db.hasDelivery row.deliveryId then 0 else 1) reply after
  | db, .deleteOvertaken installationId coalesceKey deliveryId, reply, after =>
    Outcome db (db.deleteOvertaken installationId coalesceKey deliveryId) () reply after
  | db, .deleteEvicted installationId, reply, after =>
    Outcome db (db.deleteEvicted installationId) () reply after
  | db, .deleteAcked installationId enrollId ack, reply, after =>
    Outcome db (db.deleteAcked installationId enrollId ack) () reply after
  | db, .selectPending installationId enrollId limit, reply, after =>
    Reads db (· = db.selectPending installationId enrollId limit) reply after
  | db, .insertFailure deliveryId eventName installationId rawBody, reply, after =>
    Outcome db (db.insertFailure deliveryId eventName installationId rawBody) () reply after
  | db, .deleteFailuresOver, reply, after => Outcome db db.deleteFailuresOver () reply after
  | db, .selectFailures, reply, after => Reads db (· = db.selectFailures) reply after
  | db, .deleteFailure deliveryId, reply, after =>
    Outcome db (db.deleteFailure deliveryId) () reply after
  | db, .recordRetry deliveryId, reply, after =>
    Outcome db (db.recordRetry deliveryId) () reply after
  | db, .validateOrbRelayEnrollment secret, reply, after =>
    Reads db (fun enrollment => ∀ found, enrollment = some found →
      enrollmentOf secret = some found) reply after
  | db, .takeRequest, request, after => request ∈ db.requests ∧ after = db
  | db, .sendRequest request, reply, after =>
    Outcome db { db with requests := request :: db.requests } () reply after
  | db, .respond events, reply, after =>
    Outcome db { db with responses := events :: db.responses } () reply after
  | db, .receiveEvents, reply, after => Reads db (· ∈ db.responses) reply after
  | db, .enqueueWebhook secret deliveryId _ _, reply, after =>
    after = if Takes reply then { db with taken := (secret, deliveryId) :: db.taken } else db
  | db, .surfaceConfigPush secret deliveryId _, reply, after =>
    after = if reply.isOk then { db with surfaced := (secret, deliveryId) :: db.surfaced } else db
  -- Nothing is known of the other replies.
  | db, _, _, after => after = db

/-- What a call does; time may have passed. -/
def RelayDb.answers : Answers RelayReply RelayDb := fun db call reply after =>
  ∃ now, db.clock ≤ now ∧ RelayDb.serves enrollmentOf { db with clock := now } call reply after

end Answers

end LoopOver.Relay
