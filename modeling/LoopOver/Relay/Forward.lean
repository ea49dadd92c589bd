import LoopOver.Relay.Store

/-!
# Forwarding, retrying and pulling

The functions of `src/orb/relay.ts` on the two tables, the handler of a pull in `src/api/routes.ts`,
the loop of an engine in `src/selfhost/monitored-work.ts` with `drainOrbRelay` of
`src/orb/broker-client.ts`, and `relayForward` of `src/orb/webhook.ts`, which the handler of a
webhook starts after its response.

The functions run next to each other: `RelayTask` are the programs of a run. The source retries the
failures of a chunk at the same time; in a run they may be tasks of their own. An engine that
restarts is a new task.
-/

namespace LoopOver.Relay

open Queue (JsonValue Payload KeyRuntime githubWebhookCoalesceKey)
open Script

abbrev RelayScript (σ : Type) := Script RelayReply σ String

/-- Make a call. -/
abbrev request {σ : Type} (call : RelayCall) : RelayScript σ (RelayReply call) := Script.ask call

section Orb

variable {σ : Type} (host : KeyRuntime)

/-! ## Pending events -/

def pruneRelayPending : RelayScript σ Unit := do
  ofExcept (← request .sampleExpired)
  ofExcept (← request .deleteExpired)

/-- A body that does not parse has no key. -/
def relayPendingCoalesceKey (eventName : String) (rawBody : Payload) : Option String :=
  rawBody.bind (githubWebhookCoalesceKey host eventName)

/-- The row of a webhook. -/
def webhookRow (guid : String) (installationId : ℕ) (eventName : String) (rawBody : Payload)
    (enrollId : Option String) : NewPending where
  deliveryId := .github guid
  installationId := installationId
  eventName := eventName
  rawBody := rawBody
  coalesceKey := relayPendingCoalesceKey host eventName rawBody
  enrollId := enrollId
  kind := "github_webhook"

def enqueueRelayPending (guid : String) (installationId : ℕ) (eventName : String)
    (rawBody : Payload) (enrollId : Option String) : RelayScript σ Unit := do
  pruneRelayPending
  let coalesceKey := relayPendingCoalesceKey host eventName rawBody
  let changes ← ofExcept
    (← request (.insertPending (webhookRow host guid installationId eventName rawBody enrollId)))
  match truthy coalesceKey with
  | some key =>
    runWhen (decide (0 < changes)) do
      ofExcept (← request (.deleteOvertaken installationId key (.github guid)))
  | none => pure ()
  ofExcept (← request (.sampleEvicted installationId))
  ofExcept (← request (.deleteEvicted installationId))

structure ConfigPushPayload where
  pushId : String
  message : String
  capability : Option String := none
  deprecatesAt : Option String := none

/-- `JSON.stringify(payload)`, parsed. -/
def ConfigPushPayload.body (payload : ConfigPushPayload) : Payload :=
  let optional (key : String) (value : Option String) : List (String × JsonValue) :=
    (value.map fun text => (key, JsonValue.string text)).toList
  some (.object ([("pushId", .string payload.pushId), ("message", .string payload.message)] ++
    optional "capability" payload.capability ++ optional "deprecatesAt" payload.deprecatesAt))

/-- The row of a config push, which is for the whole installation. -/
def configPushRow (installationId : ℕ) (payload : ConfigPushPayload) : NewPending where
  deliveryId := .configPush payload.pushId installationId
  installationId := installationId
  eventName := "config_push"
  rawBody := payload.body
  coalesceKey := none
  enrollId := none
  kind := "config_push"

def enqueueConfigPushRelay (installationId : ℕ) (payload : ConfigPushPayload) :
    RelayScript σ Unit := do
  let _ ← ofExcept (← request (.insertPending (configPushRow installationId payload)))
  ofExcept (← request (.deleteEvicted installationId))

/-- A positive whole number, or the size of a batch. -/
def requestedLimit (limit : Option ℚ) : ℕ :=
  match limit with
  | some value => if value.den = 1 ∧ 0 < value then value.num.toNat else relayPendingBatchSize
  | none => relayPendingBatchSize

def pullRelayPending (installationId : ℕ) (ack : List DeliveryId) (limit : Option ℚ)
    (enrollId : Option String) :
    RelayScript σ (List OrbRelayEvent) := do
  pruneRelayPending
  let acked := ack.take relayPendingBatchSize
  runWhen (!acked.isEmpty) do
    ofExcept (← request (.deleteAcked installationId enrollId acked))
  ofExcept (← request (.selectPending installationId enrollId
    (min (requestedLimit limit) relayPendingBatchSize)))

/-- The handler of a pull; every failure is a response without events. -/
def handlePull : RelayScript σ Unit := do
  let pull ← request .takeRequest
  match ← request (.validateOrbRelayEnrollment pull.secret) with
  | .ok (some enrollment) =>
    match ← (pullRelayPending enrollment.installationId pull.ack none
      (some enrollment.enrollId)).attempt with
    | .ok events => Script.tell (.respond events)
    | .error _ => pure ()
  | _ => pure ()

/-! ## Forwarding -/

/-- What became of an event. -/
inductive RelayForwardOutcome
  | forwarded
  | queued
  | skipped
  | ignored
  | failed
  deriving DecidableEq

def relayForwardEvents : List String :=
  ["pull_request", "pull_request_review", "pull_request_review_comment", "check_suite",
    "issue_comment", "issues"]

def isRelayForwardableEvent (eventName : String) : Bool := relayForwardEvents.contains eventName

/-- An installation id, if it is not zero. -/
def truthyId (installationId : Option ℕ) : Option ℕ := installationId.filter (· ≠ 0)

variable (hasEncryptionSecret : Bool)

/-- Queue the event for its engine, or POST it; the engine is that of the first of the live
enrollments. -/
def forwardToEnrollment (guid : String) (installationId : ℕ) (event : RelayEvent)
    (row : LiveEnrollment) :
    RelayScript σ RelayForwardOutcome :=
  if row.relayMode = "pull" then do
    match ← (enqueueRelayPending host guid installationId event.eventName event.rawBody
        (some row.enrollId)).attempt with
    | .ok _ => pure .queued
    | .error _ => pure .failed
  else if (truthy row.relayUrl).isNone || !hasEncryptionSecret then pure .skipped
  else do
    match ← request (.postRelay row guid event.eventName event.rawBody) with
    | .ok true => pure .forwarded
    | _ => pure .failed

def forwardOrbEvent (guid : String) (event : RelayEvent) : RelayScript σ RelayForwardOutcome :=
  match truthyId event.installationId with
  | none => pure .skipped
  | some installationId =>
    if isRelayForwardableEvent event.eventName then do
      match ← request (.liveEnrollments installationId) with
      | .error _ => pure .failed
      | .ok [] => pure .ignored
      | .ok (row :: _) => forwardToEnrollment host hasEncryptionSecret guid installationId event row
    else pure .skipped

def shouldPersistRelayFailure (outcome : RelayForwardOutcome) (event : RelayEvent) : Bool :=
  event.installationId.isSome && isRelayForwardableEvent event.eventName &&
    (outcome == .failed || outcome == .skipped)

def persistRelayForwardOutcome (guid : String) (event : RelayEvent)
    (outcome : RelayForwardOutcome) :
    RelayScript σ Unit :=
  runWhen (shouldPersistRelayFailure outcome event) do
    ofExcept
      (← request (.insertFailure guid event.eventName (event.installationId.getD 0) event.rawBody))

/-- Forward a webhook after its response; what throws is only logged. -/
def relayForward (guid : String) (event : RelayEvent) : RelayScript σ Unit := do
  let _ ← attempt do
    let outcome ← forwardOrbEvent host hasEncryptionSecret guid event
    persistRelayForwardOutcome guid event outcome
  pure ()

/-! ## Retries -/

def isRelayFailureRetryTerminal (outcome : RelayForwardOutcome) (eventName : String) : Bool :=
  outcome == .forwarded || outcome == .queued || outcome == .ignored ||
    (outcome == .skipped && !isRelayForwardableEvent eventName)

/-- Delete the failure, or count the attempt; a failure to write is only logged. -/
def finalizeRelayFailureRetryRow (guid eventName : String) (outcome : RelayForwardOutcome) :
    RelayScript σ Unit :=
  if isRelayFailureRetryTerminal outcome eventName then Script.tell (.deleteFailure guid)
  else Script.tell (.recordRetry guid)

/-- Forward the event of a failure again. What follows a throw is left out: nothing here throws. -/
def retryRow (guid : String) (event : RelayEvent) : RelayScript σ Unit := do
  let outcome ← forwardOrbEvent host hasEncryptionSecret guid event
  finalizeRelayFailureRetryRow guid event.eventName outcome

/-- The event of a failure. -/
def FailureRow.event (row : FailureRow) : RelayEvent :=
  ⟨row.eventName, some row.installationId, row.rawBody⟩

def retryFailedRelays : RelayScript σ Unit := do
  ofExcept (← request .sampleFailuresOver)
  ofExcept (← request .deleteFailuresOver)
  let rows ← ofExcept (← request .selectFailures)
  forEach (fun row => retryRow host hasEncryptionSecret row.deliveryId row.event) rows

end Orb

/-! ## Engines -/

structure OrbRelayDrainState where
  pendingAck : List DeliveryId
  lastDrainAtMs : Option ℚ
  consecutiveFailures : ℕ

/-- What an engine starts with. -/
def freshDrainState : OrbRelayDrainState := ⟨[], none, 0⟩

section Engine

variable (secret : String)

/-- A pull over the network, which may fail before or after the orb has served it. -/
def drainOrbRelay (ack : List DeliveryId) :
    RelayScript OrbRelayDrainState (List OrbRelayEvent) := do
  ofExcept (← request (.sendRequest ⟨secret, ack⟩))
  ofExcept (← request .receiveEvents)

/-- `state.pendingAck.push(deliveryId)`. -/
def pushAck (deliveryId : DeliveryId) (state : OrbRelayDrainState) : OrbRelayDrainState :=
  { state with pendingAck := state.pendingAck ++ [deliveryId] }

/-- The loop body: an event that could not be taken is not acknowledged. -/
def drainEvent (ev : OrbRelayEvent) : RelayScript OrbRelayDrainState Unit :=
  if ev.kind = "config_push" then do
    match ← request (.surfaceConfigPush secret ev.deliveryId ev.rawBody) with
    | .ok _ => Script.modify (pushAck ev.deliveryId)
    | .error _ => pure ()
  else do
    match ← request (.enqueueWebhook secret ev.deliveryId ev.eventName ev.rawBody) with
    | .ok result =>
      if result ≠ .enqueueFailed then Script.modify (pushAck ev.deliveryId) else pure ()
    | .error _ => pure ()

def drainOrbRelayWithMonitor (nowMs : ℚ) : RelayScript OrbRelayDrainState Unit := do
  let state ← Script.get
  match ← (drainOrbRelay secret state.pendingAck).attempt with
  | .error e =>
    Script.modify fun state => { state with consecutiveFailures := state.consecutiveFailures + 1 }
    ofExcept (.error e)
  | .ok events =>
    Script.modify fun _ => ⟨[], some nowMs, 0⟩
    forEach (drainEvent secret) events

/-- The ticks of an engine, at the given times. -/
def drainTicks : List ℚ → RelayScript OrbRelayDrainState Unit
  | [] => pure ()
  | nowMs :: later => do
    let _ ← (drainOrbRelayWithMonitor secret nowMs).attempt
    drainTicks later

end Engine

/-! ## Runs -/

/-- The programs of a run. -/
inductive RelayTask
  | idle
  | webhook (guid : String)
  | retryTick
  | retryRow (guid : String)
  | prune
  | configPush (installationId : ℕ) (payload : ConfigPushPayload)
  | pull
  | engine (secret : String) (ticks : List ℚ)

section Tasks

variable (host : KeyRuntime) (hasEncryptionSecret : Bool) (github : GithubDeliveries)

/-- The calls of a script, whatever it ends with. -/
def callsOf {σ α : Type} (script : RelayScript σ α) (s : σ) : Prog RelayReply Unit :=
  (script s).bind fun _ => .ret ()

def RelayTask.prog : RelayTask → Prog RelayReply Unit
  | .idle => .ret ()
  | .webhook guid => callsOf (relayForward host hasEncryptionSecret guid (github.event guid)) ()
  | .retryTick => callsOf (retryFailedRelays host hasEncryptionSecret) ()
  | .retryRow guid => callsOf (Relay.retryRow host hasEncryptionSecret guid (github.event guid)) ()
  | .prune => callsOf pruneRelayPending ()
  | .configPush installationId payload => callsOf (enqueueConfigPushRelay installationId payload) ()
  | .pull => callsOf handlePull ()
  | .engine secret ticks => callsOf (drainTicks secret ticks) freshDrainState

end Tasks

end LoopOver.Relay
