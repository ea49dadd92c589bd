import LoopOver.Foundations.Exec
import LoopOver.Foundations.Runs
import LoopOver.Relay.Conduct

/-!
# Enrollments

`src/orb/broker.ts` enrolls the engines of an installation, each with a secret of its own, and
revokes enrollments; `src/orb/relay.ts` registers how an engine gets its events. `OrbDb` has these
tables next to those of the relay, and `OrbAction` is what may happen to them: each operation has
the tables to itself, and any time may pass in between. The scripts of the relay are run by
`OrbDb.serve`, which answers their statements from the tables.
-/

namespace LoopOver.Relay

open Queue (Payload KeyRuntime)

/-! ## Rows -/

/-- The states that are written. -/
inductive EnrollmentState
  | enrolled
  | revoked
  deriving DecidableEq

/-- A row of `orb_enrollments`; times are in seconds. -/
structure EnrollmentRow where
  rowid : ℕ
  enrollId : String
  installationId : ℕ
  secretHash : String
  state : EnrollmentState
  enrolledAt : ℕ
  revokedAt : Option ℕ
  relayMode : String
  relayUrl : Option String
  relayRegisteredAt : Option ℕ
  deriving DecidableEq

/-- A row of `orb_github_installations`. -/
structure OrbInstallation where
  registered : ℕ
  suspendedAt : Option ℕ
  removedAt : Option ℕ

structure OrbDb where
  relay : RelayDb
  enrollments : List EnrollmentRow
  installations : ℕ → Option OrbInstallation

/-- The deployment: its hash of secrets, what the key of a webhook is made with, whether
`TOKEN_ENCRYPTION_SECRET` is set, and which relay URLs are safe. -/
structure OrbEnv where
  hashToken : String → String
  runtime : KeyRuntime
  hasEncryptionSecret : Bool
  isSafeHttpUrl : String → Bool

/-- `state = 'enrolled' AND revoked_at IS NULL`. -/
def EnrollmentRow.isLive (row : EnrollmentRow) : Bool :=
  row.state == .enrolled && row.revokedAt.isNone

def isLiveOf (installationId : ℕ) (row : EnrollmentRow) : Bool :=
  row.installationId == installationId && row.isLive

/-- `(relay_registered_at IS NOT NULL), relay_registered_at`. -/
def EnrollmentRow.registration (row : EnrollmentRow) : ℕ := row.relayRegisteredAt.elim 0 (· + 1)

/-- `ORDER BY (relay_registered_at IS NOT NULL) DESC, relay_registered_at DESC, enrolled_at DESC,
rowid DESC`. -/
def winnerFirst (a b : EnrollmentRow) : Prop :=
  b.registration < a.registration ∨ b.registration = a.registration ∧
    (b.enrolledAt < a.enrolledAt ∨ b.enrolledAt = a.enrolledAt ∧ b.rowid ≤ a.rowid)

instance : DecidableRel winnerFirst := fun a b =>
  inferInstanceAs (Decidable (b.registration < a.registration ∨ b.registration = a.registration ∧
    (b.enrolledAt < a.enrolledAt ∨ b.enrolledAt = a.enrolledAt ∧ b.rowid ≤ a.rowid)))

def EnrollmentRow.live (row : EnrollmentRow) : LiveEnrollment :=
  ⟨row.enrollId, row.relayMode, row.relayUrl⟩

def OrbInstallation.isEligible (install : OrbInstallation) : Bool :=
  install.registered == 1 && install.suspendedAt.isNone && install.removedAt.isNone

/-! ## Issuing and revoking -/

/-- The answer to a request for an enrollment. -/
inductive IssueResult
  | issued (enrollId secret : String)
  | installationNotFound
  | installationNotRegistered
  /-- The insert threw: an id or a hash was there already. -/
  | insertFailed
  deriving DecidableEq

/-- Why an enrollment gives no access. -/
inductive RelayEnrollmentError
  | invalidEnrollment
  | installationNotEligible
  deriving DecidableEq

inductive RegisterError
  | refused (error : RelayEnrollmentError)
  | invalidRelayUrl
  | encryptionUnavailable
  deriving DecidableEq

/-- Whether events are pushed to an instance or pulled by it. -/
inductive RelayMode
  | push
  | pull
  deriving DecidableEq

namespace OrbDb

variable (env : OrbEnv) (db : OrbDb)

def clock : ℕ := db.relay.clock

/-- The live enrollments of an installation; the first one is the winner. -/
def liveRows (installationId : ℕ) : List EnrollmentRow :=
  (db.enrollments.filter (isLiveOf installationId)).insertionSort winnerFirst

/-- The enrollment that an event of the installation is forwarded to. -/
def winner (installationId : ℕ) : Option EnrollmentRow := (db.liveRows installationId).head?

/-- The rowid of the next enrollment; no row is ever deleted. -/
def nextEnrollmentRowid : ℕ := db.enrollments.length + 1

/-- Revoke every live enrollment of the installation. -/
def revokeAllLiveEnrollmentsForInstallation (installationId : ℕ) : ℕ × OrbDb :=
  (db.enrollments.countP (isLiveOf installationId),
    { db with
      enrollments := Table.updateWhere (isLiveOf installationId)
        (fun row => { row with revokedAt := some db.clock, state := .revoked }) db.enrollments })

/-- `enroll_id` is the primary key, and `secret_hash` is unique. -/
def hasEnrollment (enrollId secretHash : String) : Bool :=
  db.enrollments.any fun row => row.enrollId == enrollId || row.secretHash == secretHash

def insertEnrollment (enrollId secretHash : String) (installationId : ℕ) : OrbDb :=
  { db with
    enrollments :=
      db.enrollments ++ [⟨db.nextEnrollmentRowid, enrollId, installationId, secretHash, .enrolled,
      db.clock, none, "push", none, none⟩] }

/-- Enroll an engine with new tokens. -/
def issueOrbEnrollment (installationId : ℕ) (rotate : Bool) (enrollId secret : String) :
    IssueResult × OrbDb :=
  match db.installations installationId with
  | none => (.installationNotFound, db)
  | some install =>
    if install.registered ≠ 1 then (.installationNotRegistered, db)
    else
      let db := if rotate then (db.revokeAllLiveEnrollmentsForInstallation installationId).2 else db
      if db.hasEnrollment enrollId (env.hashToken secret) then (.insertFailed, db)
      else (.issued enrollId secret,
        db.insertEnrollment enrollId (env.hashToken secret) installationId)

/-- Revoke an enrollment; the first revocation keeps its time. -/
def revokeOrbEnrollment (enrollId : String) : Bool × OrbDb :=
  if db.enrollments.any fun row => row.enrollId == enrollId then
    (true, { db with
      enrollments := Table.updateWhere (·.enrollId == enrollId)
        (fun row => { row with revokedAt := row.revokedAt <|> some db.clock, state := .revoked })
          db.enrollments })
  else (false, db)

/-! ## Registering -/

def isEligible (installationId : ℕ) : Bool := (db.installations installationId).any (·.isEligible)

def validateOrbRelayEnrollment (secret : String) : Except RelayEnrollmentError RelayEnrollment :=
  match db.enrollments.find? (·.secretHash == env.hashToken secret) with
  | none => .error .invalidEnrollment
  | some row =>
    if !row.isLive then .error .invalidEnrollment
    else if !db.isEligible row.installationId then .error .installationNotEligible
    else .ok ⟨row.enrollId, row.installationId⟩

def registerValidatedOrbRelay (enrollment : RelayEnrollment) (relayUrl : String) : RelayMode →
    Except RegisterError ℕ × OrbDb
  | .pull =>
    (.ok enrollment.installationId, { db with
      enrollments := Table.updateWhere (·.enrollId == enrollment.enrollId)
        (fun row => { row with relayMode := "pull", relayRegisteredAt := some db.clock })
          db.enrollments })
  | .push =>
    if !env.isSafeHttpUrl relayUrl then (.error .invalidRelayUrl, db)
    else if !env.hasEncryptionSecret then (.error .encryptionUnavailable, db)
    else
      (.ok enrollment.installationId, { db with
        enrollments := Table.updateWhere (·.enrollId == enrollment.enrollId)
          (fun row => { row with
            relayMode := "push", relayUrl := some relayUrl, relayRegisteredAt := some db.clock })
          db.enrollments })

def registerOrbRelay (secret relayUrl : String) (mode : RelayMode) :
    Except RegisterError ℕ × OrbDb :=
  match db.validateOrbRelayEnrollment env secret with
  | .error e => (.error (.refused e), db)
  | .ok enrollment => db.registerValidatedOrbRelay env enrollment relayUrl mode

/-! ## Running the scripts of the relay -/

/-- What the tables reply to a call; an engine replies to a POST as it likes. -/
def reply (posted : Bool) : (call : RelayCall) → RelayReply call
  | .sampleExpired | .deleteExpired | .deleteOvertaken .. | .sampleEvicted _ | .deleteEvicted _ |
    .deleteAcked ..
  | .insertFailure .. | .sampleFailuresOver | .deleteFailuresOver | .deleteFailure _ |
    .recordRetry _ | .respond _
  | .sendRequest _ | .surfaceConfigPush .. => .ok ()
  | .insertPending row => .ok (if db.relay.hasDelivery row.deliveryId then 0 else 1)
  | .selectPending installationId enrollId limit =>
    .ok (db.relay.selectPending installationId enrollId limit)
  | .receiveEvents => .ok (db.relay.responses.headD [])
  | .selectFailures => .ok db.relay.selectFailures
  | .liveEnrollments installationId => .ok ((db.liveRows installationId).map (·.live))
  | .postRelay .. => .ok posted
  | .validateOrbRelayEnrollment secret => .ok (db.validateOrbRelayEnrollment env secret).toOption
  | .takeRequest => db.relay.requests.headD ⟨"", []⟩
  | .enqueueWebhook .. => .ok .queued

/-- A call of a script that has the tables to itself. -/
def serve (posted : Bool) : Service RelayReply OrbDb := fun db call =>
  (db.reply env posted call, { db with relay := db.relay.effect call })

/-- Run a script of the relay. -/
def exec {α : Type} (posted : Bool) (p : RelayScript Unit α) : (Except String α × Unit) × OrbDb :=
  p.exec (serve env posted) () db

def forwardOrbEvent (posted : Bool) (guid : String) (event : RelayEvent) : OrbDb :=
  (db.exec env posted (Relay.forwardOrbEvent env.runtime env.hasEncryptionSecret guid event)).2

/-- A pull request reaches the orb: the events of its response, and the tables after it. -/
def pull (secret : String) (ack : List DeliveryId) : List OrbRelayEvent × OrbDb :=
  let db := { db with relay := { db.relay with requests := [⟨secret, ack⟩], responses := [] } }
  let after := (db.exec env true handlePull).2
  (after.relay.responses.headD [], after)

/-- Time passes. -/
def wait (seconds : ℕ) : OrbDb :=
  { db with relay := { db.relay with clock := db.relay.clock + seconds } }

/-- Pull again and again, each time after a wait; every pull acknowledges the events of the one
before it. -/
def drain (secret : String) : List ℕ → List DeliveryId → OrbDb → List OrbRelayEvent
  | [], _, _ => []
  | seconds :: later, ack, db =>
    let pulled := (db.wait seconds).pull env secret ack
    pulled.1 ++ drain secret later (pulled.1.map (·.deliveryId)) pulled.2

end OrbDb

/-! ## Runs -/

/-- What may happen. The tokens of a new enrollment come with it. -/
inductive OrbAction
  | wait (seconds : ℕ)
  /-- GitHub or the operator changes an installation. -/
  | setInstallation (installationId : ℕ) (install : Option OrbInstallation)
  | issueOrbEnrollment (installationId : ℕ) (rotate : Bool) (enrollId secret : String)
  | revokeOrbEnrollment (enrollId : String)
  | revokeAllLiveEnrollments (installationId : ℕ)
  | registerOrbRelay (secret relayUrl : String) (mode : RelayMode)
  | forward (posted : Bool) (guid : String) (event : RelayEvent)
  | configPush (installationId : ℕ) (payload : ConfigPushPayload)
  | prune
  | pull (secret : String) (ack : List DeliveryId)

section Runs

variable (env : OrbEnv)

def OrbDb.act (db : OrbDb) : OrbAction → OrbDb
  | .wait seconds => db.wait seconds
  | .setInstallation installationId install =>
    { db with installations := fun other => if other = installationId then install
      else db.installations other }
  | .issueOrbEnrollment installationId rotate enrollId secret =>
    (db.issueOrbEnrollment env installationId rotate enrollId secret).2
  | .revokeOrbEnrollment enrollId => (db.revokeOrbEnrollment enrollId).2
  | .revokeAllLiveEnrollments installationId =>
    (db.revokeAllLiveEnrollmentsForInstallation installationId).2
  | .registerOrbRelay secret relayUrl mode => (db.registerOrbRelay env secret relayUrl mode).2
  | .forward posted guid event => db.forwardOrbEvent env posted guid event
  | .configPush installationId payload =>
    (db.exec env true (enqueueConfigPushRelay installationId payload)).2
  | .prune => (db.exec env true pruneRelayPending).2
  | .pull secret ack => (db.pull env secret ack).2

/-- Every action can happen. -/
def orbStep (db : OrbDb) (action : OrbAction) : Option OrbDb := some (db.act env action)

/-- Before the first enrollment. -/
def orbStart (installations : ℕ → Option OrbInstallation) : OrbDb := ⟨emptyDb, [], installations⟩

end Runs

end LoopOver.Relay
