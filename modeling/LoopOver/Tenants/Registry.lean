import LoopOver.Queue.Keys
import Mathlib.Logic.Function.Basic

/-!
# Hosted tenants

The control plane keeps a record of every tenant in a key-value store, with an index from the GitHub
installations to the tenants that claim them: `control-plane/src/tenant-registry.ts`. The routes of
`control-plane/src/http-app.ts` create, relink and delete tenants, with
`control-plane/src/provisioning.ts` for what stands behind a tenant.

* `Kv` is the store, `upsert` writes a record and keeps the index.
* `TenantRequest` are the requests, and `handle` is what a request does that is handled alone. The
  bearer token is taken to be right; the routes that only read are left out, and so is what only the
  driver reads.
-/

namespace LoopOver.Tenants

open Queue (JsonValue Payload)

/-! ## Records -/

/-- Where a tenant stands. -/
inductive TenantLifecycleState
  | provisioning
  | active
  | suspended
  | failed
  | tornDown
  deriving DecidableEq

structure Tenant where
  name : String
  deriving DecidableEq

structure AmsCycleSchedule where
  command : String
  args : List String
  intervalMs : ℚ
  nextDueAt : String
  lastRunAt : Option String
  lastExitCode : Option ℤ
  deriving DecidableEq

structure TenantRegistryRecord where
  tenant : Tenant
  product : String
  state : TenantLifecycleState
  createdAt : String
  updatedAt : String
  amsSchedule : Option AmsCycleSchedule
  orbInstallationId : Option ℕ
  secretRef : Option String
  deriving DecidableEq

/-- A new tenant may take the name and the installation. -/
def isRecreatableState : TenantLifecycleState → Bool
  | .tornDown | .failed => true
  | _ => false

/-! ## The registry -/

/-- The values of the store: a record, or the key of one. -/
inductive KvValue
  | record (record : TenantRegistryRecord)
  | primaryKey (key : String)

/-- The store. -/
abbrev Kv := String → Option KvValue

def emptyKv : Kv := fun _ => none

def instanceKeyFor (name product : String) : String := product ++ ":" ++ name

def keyFor (name product : String) : String := "tenant:" ++ instanceKeyFor name product

def TenantRegistryRecord.key (record : TenantRegistryRecord) : String :=
  keyFor record.tenant.name record.product

def installationIndexKeyFor (installationId : ℕ) : String :=
  "installation:" ++ toString installationId

section Registry

variable (kv : Kv)

/-- The record under a primary key. -/
def recordAt (key : String) : Option TenantRegistryRecord :=
  match kv key with
  | some (.record record) => some record
  | _ => none

/-- The index points to the key. -/
def pointsTo (installationId : ℕ) (key : String) : Bool :=
  match kv (installationIndexKeyFor installationId) with
  | some (.primaryKey current) => current == key
  | _ => false

def get (name product : String) : Option TenantRegistryRecord := recordAt kv (keyFor name product)

def getByOrbInstallationId (installationId : ℕ) : Option TenantRegistryRecord :=
  match kv (installationIndexKeyFor installationId) with
  | some (.primaryKey key) => recordAt kv key
  | _ => none

/-- Take the claim of the record before out of the index, if it is another one and the index has
it. -/
def clearClaim (record : TenantRegistryRecord) : Kv :=
  match (recordAt kv record.key).bind (·.orbInstallationId) with
  | some previous =>
    if record.orbInstallationId ≠ some previous ∧ pointsTo kv previous record.key = true then
      Function.update kv (installationIndexKeyFor previous) none
    else kv
  | none => kv

def upsert (record : TenantRegistryRecord) : Kv :=
  let stored := Function.update (clearClaim kv record) record.key (some (.record record))
  match record.orbInstallationId with
  | some installationId =>
    Function.update stored (installationIndexKeyFor installationId) (some (.primaryKey record.key))
  | none => stored

end Registry

/-! ## Provisioning -/

/-- How the steps of the driver end; a secret that is injected may have a reference. -/
structure DriverReplies where
  provisionDatabase : Except String Unit
  injectSecrets : Except String (Option String)
  createContainer : Except String Unit
  revokeSecrets : Except String Unit
  dropDatabase : Except String Unit
  destroyContainer : Except String Unit

/-- The reference of the secret, or the error of the first step that fails. A secret of a container
that failed is revoked, whatever the driver says to it. -/
def provisionTenant (driver : DriverReplies) : Except String (Option String) := do
  driver.provisionDatabase
  let secretRef ← driver.injectSecrets
  driver.createContainer
  pure secretRef

def deprovisionTenant (driver : DriverReplies) : Except String Unit := do
  driver.revokeSecrets
  driver.dropDatabase
  driver.destroyContainer

/-! ## Requests -/

/-- What a response shows of a record. -/
structure SafeRecord where
  tenant : Tenant
  product : String
  state : TenantLifecycleState
  amsSchedule : Option AmsCycleSchedule
  orbInstallationId : Option ℕ
  secretRef : Option String

def safeRecord (record : TenantRegistryRecord) : SafeRecord :=
  ⟨record.tenant, record.product, record.state, record.amsSchedule, record.orbInstallationId,
    record.secretRef⟩

/-- The answer of a route. -/
inductive TenantResponse
  | shown (status : ℕ) (record : SafeRecord)
  | refused (status : ℕ) (error : String) (message : Option String)

section Parsing

def hostedCycleCommands : List String := ["discover", "manage-poll", "attempt"]

/-- `z.string().trim().min(1)`. -/
def requiredText (value : Option JsonValue) : Option String :=
  ((value.bind (·.text?)).map trimText).filter (· != "")

/-- The identity of a create request, or the field that is not valid. -/
def parseIdentity (body : JsonValue) : Except String (String × String) :=
  match requiredText (body.property? "name"), requiredText (body.property? "product") with
  | none, _ => .error "name"
  | some _, none => .error "product"
  | some name, some product => .ok (name, product)

/-- The schedule of a create request, if it has one, or what is wrong with it. -/
def parseScheduleRequest (now : String) : Option JsonValue → Except String (Option AmsCycleSchedule)
  | none => .ok none
  | some (.object fields) =>
    let schedule := JsonValue.object fields
    match ((schedule.property? "command").bind (·.text?)).filter hostedCycleCommands.contains with
    | none => .error ("schedule.command must be one of: " ++ ", ".intercalate hostedCycleCommands)
    | some command =>
      match ((schedule.property? "args").getD (.array [])).items?.bind fun items =>
        items.mapM (·.text?) with
      | none => .error "schedule.args must be an array of strings"
      | some args =>
        match ((schedule.property? "intervalMs").bind (·.number?)).filter fun ms =>
          decide (0 < ms) with
        | none => .error "schedule.intervalMs must be a positive number of milliseconds"
        | some intervalMs => .ok (some ⟨command, args, intervalMs, now, none, none⟩)
  | some _ => .error "schedule must be a JSON object"

/-- `z.number().int().positive()`; `int` is for safe integers. -/
def installationIdOf (value : JsonValue) : Option ℕ :=
  (value.number?.filter fun id => decide (id.den = 1 ∧ 0 < id ∧ id ≤ 9007199254740991)).map
    (·.num.toNat)

def parseOrbInstallationId : Option JsonValue → Except String (Option ℕ)
  | none => .ok none
  | some value =>
    match installationIdOf value with
    | none => .error "orbInstallationId must be a positive integer"
    | some installationId => .ok (some installationId)

/-- A body that is an object or an array. -/
def objectBody (body : Payload) : Option JsonValue :=
  body.filter fun
    | .object _ | .array _ => true
    | _ => false

end Parsing

def invalidRequest (message : String) : TenantResponse :=
  .refused 400 "invalid_request" (some message)

/-- `installation … is already claimed by tenant "…"`. -/
def alreadyClaimed (installationId : ℕ) (conflicting : TenantRegistryRecord) : TenantResponse :=
  .refused 409 "installation_already_claimed"
    (some ("installation " ++ toString installationId ++ " is already claimed by tenant \"" ++
      conflicting.tenant.name ++ "\""))

/-- What a create request asks for, or the response to one that is not valid. -/
def parseCreate (body : Payload) (now : String) :
    Except TenantResponse (String × String × Option AmsCycleSchedule × Option ℕ) :=
  match objectBody body with
  | none => .error (.refused 400 "invalid_json" none)
  | some body =>
    match parseIdentity body with
    | .error field => .error (invalidRequest (field ++ " is required"))
    | .ok (name, product) =>
      match parseScheduleRequest now (body.property? "schedule") with
      | .error message => .error (invalidRequest message)
      | .ok schedule =>
        if schedule.isSome ∧ product ≠ "ams" then
          .error (invalidRequest "schedule is only valid for product \"ams\"")
        else
          match parseOrbInstallationId (body.property? "orbInstallationId") with
          | .error message => .error (invalidRequest message)
          | .ok installationId =>
            if installationId.isSome ∧ product ≠ "orb" then
              .error (invalidRequest "orbInstallationId is only valid for product \"orb\"")
            else .ok (name, product, schedule, installationId)

section Routes

variable (kv : Kv)

/-- The tenant that has the installation and may not be replaced. -/
def claimant (installationId : Option ℕ) : Option TenantRegistryRecord :=
  (installationId.bind (getByOrbInstallationId kv)).filter fun record =>
    !isRecreatableState record.state

/-- `POST /v1/tenants`. -/
def createTenant (body : Payload) (driver : DriverReplies) (startedAt settledAt : String) :
    TenantResponse × Kv :=
  match parseCreate body startedAt with
  | .error response => (response, kv)
  | .ok (name, product, schedule, installationId) =>
    if (get kv name product).any fun existing => !isRecreatableState existing.state then
      (.refused 409 "tenant_already_exists" none, kv)
    else
      match claimant kv installationId with
      | some conflicting => (alreadyClaimed (installationId.getD 0) conflicting, kv)
      | none =>
        let pending : TenantRegistryRecord :=
          ⟨⟨name⟩, product, .provisioning, startedAt, startedAt, schedule, installationId, none⟩
        let kv := upsert kv pending
        match provisionTenant driver with
        | .error _ =>
          (.refused 500 "internal_error" none,
            upsert kv { pending with state := .failed, updatedAt := settledAt })
        | .ok secretRef =>
          let record :=
            { pending with state := .active, updatedAt := settledAt, secretRef := secretRef }
          (.shown 201 (safeRecord record), upsert kv record)

/-- A query parameter that is there and not blank. -/
def parseProduct (productQuery : Option String) : Option String :=
  (productQuery.map trimText).filter (· != "")

/-- `PATCH /v1/tenants/:name/orb-installation`. -/
def relinkTenant (name : String) (productQuery : Option String) (body : Payload) (now : String) :
    TenantResponse × Kv :=
  match parseProduct productQuery with
  | none => (invalidRequest "product query parameter is required", kv)
  | some product =>
    if product ≠ "orb" then
      (invalidRequest "orbInstallationId is only valid for product \"orb\"", kv)
    else
      match get kv name product with
      | none => (.refused 404 "tenant_not_found" none, kv)
      | some existing =>
        match objectBody body with
        | none => (.refused 400 "invalid_json" none, kv)
        | some body =>
          match body.property? "orbInstallationId" with
          | none => (invalidRequest "orbInstallationId is required", kv)
          | some value =>
            match installationIdOf value with
            | none => (invalidRequest "orbInstallationId must be a positive integer", kv)
            | some installationId =>
              let conflicting := (claimant kv (some installationId)).filter fun other =>
                other.tenant.name != existing.tenant.name
              match conflicting with
              | some conflicting => (alreadyClaimed installationId conflicting, kv)
              | none =>
                let record :=
                  { existing with orbInstallationId := some installationId, updatedAt := now }
                (.shown 200 (safeRecord record), upsert kv record)

/-- `DELETE /v1/tenants/:name`. -/
def deleteTenant (name : String) (productQuery : Option String) (driver : DriverReplies)
    (now : String) :
    TenantResponse × Kv :=
  match parseProduct productQuery with
  | none => (invalidRequest "product query parameter is required", kv)
  | some product =>
    match get kv name product with
    | none => (.refused 404 "tenant_not_found" none, kv)
    | some existing =>
      if existing.state = .provisioning then
        (.refused 409 "tenant_provisioning"
          (some ("tenant \"" ++ name ++ "\" is still provisioning; retry once it settles")), kv)
      else
        match deprovisionTenant driver with
        | .error _ => (.refused 500 "internal_error" none, kv)
        | .ok _ =>
          let record : TenantRegistryRecord :=
            ⟨existing.tenant, existing.product, .tornDown, existing.createdAt, now,
              none, none, none⟩
          (.shown 200 (safeRecord record), upsert kv record)

end Routes

/-- The requests that change the registry, with how the driver ends and the times of the records. -/
inductive TenantRequest
  | create (body : Payload) (driver : DriverReplies) (startedAt settledAt : String)
  | relink (name : String) (productQuery : Option String) (body : Payload) (now : String)
  | delete (name : String) (productQuery : Option String) (driver : DriverReplies) (now : String)

def handle (kv : Kv) : TenantRequest → TenantResponse × Kv
  | .create body driver startedAt settledAt => createTenant kv body driver startedAt settledAt
  | .relink name productQuery body now => relinkTenant kv name productQuery body now
  | .delete name productQuery driver now => deleteTenant kv name productQuery driver now

end LoopOver.Tenants
