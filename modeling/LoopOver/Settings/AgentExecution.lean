import LoopOver.Planner.Action

/-!
# How an action is executed

`src/settings/agent-execution.ts`, with the two environment switches it folds in: the mode every
action runs under (`resolveAgentActionMode`, where the safest of all switches wins), the GitHub App
permission an action class needs (`resolveAgentPermissionReadiness`), and the audit record that
every action leaves (`buildAgentActionAudit`).

The executor always asks for the permission of one class, so `requiredAgentActionPermissions` takes
the class and leaves out the source's all-classes form.
-/

namespace LoopOver

/-! ## Mode -/

/-- Whether actions are carried out, only recorded, or halted. -/
inductive AgentActionMode
  | paused
  | dryRun
  | live
  deriving DecidableEq, Repr

/-- The environment variables the executor reads. -/
structure AgentEnv where
  agentActionsPaused : Option String := none
  selfhostDeploymentMode : Option String := none
  githubPublicToken : Option String := none
  /-- `isPagerDutyEnabled`. -/
  pagerDutyEnabled : Bool := false

/-- The operator's emergency brake: the variable spells a truth value. -/
def isGlobalAgentPause (rt : Runtime) (env : AgentEnv) : Bool :=
  ["1", "true", "yes", "on"].contains (rt.toLowerCase (env.agentActionsPaused.getD ""))

/-- The mode a self-hosted instance forces on everything it does. -/
def forcedSelfhostMode (rt : Runtime) (env : AgentEnv) : Option AgentActionMode :=
  let mode := rt.toLowerCase (rt.trim (env.selfhostDeploymentMode.getD ""))
  if mode = "disabled" then some .paused
  else if mode = "dry-run" ∨ mode = "dry_run" then some .dryRun
  else none

/-- The safest of all switches wins. -/
def resolveAgentActionMode (globalPaused agentPaused agentDryRun : Bool)
    (instanceMode : Option AgentActionMode) : AgentActionMode :=
  if globalPaused || agentPaused || instanceMode == some .paused then .paused
  else if agentDryRun || instanceMode == some .dryRun then .dryRun
  else .live

/-! ## Permissions -/

/-- A GitHub App permission the agent may need with write access. -/
inductive AgentPermission
  | pullRequests
  | contents
  deriving DecidableEq, Repr

def AgentPermission.name : AgentPermission → String
  | pullRequests => "pull_requests"
  | contents => "contents"

/-- The access level an installation grants for a permission. -/
abbrev InstallationPermissions := String → Option String

/-- `PR_WRITE_ACTION_CLASSES`. -/
def prWriteActionClasses : List AgentActionClass :=
  [.review, .requestChanges, .approve, .close, .updateBranch]

/-- `CONTENTS_WRITE_ACTION_CLASSES`: GitHub's merge endpoint needs `contents: write`. -/
def contentsWriteActionClasses : List AgentActionClass := [.merge]

/-- The permissions a class needs; none when its level does not act. -/
def requiredAgentActionPermissions (autonomy : Option AutonomyPolicy)
    (actionClass : AgentActionClass) : List AgentPermission :=
  if isActingAutonomyLevel (resolveAutonomy autonomy actionClass) then
    (if prWriteActionClasses.contains actionClass then [.pullRequests] else []) ++
      (if contentsWriteActionClasses.contains actionClass then [.contents] else [])
  else []

/-- The needed permissions that the installation does not grant. -/
def missingAgentActionPermissions (autonomy : Option AutonomyPolicy)
    (permissions : Option InstallationPermissions) (actionClass : AgentActionClass) :
    List AgentPermission :=
  (requiredAgentActionPermissions autonomy actionClass).filter fun permission =>
    (permissions.bind fun granted => granted permission.name) != some "write"

/-- Whether the installation has granted what the mode needs. -/
inductive AgentPermissionReadiness
  | notRequired
  | ready
  | reconsentRequired
  deriving DecidableEq, Repr

/-- Whether the installation grants the write access the class needs. -/
def resolveAgentPermissionReadiness (autonomy : Option AutonomyPolicy)
    (permissions : Option InstallationPermissions) (actionClass : AgentActionClass) :
    AgentPermissionReadiness :=
  if (requiredAgentActionPermissions autonomy actionClass).isEmpty then .notRequired
  else if (missingAgentActionPermissions autonomy permissions actionClass).isEmpty then .ready
  else .reconsentRequired

/-- Why an action without its permission was denied. -/
def formatAgentPermissionDenial (autonomy : Option AutonomyPolicy)
    (permissions : Option InstallationPermissions) (actionClass : AgentActionClass)
    (suppressed : Bool) : String :=
  let missing := missingAgentActionPermissions autonomy permissions actionClass
  let summary :=
    if missing.isEmpty then "required GitHub App permission"
    else ", ".intercalate (missing.map fun permission => permission.name ++ ": write")
  summary ++ " not granted — maintainer must re-consent" ++
    (if suppressed then " (suppressed repeat)" else "")

/-! ## Audit records -/

/-- `AUDIT_REASON_MAX_LENGTH`. -/
def auditReasonMaxLength : Nat := 280

/-- Cut a reason to the length an audit row holds. -/
def boundAuditReason (detail : String) : String :=
  if auditReasonMaxLength < detail.length then
    String.ofList (detail.toList.take auditReasonMaxLength) ++ "…"
  else detail

/-- `STRUCTURED_CLOSE_REASONS_MAX_COUNT`. -/
def structuredCloseReasonsMaxCount : Nat := 20

def boundStructuredCloseReasonsForPersistence (closeReasons : List String) : List String :=
  closeReasons.take structuredCloseReasonsMaxCount

/-- The reasons of a close that its audit row carries, and how many there were. -/
def closeReasonsForAudit (action : PlannedAgentAction) : Option (List String × Nat) :=
  if action.actionClass = .close then
    let given := action.closeReasons.getD []
    let rawReasons := if given.isEmpty then [action.reason] else given
    some ((boundStructuredCloseReasonsForPersistence rawReasons).map boundAuditReason,
      rawReasons.length)
  else none

/-- The outcome column of an audit row. -/
inductive AuditOutcome
  | completed
  | queued
  | denied
  | error
  deriving DecidableEq, Repr

/-- The record an action leaves, under the event type `agent.action.<class>`. -/
structure AgentActionAudit where
  actionClass : AgentActionClass
  autonomyLevel : AutonomyLevel
  mode : AgentActionMode
  outcome : AuditOutcome
  targetKey : String
  detail : String
  closeReasons : Option (List String)
  closeReasonCount : Nat
  deriving DecidableEq, Repr

/-- Build the record of one action. -/
def buildAgentActionAudit (actionClass : AgentActionClass) (autonomyLevel : AutonomyLevel)
    (mode : AgentActionMode) (outcome : AuditOutcome) (targetKey detail : String)
    (closeReasons : Option (List String × Nat)) : AgentActionAudit where
  actionClass := actionClass
  autonomyLevel := autonomyLevel
  mode := mode
  outcome := outcome
  targetKey := targetKey
  detail := detail
  closeReasons :=
    if actionClass = .close then
      closeReasons.bind fun given =>
        if given.1.isEmpty then none
        else some (boundStructuredCloseReasonsForPersistence given.1)
    else none
  closeReasonCount := if actionClass = .close then (closeReasons.map Prod.snd).getD 0 else 0

end LoopOver
