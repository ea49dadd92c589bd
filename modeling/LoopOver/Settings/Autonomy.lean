/-!
# The autonomy dial

`packages/loopover-engine/src/settings/autonomy.ts`: the action classes of the auto-maintain layer,
the graduated autonomy levels a repository sets for them, and the two questions every later phase
asks of a level, whether it acts at all and whether a human must approve first.

A class with no level set resolves to `observe`: a repository that never opted in is watched, never
acted on.
-/

namespace LoopOver

/-- `AGENT_ACTION_CLASSES`, the write actions the maintainer layer can take on a pull request. -/
inductive AgentActionClass
  | review
  | requestChanges
  | approve
  | merge
  | close
  | label
  | reviewStateLabel
  | updateBranch
  | assign
  deriving DecidableEq, Repr

/-- The spelling of a class in configuration, audit events and messages. -/
def AgentActionClass.name : AgentActionClass → String
  | review => "review"
  | requestChanges => "request_changes"
  | approve => "approve"
  | merge => "merge"
  | close => "close"
  | label => "label"
  | reviewStateLabel => "review_state_label"
  | updateBranch => "update_branch"
  | assign => "assign"

/-- `AUTONOMY_LEVELS`, from least to most autonomous. -/
inductive AutonomyLevel
  | observe
  | autoWithApproval
  | auto
  deriving DecidableEq, Repr

/-- The spelling of a level in configuration, audit events and messages. -/
def AutonomyLevel.name : AutonomyLevel → String
  | observe => "observe"
  | autoWithApproval => "auto_with_approval"
  | auto => "auto"

/-- A repository's policy: a level for some of the classes. -/
abbrev AutonomyPolicy := AgentActionClass → Option AutonomyLevel

/-- Deny by default: a class with no level set is only observed. -/
def defaultAutonomyLevel : AutonomyLevel := .observe

/-- The level in force for one class. -/
def resolveAutonomy (autonomy : Option AutonomyPolicy) (actionClass : AgentActionClass) :
    AutonomyLevel :=
  (autonomy.bind fun policy => policy actionClass).getD defaultAutonomyLevel

/-- Whether the level lets the agent act, directly or behind an approval. -/
def isActingAutonomyLevel (level : AutonomyLevel) : Bool :=
  level == .auto || level == .autoWithApproval

/-- Whether an action at this level passes a human approval first. -/
def autonomyRequiresApproval (level : AutonomyLevel) : Bool := level == .autoWithApproval

/-! ## Auto-maintain policy -/

/-- How GitHub merges. -/
inductive AutoMergeMethod
  | merge
  | squash
  | rebase
  deriving DecidableEq, Repr

/-- How an action behaves once its level permits acting. -/
structure AutoMaintainPolicy where
  requireApprovals : Nat
  mergeMethod : AutoMergeMethod
  deriving DecidableEq, Repr

/-- `DEFAULT_AUTO_MAINTAIN_POLICY`: squash, after one human approval. -/
def defaultAutoMaintainPolicy : AutoMaintainPolicy where
  requireApprovals := 1
  mergeMethod := .squash

end LoopOver
