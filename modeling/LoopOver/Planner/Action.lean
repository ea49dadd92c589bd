import LoopOver.Settings.Autonomy
import LoopOver.Text

/-!
# Planned actions and disposition labels

The data of `src/settings/agent-actions.ts` that both the planner and the executor read: a planned
action with its payload (`PlannedAgentAction`), the configurable labels with their defaults, and the
tests on the labels of a pull request and of a plan.

An optional field that the source leaves out is `none`. A configured label has three states in the
source (absent, `null`, a name), so it is an `Option (Option String)`: `none` takes the default and
`some none` switches the label off (`resolveNullableLabel`).
-/

namespace LoopOver

/-! ## Actions -/

/-- Whether a label action adds or removes its label. -/
inductive LabelOp
  | add
  | remove
  deriving DecidableEq, Repr

/-- What kind of close an action is, or is coupled to. -/
inductive CloseKind
  | linkedIssueHardRule
  | blacklist
  | contributorCap
  | reviewNag
  | screenshotTable
  | heuristic
  | copycat
  deriving DecidableEq, Repr

/-- The spelling of a close kind in audit details. -/
def CloseKind.name : CloseKind → String
  | linkedIssueHardRule => "linked-issue-hard-rule"
  | blacklist => "blacklist"
  | contributorCap => "contributor_cap"
  | reviewNag => "review_nag"
  | screenshotTable => "screenshot_table"
  | heuristic => "heuristic"
  | copycat => "copycat"

/-- The CI state a close still needs when it is carried out. -/
inductive CloseCiRequirement
  | failed
  | notRequired
  deriving DecidableEq, Repr

/-- One action of a plan, with the payload of its class. -/
structure PlannedAgentAction where
  actionClass : AgentActionClass
  /-- The class that authorized the action, where it is not `actionClass`. -/
  autonomyClass : Option AgentActionClass := none
  requiresApproval : Bool
  reason : String
  label : Option String := none
  labelOp : Option LabelOp := none
  comment : Option String := none
  reviewBody : Option String := none
  mergeMethod : Option AutoMergeMethod := none
  closeComment : Option String := none
  closeReasons : Option (List String) := none
  closeKind : Option CloseKind := none
  closeRequiresCiState : Option CloseCiRequirement := none
  closeRequiresMergeableState : Option Bool := none
  closeRequiresThreadResolved : Option Bool := none
  closeRequiresDuplicateStillOpen : Option Bool := none
  duplicateWinnerPrNumber : Option Nat := none
  closeConcreteEvidence : Option Bool := none
  closeConcreteEvidenceCodes : Option (List String) := none
  expectedHeadSha : Option String := none
  dismissStaleApproval : Option Bool := none
  assignee : Option String := none
  deriving DecidableEq, Repr

namespace PlannedAgentAction

/-- The class whose autonomy level governs the action. -/
def governingClass (action : PlannedAgentAction) : AgentActionClass :=
  action.autonomyClass.getD action.actionClass

/-- A label action that adds its label: every label action that is not a removal. -/
def isLabelAdd (action : PlannedAgentAction) : Bool :=
  action.actionClass == .label && action.labelOp != some .remove

/-- A label action that removes its label. -/
def isLabelRemove (action : PlannedAgentAction) : Bool :=
  action.actionClass == .label && action.labelOp == some .remove

/-- An `approve` that posts an approval, rather than retracting a stale one. -/
def isApproval (action : PlannedAgentAction) : Bool :=
  action.actionClass == .approve && action.dismissStaleApproval != some true

/-- A merge or a close, the two irreversible dispositions. -/
def isMergeOrClose (action : PlannedAgentAction) : Bool :=
  action.actionClass == .merge || action.actionClass == .close

end PlannedAgentAction

/-! ## Labels -/

/-- A label setting: absent, switched off, or a name. -/
abbrev LabelSetting := Option (Option String)

def agentLabelReady : String := "ready-to-merge"
def agentLabelChanges : String := "changes-requested"
def agentLabelNeedsReview : String := "manual-review"
def agentLabelMigrationCollision : String := "migration-collision"
def agentLabelPendingClosure : String := "pending-closure"
def defaultBlacklistLabel : String := "slop"
def defaultContributorCapLabel : String := "over-contributor-limit"
def defaultReviewNagLabel : String := "review-nag-cooldown"
def defaultCopycatLabel : String := "copycat"

/-- An explicit `null` acts without a label; an absent setting takes the fallback. -/
def resolveNullableLabel (configured : LabelSetting) (fallback : String) : Option String :=
  match configured with
  | some none => none
  | some (some label) => some label
  | none => some fallback

/-- The disposition labels a repository may rename or switch off. -/
structure AgentDispositionLabelSettings where
  manualReviewLabel : LabelSetting := none
  readyToMergeLabel : LabelSetting := none
  changesRequestedLabel : LabelSetting := none
  migrationCollisionLabel : LabelSetting := none
  pendingClosureLabel : LabelSetting := none
  deriving DecidableEq, Repr

/-- The disposition labels in force. -/
structure ResolvedAgentDispositionLabels where
  manualReview : Option String
  readyToMerge : Option String
  changesRequested : Option String
  migrationCollision : Option String
  pendingClosure : Option String
  deriving DecidableEq, Repr

/-- Resolve every disposition label against its default. -/
def resolveAgentDispositionLabels (settings : AgentDispositionLabelSettings) :
    ResolvedAgentDispositionLabels where
  manualReview := resolveNullableLabel settings.manualReviewLabel agentLabelNeedsReview
  readyToMerge := resolveNullableLabel settings.readyToMergeLabel agentLabelReady
  changesRequested := resolveNullableLabel settings.changesRequestedLabel agentLabelChanges
  migrationCollision :=
    resolveNullableLabel settings.migrationCollisionLabel agentLabelMigrationCollision
  pendingClosure := resolveNullableLabel settings.pendingClosureLabel agentLabelPendingClosure

namespace ResolvedAgentDispositionLabels

/-- The labels in force, those switched off left out. -/
def names (labels : ResolvedAgentDispositionLabels) : List String :=
  [labels.manualReview, labels.readyToMerge, labels.changesRequested, labels.migrationCollision,
    labels.pendingClosure].reduceOption

/-- The three dispositions of which a pull request should carry at most one. -/
def exclusive (labels : ResolvedAgentDispositionLabels) : List String :=
  [labels.readyToMerge, labels.migrationCollision, labels.changesRequested].reduceOption

end ResolvedAgentDispositionLabels

/-! ## Labels of a pull request and of a plan -/

variable (text : Text)

/-- Whether the label is on the pull request, up to case. -/
def hasLabel (labels : List String) (name : String) : Bool :=
  labels.any fun label => text.sameText label name

/-- Whether the action is about the label, up to case. -/
def PlannedAgentAction.isAbout (action : PlannedAgentAction) (name : String) : Bool :=
  action.label.any fun label => text.sameText label name

/-- Whether the label is on the pull request or an add of it is already planned. -/
def hasLabelOrPlanned (labels : List String) (actions : List PlannedAgentAction) (name : String) :
    Bool :=
  hasLabel text labels name ||
    actions.any fun action => action.isLabelAdd && action.isAbout text name

variable {text}

theorem hasLabelOrPlanned_eq_false {labels : List String} {actions : List PlannedAgentAction}
    {name : String} :
    hasLabelOrPlanned text labels actions name = false ↔ hasLabel text labels name = false ∧
      ∀ action ∈ actions, action.isLabelAdd = true → action.isAbout text name = false := by
  simp [hasLabelOrPlanned]

theorem hasLabel_congr {labels : List String} {a b : String} (h : text.sameText a b = true) :
    hasLabel text labels a = hasLabel text labels b := by
  simp only [hasLabel, Text.sameText, (text.sameText_iff).1 h]

theorem PlannedAgentAction.isAbout_congr {action : PlannedAgentAction} {a b : String}
    (h : text.sameText a b = true) : action.isAbout text a = action.isAbout text b := by
  simp only [PlannedAgentAction.isAbout, Text.sameText, (text.sameText_iff).1 h]

end LoopOver
