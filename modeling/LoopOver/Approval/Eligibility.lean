import LoopOver.Approval.Course
import LoopOver.Planner.Input

/-!
# Whose pull request an accept may close

The planner closes a pull request for the linked-issue rule only if its author may be closed at all.
A staged close or merge waits, so an accept derives this again, and not quite as the planner does:
it does not know the admins.

* `LiveState` is what both read when the row is accepted: the settings, the stored pull request, the
  admins and the verdict of the rule. `LiveState.Reports` says that the calls of a run agree with
  it.
* `LiveState.PlannerCloses` is what the planner finds in that state.
* `AcceptMatchesPlanner` is what an accept promises: a close for the rule runs only if the planner
  would find it justified, and a merge only if it would not.
* `RuleChecked` is what every run that reaches the executor has checked, and `LiveState.host` gives
  a run that does reach it. The two together say when the promise holds
  (`accept_matches_planner_iff`).
-/

namespace LoopOver

open Script
open LinkedIssueHardRule

/-! ## The state at the accept -/

/-- What the accept and the planner read. -/
structure LiveState where
  settings : RepositorySettings
  /-- The pull request of the row, as it is stored. -/
  pr : Option PullRequestRecord
  isAdmin : String → Bool
  linkedIssueHardRule : Option LinkedIssueHardRule

/-- A close that was staged for the linked-issue rule. -/
def AgentPendingActionRecord.IsRuleClose (row : AgentPendingActionRecord) : Prop :=
  row.actionClass = .close ∧ row.params.closeKind = some .linkedIssueHardRule

/-- The executor is handed an action of the class. -/
def Executes (actionClass : AgentActionClass) (t : List ApprovalEvent) : Prop :=
  ∃ ctx plan reply, ⟨.executeAgentMaintenanceActions ctx plan, reply⟩ ∈ t ∧
    plan.any (·.actionClass == actionClass) = true

namespace LiveState

variable (rt : Runtime) (env : ApprovalEnv) (row : AgentPendingActionRecord) (live : LiveState)

/-- A call replies what the state has, or it throws. -/
def Reports : ApprovalEvent → Prop
  | ⟨.getPendingAgentAction id, .ok found⟩ => id = row.id → found.map Subtype.val = some row
  | ⟨.resolveRepositorySettings _, .ok settings⟩ => settings = live.settings
  | ⟨.getPullRequest repoFullName pullNumber, .ok pr⟩ =>
    repoFullName = row.repoFullName → pullNumber = row.pullNumber → pr = live.pr
  | ⟨.resolveLinkedIssueHardRule _ pr _, .ok rule⟩ =>
    live.pr = some pr → rule = live.linkedIssueHardRule
  | ⟨.isPerTenantAdmin _ _ login, .ok isAdmin⟩ => isAdmin = live.isAdmin login
  | _ => True

def authorIsAdmin (pr : PullRequestRecord) : Bool :=
  pr.authorLogin.getD "" != "" && live.isAdmin (pr.authorLogin.getD "")

/-- The input of the planner, where `rest` has all that is not about the author or the rule. -/
def planInput (pr : PullRequestRecord) (rest : AgentActionPlanInput) : AgentActionPlanInput :=
  { rest with
    authorIsOwner := authorIsOwner rt row pr.authorLogin
    authorIsAdmin := live.authorIsAdmin pr
    authorIsAutomationBot := isProtectedAutomationAuthor rt env pr.authorLogin
    closeOwnerAuthors := live.settings.closeOwnerAuthors == some true
    linkedIssueHardRule := live.linkedIssueHardRule }

/-- The planner finds that the author may be closed and that the rule is violated. -/
def PlannerCloses : Prop :=
  ∃ pr, live.pr = some pr ∧ ∀ rest, (live.planInput rt env row pr rest).closeEligible = true ∧
    (live.planInput rt env row pr rest).linkedIssueRuleViolated = true

/-- The rule is violated by an admin who is not the owner. -/
def ViolatedByAdmin (pr : PullRequestRecord) : Prop :=
  live.linkedIssueHardRule.any violated = true ∧ live.authorIsAdmin pr = true ∧
    authorIsOwner rt row pr.authorLogin = false

/-- Nothing but the checks of the rule can stop the row. -/
structure Ratifiable : Prop where
  pending : row.status = .pending
  unmoved : headMoved row live.pr = none
  pinned : unpinned row = none

end LiveState

/-- An accept does with the row what the planner would find justified. -/
structure AcceptMatchesPlanner (rt : Runtime) (env : ApprovalEnv) (row : AgentPendingActionRecord)
    (live : LiveState) :
    Prop where
  close : row.IsRuleClose → ∀ decision decidedBy t r s',
    (decidePendingAgentAction rt env row.id decision decidedBy).Ends () t r s' →
      (∀ e ∈ t, live.Reports row e) →
      Executes .close t → live.PlannerCloses rt env row
  merge : row.actionClass = .merge → ∀ decision decidedBy t r s',
    (decidePendingAgentAction rt env row.id decision decidedBy).Ends () t r s' →
      (∀ e ∈ t, live.Reports row e) →
      Executes .merge t → ¬ live.PlannerCloses rt env row

/-- The accept and the planner agree on the author. -/
structure EligibilityAgrees (rt : Runtime) (env : ApprovalEnv) (row : AgentPendingActionRecord)
    (live : LiveState) :
    Prop where
  close : row.IsRuleClose → live.Ratifiable row → ∃ pr, live.pr = some pr ∧
    ¬ (live.ViolatedByAdmin rt row pr ∧ isProtectedAutomationAuthor rt env pr.authorLogin = false ∧
      live.settings.closeOwnerAuthors ≠ some true)
  merge : row.actionClass = .merge → live.Ratifiable row → ∀ pr, live.pr = some pr →
    ¬ (live.ViolatedByAdmin rt row pr ∧ isProtectedAutomationAuthor rt env pr.authorLogin = true ∧
      live.settings.closeOwnerAuthors = some true)

/-! ## The two derivations -/

variable {pr : PullRequestRecord}

section Derivations

variable {rt : Runtime} {env : ApprovalEnv} {row : AgentPendingActionRecord} {live : LiveState}

theorem plannerCloses_iff (hpr : live.pr = some pr) :
    live.PlannerCloses rt env row ↔
      live.linkedIssueHardRule.any violated = true ∧
        ((authorIsOwner rt row pr.authorLogin = false ∧ live.authorIsAdmin pr = false ∧
            isProtectedAutomationAuthor rt env pr.authorLogin = false) ∨
          (authorIsOwner rt row pr.authorLogin = true ∨ live.authorIsAdmin pr = true) ∧
            live.settings.closeOwnerAuthors = some true) := by
  have hfound : ∀ rest, ((live.planInput rt env row pr rest).closeEligible = true ∧
      (live.planInput rt env row pr rest).linkedIssueRuleViolated = true) ↔
        live.linkedIssueHardRule.any violated = true ∧
          ((authorIsOwner rt row pr.authorLogin = false ∧ live.authorIsAdmin pr = false ∧
              isProtectedAutomationAuthor rt env pr.authorLogin = false) ∨
            (authorIsOwner rt row pr.authorLogin = true ∨ live.authorIsAdmin pr = true) ∧
              live.settings.closeOwnerAuthors = some true) := by
    intro rest
    rw [and_comm]
    refine and_congr Iff.rfl ?_
    simp [AgentActionPlanInput.closeEligible, AgentActionPlanInput.isContributor,
      LiveState.planInput, and_assoc]
  constructor
  · rintro ⟨pr', hpr', h⟩
    obtain rfl : pr = pr' := Option.some.inj (hpr.symm.trans hpr')
    let anyInput : AgentActionPlanInput :=
      { conclusion := .success, autonomy := none, ciState := .passed }
    exact (hfound anyInput).1 (h anyInput)
  · intro h
    exact ⟨pr, hpr, fun rest => (hfound rest).2 h⟩

theorem isCloseEligible_iff {settings : RepositorySettings} :
    isCloseEligible rt env row settings pr = true ↔
      (authorIsOwner rt row pr.authorLogin = false ∧
        isProtectedAutomationAuthor rt env pr.authorLogin = false) ∨
        authorIsOwner rt row pr.authorLogin = true ∧ settings.closeOwnerAuthors = some true := by
  simp [isCloseEligible]

/-- Where the accept may close and the planner may not. -/
theorem violatedByAdmin_of_close (hpr : live.pr = some pr)
    (heligible : isCloseEligible rt env row live.settings pr = true)
    (hviolated : live.linkedIssueHardRule.any violated = true) :
    ¬ live.PlannerCloses rt env row ↔ live.ViolatedByAdmin rt row pr ∧
      isProtectedAutomationAuthor rt env pr.authorLogin = false ∧
        live.settings.closeOwnerAuthors ≠ some true := by
  rw [plannerCloses_iff hpr, LiveState.ViolatedByAdmin]
  rw [isCloseEligible_iff] at heligible
  cases howner : authorIsOwner rt row pr.authorLogin <;>
    cases hadmin : live.authorIsAdmin pr <;> simp_all

/-- Where the planner may close and the accept may not. -/
theorem violatedByAdmin_of_merge (hpr : live.pr = some pr)
    (hunseen : isCloseEligible rt env row live.settings pr = true →
      live.linkedIssueHardRule.any violated = false) :
    live.PlannerCloses rt env row ↔ live.ViolatedByAdmin rt row pr ∧
      isProtectedAutomationAuthor rt env pr.authorLogin = true ∧
        live.settings.closeOwnerAuthors = some true := by
  rw [plannerCloses_iff hpr, LiveState.ViolatedByAdmin]
  rw [isCloseEligible_iff] at hunseen
  cases howner : authorIsOwner rt row pr.authorLogin <;>
    cases hadmin : live.authorIsAdmin pr <;>
    cases hbot : isProtectedAutomationAuthor rt env pr.authorLogin <;> grind

end Derivations

/-! ## Runs that reach the executor -/

/-- What has been checked when the executor runs the plan. -/
structure RuleChecked (rt : Runtime) (env : ApprovalEnv) (row : AgentPendingActionRecord)
    (live : LiveState) (plan : List PlannedAgentAction) : Prop where
  ratifiable : live.Ratifiable row
  close : row.IsRuleClose → ∀ pr, live.pr = some pr →
    isCloseEligible rt env row live.settings pr = true ∧
    live.linkedIssueHardRule.any violated = true
  merge : plan.any (·.actionClass == .merge) = true → ∀ pr, live.pr = some pr →
    isCloseEligible rt env row live.settings pr = true →
      live.linkedIssueHardRule.any violated = false

variable {plan : List PlannedAgentAction}

section Soundness

variable {rt : Runtime} {env : ApprovalEnv} {row : AgentPendingActionRecord} {live : LiveState}
  {t : List ApprovalEvent} {s s' : Unit}

/-- The rule that a run reads is the one of the state. -/
theorem currentLinkedIssueRule_eq {rule : Option LinkedIssueHardRule}
    (h : (currentLinkedIssueRule row pr).Ends s t (.ok rule) s')
    (hreports : ∀ e ∈ t, live.Reports row e) (hpr : live.pr = some pr) :
    rule = live.linkedIssueHardRule := by
  obtain ⟨config, t₁, rfl, h₁⟩ := ends_ask_bind.1 h
  obtain ⟨e, -, -, hr, -⟩ | ⟨config, -, h₂⟩ := ends_ofExcept_bind.1 h₁
  · cases hr
  obtain ⟨token, t₂, rfl, h₃⟩ := ends_ask_bind.1 h₂
  obtain ⟨reply, t₃, rfl, h₄⟩ := ends_ask_bind.1 h₃
  obtain ⟨rfl, rfl, -⟩ := ends_ofExcept.1 h₄
  exact hreports ⟨.resolveLinkedIssueHardRule config pr token.toOption, .ok rule⟩ (by simp) hpr

theorem checkLinkedIssueClose_passed
    (h : (checkLinkedIssueClose rt env row live.settings live.pr).Ends s t (.ok none) s')
    (hreports : ∀ e ∈ t, live.Reports row e) (hclose : row.IsRuleClose)
    (hpr : live.pr = some pr) : isCloseEligible rt env row live.settings pr = true ∧
      live.linkedIssueHardRule.any violated = true := by
  obtain ⟨hclass, hkind⟩ := hclose
  simp only [checkLinkedIssueClose, hpr, hclass, hkind, and_self, if_true] at h
  obtain ⟨heligible, h₁⟩ | ⟨-, h₁⟩ := ends_ite.1 h
  · obtain ⟨front, rule, s₁, back, hrule, h₂, rfl⟩ := ends_bind_ok.1 h₁
    obtain ⟨rfl, hresult, -⟩ := ends_pure.1 h₂
    have hlive := currentLinkedIssueRule_eq hrule (fun e he => hreports e (by simp [he])) hpr
    subst hlive
    refine ⟨heligible, ?_⟩
    by_contra hnone
    rw [if_neg hnone] at hresult
    cases hresult
  · obtain ⟨-, hresult, -⟩ := ends_pure.1 h₁
    cases hresult

theorem checkLinkedIssueMerge_passed
    (h : (checkLinkedIssueMerge rt env row live.settings live.pr plan).Ends s t (.ok none) s')
    (hreports : ∀ e ∈ t, live.Reports row e) (hmerge : plan.any (·.actionClass == .merge) = true)
    (hpr : live.pr = some pr) (heligible : isCloseEligible rt env row live.settings pr = true) :
    live.linkedIssueHardRule.any violated = false := by
  simp only [checkLinkedIssueMerge, hpr] at h
  rw [if_pos (by rw [hmerge, heligible]; rfl)] at h
  obtain ⟨front, rule, s₁, back, hrule, h₂, rfl⟩ := ends_bind_ok.1 h
  obtain ⟨rfl, hresult, -⟩ := ends_pure.1 h₂
  rw [currentLinkedIssueRule_eq hrule (fun e he => hreports e (by simp [he])) hpr] at hresult
  cases hlive : live.linkedIssueHardRule with
  | none => rfl
  | some verdict =>
    rw [hlive] at hresult
    simpa [Option.filter] using hresult

variable {execution : Execution}

theorem revalidateAgainst_checked {installation : Option InstallationPermissions}
    (h : (revalidateAgainst rt env row live.settings live.pr installation).Ends s t
      (.ok (.ok execution)) s')
    (hpending : row.status = .pending) (hreports : ∀ e ∈ t, live.Reports row e) :
    RuleChecked rt env row live execution.plan := by
  obtain ⟨hmoved, hunpinned, ⟨t₁, hclosePart, hclose⟩, -, ⟨t₄, hmergePart, hmerge⟩, -⟩ :=
    revalidateAgainst_revalidated h
  refine ⟨⟨hpending, hmoved, hunpinned⟩, fun hrule pr hpr => ?_, fun hmerges pr hpr heligible => ?_⟩
  · exact checkLinkedIssueClose_passed hclose (fun e he => hreports e (hclosePart he)) hrule hpr
  · exact checkLinkedIssueMerge_passed hmerge (fun e he => hreports e (hmergePart he)) hmerges
      hpr heligible

theorem revalidate_checked (h : (revalidate rt env row).Ends s t (.ok (.ok execution)) s')
    (hpending : row.status = .pending) (hreports : ∀ e ∈ t, live.Reports row e) :
    RuleChecked rt env row live execution.plan := by
  rw [revalidate] at h
  obtain ⟨t₁, paired, s₁, back, -, h₁, rfl⟩ := ends_bind_ok.1 h
  split at h₁
  · obtain ⟨-, hresult, -⟩ := ends_pure.1 h₁
    cases hresult
  obtain ⟨settingsReply, t₂, rfl, h₂⟩ := ends_ask_bind.1 h₁
  obtain ⟨e, -, -, hr, -⟩ | ⟨settings, rfl, h₃⟩ := ends_ofExcept_bind.1 h₂
  · cases hr
  obtain ⟨prReply, t₃, rfl, h₄⟩ := ends_ask_bind.1 h₃
  obtain ⟨e, -, -, hr, -⟩ | ⟨pr, rfl, h₅⟩ := ends_ofExcept_bind.1 h₄
  · cases hr
  obtain ⟨installationReply, t₄, rfl, h₆⟩ := ends_ask_bind.1 h₅
  obtain ⟨e, -, -, hr, -⟩ | ⟨installation, rfl, h₇⟩ := ends_ofExcept_bind.1 h₆
  · cases hr
  have hsettings : settings = live.settings :=
    hreports ⟨.resolveRepositorySettings row.repoFullName, .ok settings⟩ (by simp)
  have hpr : pr = live.pr :=
    hreports ⟨.getPullRequest row.repoFullName row.pullNumber, .ok pr⟩ (by simp) rfl rfl
  rw [hsettings, hpr] at h₇
  exact revalidateAgainst_checked h₇ hpending fun e he => hreports e (by simp [he])

variable {r : Except HostError ApprovalDecisionResult} {decidedBy : String}

/-- An accept that has won the claim runs the executor only after the checks. -/
theorem acceptClaimed_checked
    (h : (do
      match ← revalidate rt env row with
      | .error supersession => supersede row decidedBy supersession
      | .ok execution => executeAccepted row decidedBy execution :
        ApprovalScript ApprovalDecisionResult).Ends s t r s')
    (hpending : row.status = .pending) (hreports : ∀ e ∈ t, live.Reports row e)
    (hexecuted : .executed execution ∈ rowEffects row.id t) :
    RuleChecked rt env row live execution.plan := by
  rcases ends_bind.1 h with ⟨e, hchecks, rfl⟩ | ⟨front, verdict, s₁, back, hchecks, h₁, rfl⟩
  · obtain ⟨repoFullName, pullNumber, pr, hinitial⟩ := revalidate_effects hchecks row.id
    simpa using hinitial.subset hexecuted
  rw [rowEffects_append, List.mem_append] at hexecuted
  have hchecked := revalidate_effects hchecks row.id
  cases verdict with
  | error supersession =>
    have hset := supersede_effects h₁
    rcases hexecuted with hread | hexecuted
    · rcases hchecked with hnone | ⟨repoFullName, pullNumber, pr, hfront⟩
      · simp [hnone] at hread
      · simp [hfront] at hread
    · simpa using hset.subset hexecuted
  | ok executed =>
    obtain ⟨pr, hread, -⟩ := hchecked
    obtain ⟨status, -, hset⟩ := executeAccepted_effects h₁
    have hsame : execution = executed := by
      rcases hexecuted with hfront | hexecuted
      · simp [hread] at hfront
      · simpa using hset.subset hexecuted
    rw [hsame]
    exact revalidate_checked hchecks hpending fun e he => hreports e (by simp [he])

variable {decision : ApprovalDecision}

/-- **The executor runs only a plan that the checks have passed.** -/
theorem decide_checked
    (h : (decidePendingAgentAction rt env row.id decision decidedBy).Ends s t r s')
    (hreports : ∀ e ∈ t, live.Reports row e)
    (hexecuted : .executed execution ∈ rowEffects row.id t) :
    RuleChecked rt env row live execution.plan := by
  cases decision with
  | reject =>
    have hcourse : rowEffects row.id t <+: [.claimed .rejected] := (decide_run h).course
    simpa using hcourse.subset hexecuted
  | accept =>
    obtain ⟨reply, t₁, rfl, h₁⟩ := ends_ask_bind.1 h
    rcases ends_ofExcept_bind.1 h₁ with ⟨e, rfl, rfl, -, -⟩ | ⟨found, rfl, h₂⟩
    · cases hexecuted
    match found, h₂ with
    | none, h₂ =>
      obtain ⟨rfl, -, -⟩ := ends_pure.1 h₂
      cases hexecuted
    | some ⟨pending, hid⟩, h₂ =>
      have hrow : pending = row := by
        have hfound :=
          hreports ⟨.getPendingAgentAction row.id, .ok (some ⟨pending, hid⟩)⟩ (by simp) rfl
        exact Option.some.inj hfound
      subst hrow
      rcases ends_ite.1 h₂ with ⟨-, h₃⟩ | ⟨hpending, h₃⟩
      · obtain ⟨rfl, -, -⟩ := ends_pure.1 h₃
        cases hexecuted
      obtain ⟨claimReply, t₂, rfl, h₄⟩ := ends_ask_bind.1 h₃
      rcases ends_ofExcept_bind.1 h₄ with ⟨e, rfl, rfl, -, -⟩ | ⟨claimed, rfl, h₅⟩
      · cases hexecuted
      rcases ends_ite.1 h₅ with ⟨rfl, h₆⟩ | ⟨hlost, h₆⟩
      · refine acceptClaimed_checked h₆ (not_not.1 hpending)
          (fun e he => hreports e (by simp [he])) ?_
        change RowEffect.executed execution ∈ rowEffects pending.id
          (⟨.claimPendingAgentActionDecision pending.id .accepted decidedBy,
            .ok true⟩ :: t₂) at hexecuted
        rw [rowEffects_claimed] at hexecuted
        simpa using hexecuted
      · obtain rfl : claimed = false := by simpa using hlost
        have hnone := reportDecided_effects pending.id h₆
        change RowEffect.executed execution ∈ rowEffects pending.id t₂ at hexecuted
        simp [hnone] at hexecuted

theorem executes_checked {actionClass : AgentActionClass}
    (h : (decidePendingAgentAction rt env row.id decision decidedBy).Ends s t r s')
    (hreports : ∀ e ∈ t, live.Reports row e) (hexecutes : Executes actionClass t) :
    ∃ plan, RuleChecked rt env row live plan ∧ plan.any (·.actionClass == actionClass) = true := by
  obtain ⟨ctx, plan, reply, hmem, hplanned⟩ := hexecutes
  refine ⟨plan, ?_, hplanned⟩
  exact decide_checked h hreports (List.mem_filterMap.2 ⟨_, hmem, rfl⟩)

end Soundness

/-! ## A run that reaches the executor -/

/-- A host in which the live state is as given, and nothing else stops an accept. -/
def LiveState.host (row : AgentPendingActionRecord) (live : LiveState) :
    ∀ call : ApprovalCall, ApprovalReply call
  | .getPendingAgentAction id => .ok (if h : row.id = id then some ⟨row, h⟩ else none)
  | .listPendingAgentActions => .ok []
  | .claimPendingAgentActionDecision _ _ _ => .ok true
  | .setPendingAgentActionStatus _ _ _ => .ok ()
  | .recordAuditEvent _ => .ok ()
  | .latestCompletedAuditEventDetail _ _ _ => .ok none
  | .resolveRepositorySettings _ => .ok live.settings
  | .getPullRequest _ _ => .ok live.pr
  | .getInstallation _ => .ok none
  | .createInstallationToken _ => .ok ""
  | .loadLinkedIssueHardRules _ => .ok .null
  | .resolveLinkedIssueHardRule _ _ _ => .ok live.linkedIssueHardRule
  | .fetchRequiredStatusContexts _ _ => .ok none
  | .fetchLiveCiAggregate _ _ _ => .ok .passed
  | .fetchLivePullRequestMergeState _ => .ok none
  | .fetchLivePullRequestReviewDecision _ => .ok none
  | .fetchLiveReviewThreadBlockers _ => .ok []
  | .fetchLivePullRequestState _ _ => .ok none
  | .isHoldOnly _ => false
  | .isCloseHoldOnly _ => false
  | .readUntrustworthyRuleCodes => []
  | .isPerTenantAdmin _ _ login => .ok (live.isAdmin login)
  | .isBelowAccountAgeThreshold _ _ _ => .ok false
  | .executeAgentMaintenanceActions _ _ => .ok []
  | .insertNotificationDeliveryIfAbsent _ => .error { message := "" }
  | .sendNotifyDeliver _ => .ok ()

section Completeness

variable {rt : Runtime} {env : ApprovalEnv} {row : AgentPendingActionRecord} {live : LiveState}

open Script

theorem host_reports (call : ApprovalCall) : live.Reports row ⟨call, live.host row call⟩ := by
  cases call with
  | getPendingAgentAction id =>
    rintro rfl
    simp
  | resolveRepositorySettings => rfl
  | getPullRequest => exact fun _ _ => rfl
  | resolveLinkedIssueHardRule => exact fun _ => rfl
  | isPerTenantAdmin => rfl
  | _ => trivial

/-- A merge, or a close for the rule. -/
def AgentPendingActionRecord.IsRuleBound (row : AgentPendingActionRecord) : Prop :=
  row.actionClass = .merge ∨ row.IsRuleClose

theorem gives_checkPairedClose (hrow : row.IsRuleBound) :
    Gives (live.host row) (checkPairedClose row) () none () := by
  have huncoupled : isCoupledLabel row = false := by
    rcases hrow with hmerge | ⟨hclose, -⟩
    · simp [isCoupledLabel, hmerge]
    · simp [isCoupledLabel, hclose]
  rw [checkPairedClose, huncoupled]
  exact gives_pure _ _ _

theorem gives_checkLinkedIssueClose (hclose : row.IsRuleClose → ∀ pr, live.pr = some pr →
      isCloseEligible rt env row live.settings pr = true ∧
        live.linkedIssueHardRule.any violated = true) :
    Gives (live.host row) (checkLinkedIssueClose rt env row live.settings live.pr) () none () := by
  cases hpr : live.pr with
  | none => exact gives_pure _ _ _
  | some pr =>
    by_cases hrule : row.IsRuleClose
    · obtain ⟨heligible, hviolated⟩ := hclose hrule pr hpr
      simp only [checkLinkedIssueClose]
      rw [if_pos (show _ ∧ _ from hrule), if_pos heligible]
      have hread : Gives (live.host row) (currentLinkedIssueRule row pr) ()
          live.linkedIssueHardRule () := rfl
      refine hread.bind ?_
      rw [if_pos hviolated]
      exact gives_pure _ _ _
    · simp only [checkLinkedIssueClose]
      rw [if_neg (show ¬ (_ ∧ _) from hrule)]
      exact gives_pure _ _ _

theorem gives_checkLinkedIssueMerge
    (hmerge : plan.any (·.actionClass == .merge) = true → ∀ pr, live.pr = some pr →
      isCloseEligible rt env row live.settings pr = true →
        live.linkedIssueHardRule.any violated = false) :
    Gives (live.host row) (checkLinkedIssueMerge rt env row live.settings live.pr plan) ()
      none () := by
  cases hpr : live.pr with
  | none => exact gives_pure _ _ _
  | some pr =>
    simp only [checkLinkedIssueMerge]
    split_ifs with hguard
    · rw [Bool.and_eq_true] at hguard
      have hkept := hmerge hguard.1 pr hpr hguard.2
      have hread : Gives (live.host row) (currentLinkedIssueRule row pr) ()
          live.linkedIssueHardRule () := rfl
      refine hread.bind ?_
      have hnone : (live.linkedIssueHardRule.filter violated).map
          linkedIssueMergeSupersession =
          none := by
        cases hlive : live.linkedIssueHardRule with
        | none => rfl
        | some verdict => simpa [hlive, Option.filter] using hkept
      rw [hnone]
      exact gives_pure _ _ _
    · exact gives_pure _ _ _

/-- The live reads find nothing that would hold up a merge. -/
theorem gives_readLiveDisposition (settings : RepositorySettings) (pr : Option PullRequestRecord) :
    ∃ found, Gives (live.host row) (readLiveDisposition rt row settings pr) () found () ∧
      found.ciState ∈ [none, some .passed] ∧ found.mergeableState = none ∧
        found.reviewDecision.join = none := by
  refine ⟨_, (gives_ask _ _ _).bind <| (gives_askWhen _ _ _ _).bind <|
    (gives_askWhen _ _ _ _).bind <|
    (gives_askWhen _ _ _ _).bind <| (gives_askWhen _ _ _ _).bind <| (gives_askWhen _ _ _ _).bind <|
      (gives_askWhen _ _ _ _).bind <| gives_pure _ _ _, ?_, ?_, ?_⟩
  · cases shouldRecheckLiveDisposition row pr <;> simp [LiveState.host, Except.toOption]
  · cases shouldRecheckLiveDisposition row pr <;> simp [LiveState.host, Except.toOption]
  · cases shouldRecheckLiveDisposition row pr <;> simp [LiveState.host, Except.toOption]

theorem gives_checkLiveDisposition (hrow : row.IsRuleBound) (settings : RepositorySettings)
    (pr : Option PullRequestRecord) :
    ∃ params,
      Gives (live.host row) (checkLiveDisposition rt row settings pr) () (.ok params) () := by
  unfold checkLiveDisposition
  split_ifs with hguard
  · have hmerge : row.actionClass = .merge := by
      rcases hrow with hmerge | ⟨hclose, hkind⟩
      · exact hmerge
      · simp [shouldRecheckLiveDisposition, isMergeableRecheck, isThreadRecheck,
          recheckedDuplicateWinner, hclose, hkind] at hguard
    obtain ⟨found, hread, hci, hmergeable, hreview⟩ : ∃ found,
        Gives (live.host row) _ () found () ∧ _ :=
      gives_readLiveDisposition settings pr
    have hunrequested : found.reviewDecision ≠ some (some "CHANGES_REQUESTED") := by
      intro hrequested
      simp [hrequested] at hreview
    have hfresh : dispositionStaleReason row found = none := by
      rw [dispositionStaleReason, if_pos hmerge]
      have hci' : found.ciState = none ∨ found.ciState = some .passed := by simpa using hci
      rcases hci' with hunread | hpassed
      · simp [hunread, hmergeable, hunrequested]
      · simp [hpassed, hmergeable, hunrequested]
    refine ⟨{ row.params with mergeMethod := settings.mergeMethod.or row.params.mergeMethod },
      hread.bind ?_⟩
    rw [hfresh]
    exact gives_pure _ _ _
  · exact ⟨_, gives_pure _ _ _⟩

/-- Breakers that are not engaged, and rules that are trusted, divert nothing. -/
theorem isDowngradableClose_trusted (action : PlannedAgentAction) :
    isDowngradableClose false [] action = false := by
  have htrusted : everyJustifyingCodeUntrustworthy [] action = false := by
    rw [everyJustifyingCodeUntrustworthy]
    cases action.closeConcreteEvidenceCodes.getD [] with
    | nil => rfl
    | cons code codes => simp
  simp [isDowngradableClose, htrusted]

theorem gives_planAccepted (params : AgentPendingActionParams) (settings : RepositorySettings) :
    Gives (live.host row) (planAccepted row settings params) ()
      [pendingActionToPlanned row.actionClass params row.reason] () := by
  have hkept : downgradeCloseToHold
      (downgradeMergeToHold [pendingActionToPlanned row.actionClass params row.reason]
      false settings.toAgentDispositionLabelSettings) false
        settings.toAgentDispositionLabelSettings [] =
        [pendingActionToPlanned row.actionClass params row.reason] := by
    simp [downgradeMergeToHold, downgradeCloseToHold, isDowngradableClose_trusted]
  rw [← hkept]
  exact (gives_ask _ _ _).bind <| (gives_ask _ _ _).bind <| (gives_ask _ _ _).bind <|
    gives_pure _ _ _

theorem gives_contributorCapRechecked (settings : RepositorySettings)
    (pr : Option PullRequestRecord) (plan : List PlannedAgentAction) :
    ∃ rechecked, Gives (live.host row) (contributorCapRechecked rt env row settings pr plan) ()
      rechecked () := by
  unfold contributorCapRechecked
  split
  · exact ⟨_, gives_pure _ _ _⟩
  rename_i login _
  split_ifs
  · by_cases hasked : (!rt.sameText login (repoOwner row.repoFullName) && !live.isAdmin login &&
        !isProtectedAutomationAuthor rt env (some login)) = true
    · refine ⟨true, (gives_ask _ _ _).bind <| (gives_ofExcept _ rfl _).bind ?_⟩
      rw [if_pos hasked]
      rfl
    · refine ⟨false, (gives_ask _ _ _).bind <| (gives_ofExcept _ rfl _).bind ?_⟩
      rw [if_neg hasked]
      rfl
  · exact ⟨_, gives_pure _ _ _⟩

theorem gives_revalidateAgainst (hratifiable : live.Ratifiable row) (hrow : row.IsRuleBound)
    (hclose : row.IsRuleClose → ∀ pr, live.pr = some pr →
      isCloseEligible rt env row live.settings pr = true ∧
      live.linkedIssueHardRule.any violated = true)
    (hmerge : row.actionClass = .merge → ∀ pr, live.pr = some pr →
      isCloseEligible rt env row live.settings pr = true →
        live.linkedIssueHardRule.any violated = false)
    (installation : Option InstallationPermissions) :
    ∃ ctx params,
      Gives (live.host row) (revalidateAgainst rt env row live.settings live.pr installation) ()
      (.ok ⟨ctx, [pendingActionToPlanned row.actionClass params row.reason]⟩) () := by
  have hlisted : noLongerBlacklisted rt row live.settings live.pr = none := by
    cases hpr : live.pr with
    | none => rfl
    | some pr =>
      rcases hrow with hclass | ⟨-, hkind⟩
      · simp [noLongerBlacklisted, hclass]
      · simp [noLongerBlacklisted, hkind]
  obtain ⟨params, hparams⟩ : ∃ params,
      Gives (live.host row) (checkLiveDisposition rt row live.settings live.pr) ()
      (.ok params) () := gives_checkLiveDisposition hrow live.settings live.pr
  obtain ⟨rechecked, hrechecked⟩ : ∃ rechecked,
      Gives (live.host row) (contributorCapRechecked rt env row live.settings
      live.pr [pendingActionToPlanned row.actionClass params row.reason]) () rechecked () :=
    gives_contributorCapRechecked live.settings live.pr _
  refine ⟨acceptContext env row live.settings live.pr installation rechecked, params, ?_⟩
  unfold revalidateAgainst
  rw [hratifiable.unmoved, hratifiable.pinned, hlisted]
  refine (gives_checkLinkedIssueClose hclose).bind <| hparams.bind <|
    (gives_planAccepted params _).bind ?_
  have hplanned : ∀ action, [pendingActionToPlanned row.actionClass params row.reason].any
      (·.actionClass == action) = (row.actionClass == action) := by
    intro action
    simp [pendingActionToPlanned]
  refine (gives_checkLinkedIssueMerge ?_).bind <| (gives_ask _ _ _).bind <|
    (gives_ask _ _ _).bind <|
    hrechecked.bind <| gives_pure _ _ _
  intro hmerges
  rw [hplanned] at hmerges
  exact hmerge (by simpa using hmerges)

/-- An accept that nothing stops hands the action of the row to the executor. -/
theorem exists_executes (rt : Runtime) (env : ApprovalEnv) (hratifiable : live.Ratifiable row)
    (hrow : row.IsRuleBound)
    (hclose : row.IsRuleClose → ∀ pr, live.pr = some pr →
      isCloseEligible rt env row live.settings pr = true ∧
      live.linkedIssueHardRule.any violated = true)
    (hmerge : row.actionClass = .merge → ∀ pr, live.pr = some pr →
      isCloseEligible rt env row live.settings pr = true →
        live.linkedIssueHardRule.any violated = false) :
    ∃ decision decidedBy t r s',
      (decidePendingAgentAction rt env row.id decision decidedBy).Ends () t r s' ∧
      (∀ e ∈ t, live.Reports row e) ∧ Executes row.actionClass t := by
  obtain ⟨ctx, params, hchecks⟩ := gives_revalidateAgainst hratifiable hrow hclose hmerge none
  have hvalid : Gives (live.host row) (revalidate rt env row) ()
      (.ok ⟨ctx, [pendingActionToPlanned row.actionClass params row.reason]⟩) () := by
    unfold revalidate
    exact (gives_checkPairedClose hrow).bind <| (gives_ask _ _ _).bind <|
      (gives_ofExcept _ rfl _).bind <|
      (gives_ask _ _ _).bind <| (gives_ofExcept _ rfl _).bind <| (gives_ask _ _ _).bind <|
        (gives_ofExcept _ rfl _).bind hchecks
  refine ⟨.accept, "", _, _, _, ends_play (live.host row) _ (), fun e he => ?_, ?_⟩
  · rw [reply_of_mem_play he]
    exact host_reports e.call
  refine ⟨ctx, [pendingActionToPlanned row.actionClass params row.reason], .ok [], ?_, ?_⟩
  · refine (gives_ask _ _ _).mem_play_bind ?_
    have hfound : live.host row (.getPendingAgentAction row.id) = .ok (some ⟨row, rfl⟩) := by
      simp [LiveState.host]
    refine (gives_ofExcept _ hfound _).mem_play_bind ?_
    dsimp only
    rw [if_neg (not_not.2 hratifiable.pending)]
    refine (gives_ask _ _ _).mem_play_bind ?_
    refine (gives_ofExcept _ rfl _).mem_play_bind ?_
    rw [if_pos rfl]
    exact hvalid.mem_play_bind mem_play_ask_bind
  · simp [pendingActionToPlanned]

end Completeness

/-! ## Accept and planner -/

/-- **An accept does what the planner would find justified exactly when the two agree on the
author.** They differ on the admins, whom only the planner knows, and on a pull request that is not
stored. -/
theorem accept_matches_planner_iff (rt : Runtime) (env : ApprovalEnv)
    (row : AgentPendingActionRecord) (live : LiveState) :
    AcceptMatchesPlanner rt env row live ↔ EligibilityAgrees rt env row live := by
  constructor
  · intro h
    refine ⟨fun hrule hratifiable => ?_,
      fun hclass hratifiable pr hpr ⟨⟨hviolated, hadmin⟩, hbot, hoptedIn⟩ => ?_⟩
    · have hcloses (hchecked : ∀ pr, live.pr = some pr →
          isCloseEligible rt env row live.settings pr = true ∧
          live.linkedIssueHardRule.any violated = true) : live.PlannerCloses rt
            env row := by
        have hnomerge : row.actionClass ≠ .merge := by simp [hrule.1]
        obtain ⟨decision, decidedBy, t, r, s', hends, hreports, hexecutes⟩ := exists_executes rt env
          hratifiable (Or.inr hrule) (fun _ => hchecked) fun hmerge => absurd hmerge hnomerge
        rw [hrule.1] at hexecutes
        exact h.close hrule decision decidedBy t r s' hends hreports hexecutes
      cases hpr : live.pr with
      | none =>
        obtain ⟨pr, hstored, -⟩ := hcloses (by simp [hpr])
        rw [hpr] at hstored
        cases hstored
      | some pr =>
        refine ⟨pr, rfl, fun hdiffers => ?_⟩
        have heligible : isCloseEligible rt env row live.settings pr = true :=
          isCloseEligible_iff.2 (Or.inl ⟨hdiffers.1.2.2, hdiffers.2.1⟩)
        refine (violatedByAdmin_of_close hpr heligible hdiffers.1.1).2 hdiffers
          (hcloses fun pr' hpr' => ?_)
        obtain rfl : pr = pr' := Option.some.inj (hpr.symm.trans hpr')
        exact ⟨heligible, hdiffers.1.1⟩
    · have hunseen : ∀ pr', live.pr = some pr' →
          isCloseEligible rt env row live.settings pr' = true →
          live.linkedIssueHardRule.any violated = false := by
        intro pr' hpr' heligible
        obtain rfl : pr = pr' := Option.some.inj (hpr.symm.trans hpr')
        simp [isCloseEligible, hadmin.2, hbot] at heligible
      obtain ⟨decision, decidedBy, t, r, s', hends, hreports, hexecutes⟩ := exists_executes rt env
        hratifiable (Or.inl hclass) (fun hrule => by simp [hrule.1] at hclass) fun _ => hunseen
      rw [hclass] at hexecutes
      refine h.merge hclass decision decidedBy t r s' hends hreports hexecutes ?_
      exact (violatedByAdmin_of_merge hpr (hunseen pr hpr)).2 ⟨⟨hviolated, hadmin⟩, hbot, hoptedIn⟩
  · intro h
    refine ⟨fun hrule decision decidedBy t r s' hends hreports hexecutes => ?_,
      fun hclass decision decidedBy t r s' hends hreports hexecutes hcloses => ?_⟩
    · obtain ⟨plan, hchecked, -⟩ := executes_checked hends hreports hexecutes
      obtain ⟨pr, hpr, hagrees⟩ := h.close hrule hchecked.ratifiable
      obtain ⟨heligible, hviolated⟩ := hchecked.close hrule pr hpr
      by_contra hcloses
      exact hagrees ((violatedByAdmin_of_close hpr heligible hviolated).1 hcloses)
    · obtain ⟨plan, hchecked, hmerges⟩ := executes_checked hends hreports hexecutes
      obtain ⟨pr, hpr, -⟩ := id hcloses
      have hunseen := hchecked.merge hmerges pr hpr
      exact h.merge hclass hchecked.ratifiable pr hpr
        ((violatedByAdmin_of_merge hpr hunseen).1 hcloses)

/-- A close for the linked-issue rule, pinned to the reviewed head. -/
def stagedRuleClose : AgentPendingActionRecord where
  id := "pending-1"
  repoFullName := "acme/widgets"
  pullNumber := 7
  installationId := 1
  actionClass := .close
  autonomyLevel := .autoWithApproval
  params := actionParams
    { actionClass := .close
      requiresApproval := true
      reason := "linked issue is ineligible"
      expectedHeadSha := some "abc123"
      closeKind := some .linkedIssueHardRule }
  reason := none
  status := .pending
  decidedBy := none
  decidedAt := none
  createdAt := "2026-07-01T00:00:00.000Z"
  updatedAt := "2026-07-01T00:00:00.000Z"

/-- The author has become an admin of the fleet, and the rule is violated as before. -/
def adminAuthored : LiveState where
  settings := { autonomy := none }
  pr := some { headSha := some "abc123", authorLogin := some "carol" }
  isAdmin login := login == "carol"
  linkedIssueHardRule := some ⟨true, none⟩

/-- An accept closes the pull request of an admin, whom the planner exempts. -/
theorem accept_closes_admin :
    ¬ ∀ (rt : Runtime) (env : ApprovalEnv) (row : AgentPendingActionRecord) (live : LiveState),
      AcceptMatchesPlanner rt env row live := by
  intro h
  have hrule : stagedRuleClose.IsRuleClose := ⟨rfl, rfl⟩
  have hratifiable : adminAuthored.Ratifiable stagedRuleClose := ⟨rfl, by decide, by decide⟩
  have heligible : ∀ pr, adminAuthored.pr = some pr →
      isCloseEligible asciiRuntime ⟨[], false⟩ stagedRuleClose adminAuthored.settings pr = true ∧
        adminAuthored.linkedIssueHardRule.any violated = true := by
    rintro pr ⟨⟩
    exact ⟨by decide, rfl⟩
  obtain ⟨decision, decidedBy, t, r, s', hends, hreports, hexecutes⟩ :=
    exists_executes asciiRuntime ⟨[], false⟩
    hratifiable (Or.inr hrule) (fun _ => heligible) nofun
  have hcloses := (h _ _ stagedRuleClose adminAuthored).close hrule decision decidedBy t r s' hends
    hreports hexecutes
  obtain ⟨helig, hviolated⟩ := heligible _ rfl
  refine (violatedByAdmin_of_close rfl helig hviolated).2 ⟨⟨rfl, by decide, by decide⟩,
    rfl, ?_⟩ hcloses
  decide

end LoopOver
