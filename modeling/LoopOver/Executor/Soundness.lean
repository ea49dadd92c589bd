import LoopOver.Executor.Alignment

/-!
# No mutation past a gate

A GitHub write that carries out a planned action comes after everything that had to allow it:
`Admitted` says what that is for one write, in terms of the context, of the iterations before it and
of the calls the same iteration made before it.

* `executeAction_checked` is about one iteration: what its own gates have checked.
* `mutation_admitted` is about whole runs, returning or throwing. What an iteration checks against
  earlier ones, by position in the list of outcomes, is what `Orderly` is needed for: before a label
  that is coupled to a close, every iteration must have pushed exactly one outcome.
-/

namespace LoopOver

open List Script

/-! ## Scripts without mutations -/

def HostCall.mutates : HostCall → Bool
  | mutate _ => true
  | _ => false

def HostCall.releases : HostCall → Bool
  | releaseContributorCapLock _ _ => true
  | _ => false

/-- Any change of the state. -/
def AnyMove (_ _ : ExecutorState) : Prop := True

instance : Std.Refl AnyMove := ⟨fun _ => trivial⟩

instance : IsTrans ExecutorState AnyMove := ⟨fun _ _ _ _ _ => trivial⟩

/-- A script that writes nothing to GitHub for the action. -/
abbrev Spares {α : Type} (p : Exec α) : Prop :=
  Script.Respects (fun call => call.mutates = false) AnyMove p

/-- A script that does not give up the cap lock. -/
abbrev KeepsLock {α : Type} (p : Exec α) : Prop :=
  Script.Respects (fun call => call.releases = false) AnyMove p

theorem Quiet.spares {α : Type} {p : Exec α} (h : Quiet p) : Spares p :=
  h.mono (fun call hq => by cases call <;> first | rfl | cases hq) fun _ _ _ => trivial

theorem Silent.keepsLock {α : Type} {p : Exec α} (h : Silent p) : KeepsLock p :=
  h.mono (fun call hq => by cases call <;> first | rfl | cases hq) fun _ _ _ => trivial

section Scripts

variable {rt : Runtime} {env : AgentEnv} {ctx : AgentActionExecutionContext}
  {mode : AgentActionMode} {action : PlannedAgentAction}

theorem audit_respects {allowed : HostCall → Prop} {outcome : ActionOutcome} {detail : String}
    (h : ∀ record, allowed (.recordAuditEvent (.agentAction record))) :
    Script.Respects allowed AnyMove (audit ctx mode action outcome detail) := by
  intro s t r s' hends
  obtain ⟨rfl, -⟩ := ends_audit.1 hends
  refine ⟨fun e he => ?_, trivial⟩
  obtain rfl := mem_singleton.1 he
  exact h _

theorem audit_spares {outcome : ActionOutcome} {detail : String} :
    Spares (audit ctx mode action outcome detail) :=
  audit_respects fun _ => rfl

theorem stage_spares : Spares (stage ctx mode action) := by
  refine respects_bind ?_ fun staged =>
    respects_ite (fun _ => audit_spares) fun _ => respects_pure _
  refine respects_bind (respects_ask rfl) fun _ => ?_
  refine respects_bind (respects_ofExcept _) fun created => ?_
  refine respects_ite (fun _ => ?_) fun _ => respects_pure _
  refine respects_bind (respects_ask rfl) fun _ => ?_
  refine respects_bind (respects_ofExcept _) fun delivery => ?_
  exact respects_bind (respects_askWhen rfl) fun _ => respects_pure _

theorem denyWritePermission_spares : Spares (denyWritePermission ctx mode action) := by
  refine respects_bind (respects_ask rfl) fun _ => ?_
  refine respects_bind (respects_modify fun _ => trivial) fun _ => ?_
  refine respects_bind respects_get fun _ => ?_
  refine respects_ite (fun _ => respects_modify fun _ => trivial) fun _ => ?_
  refine respects_bind audit_spares fun _ => ?_
  exact respects_bind (respects_ask rfl) fun _ =>
    respects_modify fun _ => trivial

theorem performMutation_keepsLock : KeepsLock (performMutation rt ctx mode action) := by
  have haudit : ∀ outcome detail, KeepsLock (audit ctx mode action outcome detail) :=
    fun _ _ => audit_respects fun _ => rfl
  refine respects_bind (respects_attempt ?_) fun result => ?_
  · refine respects_bind (performAction_silent action).keepsLock fun detail => ?_
    exact respects_bind (haudit _ _) fun _ => (afterCompletion_silent action).keepsLock
  · cases result with
    | ok _ => exact respects_pure _
    | error error =>
      exact respects_bind (haudit _ _) fun _ => (afterFailure_silent action error).keepsLock

end Scripts

/-! ## One iteration -/

section Split

variable {α β : Type} {s s' : ExecutorState} {seen rest : List HostEvent} {write : GitHubWrite}
  {reply : HostReply (.mutate write)}

theorem false_of_spares {p : Exec α} {r : Except HostError α} (hp : Spares p)
    (hends : p.Ends s (seen ++ ⟨.mutate write, reply⟩ :: rest) r s') : False := by
  have hcall := (hp s _ r s' hends).1 ⟨.mutate write, reply⟩ (by simp)
  cases hcall

/-- A mutation in a run whose first part makes none comes after that part. -/
theorem mutation_after {p : Exec α} {f : α → Exec β} {r : Except HostError β} (hp : Spares p)
    (h : (p >>= f).Ends s (seen ++ ⟨.mutate write, reply⟩ :: rest) r s') :
    ∃ front value s₁ seen', p.Ends s front (.ok value) s₁ ∧ seen = front ++ seen' ∧
      (f value).Ends s₁ (seen' ++ ⟨.mutate write, reply⟩ :: rest) r s' := by
  rcases ends_bind.1 h with ⟨e, herror, -⟩ | ⟨front, value, s₁, back, hfront, hback, hsplit⟩
  · exact (false_of_spares hp herror).elim
  rcases append_eq_append_iff.1 hsplit with ⟨more, hmore, hevent⟩ | ⟨seen', hseen, rfl⟩
  · cases more with
    | nil =>
      rw [nil_append] at hevent
      refine ⟨front, value, s₁, [], hfront, by simpa using hmore.symm, ?_⟩
      rw [nil_append, hevent]
      exact hback
    | cons e more =>
      obtain ⟨rfl, -⟩ := List.cons.inj hevent
      have hcall := (hp s front _ s₁ hfront).1 ⟨.mutate write, reply⟩ (by simp [hmore])
      cases hcall
  · exact ⟨front, value, s₁, seen', hfront, hseen, hback⟩

/-- A mutation in a run of `try p finally q` whose `q` makes none is one of `p`. -/
theorem mutation_of_andFinally {p : Exec α} {q : Exec Unit} {r : Except HostError α}
    (hq : Spares q) (h : (p.andFinally q).Ends s (seen ++ ⟨.mutate write, reply⟩ :: rest) r s') :
    ∃ r₁ s₁ rest', p.Ends s (seen ++ ⟨.mutate write, reply⟩ :: rest') r₁ s₁ := by
  obtain ⟨front, r₁, s₁, back, r₂, hp, hback, hsplit, -⟩ := ends_andFinally.1 h
  have hnot : ∀ e ∈ back, e.call.mutates = false := (hq s₁ back r₂ s' hback).1
  rcases append_eq_append_iff.1 hsplit with ⟨more, rfl, hevent⟩ | ⟨seen', -, rfl⟩
  · cases more with
    | nil =>
      rw [nil_append] at hevent
      have hcall := hnot ⟨.mutate write, reply⟩ (by simp [← hevent])
      cases hcall
    | cons e more =>
      obtain ⟨rfl, -⟩ := List.cons.inj hevent
      exact ⟨r₁, s₁, more, hp⟩
  · have hcall := hnot ⟨.mutate write, reply⟩ (by simp)
    cases hcall

end Split

/-- The cap re-check succeeded while the author's lock was held, and the lock is still held. -/
def CapHeld (ctx : AgentActionExecutionContext) (seen : List HostEvent) : Prop :=
  ∃ before claim during, claim.acquired = true ∧
    seen = before ++ ⟨.claimContributorCapLock (ctx.authorLogin.getD ""), .ok claim⟩ ::
      ⟨.contributorCapMergeRecheck, .ok true⟩ :: during ∧
    ∀ e ∈ during, e.call.releases = false

section Iteration

variable {rt : Runtime} {env : AgentEnv} {ctx : AgentActionExecutionContext}
  {mode : AgentActionMode} {action : PlannedAgentAction}

variable {seen rest : List HostEvent} {r : Except HostError Unit} {s s' : ExecutorState}
variable {write : GitHubWrite} {reply : HostReply (.mutate write)}

theorem performUnderCapLock_capHeld
    (h : (performUnderCapLock rt ctx mode action).Ends s (seen ++ ⟨.mutate write, reply⟩ :: rest) r
      s') : CapHeld ctx seen := by
  obtain ⟨_, claimed, _, seen₁, hclaim, rfl, h₁⟩ := mutation_after (respects_ask rfl) h
  obtain ⟨_, rfl, hreply, rfl⟩ := ends_ask.1 hclaim
  obtain rfl := Except.ok.inj hreply
  obtain ⟨_, claim, _, seen₂, hok, rfl, h₂⟩ := mutation_after (respects_ofExcept _) h₁
  obtain ⟨rfl, rfl, rfl⟩ := ends_ofExcept.1 hok
  rcases ends_ite.1 h₂ with ⟨hacquired, hlocked⟩ | ⟨-, hdenied⟩
  swap
  · exact (false_of_spares audit_spares hdenied).elim
  obtain ⟨r₁, s₁, rest', hbody⟩ := mutation_of_andFinally
    (respects_bind (respects_ask rfl) fun _ => respects_ofExcept _) hlocked
  obtain ⟨_, checked, _, seen₃, hcheck, rfl, h₃⟩ := mutation_after (respects_ask rfl) hbody
  obtain ⟨_, rfl, hreply', rfl⟩ := ends_ask.1 hcheck
  obtain rfl := Except.ok.inj hreply'
  obtain ⟨_, under, _, during, hok', rfl, h₄⟩ := mutation_after (respects_ofExcept _) h₃
  obtain ⟨rfl, rfl, rfl⟩ := ends_ofExcept.1 hok'
  rcases ends_ite.1 h₄ with ⟨hunder, hmutate⟩ | ⟨-, hdenied⟩
  swap
  · exact (false_of_spares audit_spares hdenied).elim
  obtain rfl : under = true := hunder
  refine ⟨[], claim, during, hacquired, by simp, fun e he => ?_⟩
  exact (performMutation_keepsLock _ _ _ _ hmutate).1 e (mem_append_left _ he)

/-- What an iteration has checked before it mutates, reading the outcomes by position. -/
structure Checked (rt : Runtime) (ctx : AgentActionExecutionContext) (mode : AgentActionMode)
    (action : PlannedAgentAction) (paired : Option ActionOutcome) (seen : List HostEvent) :
    Prop where
  live : mode = .live
  acting : isActingAutonomyLevel (resolveAutonomy ctx.autonomy action.governingClass) = true
  approved : action.requiresApproval = false
  permitted : action.actionClass ∈ prWriteClasses → resolveAgentPermissionReadiness ctx.autonomy
    ctx.installationPermissions action.actionClass = .ready
  coupled : pairedCloseDenial action paired = none
  fresh : (action.coupledTo.isSome = true ∧ paired = some .completed) ∨
    ∃ pin token own live, pinnedHead ctx action = some pin ∧
      ⟨.fetchLivePullRequestResult token own, .ok live⟩ ∈ seen ∧ ReadCurrent rt ctx action pin live
  rechecked : LiveRechecked ctx action seen
  train : action.actionClass = .merge → ctx.mergeTrainMode = some .enforce →
    MergeTrainClear rt ctx seen
  cap : action.actionClass = .merge → ctx.contributorCapMergeRecheck = true → CapHeld ctx seen

variable {planned : List PlannedAgentAction}

/-- A mutation has passed the live gates, and the cap re-check where there is one. -/
theorem actuateThroughGates_checked
    (h : (actuateThroughGates rt env ctx mode planned action).Ends s
      (seen ++ ⟨.mutate write, reply⟩ :: rest) r s') :
    ∃ gates during s₁, seen = gates ++ during ∧
      (firstSome (liveGates rt env ctx action
        (pairedCloseOutcome planned s.outcomes action))).Ends s gates (.ok none) s₁ ∧
      (action.actionClass = .merge → ctx.contributorCapMergeRecheck = true →
        CapHeld ctx during) := by
  obtain ⟨_, _, _, seen₁, hget, rfl, h₁⟩ := mutation_after respects_get h
  obtain ⟨rfl, hs, rfl⟩ := ends_get.1 hget
  obtain rfl := Except.ok.inj hs
  obtain ⟨gates, denial, s₁, during, hgates, rfl, h₂⟩ :=
    mutation_after (liveGates_quiet action _).spares h₁
  cases denial with
  | some reason => exact (false_of_spares audit_spares h₂).elim
  | none =>
    refine ⟨gates, during, s₁, by simp, hgates, fun hmerge hcap => ?_⟩
    rcases ends_ite.1 h₂ with ⟨-, hlocked⟩ | ⟨hnot, -⟩
    · exact performUnderCapLock_capHeld hlocked
    · exact absurd ⟨hmerge, hcap⟩ hnot

theorem CapHeld.append {gates during : List HostEvent} (h : CapHeld ctx during) :
    CapHeld ctx (gates ++ during) := by
  obtain ⟨before, claim, held, hacquired, rfl, hkeeps⟩ := h
  exact ⟨gates ++ before, claim, held, hacquired, by simp, hkeeps⟩

theorem MergeTrainClear.mono {seen seen' : List HostEvent} (h : MergeTrainClear rt ctx seen)
    (hsub : seen ⊆ seen') : MergeTrainClear rt ctx seen' := by
  obtain ⟨siblings, filePaths, nowMs, hlisted, hpaths, hnow, hgo⟩ := h
  exact ⟨siblings, filePaths, nowMs, hsub hlisted, hsub hpaths, hsub hnow, hgo⟩

/-- **A mutation in an iteration comes after every check of that iteration.** -/
theorem executeAction_checked
    (h : (executeAction rt env ctx mode planned action).Ends s
      (seen ++ ⟨.mutate write, reply⟩ :: rest) r s') :
    Checked rt ctx mode action (pairedCloseOutcome planned s.outcomes action) seen := by
  -- each early exit only audits, stages or denies, and none of these mutates
  rcases ends_ite.1 h with ⟨-, hexit⟩ | ⟨hpaused, h₁⟩
  · exact (false_of_spares audit_spares hexit).elim
  rcases ends_ite.1 h₁ with ⟨-, hexit⟩ | ⟨hacting, h₂⟩
  · exact (false_of_spares audit_spares hexit).elim
  rcases ends_ite.1 h₂ with ⟨-, hexit⟩ | ⟨hdry, h₃⟩
  · exact (false_of_spares audit_spares hexit).elim
  rcases ends_ite.1 h₃ with ⟨-, hexit⟩ | ⟨happroval, h₄⟩
  · exact (false_of_spares stage_spares hexit).elim
  rcases ends_ite.1 h₄ with ⟨-, hexit⟩ | ⟨hpermission, h₅⟩
  · exact (false_of_spares denyWritePermission_spares hexit).elim
  obtain ⟨gates, during, s₁, rfl, hgates, hcap⟩ := actuateThroughGates_checked h₅
  have hsub : gates ⊆ gates ++ during := subset_append_left _ _
  have hpassed := ends_firstSome_none hgates
  simp only [liveGates, forall_mem_cons] at hpassed
  obtain ⟨⟨_, _, _, hcoupled, -⟩, ⟨_, _, _, hfresh, hfreshsub⟩, ⟨_, _, _, hrecheck, hrechecksub⟩,
    ⟨_, _, _, htrain, htrainsub⟩, -⟩ := hpassed
  refine ⟨?_, by simpa using hacting, by simpa using happroval, fun hclass => ?_, ?_, ?_, ?_,
    fun hmerge henforce => ?_, fun hmerge hsupplied => (hcap hmerge hsupplied).append⟩
  · cases mode with
    | paused => exact absurd rfl hpaused
    | dryRun => exact absurd rfl hdry
    | live => rfl
  · simpa [lacksWritePermission, hclass] using hpermission
  · obtain ⟨-, hdenial, -⟩ := ends_pure.1 hcoupled
    exact (Except.ok.inj hdenial).symm
  · refine (freshnessGate_none hfresh).imp_right ?_
    rintro ⟨pin, token, own, live, hpin, hmem, hcurrent⟩
    exact ⟨pin, token, own, live, hpin, hsub (hfreshsub hmem), hcurrent⟩
  · exact (liveRecheckGate_none hrecheck).mono (List.Subset.trans hrechecksub hsub)
  · exact (mergeTrainGate_none htrain hmerge henforce).mono (List.Subset.trans htrainsub hsub)

end Iteration

/-! ## Coupled labels in a run -/

/-- A close of this kind. -/
def PlannedAgentAction.isCloseOf (action : PlannedAgentAction) (kind : CloseKind) : Bool :=
  action.actionClass == .close && action.closeKind == some kind

/-- The outcome of the first close of the kind among the iterations. -/
def firstCloseOutcome (earlier : List ActionVisit) (kind : CloseKind) : Option ActionOutcome :=
  (earlier.find? fun w => w.item.isCloseOf kind).bind fun w =>
    w.pushed.head?.map AgentActionOutcome.outcome

variable {kind : CloseKind}

/-- Where every iteration so far pushed one outcome, the outcome looked up by position is that of
the first close of the kind. -/
theorem coupledCloseOutcome_eq {front : List ActionVisit} {rest : List PlannedAgentAction}
    (h : ∀ w ∈ front, ∃ o, w.pushed = [o]) :
    coupledCloseOutcome (front.map Visit.item ++ rest) (front.flatMap Visit.pushed) kind =
      firstCloseOutcome front kind := by
  induction front with
  | nil => cases rest <;> rfl
  | cons w front ih =>
    obtain ⟨o, ho⟩ := h w mem_cons_self
    rw [flatMap_cons, ho, map_cons, cons_append, singleton_append, coupledCloseOutcome]
    by_cases hclose : w.item.actionClass = .close ∧ w.item.closeKind = some kind
    · have hfound : w.item.isCloseOf kind = true := by
        simp [PlannedAgentAction.isCloseOf, hclose.1, hclose.2]
      simp [firstCloseOutcome, hclose, hfound, ho]
    · have hother : w.item.isCloseOf kind = false := by
        simpa [PlannedAgentAction.isCloseOf] using hclose
      rw [if_neg hclose, firstCloseOutcome, List.find?_cons_of_neg (by simp [hother])]
      exact ih fun v hv => h v (mem_cons_of_mem _ hv)

/-- In a list without a close of the kind, none is found. -/
theorem coupledCloseOutcome_eq_none {planned : List PlannedAgentAction}
    (h : ∀ action ∈ planned, action.isCloseOf kind = false) (outcomes : List AgentActionOutcome) :
    coupledCloseOutcome planned outcomes kind = none := by
  induction planned generalizing outcomes with
  | nil => rfl
  | cons action planned ih =>
    obtain ⟨haction, hrest⟩ := forall_mem_cons.1 h
    cases outcomes with
    | nil => rfl
    | cons outcome outcomes =>
      rw [coupledCloseOutcome, if_neg (by simpa [PlannedAgentAction.isCloseOf] using haction)]
      exact ih hrest outcomes

/-- The read shows the pull request open, at the pinned head and on the expected base. -/
structure ReadAt (rt : Runtime) (ctx : AgentActionExecutionContext) (pin : String)
    (live : LivePullRequest) : Prop where
  isOpen : live.state = some "open"
  head : ∃ sha, normalizedHead rt (some pin) = some sha ∧ normalizedHead rt live.headSha = some sha
  base : ∀ base, truthy ctx.expectedBaseRef = some base → live.baseRef = some base

/-- What allowed a mutation of the action: `earlier` are the iterations before its own, and `seen`
the calls of its own iteration before the mutation. -/
structure Admitted (rt : Runtime) (ctx : AgentActionExecutionContext) (mode : AgentActionMode)
    (earlier : List ActionVisit) (action : PlannedAgentAction) (seen : List HostEvent) :
    Prop where
  live : mode = .live
  acting : isActingAutonomyLevel (resolveAutonomy ctx.autonomy action.governingClass) = true
  approved : action.requiresApproval = false
  permitted : action.actionClass ∈ prWriteClasses → resolveAgentPermissionReadiness ctx.autonomy
    ctx.installationPermissions action.actionClass = .ready
  /-- The pull request was read open at the pinned head and on the expected base, or the action is a
  label whose close GitHub accepted earlier in the list. -/
  fresh : (∃ pin token own live, pinnedHead ctx action = some pin ∧
      ⟨.fetchLivePullRequestResult token own, .ok live⟩ ∈ seen ∧ ReadAt rt ctx pin live) ∨
    ∃ kind, action.coupledTo = some kind ∧ ∃ w ∈ earlier, w.item.isCloseOf kind = true ∧
      ⟨.mutate .closePullRequest, .ok ()⟩ ∈ w.events
  /-- No close that the action is coupled to was denied or failed. -/
  coupled : ∀ kind, action.coupledTo = some kind → ∀ w ∈ earlier, w.item.isCloseOf kind = true →
    ∀ o ∈ w.pushed, o.outcome ≠ .denied ∧ o.outcome ≠ .error
  /-- An approve or a merge read the pull request without the manual-review label. -/
  unheld : action.actionClass = .approve ∨ action.actionClass = .merge →
    ∃ pin token own live, pinnedHead ctx action = some pin ∧
      ⟨.fetchLivePullRequestResult token own, .ok live⟩ ∈ seen ∧ ReadAt rt ctx pin live ∧
      ∀ label, manualReviewLabelName ctx = some label →
        hasLabel rt.toText live.labelNames label = false
  rechecked : LiveRechecked ctx action seen
  train : action.actionClass = .merge → ctx.mergeTrainMode = some .enforce →
    MergeTrainClear rt ctx seen
  cap : action.actionClass = .merge → ctx.contributorCapMergeRecheck = true → CapHeld ctx seen

/-- A pull request read live names its base. -/
def Event.namesBase : HostEvent → Bool
  | ⟨.fetchLivePullRequestResult _ _, .ok live⟩ => (truthy live.baseRef).isSome
  | _ => true

/-- What the checks of one iteration rely on in the rest of the run. -/
structure Orderly (rt : Runtime) (ctx : AgentActionExecutionContext)
    (planned : List PlannedAgentAction) (t : List HostEvent) (visits : List ActionVisit) :
    Prop where
  /-- Before a label whose kind a close of the list has, no iteration was disturbed. A close behind
  the label counts: a second outcome of an iteration can move the reading to it. -/
  undisturbed : ∀ front v back, visits = front ++ v :: back → ∀ kind, v.item.coupledTo = some kind →
    (∃ close ∈ planned, close.isCloseOf kind = true) → ∀ w ∈ front, Undisturbed w.events
  /-- Before a coupled label there is at most one close of its kind. -/
  single : ∀ front v back, visits = front ++ v :: back → ∀ kind, v.item.coupledTo = some kind →
    (front.filter fun w => w.item.isCloseOf kind).length ≤ 1
  /-- No pinned head is blank. -/
  pinned : ∀ action ∈ planned, ∀ pin, pinnedHead ctx action = some pin →
    normalizedHead rt (some pin) ≠ none
  /-- Every live read names the base, where one is expected. -/
  based : truthy ctx.expectedBaseRef ≠ none → ∀ e ∈ t, e.namesBase = true

section Run

variable {rt : Runtime} {env : AgentEnv} {ctx : AgentActionExecutionContext}
  {mode : AgentActionMode} {planned : List PlannedAgentAction} {s s₁ : ExecutorState}
  {looped : Except HostError Unit} {visits front back : List ActionVisit} {v : ActionVisit}

/-- The outcome a coupled label finds is that of the first close of its kind, where no iteration
before it was disturbed or no close has its kind. -/
theorem pairedCloseOutcome_eq
    (hvisits : Visits (executeAction rt env ctx mode planned) planned s visits looped s₁)
    (hstart : s.outcomes = []) (hsplit : visits = front ++ v :: back)
    (hund : (∃ close ∈ planned, close.isCloseOf kind = true) →
      ∀ w ∈ front, Undisturbed w.events)
    (hkind : v.item.coupledTo = some kind) :
    pairedCloseOutcome planned v.before.outcomes v.item = firstCloseOutcome front kind := by
  have hsettled : ∀ w ∈ front, Settled w.item w.before w.events w.after w.pushed := fun w hw =>
    hvisits.settled (by simp [hsplit, hw]) (hvisits.result_eq_of_front hsplit hw)
  have hbefore : v.before.outcomes = front.flatMap Visit.pushed := by
    rw [hvisits.before_eq ExecutorState.outcomes hsplit fun w hw => (hsettled w hw).outcomes,
      hstart, nil_append]
  obtain ⟨rest, hrest⟩ := hvisits.map_item_isPrefix
  rw [hsplit, map_append, append_assoc] at hrest
  rw [pairedCloseOutcome, hkind, Option.bind_some, hbefore]
  by_cases hclose : ∃ close ∈ planned, close.isCloseOf kind = true
  · rw [← hrest]
    exact coupledCloseOutcome_eq fun w hw => (hsettled w hw).single.1 (hund hclose w hw)
  · have hnone : ∀ action ∈ planned, action.isCloseOf kind = false := by simpa using hclose
    have hfront : front.find? (fun w => w.item.isCloseOf kind) = none := by
      refine List.find?_eq_none.2 fun w hw => ?_
      have hitem : w.item ∈ planned := hrest ▸ mem_append_left _ (mem_map_of_mem hw)
      simp [hnone _ hitem]
    rw [coupledCloseOutcome_eq_none hnone, firstCloseOutcome, hfront, Option.bind_none]

variable {action : PlannedAgentAction}

/-- A read found current shows the pinned head and the expected base, unless the pin is blank or the
payload names no base. -/
theorem ReadCurrent.readAt {pin : String} {live : LivePullRequest}
    (h : ReadCurrent rt ctx action pin live) (hpin : normalizedHead rt (some pin) ≠ none)
    (hbase : truthy ctx.expectedBaseRef ≠ none → (truthy live.baseRef).isSome = true) :
    ReadAt rt ctx pin live where
  isOpen := h.isOpen
  head := by
    obtain ⟨sha, hsha⟩ := Option.ne_none_iff_exists'.1 hpin
    exact ⟨sha, hsha, h.head sha hsha⟩
  base base hexpected := by
    obtain ⟨ref, href⟩ := Option.isSome_iff_exists.1 (hbase (by simp [hexpected]))
    rw [eq_some_of_truthy href, h.base base ref hexpected href]

/-- A label whose paired close is not in its way follows no close of its kind that was denied or
failed. -/
theorem coupled_of_checked (hkind : action.coupledTo = some kind)
    (hsingle : (front.filter fun w => w.item.isCloseOf kind).length ≤ 1)
    (hdenial : pairedCloseDenial action (firstCloseOutcome front kind) = none)
    (hpushed : ∀ w ∈ front, w.item.isCloseOf kind = true → ∃ o, w.pushed = [o]) :
    ∀ w ∈ front, w.item.isCloseOf kind = true →
      ∀ o ∈ w.pushed, o.outcome ≠ .denied ∧ o.outcome ≠ .error := by
  intro w hw hclose o ho
  have hfilter : (front.filter fun w => w.item.isCloseOf kind) = [w] := by
    have hmem : w ∈ front.filter fun w => w.item.isCloseOf kind := mem_filter.2 ⟨hw, hclose⟩
    obtain ⟨x, hx⟩ := length_eq_one_iff.1
      (le_antisymm hsingle (length_pos_of_mem hmem))
    rw [hx] at hmem ⊢
    rw [mem_singleton.1 hmem]
  obtain ⟨o', ho'⟩ := hpushed w hw hclose
  obtain rfl : o = o' := by simpa [ho'] using ho
  rw [firstCloseOutcome, ← List.head?_filter, hfilter] at hdenial
  simp only [List.head?_cons, Option.bind_some, ho', Option.map_some, pairedCloseDenial,
    hkind] at hdenial
  split at hdenial
  · cases hdenial
  next hnot => exact not_or.1 hnot

/-- A coupled close that was found completed is one that GitHub accepted. -/
theorem accepted_of_completed
    (hsettled : ∀ w ∈ front, Settled w.item w.before w.events w.after w.pushed)
    (hcompleted : firstCloseOutcome front kind = some .completed) :
    ∃ w ∈ front, w.item.isCloseOf kind = true ∧ ⟨.mutate .closePullRequest, .ok ()⟩ ∈ w.events := by
  obtain ⟨w, hfound, houtcome⟩ := Option.bind_eq_some_iff.1 hcompleted
  obtain ⟨o, hhead, ho⟩ := Option.map_eq_some_iff.1 houtcome
  have hw : w ∈ front := mem_of_find?_eq_some hfound
  have hclose : w.item.isCloseOf kind = true := by simpa using List.find?_some hfound
  have hclass : w.item.actionClass = .close := by
    simp only [PlannedAgentAction.isCloseOf, Bool.and_eq_true, beq_iff_eq] at hclose
    exact hclose.1
  exact ⟨w, hw, hclose, (hsettled w hw).closed o (mem_of_mem_head? hhead) ho hclass⟩

/-- The checks of an iteration admit its mutation, where the outcomes before it are read off the
right iterations. -/
theorem Checked.admitted {paired : Option ActionOutcome}
    {seen : List HostEvent} (h : Checked rt ctx mode action paired seen)
    (hread : ∀ pin token own live, pinnedHead ctx action = some pin →
      ⟨.fetchLivePullRequestResult token own, .ok live⟩ ∈ seen →
      ReadCurrent rt ctx action pin live → ReadAt rt ctx pin live)
    (hsettled : ∀ w ∈ front, Settled w.item w.before w.events w.after w.pushed)
    (hcoupled : ∀ kind, action.coupledTo = some kind → paired = firstCloseOutcome front kind ∧
      (front.filter fun w => w.item.isCloseOf kind).length ≤ 1 ∧
      ∀ w ∈ front, w.item.isCloseOf kind = true → Undisturbed w.events) :
    Admitted rt ctx mode front action seen := by
  refine ⟨h.live, h.acting, h.approved, h.permitted, ?_, fun kind hkind => ?_, fun hclass => ?_,
    h.rechecked, h.train, h.cap⟩
  · rcases h.fresh with ⟨hlabel, hcompleted⟩ | ⟨pin, token, own, live, hpin, hmem, hcurrent⟩
    · obtain ⟨kind, hkind⟩ := Option.isSome_iff_exists.1 hlabel
      rw [(hcoupled kind hkind).1] at hcompleted
      exact Or.inr ⟨kind, hkind, accepted_of_completed hsettled hcompleted⟩
    · exact Or.inl ⟨pin, token, own, live, hpin, hmem, hread pin token own live hpin hmem hcurrent⟩
  · obtain ⟨hpaired, hsingle, hund⟩ := hcoupled kind hkind
    refine coupled_of_checked hkind hsingle ?_ fun w hw hclose =>
      (hsettled w hw).single.1 (hund w hw hclose)
    rw [← hpaired]
    exact h.coupled
  · rcases h.fresh with ⟨hlabel, -⟩ | ⟨pin, token, own, live, hpin, hmem, hcurrent⟩
    · rcases hclass with hclass | hclass <;>
        simp [PlannedAgentAction.coupledTo, hclass] at hlabel
    · exact ⟨pin, token, own, live, hpin, hmem, hread pin token own live hpin hmem hcurrent,
        hcurrent.unheld hclass⟩

end Run

/-- In every run, returning or throwing, that is orderly, a mutation of a planned action comes after
everything that had to allow it. -/
theorem mutation_admitted (rt : Runtime) (env : AgentEnv) (ctx : AgentActionExecutionContext)
    (planned : List PlannedAgentAction) (s s' : ExecutorState) (t : List HostEvent)
    (r : Except HostError (List AgentActionOutcome))
    (h : (executeAgentMaintenanceActions rt env ctx planned).Ends s t r s') :
    (∃ mode visits, Iterations rt env ctx planned s t r mode visits) ∧
      ∀ mode visits, Iterations rt env ctx planned s t r mode visits →
        Orderly rt ctx planned t visits →
        ∀ front v back, visits = front ++ v :: back →
        ∀ seen write reply rest, v.events = seen ++ ⟨.mutate write, reply⟩ :: rest →
          Admitted rt ctx mode front v.item seen := by
  refine ⟨execute_iterations h, ?_⟩
  rintro mode visits ⟨opening, closing, looped, s₁, -, hvisits, -, ht, -⟩ horderly front v back
    hsplit seen write reply rest hevents
  have hv : v ∈ visits := by simp [hsplit]
  have hplanned : v.item ∈ planned :=
    hvisits.map_item_isPrefix.subset (mem_map_of_mem hv)
  have hends := hvisits.ends hv
  rw [hevents] at hends
  refine (executeAction_checked hends).admitted ?_ (fun w hw => ?_) fun kind hkind => ?_
  · intro pin token own live hpin hmem hcurrent
    have hmemt : ⟨.fetchLivePullRequestResult token own, .ok live⟩ ∈ t := by
      rw [ht]
      refine mem_append_right _ (mem_append_left _ (mem_flatMap.2 ⟨v, hv, ?_⟩))
      rw [hevents]
      exact mem_append_left _ hmem
    exact hcurrent.readAt (horderly.pinned _ hplanned pin hpin) fun hexpected =>
      horderly.based hexpected _ hmemt
  · exact hvisits.settled (by simp [hsplit, hw]) (hvisits.result_eq_of_front hsplit hw)
  · have hund := horderly.undisturbed front v back hsplit kind hkind
    refine ⟨pairedCloseOutcome_eq hvisits rfl hsplit hund hkind,
      horderly.single front v back hsplit kind hkind,
        fun w hw hclose => hund ⟨w.item, ?_, hclose⟩ w hw⟩
    exact hvisits.map_item_isPrefix.subset (mem_map_of_mem (by simp [hsplit, hw]))

/-- A repository with a merge train and a contributor cap. -/
def cappedContext : AgentActionExecutionContext :=
  { exampleContext with
    installationPermissions := some fun _ => some "write"
    contributorCapMergeRecheck := true
    mergeTrainMode := some .enforce }

def greenMerge : PlannedAgentAction where
  actionClass := .merge
  requiresApproval := false
  reason := "gate satisfied and CI green"

/-- A close for a blacklisted author, and the label that goes with it. -/
def blacklistClose : PlannedAgentAction where
  actionClass := .close
  requiresApproval := false
  reason := "author is blacklisted"
  closeKind := some .blacklist

def blacklistLabel : PlannedAgentAction where
  actionClass := .label
  autonomyClass := some .close
  requiresApproval := false
  reason := "author is blacklisted"
  label := some "slop"
  closeKind := some .blacklist

/-- A merge, and a close with the label that is coupled to it. -/
def coupledActions : List PlannedAgentAction := [greenMerge, blacklistClose, blacklistLabel]

/-- The merge is admitted after its checks, and the label after the close. -/
theorem mutation_admitted_coupled :
    ∃ t r s' mode merge close label seen write reply rest seen' reply' rest',
      (executeAgentMaintenanceActions asciiRuntime {} cappedContext coupledActions).Ends {} t r s' ∧
      Iterations asciiRuntime {} cappedContext coupledActions {} t r mode [merge, close, label] ∧
      merge.events = seen ++ ⟨.mutate write, reply⟩ :: rest ∧
      Admitted asciiRuntime cappedContext mode [] merge.item seen ∧
      label.events = seen' ++ ⟨.mutate (.ensurePullRequestLabel "slop"), reply'⟩ :: rest' ∧
      Admitted asciiRuntime cappedContext mode [merge, close] label.item seen' := by
  have hrun := (executeAgentMaintenanceActions asciiRuntime {} cappedContext
    coupledActions).ends_play (obligingHost true) {}
  have hmode := (resolveMode asciiRuntime {} cappedContext).ends_play (obligingHost true) {}
  have hvisits := visits_playVisits (obligingHost true) (executeAction asciiRuntime {}
    cappedContext .live coupledActions) coupledActions {}
  have hiterations : Iterations asciiRuntime {} cappedContext coupledActions {} _ _ .live _ :=
    ⟨_, [], _, _, hmode, hvisits, by simp, rfl, fun outcomes hreturned =>
      ⟨rfl, (Except.ok.inj hreturned).symm⟩⟩
  have hquiet : ∀ w ∈ (playVisits (obligingHost true)
      (executeAction asciiRuntime {} cappedContext .live
      coupledActions) coupledActions {}).1, Undisturbed w.events := by
    decide +kernel
  have hone : ∀ kind,
      ((playVisits (obligingHost true) (executeAction asciiRuntime {} cappedContext .live
      coupledActions) coupledActions {}).1.filter fun w => w.item.isCloseOf kind).length ≤ 1 := by
    intro kind
    cases kind <;> decide +kernel
  have horderly : Orderly asciiRuntime cappedContext coupledActions
      (executeAgentMaintenanceActions asciiRuntime {} cappedContext coupledActions |>.play
        (obligingHost true) {}).1
      (playVisits (obligingHost true)
        (executeAction asciiRuntime {} cappedContext .live coupledActions)
        coupledActions {}).1 := by
    refine ⟨fun front v back hsplit _ _ _ w hw => ?_, fun front v back hsplit kind _ => ?_,
      fun action haction pin hpin => ?_, fun _ => by decide +kernel⟩
    · exact hquiet w (hsplit ▸ mem_append_left _ hw)
    · have hsub : front.Sublist (front ++ v :: back) := sublist_append_left _ _
      exact ((hsplit ▸ hsub).filter _).length_le.trans (hone kind)
    · obtain rfl : pin = "c0ffee" := by
        simp only [coupledActions, mem_cons, not_mem_nil, or_false] at haction
        rcases haction with rfl | rfl | rfl <;> exact (Option.some.inj hpin).symm
      decide
  have hadmitted :=
    (mutation_admitted asciiRuntime {} cappedContext coupledActions {} _ _ _ hrun).2 .live _
    hiterations horderly
  exact ⟨_, _, _, .live, _, _, _, _, _, _, _, _, _, _, hrun, hiterations, rfl,
    hadmitted [] _ _ rfl [_, _, _, _, _, _, _, _, _] (.mergePullRequest .squash (some "c0ffee"))
      (.ok false) _ rfl,
    rfl, hadmitted [_, _] _ [] rfl [] (.ensurePullRequestLabel "slop") (.ok ()) _ rfl⟩

/-! ## A run with a gate that was passed wrongly -/

/-- The staged label pushes no outcome, so the denied close is looked for in the wrong place and its
label is applied. -/
theorem not_admitted_stray_label :
    ∃ t s' mode visits front v back seen write reply rest,
      (executeAgentMaintenanceActions asciiRuntime {} exampleContext
        [approvalLabel, blacklistClose, blacklistLabel]).Ends {} t
        (.ok [⟨.close, .denied, "pull_requests: write not granted — maintainer must re-consent"⟩,
          ⟨.label, .completed, "author is blacklisted"⟩]) s' ∧
      Iterations asciiRuntime {} exampleContext [approvalLabel, blacklistClose, blacklistLabel] {} t
        (.ok [⟨.close, .denied, "pull_requests: write not granted — maintainer must re-consent"⟩,
          ⟨.label, .completed, "author is blacklisted"⟩]) mode visits ∧
      visits = front ++ v :: back ∧ v.events = seen ++ ⟨.mutate write, reply⟩ :: rest ∧
      ¬Admitted asciiRuntime exampleContext mode front v.item seen := by
  have hrun := (executeAgentMaintenanceActions asciiRuntime {} exampleContext
    [approvalLabel, blacklistClose, blacklistLabel]).ends_play (obligingHost false) {}
  have hmode := (resolveMode asciiRuntime {} exampleContext).ends_play (obligingHost false) {}
  have hvisits := visits_playVisits (obligingHost false) (executeAction asciiRuntime {}
    exampleContext .live [approvalLabel, blacklistClose, blacklistLabel])
    [approvalLabel, blacklistClose, blacklistLabel] {}
  refine ⟨_, _, .live, _, [_, _], _, [], [_, _], .ensurePullRequestLabel "slop", .ok (), _, hrun,
    ⟨_, [], _, _, hmode, hvisits, by simp, rfl, ?_⟩, rfl, rfl, ?_⟩
  · rintro outcomes hreturned
    exact ⟨rfl, (Except.ok.inj hreturned).symm⟩
  · intro hadmitted
    have hclose := hadmitted.coupled .blacklist rfl _ (mem_cons_of_mem _ mem_cons_self) rfl
      _ mem_cons_self
    exact hclose.1 rfl

end LoopOver
