import LoopOver.Executor.Execute

/-!
# The outcomes one iteration pushes

What an iteration of the executor's loop that returns has pushed (`Settled`): outcomes of the class
of its action only, and exactly one of them unless it was disturbed. There are two disturbances.
Staging that finds an existing row pushes nothing, and a record of a completed mutation that cannot
be written sends the `try` to its `catch`, which pushes a second outcome (`Undisturbed`).

`executeAction_settles` is the result for one iteration. It is put together from the exits of the
body, each of which is a run of `audit` next to scripts that push nothing (`Silent`).
-/

namespace LoopOver

open List Script

/-! ## Disturbances -/

/-- No staging found an existing row, and no record of a completed action failed to be written. -/
structure Undisturbed (t : List HostEvent) : Prop where
  staged : ∀ row, ⟨.createPendingAgentActionIfAbsent row, .ok false⟩ ∉ t
  recorded : ∀ audit e, audit.outcome = .completed →
    ⟨.recordAuditEvent (.agentAction audit), .error e⟩ ∉ t

/-- Whether the event is one of the two disturbances. -/
def Event.disturbs : HostEvent → Bool
  | ⟨.createPendingAgentActionIfAbsent _, .ok created⟩ => !created
  | ⟨.recordAuditEvent (.agentAction audit), .error _⟩ => audit.outcome == .completed
  | _ => false

theorem undisturbed_iff {t : List HostEvent} :
    Undisturbed t ↔ ∀ e ∈ t, e.disturbs = false := by
  constructor
  · intro h e he
    unfold Event.disturbs
    split
    · next row created =>
      cases created
      · exact absurd he (h.staged row)
      · rfl
    · next audit error =>
      cases hc : audit.outcome with
      | completed => exact absurd he (h.recorded audit error hc)
      | _ => rfl
    · rfl
  · intro h
    refine ⟨fun row hmem => ?_, fun audit e hc hmem => ?_⟩
    · exact absurd (h _ hmem) (by simp [Event.disturbs])
    · exact absurd (h _ hmem) (by simp [Event.disturbs, hc])

instance (t : List HostEvent) : Decidable (Undisturbed t) :=
  decidable_of_iff _ undisturbed_iff.symm

theorem undisturbed_append {t₁ t₂ : List HostEvent} :
    Undisturbed (t₁ ++ t₂) ↔ Undisturbed t₁ ∧ Undisturbed t₂ := by
  simp only [undisturbed_iff, forall_mem_append]

theorem undisturbed_cons {e : HostEvent} {t : List HostEvent} :
    Undisturbed (e :: t) ↔ Undisturbed [e] ∧ Undisturbed t := by
  rw [← singleton_append, undisturbed_append]

/-- A call that neither stages the action, nor records it, nor gives up the cap lock. -/
def HostCall.steady : HostCall → Bool
  | createPendingAgentActionIfAbsent _ => false
  | releaseContributorCapLock _ _ => false
  | recordAuditEvent (.agentAction _) => false
  | _ => true

theorem HostCall.steady_of_quiet {call : HostCall} (h : call.quiet = true) :
    call.steady = true := by
  cases call with
  | createPendingAgentActionIfAbsent => cases h
  | releaseContributorCapLock => cases h
  | recordAuditEvent event =>
    cases event with
    | agentAction => cases h
    | _ => rfl
  | _ => rfl

theorem undisturbed_of_steady {t : List HostEvent} (h : ∀ e ∈ t, e.call.steady = true) :
    Undisturbed t where
  staged row hmem := by simpa [HostCall.steady] using h _ hmem
  recorded audit e _ hmem := by simpa [HostCall.steady] using h _ hmem

/-! ## Scripts that push nothing -/

/-- The same outcomes are pushed. -/
def SameOutcomes (s s' : ExecutorState) : Prop := s'.outcomes = s.outcomes

instance : Std.Refl SameOutcomes := ⟨fun _ => rfl⟩

instance : IsTrans ExecutorState SameOutcomes := ⟨fun _ _ _ h₁ h₂ => Eq.trans h₂ h₁⟩

/-- A script that neither stages nor records nor pushes, and keeps the cap lock. -/
abbrev Silent {α : Type} (p : Exec α) : Prop :=
  Script.Respects (fun call => call.steady = true) SameOutcomes p

theorem Quiet.silent {α : Type} {p : Exec α} (h : Quiet p) : Silent p :=
  h.mono (fun _ => HostCall.steady_of_quiet) fun s s' h => by rw [h]; rfl

section Silent

variable {rt : Runtime} {env : AgentEnv} {ctx : AgentActionExecutionContext}

theorem githubWrite_silent (write : GitHubWrite) : Silent (githubWrite write) :=
  respects_bind (respects_ask rfl) fun _ => respects_ofExcept _

theorem performLabel_silent (action : PlannedAgentAction) : Silent (performLabel ctx action) := by
  refine respects_ite (fun _ => ?_) fun _ => ?_
  · refine respects_bind (githubWrite_silent _) fun _ => ?_
    exact respects_runWhen fun _ => respects_tell rfl
  · refine respects_bind (githubWrite_silent _) fun _ => ?_
    split
    · exact respects_pure _
    · exact respects_runWhen fun _ => respects_tell rfl

theorem writeComment_silent (comment : Option String) (write : String → GitHubWrite) :
    Silent (writeComment comment write) := by
  unfold writeComment
  split
  · exact respects_pure _
  · exact respects_bind (githubWrite_silent _) fun _ => respects_pure _

theorem performAction_silent (action : PlannedAgentAction) : Silent (performAction ctx action) := by
  have hwrite : ∀ (write : GitHubWrite) (result : Option String),
      Silent (do let _ ← githubWrite write; pure result) := fun write result =>
    respects_bind (githubWrite_silent write) fun _ => respects_pure result
  unfold performAction
  split
  · refine respects_bind (performLabel_silent action) fun _ => ?_
    exact respects_bind (writeComment_silent _ _) fun _ => respects_pure _
  · exact hwrite _ _
  · exact respects_ite (fun _ => hwrite _ _) fun _ => hwrite _ _
  · refine respects_bind (githubWrite_silent _) fun suppressed => ?_
    refine respects_ite (fun _ => respects_pure _) fun _ => ?_
    exact respects_bind (respects_ask rfl) fun _ => respects_pure _
  · refine respects_bind (writeComment_silent _ _) fun _ => ?_
    refine respects_bind (githubWrite_silent _) fun _ => ?_
    exact respects_bind (respects_ask rfl) fun _ => respects_pure _
  · exact hwrite _ _
  · split
    · exact respects_pure _
    · refine respects_bind (githubWrite_silent _) fun applied => ?_
      exact respects_ite (fun _ => respects_pure _) fun _ => hwrite _ _
  · exact respects_pure _
  · exact respects_pure _

theorem recordCiCancelOutcome_silent (kind : CloseKind) (headSha : String) :
    Silent (recordCiCancelOutcome kind headSha) := by
  refine respects_bind (respects_ask rfl) fun outcome => ?_
  split
  · exact respects_tell rfl
  · exact respects_tell rfl
  · exact respects_tell rfl
  · exact respects_pure _

theorem afterCompletion_silent (action : PlannedAgentAction) :
    Silent (afterCompletion ctx action) := by
  refine respects_bind
    (respects_runWhen fun _ => respects_tell rfl) fun _ => ?_
  refine respects_bind ?_ fun _ => respects_bind ?_ fun _ => ?_
  · unfold cancelCiRuns
    split
    · exact recordCiCancelOutcome_silent _ _
    · exact respects_pure _
  · unfold rememberApproval
    split
    · exact respects_pure _
    · exact respects_runWhen fun _ => respects_tell rfl
  · unfold notifyAction
    split
    · exact respects_pure _
    · refine respects_bind (respects_ask rfl) fun _ => ?_
      exact respects_bind (respects_tell rfl) fun _ => respects_tell rfl

theorem handleMergeFailure_silent (headSha : String) (error : HostError) :
    Silent (handleMergeFailure rt ctx headSha error) := by
  refine respects_bind ?_ fun held => ?_
  · refine respects_ite (fun _ => respects_pure _) fun _ => ?_
    refine respects_bind (respects_ask rfl) fun _ => ?_
    exact respects_bind (respects_ofExcept _) fun _ => respects_pure _
  · split
    · exact respects_pure _
    · refine respects_bind (respects_askWhen rfl) fun _ => ?_
      refine respects_bind (respects_ask rfl) fun _ => ?_
      exact respects_bind (respects_ofExcept _) fun _ => respects_tell rfl

theorem refreshHealthAfterFailure_silent (error : HostError) :
    Silent (refreshHealthAfterFailure rt ctx error) := by
  refine respects_bind (respects_ask rfl) fun _ => ?_
  refine respects_bind respects_get fun _ => ?_
  refine respects_ite (fun _ => ?_) fun _ => respects_pure _
  exact respects_bind (respects_modify fun _ => rfl) fun _ => respects_tell rfl

/-- What follows the record of a failed mutation pushes nothing more. -/
theorem afterFailure_silent (action : PlannedAgentAction) (error : HostError) :
    Silent (do
      afterFailedMerge rt ctx action error
      runWhen (prWriteClasses.contains action.actionClass)
        (refreshHealthAfterFailure rt ctx error)) := by
  refine respects_bind ?_ fun _ => ?_
  · unfold afterFailedMerge
    split
    · exact handleMergeFailure_silent _ _
    · exact respects_pure _
  · exact respects_runWhen fun _ => refreshHealthAfterFailure_silent error

end Silent

/-! ## Scripts that never throw -/

variable {r : Except HostError Unit}

/-- The follow-up of a completed action is best effort: no reply makes it throw. -/
theorem afterCompletion_ok {ctx : AgentActionExecutionContext} {action : PlannedAgentAction}
    {s s' : ExecutorState} {t : List HostEvent}
    (h : (afterCompletion ctx action).Ends s t r s') : r = .ok () := by
  have htell : ∀ call, Script.NeverThrows (Script.tell call : Exec Unit) := fun call =>
    neverThrows_bind (neverThrows_ask call) fun _ => neverThrows_pure _
  have hthrows : Script.NeverThrows (afterCompletion ctx action) := by
    refine neverThrows_bind (neverThrows_runWhen (htell _)) fun _ => ?_
    refine neverThrows_bind ?_ fun _ => neverThrows_bind ?_ fun _ => ?_
    · unfold cancelCiRuns
      split
      · refine neverThrows_bind (neverThrows_ask _) fun outcome => ?_
        split
        · exact htell _
        · exact htell _
        · exact htell _
        · exact neverThrows_pure _
      · exact neverThrows_pure _
    · unfold rememberApproval
      split
      · exact neverThrows_pure _
      · exact neverThrows_runWhen (htell _)
    · unfold notifyAction
      split
      · exact neverThrows_pure _
      · refine neverThrows_bind (neverThrows_ask _) fun _ => ?_
        exact neverThrows_bind (htell _) fun _ => htell _
  cases r with
  | ok _ => rfl
  | error e => exact absurd h (hthrows s t e s')

/-! ## What an iteration pushed -/

/-- A run that returned has pushed these outcomes for the action. -/
structure Settled (action : PlannedAgentAction) (s : ExecutorState) (t : List HostEvent)
    (s' : ExecutorState) (pushed : List AgentActionOutcome) : Prop where
  outcomes : s'.outcomes = s.outcomes ++ pushed
  ofClass : ∀ o ∈ pushed, o.actionClass = action.actionClass
  /-- Exactly one, unless the run was disturbed. -/
  single : Undisturbed t ↔ ∃ o, pushed = [o]
  /-- A close reported as completed is one that GitHub accepted. -/
  closed : ∀ o ∈ pushed, o.outcome = .completed → action.actionClass = .close →
    ⟨.mutate .closePullRequest, .ok ()⟩ ∈ t

namespace Settled

variable {action : PlannedAgentAction} {s s₁ s' : ExecutorState} {t front back : List HostEvent}
  {pushed : List AgentActionOutcome}

theorem prepend (h : Settled action s₁ t s' pushed) (hsame : SameOutcomes s s₁)
    (hfront : Undisturbed front) : Settled action s (front ++ t) s' pushed where
  outcomes := by rw [h.outcomes, show s₁.outcomes = s.outcomes from hsame]
  ofClass := h.ofClass
  single := by rw [undisturbed_append, and_iff_right hfront, h.single]
  closed o ho hc hclass := mem_append_right _ (h.closed o ho hc hclass)

theorem append (h : Settled action s t s₁ pushed) (hsame : SameOutcomes s₁ s')
    (hback : Undisturbed back) : Settled action s (t ++ back) s' pushed where
  outcomes := by rw [show s'.outcomes = s₁.outcomes from hsame, h.outcomes]
  ofClass := h.ofClass
  single := by rw [undisturbed_append, and_iff_left hback, h.single]
  closed o ho hc hclass := mem_append_left _ (h.closed o ho hc hclass)

end Settled

/-- Every returning run of the script settles the action. -/
def Settles (action : PlannedAgentAction) (p : Exec Unit) : Prop :=
  ∀ s t s', p.Ends s t (.ok ()) s' → ∃ pushed, Settled action s t s' pushed

variable {rt : Runtime} {env : AgentEnv} {ctx : AgentActionExecutionContext}
  {mode : AgentActionMode} {action : PlannedAgentAction}

theorem Settles.after_silent {α : Type} {p : Exec α} {f : α → Exec Unit} (hp : Silent p)
    (hf : ∀ value, Settles action (f value)) : Settles action (p >>= f) := by
  intro s t s' h
  obtain ⟨front, value, s₁, back, h₁, h₂, rfl⟩ := ends_bind_ok.1 h
  obtain ⟨hsteady, hsame⟩ := hp s front _ s₁ h₁
  obtain ⟨pushed, hsettled⟩ := hf value s₁ back s' h₂
  exact ⟨pushed, hsettled.prepend hsame (undisturbed_of_steady hsteady)⟩

theorem Settles.ite {c : Prop} [Decidable c] {p q : Exec Unit} (hp : c → Settles action p)
    (hq : ¬c → Settles action q) : Settles action (if c then p else q) := by
  by_cases h : c
  · simpa [h] using hp h
  · simpa [h] using hq h

/-! ### Recording -/

variable {outcome : ActionOutcome} {detail : String}

/-- The outcome is pushed before its record is written, so it stays when the write fails. -/
theorem ends_audit {s s' : ExecutorState} {t : List HostEvent} :
    (audit ctx mode action outcome detail).Ends s t r s' ↔
      t = [⟨.recordAuditEvent (.agentAction
        (actionAudit ctx mode action outcome (boundAuditReason detail))), r⟩] ∧
      s' = { s with
        outcomes := s.outcomes ++ [⟨action.actionClass, outcome, boundAuditReason detail⟩] } := by
  constructor
  · intro h
    rcases ends_bind.1 h with ⟨e, hpush, -⟩ | ⟨front, _, s₁, back, hpush, hwrite, rfl⟩
    · obtain ⟨-, hr, -⟩ := ends_modify.1 hpush
      cases hr
    · obtain ⟨rfl, -, rfl⟩ := ends_modify.1 hpush
      obtain ⟨reply, back, rfl, hdone⟩ := ends_ask_bind.1 hwrite
      obtain ⟨rfl, rfl, rfl⟩ := ends_ofExcept.1 hdone
      exact ⟨rfl, rfl⟩
  · rintro ⟨rfl, rfl⟩
    refine ends_bind.2 (Or.inr ⟨[], (), _, _, ends_modify.2 ⟨rfl, rfl, rfl⟩, ?_, rfl⟩)
    exact ends_ask_bind.2 ⟨r, [], rfl, ends_ofExcept.2 ⟨rfl, rfl, rfl⟩⟩

/-- A record that was written settles an action that did not complete. -/
theorem audit_settled {s s' : ExecutorState} {t : List HostEvent} (h : outcome ≠ .completed)
    (hends : (audit ctx mode action outcome detail).Ends s t (.ok ()) s') :
    Settled action s t s' [⟨action.actionClass, outcome, boundAuditReason detail⟩] := by
  obtain ⟨rfl, rfl⟩ := ends_audit.1 hends
  refine ⟨rfl, by simp, ?_, ?_⟩
  · refine iff_of_true ⟨fun row hmem => ?_, fun audit e _ hmem => ?_⟩ ⟨_, rfl⟩
    · simp at hmem
    · simp at hmem
  · intro o ho hc
    obtain rfl := mem_singleton.1 ho
    exact absurd hc h

theorem audit_settles (h : outcome ≠ .completed) :
    Settles action (audit ctx mode action outcome detail) :=
  fun _ _ _ hends => ⟨_, audit_settled h hends⟩

theorem stage_settles : Settles action (stage ctx mode action) := by
  intro s t s' h
  obtain ⟨front, staged, s₁, back, hstage, haudit, rfl⟩ := ends_bind_ok.1 h
  obtain ⟨reply, t₁, rfl, h₁⟩ := ends_ask_bind.1 hstage
  rcases ends_ofExcept_bind.1 h₁ with ⟨e, -, -, hr, -⟩ | ⟨created, rfl, h₂⟩
  · cases hr
  cases created with
  | false =>
    -- an existing row: nothing is pushed
    obtain ⟨rfl, hstaged, rfl⟩ := ends_pure.1 h₂
    obtain rfl := Except.ok.inj hstaged
    obtain ⟨rfl, -, rfl⟩ := ends_pure.1 haudit
    refine ⟨[], by simp, by simp, ?_, by simp⟩
    exact iff_of_false (fun hund => hund.staged _ (by simp; rfl)) (by simp)
  | true =>
    -- a fresh row: the maintainer is notified and the record is written
    have hnotify : Silent (do
        let delivery ← ofExcept
          (← ask (.insertNotificationDeliveryIfAbsent (pendingActionDelivery ctx action)))
        let _ ← askWhen (delivery.created && delivery.pending)
          (HostCall.sendNotifyDeliver delivery.id)
        pure true) := by
      refine respects_bind (respects_ask rfl) fun _ => ?_
      refine respects_bind (respects_ofExcept _) fun _ => ?_
      exact respects_bind (respects_askWhen rfl) fun _ => respects_pure _
    obtain ⟨hsteady, hsame⟩ := hnotify s t₁ _ s₁ h₂
    have hfront : Undisturbed (⟨.createPendingAgentActionIfAbsent
        ⟨action.actionClass, resolveAutonomy ctx.autonomy action.governingClass,
          actionParams action, action.reason⟩, .ok true⟩ :: t₁) := by
      refine undisturbed_cons.2 ⟨⟨fun row hmem => ?_, fun audit e _ hmem => ?_⟩,
        undisturbed_of_steady hsteady⟩
      · simp at hmem
      · simp at hmem
    have hstaged : staged = true := by
      obtain ⟨_, _, _, _, -, h₃, -⟩ := ends_bind_ok.1 h₂
      obtain ⟨_, _, _, _, -, h₄, -⟩ := ends_bind_ok.1 h₃
      obtain ⟨_, _, _, _, -, h₅, -⟩ := ends_bind_ok.1 h₄
      obtain ⟨-, hr, -⟩ := ends_pure.1 h₅
      exact Except.ok.inj hr
    rw [hstaged] at haudit
    exact ⟨_, (audit_settled (by simp) haudit).prepend hsame hfront⟩

theorem denyWritePermission_settles : Settles action (denyWritePermission ctx mode action) := by
  refine Settles.after_silent (respects_ask rfl) fun nowMs => ?_
  refine Settles.after_silent (respects_modify fun _ => rfl) fun _ => ?_
  intro s t s' h
  obtain ⟨_, s₁, _, t, hget, hrest, rfl⟩ := ends_bind_ok.1 h
  obtain ⟨rfl, hs, rfl⟩ := ends_get.1 hget
  obtain rfl := Except.ok.inj hs
  rcases ends_ite.1 hrest with ⟨-, hpush⟩ | ⟨-, hdeny⟩
  · obtain ⟨rfl, -, rfl⟩ := ends_modify.1 hpush
    refine ⟨[_], rfl, by simp, ?_, by simp⟩
    exact iff_of_true (undisturbed_of_steady (by simp)) ⟨_, rfl⟩
  · obtain ⟨front, _, s₂, back, haudit, hmark, rfl⟩ := ends_bind_ok.1 hdeny
    obtain ⟨auditedMs, back', rfl, hset⟩ := ends_ask_bind.1 hmark
    obtain ⟨rfl, -, rfl⟩ := ends_modify.1 hset
    refine ⟨_, (audit_settled (by simp) haudit).append rfl (undisturbed_of_steady ?_)⟩
    simp [HostCall.steady]

/-! ### Mutating -/

/-- A close that went through was accepted by GitHub. -/
theorem performAction_closed {s s' : ExecutorState} {t : List HostEvent} {detail : Option String}
    (hclass : action.actionClass = .close)
    (h : (performAction ctx action).Ends s t (.ok detail) s') :
    ⟨.mutate .closePullRequest, .ok ()⟩ ∈ t := by
  simp only [performAction, hclass] at h
  obtain ⟨front, _, s₁, back, -, h₁, rfl⟩ := ends_bind_ok.1 h
  obtain ⟨front', _, s₂, back', hclose, -, rfl⟩ := ends_bind_ok.1 h₁
  obtain ⟨reply, rest, rfl, hreply⟩ := ends_ask_bind.1 hclose
  obtain ⟨rfl, rfl, -⟩ := ends_ofExcept.1 hreply
  simp

/-- The `catch` pushes one outcome. -/
theorem recordFailure_settled {error : HostError} {s s' : ExecutorState} {t : List HostEvent}
    (h : (recordFailure rt ctx mode action error).Ends s t (.ok ()) s') :
    ∃ o, Settled action s t s' [o] := by
  obtain ⟨front, _, s₁, back, haudit, hafter, rfl⟩ := ends_bind_ok.1 h
  obtain ⟨hsteady, hsame⟩ := afterFailure_silent action error s₁ back _ s' hafter
  exact ⟨_, (audit_settled (by simp) haudit).append hsame (undisturbed_of_steady hsteady)⟩

/-- The three ways the `try` ends: everything was recorded, the mutation threw before anything was
pushed, or the record of the completed mutation could not be written. -/
theorem mutateAndRecord_cases {s s' : ExecutorState} {t : List HostEvent}
    (h : (mutateAndRecord ctx mode action).Ends s t r s') :
    (r = .ok () ∧ ∃ pushed, Settled action s t s' pushed) ∨
    ((∃ e, r = .error e) ∧ SameOutcomes s s' ∧ Undisturbed t) ∨
    ((∃ e, r = .error e) ∧ ¬Undisturbed t ∧
      (action.actionClass = .close → ⟨.mutate .closePullRequest, .ok ()⟩ ∈ t) ∧
      ∃ o, s'.outcomes = s.outcomes ++ [o] ∧ o.actionClass = action.actionClass) := by
  rcases ends_bind.1 h with ⟨e, hthrow, rfl⟩ | ⟨front, detail, s₁, t₁, hmutate, h₁, rfl⟩
  · obtain ⟨hsteady, hsame⟩ := performAction_silent action s t _ s' hthrow
    exact Or.inr (Or.inl ⟨⟨e, rfl⟩, hsame, undisturbed_of_steady hsteady⟩)
  obtain ⟨hsteady, hsame⟩ := performAction_silent action s front _ s₁ hmutate
  rcases ends_bind.1 h₁ with ⟨e, haudit, rfl⟩ | ⟨record, _, s₂, back, haudit, h₂, rfl⟩
  · obtain ⟨rfl, rfl⟩ := ends_audit.1 haudit
    refine Or.inr (Or.inr ⟨⟨e, rfl⟩, fun hund => ?_, fun hclass => ?_, ?_⟩)
    · exact hund.recorded _ e rfl (mem_append_right _ mem_cons_self)
    · exact mem_append_left _ (performAction_closed hclass hmutate)
    · exact ⟨_, by rw [show s₁.outcomes = s.outcomes from hsame], rfl⟩
  · obtain rfl := afterCompletion_ok h₂
    obtain ⟨hsteady₂, hsame₂⟩ := afterCompletion_silent action s₂ back _ s' h₂
    obtain ⟨rfl, rfl⟩ := ends_audit.1 haudit
    refine Or.inl ⟨rfl, [⟨action.actionClass, .completed,
      boundAuditReason (detail.getD action.reason)⟩], ?_, by simp, ?_, ?_⟩
    · rw [show s'.outcomes = _ from hsame₂, show s₁.outcomes = s.outcomes from hsame]
    · refine iff_of_true ?_ ⟨_, rfl⟩
      refine undisturbed_append.2 ⟨undisturbed_of_steady hsteady, undisturbed_append.2
        ⟨⟨fun row hmem => ?_, fun audit e _ hmem => ?_⟩, undisturbed_of_steady hsteady₂⟩⟩
      · simp at hmem
      · simp at hmem
    · intro _ _ _ hclass
      exact mem_append_left _ (performAction_closed hclass hmutate)

/-- The `catch` of a failed record pushes a second outcome. -/
theorem performMutation_settles : Settles action (performMutation rt ctx mode action) := by
  intro s t s' h
  obtain ⟨front, r, s₁, back, htry, hcatch, rfl⟩ := ends_bind_ok.1 h
  obtain ⟨r₁, hbody, hr⟩ := ends_attempt.1 htry
  obtain rfl := Except.ok.inj hr
  rcases mutateAndRecord_cases hbody with
    ⟨rfl, pushed, hsettled⟩ | ⟨⟨e, rfl⟩, hsame, hund⟩ | ⟨⟨e, rfl⟩, hdist, hclosed, o, hpush, hclass⟩
  · obtain ⟨rfl, -, rfl⟩ := ends_pure.1 hcatch
    exact ⟨pushed, hsettled.append rfl (undisturbed_of_steady (by simp))⟩
  · obtain ⟨o, hsettled⟩ := recordFailure_settled hcatch
    exact ⟨[o], hsettled.prepend hsame hund⟩
  · obtain ⟨o', hsettled⟩ := recordFailure_settled hcatch
    refine ⟨[o, o'], ?_, ?_, ?_, ?_⟩
    · rw [hsettled.outcomes, hpush, append_assoc, singleton_append]
    · intro o₁ ho₁
      rcases mem_cons.1 ho₁ with rfl | ho₁
      · exact hclass
      · exact hsettled.ofClass o₁ ho₁
    · exact iff_of_false (fun hund => hdist (undisturbed_append.1 hund).1) (by simp)
    · intro _ _ _ hcl
      exact mem_append_left _ (hclosed hcl)

theorem performUnderCapLock_settles : Settles action (performUnderCapLock rt ctx mode action) := by
  refine Settles.after_silent (respects_ask rfl) fun reply => ?_
  refine Settles.after_silent (respects_ofExcept _) fun claim => ?_
  refine Settles.ite (fun _ => ?_) fun _ => audit_settles (by simp)
  intro s t s' h
  obtain ⟨front, r₁, s₁, back, r₂, hbody, hrelease, rfl, hr⟩ := ends_andFinally.1 h
  have hok : r₁ = .ok () := by
    cases r₂ with
    | ok _ => exact hr.symm
    | error e => cases hr
  rw [hok] at hbody
  have hsettles : Settles action (do
      let stillUnderCap ← ofExcept (← ask .contributorCapMergeRecheck)
      if stillUnderCap then performMutation rt ctx mode action
      else audit ctx mode action .denied ("contributor cap re-check confirmed " ++
        ctx.authorLogin.getD "" ++ " is now over cap on " ++ ctx.repoFullName ++
        " — action not executed")) := by
    refine Settles.after_silent (respects_ask rfl) fun reply => ?_
    refine Settles.after_silent (respects_ofExcept _) fun stillUnderCap => ?_
    exact Settles.ite (fun _ => performMutation_settles) fun _ => audit_settles (by simp)
  obtain ⟨pushed, hsettled⟩ := hsettles s front s₁ hbody
  obtain ⟨reply, rest, rfl, hreply⟩ := ends_ask_bind.1 hrelease
  obtain ⟨rfl, -, rfl⟩ := ends_ofExcept.1 hreply
  refine ⟨pushed, hsettled.append rfl (undisturbed_iff.2 fun e he => ?_)⟩
  obtain rfl := mem_singleton.1 he
  rfl

/-! ### One iteration -/

/-- **One iteration pushes exactly one outcome of its action's class, unless it is disturbed.** -/
theorem executeAction_settles (planned : List PlannedAgentAction) :
    Settles action (executeAction rt env ctx mode planned action) := by
  refine Settles.ite (fun _ => audit_settles (by simp)) fun _ => ?_
  refine Settles.ite (fun _ => audit_settles (by simp)) fun _ => ?_
  refine Settles.ite (fun _ => audit_settles (by simp)) fun _ => ?_
  refine Settles.ite (fun _ => stage_settles) fun _ => ?_
  refine Settles.ite (fun _ => denyWritePermission_settles) fun _ => ?_
  refine Settles.after_silent respects_get fun s => ?_
  refine Settles.after_silent (liveGates_quiet action _).silent fun denial => ?_
  cases denial with
  | some reason => exact audit_settles (by simp)
  | none =>
    exact Settles.ite (fun _ => performUnderCapLock_settles) fun _ => performMutation_settles

end LoopOver
