import LoopOver.Approval.Course

/-!
# A staged action is decided once

Any number of accepts, rejects and sweeps run at the same time on one row of the approval queue. The
claim of the row decides which of them goes on: it finds the row pending for one call only.

* `RowStep` is what one call does to the row, and `Race` how a run stands: nobody has claimed the
  row, and it is as it was staged; or one call has, and the row is what the calls of the winner make
  of it.
* `DecidedOnce` is what holds of every run, and **`staged_action_decided_once`** is the result: the
  executor runs at most once, for the accept that won the claim and at the head that was reviewed,
  and the calls that lost the claim leave the row alone.
* `losing_sweep_reports_counts` is a sweep that loses: it has no answer of its own for the row.
-/

variable {id : String} {events : List ApprovalEvent}

namespace LoopOver

open List
open AgentPendingActionRecord

/-! ## One call -/

/-- The status that a claim has won. -/
def RowEffect.claim? : RowEffect → Option AgentPendingActionStatus
  | .claimed status => some status
  | _ => none

/-- What the executor was handed. -/
def RowEffect.execution? : RowEffect → Option Execution
  | .executed execution => some execution
  | _ => none

theorem RowEffect.claim?_eq_some {effect : RowEffect} {status : AgentPendingActionStatus} :
    effect.claim? = some status ↔ effect = .claimed status := by
  cases effect <;> simp [RowEffect.claim?]

theorem RowEffect.execution?_eq_some {effect : RowEffect} {execution : Execution} :
    effect.execution? = some execution ↔ effect = .executed execution := by
  cases effect <;> simp [RowEffect.execution?]

/-- The claims of the row that were won in a run, with their winners. -/
def claims {ι : Type} (id : String) (trace : List (ι × ApprovalEvent)) :
    List (ι × AgentPendingActionStatus) :=
  readings (fun e => (rowEffect id e).bind RowEffect.claim?) trace

/-- The runs of the executor, with the calls that made them. -/
def executions {ι : Type} (id : String) (trace : List (ι × ApprovalEvent)) : List (ι × Execution) :=
  readings (fun e => (rowEffect id e).bind RowEffect.execution?) trace

/-- What a call with the given effect does to the row. -/
inductive RowStep (row : AgentPendingActionRecord) :
    Option RowEffect → AgentPendingActionRecord → Prop
  | claimed {status : AgentPendingActionStatus} {decidedBy decidedAt updatedAt : String}
      (hpending : row.status = .pending) :
      RowStep row (some (.claimed status)) (row.updated status decidedBy decidedAt updatedAt)
  | set {status : AgentPendingActionStatus} {decidedBy decidedAt updatedAt : String} :
      RowStep row (some (.set status)) (row.updated status decidedBy decidedAt updatedAt)
  | kept {effect : Option RowEffect} (hclaim : effect.bind RowEffect.claim? = none) :
      RowStep row effect row

theorem RowStep.id_eq {row row' : AgentPendingActionRecord} {effect : Option RowEffect}
    (h : RowStep row effect row') : row'.id = row.id := by
  cases h <;> rfl

theorem rowStep_of_answers {row row' : AgentPendingActionRecord} {e : ApprovalEvent}
    (h : row.answers e.call e.reply row') : RowStep row (rowEffect row.id e) row' := by
  obtain ⟨call, reply⟩ := e
  cases call with
  | claimPendingAgentActionDecision id status decidedBy =>
    match reply, h with
    | .error _, h =>
      obtain rfl : row' = row := h
      exact .kept rfl
    | .ok false, h =>
      obtain rfl : row' = row := h.1
      exact .kept rfl
    | .ok true, h =>
      by_cases hid : id = row.id
      · obtain ⟨hpending, decidedAt, updatedAt, rfl⟩ := (if_pos hid).mp h
        have heffect : rowEffect row.id ⟨.claimPendingAgentActionDecision id status decidedBy,
          .ok true⟩ =
          some (.claimed status) := if_pos hid
        rw [heffect]
        exact .claimed hpending
      · obtain rfl : row' = row := (if_neg hid).mp h
        have heffect : rowEffect row'.id ⟨.claimPendingAgentActionDecision id status decidedBy,
          .ok true⟩ =
          none := if_neg hid
        rw [heffect]
        exact .kept rfl
  | setPendingAgentActionStatus id status decidedBy =>
    match reply, h with
    | .error _, h =>
      obtain rfl : row' = row := h
      exact .kept rfl
    | .ok _, h =>
      by_cases hid : id = row.id
      · obtain ⟨decidedAt, updatedAt, rfl⟩ := (if_pos hid).mp h
        have heffect : rowEffect row.id ⟨.setPendingAgentActionStatus id status decidedBy, .ok ()⟩ =
          some (.set status) := if_pos hid
        rw [heffect]
        exact .set
      · obtain rfl : row' = row := (if_neg hid).mp h
        have heffect : rowEffect row'.id ⟨.setPendingAgentActionStatus id status decidedBy,
          .ok ()⟩ =
          none := if_neg hid
        rw [heffect]
        exact .kept rfl
  | getPendingAgentAction | listPendingAgentActions =>
    obtain rfl : row' = row := h.1
    exact .kept rfl
  | getPullRequest =>
    obtain rfl : row' = row := h
    refine .kept ?_
    cases reply <;> rfl
  | _ =>
    obtain rfl : row' = row := h
    exact .kept rfl

/-! ## The course of one call -/

section Course

variable {effects front : List RowEffect} {course : List RowEffect} {task : ApprovalTask}
  {status : AgentPendingActionStatus} {execution : Execution}

theorem AcceptCourse.head (h : AcceptCourse course) :
    ∃ rest, course = .claimed .accepted :: rest := by
  cases h <;> exact ⟨_, rfl⟩

theorem AcceptCourse.claimed_eq (h : AcceptCourse course) (hmem : .claimed status ∈ course) :
    status = .accepted := by
  cases h <;> simpa using hmem

theorem AcceptCourse.set_ne_pending (h : AcceptCourse course) (hmem : .set status ∈ course) :
    status ≠ .pending := by
  cases h with
  | unread => simp_all
  | superseded => simp_all
  | executed _ hstatus => simp_all

theorem AcceptCourse.executed_once (h : AcceptCourse course) :
    (course.filterMap RowEffect.execution?).length ≤ 1 := by
  cases h with
  | unread => exact Nat.zero_le 1
  | superseded => exact Nat.zero_le 1
  | executed => exact Nat.le_refl 1

/-- Before the executor runs the pull request has been read, and what is executed is pinned to
it. -/
theorem AcceptCourse.executed_before (h : AcceptCourse course) (hinitial : effects <+: course)
    (hmem : .executed execution ∈ effects) :
    .claimed .accepted ∈ effects ∧ ∃ pr,
      .read execution.ctx.repoFullName execution.ctx.pullNumber pr ∈ effects ∧
        execution.PinnedTo pr := by
  have hwhole := hinitial.subset hmem
  cases h with
  | unread => simp at hwhole
  | superseded => simp at hwhole
  | @executed pr ran status hpinned hstatus =>
    obtain rfl : execution = ran := by simpa using hwhole
    -- the claim and the read come first in the course, so an effect after them has both before it
    have hfirst : [RowEffect.claimed .accepted,
        .read execution.ctx.repoFullName execution.ctx.pullNumber pr] <+:
        [.claimed .accepted, .read execution.ctx.repoFullName execution.ctx.pullNumber pr,
          .executed execution, .set status] :=
      prefix_append _ [RowEffect.executed execution, RowEffect.set status]
    rcases prefix_or_prefix_of_prefix hfirst hinitial with hbefore | hshort
    · exact ⟨hbefore.subset (by simp), pr, hbefore.subset (by simp), hpinned⟩
    · have hexecuted := hshort.subset hmem
      simp at hexecuted

/-- A claim decides the row. -/
theorem TaskCourse.claimed_ne_pending (h : TaskCourse effects task)
    (hmem : .claimed status ∈ effects) :
    status ≠ .pending := by
  match task, h with
  | .decide .accept _, ⟨course, hcourse, hinitial⟩ =>
    rw [hcourse.claimed_eq (hinitial.subset hmem)]
    decide
  | .decide .reject _, hinitial =>
    have hclaimed : .claimed status ∈ [RowEffect.claimed .rejected] :=
      List.IsPrefix.subset hinitial hmem
    obtain rfl : status = .rejected := by simpa using hclaimed
    decide
  | .sweep _, hall =>
    obtain rfl : status = .expired := by simpa using hall _ hmem
    decide

/-- A call sets the status only after it has won the claim. -/
theorem TaskCourse.claimed_before_set (h : TaskCourse (front ++ [.set status]) task) :
    .claimed .accepted ∈ front ∧ status ≠ .pending := by
  match task, h with
  | .decide .accept _, ⟨course, hcourse, hinitial⟩ =>
    refine ⟨?_, hcourse.set_ne_pending (hinitial.subset (by simp))⟩
    obtain ⟨rest, rfl⟩ := hcourse.head
    cases front with
    | nil => exact absurd (cons_prefix_cons.1 hinitial).1 (by simp)
    | cons effect front =>
      obtain ⟨rfl, -⟩ := cons_prefix_cons.1 hinitial
      exact mem_cons_self
  | .decide .reject _, hinitial =>
    have hset : .set status ∈ [RowEffect.claimed .rejected] :=
      List.IsPrefix.subset hinitial (by simp)
    simp at hset
  | .sweep _, hall =>
    have hset : RowEffect.set status = .claimed .expired := hall _ (by simp)
    cases hset

/-- The executor runs only in a call that has won the claim with an accept, after it has read the
pull request that the action is pinned to. -/
theorem TaskCourse.executed_pinned (h : TaskCourse effects task)
    (hmem : .executed execution ∈ effects) :
    .claimed .accepted ∈ effects ∧ ∃ pr,
      .read execution.ctx.repoFullName execution.ctx.pullNumber pr ∈ effects ∧
        execution.PinnedTo pr := by
  match task, h with
  | .decide .accept _, ⟨course, hcourse, hinitial⟩ => exact hcourse.executed_before hinitial hmem
  | .decide .reject _, hinitial =>
    have hexecuted : .executed execution ∈ [RowEffect.claimed .rejected] :=
      List.IsPrefix.subset hinitial hmem
    simp at hexecuted
  | .sweep _, hall =>
    have hexecuted : RowEffect.executed execution = .claimed .expired := hall _ hmem
    cases hexecuted

theorem TaskCourse.executed_once (h : TaskCourse effects task) :
    (effects.filterMap RowEffect.execution?).length ≤ 1 := by
  match task, h with
  | .decide .accept _, ⟨course, hcourse, hinitial⟩ =>
    have hlength := (hinitial.filterMap RowEffect.execution?).length_le
    have honce := hcourse.executed_once
    omega
  | .decide .reject _, hinitial =>
    have hshort : effects <+: [.claimed .rejected] := hinitial
    exact (hshort.filterMap RowEffect.execution?).length_le.trans (Nat.zero_le 1)
  | .sweep _, hall =>
    have hnone : effects.filterMap RowEffect.execution? = [] := by
      refine filterMap_eq_nil_iff.2 fun effect hmem => ?_
      rw [hall effect hmem]
      rfl
    rw [hnone]
    exact Nat.zero_le 1

end Course

/-! ## Runs -/

/-- The calls that run at the same time on the row. -/
def approvalPool (rt : Runtime) (env : ApprovalEnv) (id : String) {ι : Type}
    (tasks : ι → ApprovalTask) :
    ι → Prog ApprovalReply (Except HostError ApprovalReport × Unit) :=
  fun i => (tasks i).script rt env id ()

/-- How a run stands: nobody has won the claim, and the row is as it was at the start;
or one call has won it, and the row is what the calls of the winner make of it. -/
inductive Race {ι : Type} [DecidableEq ι] (row : AgentPendingActionRecord)
    (past : List (ι × ApprovalEvent)) : AgentPendingActionRecord → Prop
  | undecided (hclaims : claims row.id past = [])
      (hkept : ∀ step ∈ past, row.answers step.2.call step.2.reply row) : Race row past row
  | won {now : AgentPendingActionRecord} {winner : ι} {status : AgentPendingActionStatus}
      (hclaims : claims row.id past = [(winner, status)]) (hid : now.id = row.id)
      (hdecided : now.status ≠ .pending)
      (hevolves : Evolves answers row (ownEvents winner past) now) :
      Race row past now

section Runs

variable {ι : Type} [DecidableEq ι] {rt : Runtime} {env : ApprovalEnv} {tasks : ι → ApprovalTask}
  {row row' : AgentPendingActionRecord} {trace past : List (ι × ApprovalEvent)}
  {pool' : ι → Prog ApprovalReply (Except HostError ApprovalReport × Unit)}

theorem mem_claims {thread : ι} {status : AgentPendingActionStatus} :
    (thread, status) ∈ claims id trace ↔
      .claimed status ∈ rowEffects id (ownEvents thread trace) := by
  rw [claims, mem_readings]
  simp only [rowEffects, mem_filterMap, Option.bind_eq_some_iff, RowEffect.claim?_eq_some]
  simp

theorem mem_executions {thread : ι} {execution : Execution} :
    (thread, execution) ∈ executions id trace ↔
      .executed execution ∈ rowEffects id (ownEvents thread trace) := by
  rw [executions, mem_readings]
  simp only [rowEffects, mem_filterMap, Option.bind_eq_some_iff, RowEffect.execution?_eq_some]
  simp

omit [DecidableEq ι] in
theorem claims_snoc (id : String) (past : List (ι × ApprovalEvent)) (thread : ι)
    (e : ApprovalEvent) :
    claims id (past ++ [(thread, e)]) = claims id past ++
      (((rowEffect id e).bind RowEffect.claim?).map (Prod.mk thread)).toList := by
  rw [claims, readings_append, readings_singleton]
  rfl

theorem ownEvents_snoc (thread owner : ι) (e : ApprovalEvent) :
    ownEvents thread (past ++ [(owner, e)]) =
      if owner = thread then ownEvents thread past ++ [e] else ownEvents thread past := by
  rw [ownEvents_append, ownEvents_cons]
  by_cases h : owner = thread <;> simp [h]

/-- The events so far leave the row as it is, so those of one call do. -/
theorem evolves_kept (hkept : ∀ step ∈ past, row.answers step.2.call step.2.reply row)
    (thread : ι) :
    Evolves answers row (ownEvents thread past) row := by
  have hown : ∀ e ∈ ownEvents thread past, row.answers e.call e.reply row := by
    intro e he
    exact hkept _ (mem_ownEvents.1 he)
  generalize ownEvents thread past = events at hown
  induction events with
  | nil => rfl
  | cons e events ih =>
    exact ⟨row, hown e mem_cons_self, ih fun e' he' => hown e' (mem_cons_of_mem _ he')⟩

theorem rowEffects_snoc {e : ApprovalEvent} {effect : RowEffect}
    (h : rowEffect id e = some effect) :
    rowEffects id (events ++ [e]) = rowEffects id events ++ [effect] := by
  rw [rowEffects_append]
  exact congrArg _ (filterMap_cons_some h)

/-- A call of the winner goes on with the row as it is. -/
theorem evolves_snoc {now next : AgentPendingActionRecord} {thread : ι} {e : ApprovalEvent}
    (h : Evolves answers row (ownEvents thread past) now)
    (hanswer : now.answers e.call e.reply next) :
    Evolves answers row
      (ownEvents thread (past ++ [(thread, e)])) next := by
  rw [ownEvents_snoc, if_pos rfl]
  exact evolves_append.2 ⟨now, h, next, hanswer, rfl⟩

/-- The first claim that is won decides the race. -/
theorem Race.step_undecided {next : AgentPendingActionRecord} {thread : ι} {e : ApprovalEvent}
    (hclaims : claims row.id past = [])
    (hkept : ∀ step ∈ past, row.answers step.2.call step.2.reply row)
    (hanswer : row.answers e.call e.reply next)
    (hcourse : TaskCourse (rowEffects row.id (ownEvents thread past ++ [e])) (tasks thread)) :
    Race row (past ++ [(thread, e)]) next := by
  have hstep := rowStep_of_answers hanswer
  generalize heffect : rowEffect row.id e = effect at hstep
  have hsnoc := claims_snoc row.id past thread e
  rw [hclaims, heffect, nil_append] at hsnoc
  cases hstep with
  | claimed hpending =>
    rw [rowEffects_snoc heffect] at hcourse
    refine .won hsnoc rfl ?_ (evolves_snoc (evolves_kept hkept thread) hanswer)
    exact hcourse.claimed_ne_pending (mem_append_right _ mem_cons_self)
  | set =>
    rw [rowEffects_snoc heffect] at hcourse
    have hclaimed := mem_claims.2 hcourse.claimed_before_set.1
    rw [hclaims] at hclaimed
    exact (not_mem_nil hclaimed).elim
  | kept hclaim =>
    rw [hclaim] at hsnoc
    refine .undecided hsnoc fun step hstep => ?_
    rcases mem_append.1 hstep with hpast | hlast
    · exact hkept step hpast
    · obtain rfl := mem_singleton.1 hlast
      exact hanswer

/-- After that, the row changes by the calls of the winner only. -/
theorem Race.step_won {now next : AgentPendingActionRecord} {winner thread : ι}
    {status : AgentPendingActionStatus} {e : ApprovalEvent}
    (hclaims : claims row.id past = [(winner, status)]) (hid : now.id = row.id)
    (hdecided : now.status ≠ .pending) (hevolves : Evolves answers row (ownEvents winner past) now)
    (hanswer : now.answers e.call e.reply next)
    (hcourse : TaskCourse (rowEffects row.id (ownEvents thread past ++ [e])) (tasks thread)) :
    Race row (past ++ [(thread, e)]) next := by
  have hstep := rowStep_of_answers hanswer
  rw [hid] at hstep
  generalize heffect : rowEffect row.id e = effect at hstep
  have hsnoc := claims_snoc row.id past thread e
  rw [hclaims, heffect] at hsnoc
  cases hstep with
  | claimed hpending => exact absurd hpending hdecided
  | set =>
    rw [rowEffects_snoc heffect] at hcourse
    obtain ⟨hfirst, hstatus⟩ := hcourse.claimed_before_set
    have hclaimed := mem_claims.2 hfirst
    rw [hclaims] at hclaimed
    obtain ⟨rfl, -⟩ := Prod.mk.inj (mem_singleton.1 hclaimed)
    exact .won hsnoc hid hstatus (evolves_snoc hevolves hanswer)
  | kept hclaim =>
    rw [hclaim] at hsnoc
    by_cases hthread : thread = winner
    · subst hthread
      exact .won hsnoc hid hdecided (evolves_snoc hevolves hanswer)
    · refine .won hsnoc hid hdecided ?_
      rw [ownEvents_snoc, if_neg hthread]
      exact hevolves

/-- A run is a race. -/
theorem run_race
    (hrun : Interleaves answers
      (approvalPool rt env row.id tasks) row trace
      pool' row') : Race row trace row' := by
  refine hrun.history_induction (.undecided rfl fun step hstep => (not_mem_nil hstep).elim) ?_
  rintro past now thread e next hrace hanswer ⟨p', hfollows⟩
  have hcourse := task_course_of_follows hfollows
  cases hrace with
  | undecided hclaims hkept => exact Race.step_undecided hclaims hkept hanswer hcourse
  | won hclaims hid hdecided hevolves =>
    exact Race.step_won hclaims hid hdecided hevolves hanswer hcourse

/-- The calls keep the id of the row. -/
theorem evolves_id (h : Evolves answers row events row') : row'.id = row.id := by
  refine h.induction (motive := fun now => now.id = row.id) rfl fun now e next _ hid hanswer => ?_
  exact (rowStep_of_answers hanswer).id_eq.trans hid

/-- A read of the row finds it. -/
theorem found_of_run {thread : ι}
    (hrun : Interleaves answers
      (approvalPool rt env row.id tasks) row trace
      pool' row') : ⟨.getPendingAgentAction row.id, .ok none⟩ ∉ ownEvents thread trace := by
  intro hmissing
  have hmem := mem_map_of_mem (f := Prod.snd) (mem_ownEvents.1 hmissing)
  obtain ⟨front, back, hsplit⟩ := append_of_mem hmem
  have hevolves := hrun.evolves
  rw [hsplit] at hevolves
  obtain ⟨now, next, hfront, ⟨-, hfound⟩, -⟩ := hevolves.exists_before
  cases hfound (evolves_id hfront).symm none rfl

end Runs

/-! ## Once -/

/-- What a run has done to a staged row, whatever the order of its calls. -/
structure DecidedOnce {ι : Type} [DecidableEq ι] (tasks : ι → ApprovalTask)
    (row row' : AgentPendingActionRecord) (trace : List (ι × ApprovalEvent))
    (pool' : ι → Prog ApprovalReply (Except HostError ApprovalReport × Unit)) : Prop where
  /-- One call at most wins the claim. -/
  claimed_once : (claims row.id trace).length ≤ 1
  executed_once : (executions row.id trace).length ≤ 1
  /-- The executor runs for the winner, and for no reject and no expiry. -/
  executed_by_winner : ∀ thread execution, (thread, execution) ∈ executions row.id trace →
    claims row.id trace = [(thread, .accepted)]
  /-- What is executed is pinned to the stored pull request that the winner has read. -/
  executed_pinned : ∀ thread execution, (thread, execution) ∈ executions row.id trace → ∃ pr,
    (thread, ⟨.getPullRequest execution.ctx.repoFullName execution.ctx.pullNumber, .ok pr⟩) ∈
      trace ∧
      execution.PinnedTo pr
  /-- While nobody has won the claim, the row is as it was. -/
  unclaimed : claims row.id trace = [] → row' = row
  /-- The row is what the calls of the winner alone make of it. -/
  as_winner_wrote : ∀ winner status, claims row.id trace = [(winner, status)] →
    row'.status ≠ .pending ∧
      Evolves answers row (ownEvents winner trace) row'
  /-- A decision that has ended without winning the claim reports that the row is decided, unless a
  read or the claim of the row threw. -/
  losing_decision : ∀ thread decision decidedBy r, tasks thread = .decide decision decidedBy →
    pool' thread = .ret (r, ()) → (∀ status, (thread, status) ∉ claims row.id trace) →
    (∃ result, r = .ok (.decided result) ∧ result.status = .alreadyDecided) ∨
      ∃ e, r = .error e ∧ ∃ event ∈ ownEvents thread trace, rowError event = some e
  /-- A sweep that has ended counts the rows that it has expired; when it has not won the claim,
  this row is not one of them. -/
  losing_sweep : ∀ thread nowMs counts, tasks thread = .sweep nowMs →
    pool' thread = .ret (.ok (.swept counts), ()) →
    counts.expired = (wonClaims (ownEvents thread trace)).length ∧
      ((∀ status, (thread, status) ∉ claims row.id trace) →
        row.id ∉ wonClaims (ownEvents thread trace))

section Once

variable {ι : Type} [DecidableEq ι] {rt : Runtime} {env : ApprovalEnv} {tasks : ι → ApprovalTask}
  {row row' : AgentPendingActionRecord} {trace : List (ι × ApprovalEvent)}
  {pool' : ι → Prog ApprovalReply (Except HostError ApprovalReport × Unit)}

theorem Race.claimed_once (h : Race row trace row') : (claims row.id trace).length ≤ 1 := by
  cases h with
  | undecided hclaims => simp [hclaims]
  | won hclaims => simp [hclaims]

/-- Who has won the claim is the only one who has. -/
theorem Race.claims_eq (h : Race row trace row') {thread : ι} {status : AgentPendingActionStatus}
    (hmem : (thread, status) ∈ claims row.id trace) : claims row.id trace = [(thread, status)] := by
  cases h with
  | undecided hclaims =>
    rw [hclaims] at hmem
    cases hmem
  | won hclaims =>
    rw [hclaims] at hmem ⊢
    rw [mem_singleton.1 hmem]

/-- The row is claimed by an event that says so. -/
theorem claimed_of_mem_wonClaims (h : id ∈ wonClaims events) :
    ∃ status, .claimed status ∈ rowEffects id events := by
  obtain ⟨⟨call, reply⟩, hmem, hwon⟩ := mem_filterMap.1 h
  cases call with
  | claimPendingAgentActionDecision target status decidedBy =>
    match reply, hmem, hwon with
    | .ok true, hmem, hwon =>
      obtain rfl : target = id := by simpa using hwon
      exact ⟨status, mem_filterMap.2 ⟨_, hmem, if_pos rfl⟩⟩
  | _ => cases hwon

/-- A read of a pull request is an event. -/
theorem event_of_read {id repoFullName : String} {pullNumber : ℕ} {pr : Option PullRequestRecord}
    {events : List ApprovalEvent} (h : .read repoFullName pullNumber pr ∈ rowEffects id events) :
    ⟨.getPullRequest repoFullName pullNumber, .ok pr⟩ ∈ events := by
  obtain ⟨⟨call, reply⟩, hmem, hread⟩ := mem_filterMap.1 h
  cases call with
  | getPullRequest =>
    cases reply with
    | error e => cases hread
    | ok found =>
      cases hread
      exact hmem
  | claimPendingAgentActionDecision =>
    match reply, hread with
    | .ok true, hread => simp [rowEffect] at hread
  | setPendingAgentActionStatus =>
    cases reply with
    | error e => cases hread
    | ok _ => simp [rowEffect] at hread
  | _ => cases hread

/-- All runs of the executor are of the winner, and the course of a call has one at most. -/
theorem executed_once_of_winner
    (hcourse : ∀ thread, TaskCourse (rowEffects row.id (ownEvents thread trace)) (tasks thread))
    (hwinner : ∀ thread execution, (thread, execution) ∈ executions row.id trace →
      claims row.id trace = [(thread, .accepted)]) : (executions row.id trace).length ≤ 1 := by
  cases hexecutions : executions row.id trace with
  | nil => exact Nat.zero_le 1
  | cons first rest =>
    obtain ⟨thread, execution⟩ := first
    have hfirst : (thread, execution) ∈ executions row.id trace := by
      rw [hexecutions]
      exact mem_cons_self
    have howner : ∀ owner other, (owner, other) ∈ executions row.id trace → owner = thread := by
      intro owner other hmem
      have hclaims := (hwinner owner other hmem).symm.trans (hwinner thread execution hfirst)
      simpa using hclaims
    rw [← hexecutions, executions, length_readings_of_owner howner, ← filterMap_filterMap]
    exact (hcourse thread).executed_once

/-- **A staged action is decided once.** Whatever accepts, rejects and sweeps run at the same time,
and in whatever order their calls come, the executor runs at most once, for the accept that won the
claim and at the head that was reviewed. -/
theorem staged_action_decided_once
    (hrun : Interleaves answers
      (approvalPool rt env row.id tasks) row trace
      pool' row') : DecidedOnce tasks row row' trace pool' := by
  have hrace := run_race hrun
  have hcourse : ∀ thread, TaskCourse (rowEffects row.id (ownEvents thread trace)) (tasks thread) :=
    fun thread => task_course_of_follows (hrun.follows thread)
  have hwinner : ∀ thread execution, (thread, execution) ∈ executions row.id trace →
      claims row.id trace = [(thread, .accepted)] := by
    intro thread execution hmem
    have hclaimed := ((hcourse thread).executed_pinned (mem_executions.1 hmem)).1
    exact hrace.claims_eq (mem_claims.2 hclaimed)
  refine ⟨hrace.claimed_once, ?_, hwinner, ?_, ?_, ?_, ?_, ?_⟩
  · exact executed_once_of_winner hcourse hwinner
  · intro thread execution hmem
    obtain ⟨-, pr, hread, hpinned⟩ := (hcourse thread).executed_pinned (mem_executions.1 hmem)
    exact ⟨pr, mem_ownEvents.1 (event_of_read hread), hpinned⟩
  · intro hnone
    cases hrace with
    | undecided => rfl
    | won hclaims => simp [hnone] at hclaims
  · intro winner status hwon
    cases hrace with
    | undecided hclaims => simp [hwon] at hclaims
    | won hclaims hid hdecided hevolves =>
      obtain ⟨rfl, rfl⟩ : winner = _ ∧ status = _ := by simpa [hwon] using hclaims
      exact ⟨hdecided, hevolves⟩
  · intro thread decision decidedBy r htask hended hlost
    have hends := hrun.runs hended
    rw [approvalPool, htask] at hends
    obtain ⟨result, rfl, ⟨status, hclaimed⟩ | hreport⟩ := decide_report hends
    · exact absurd (mem_claims.2 hclaimed) (hlost status)
    · cases hreport with
      | alreadyDecided hstatus => exact Or.inl ⟨_, rfl, hstatus⟩
      | notFound hmissing => exact absurd hmissing (found_of_run hrun)
      | threw hmem herror => exact Or.inr ⟨_, rfl, _, hmem, herror⟩
  · intro thread nowMs counts htask hended
    have hends := hrun.runs hended
    rw [approvalPool, htask] at hends
    refine ⟨sweep_report hends, fun hlost hcounted => ?_⟩
    obtain ⟨status, hclaimed⟩ := claimed_of_mem_wonClaims hcounted
    exact hlost status (mem_claims.2 hclaimed)

end Once

/-! ## A decision that comes before the sweep -/

/-- An approval that was staged on the first of July. -/
def stagedApproval : AgentPendingActionRecord where
  id := "pending-1"
  repoFullName := "acme/widgets"
  pullNumber := 7
  installationId := 1
  actionClass := .approve
  autonomyLevel := .autoWithApproval
  params := actionParams
    { actionClass := .approve
      requiresApproval := true
      reason := "gate passed"
      expectedHeadSha := some "abc123" }
  reason := none
  status := .pending
  decidedBy := none
  decidedAt := none
  createdAt := "2026-07-01T00:00:00.000Z"
  updatedAt := "2026-07-01T00:00:00.000Z"

/-- The row after an update by the maintainer, a week later. -/
def stagedApproval.decided (status : AgentPendingActionStatus) : AgentPendingActionRecord :=
  stagedApproval.updated status "maintainer" "2026-07-08T00:00:00.000Z" "2026-07-08T00:00:00.000Z"

def approvalRuntime : Runtime :=
  { asciiRuntime with
    dateParse :=
      fun text => if text = "2026-07-01T00:00:00.000Z" then some 1782864000000 else none }

def approvalEnv : ApprovalEnv where
  protectedAutocloseAuthors := []

/-- The maintainer decides while a sweep runs, on the day on which the row expires. -/
def lateTasks (decision : ApprovalDecision) : Bool → ApprovalTask
  | true => .decide decision "maintainer"
  | false => .sweep 1783468800000

/-- The sweep finds the row pending, the maintainer decides it, and then the sweep claims it. -/
def lateTrace (calls : List ApprovalEvent) : List (Bool × ApprovalEvent) :=
  (false, ⟨.listPendingAgentActions, .ok [stagedApproval]⟩) :: (calls.map (Prod.mk true) ++
    [(false, ⟨.claimPendingAgentActionDecision "pending-1" .expired "loopover", .ok false⟩)])

theorem late_run {decision : ApprovalDecision} {calls : List ApprovalEvent}
    {value : Except HostError ApprovalReport × Unit} {status : AgentPendingActionStatus}
    (hfollows : ((lateTasks decision true).script approvalRuntime approvalEnv
      "pending-1" ()).Follows
      calls (.ret value))
    (hevolves : Evolves answers stagedApproval calls
      (stagedApproval.decided status)) (hstatus : status ≠ .pending) :
    ∃ pool', Interleaves answers
        (approvalPool approvalRuntime approvalEnv "pending-1" (lateTasks decision)) stagedApproval
        (lateTrace calls) pool' (stagedApproval.decided status) ∧
      pool' true = .ret value ∧ pool' false = .ret (.ok (.swept {}), ()) := by
  have hlist : stagedApproval.answers .listPendingAgentActions (.ok [stagedApproval])
      stagedApproval := by
    refine ⟨rfl, fun rows hrows => ?_⟩
    cases hrows
    refine ⟨by decide, nodup_singleton _, fun listed hlisted => ?_⟩
    obtain rfl := mem_singleton.1 hlisted
    exact ⟨rfl, fun _ => rfl⟩
  have hlost : (stagedApproval.decided status).answers
      (.claimPendingAgentActionDecision "pending-1" .expired "loopover") (.ok false)
      (stagedApproval.decided status) := ⟨rfl, fun _ => hstatus⟩
  refine Interleaves.exists_step false rfl hlist ?_
  refine Interleaves.exists_calls hfollows hevolves ?_
  refine Interleaves.exists_step false rfl hlost ?_
  exact ⟨_, .done _ _, rfl, rfl⟩

/-- The read and the claim with which a decision begins. -/
def claimCalls (status : AgentPendingActionStatus) : List ApprovalEvent :=
  [⟨.getPendingAgentAction "pending-1", .ok (some ⟨stagedApproval, rfl⟩)⟩,
    ⟨.claimPendingAgentActionDecision "pending-1" status "maintainer", .ok true⟩]

theorem claimCalls_evolves (status : AgentPendingActionStatus) :
    Evolves answers stagedApproval (claimCalls status)
      (stagedApproval.decided status) := by
  have hread : stagedApproval.answers (.getPendingAgentAction "pending-1")
      (.ok (some ⟨stagedApproval, rfl⟩)) stagedApproval := by
    refine ⟨rfl, fun _ found hfound => ?_⟩
    cases hfound
    rfl
  have hclaim : stagedApproval.answers
      (.claimPendingAgentActionDecision "pending-1" status "maintainer") (.ok true)
      (stagedApproval.decided status) := by
    simp [answers, stagedApproval.decided, stagedApproval, updated]
  exact ⟨_, hread, _, hclaim, rfl⟩

/-- What a run of the executor is handed for the approval. -/
def approvalExecution : Execution where
  ctx := acceptContext approvalEnv stagedApproval { autonomy := none }
    (some { headSha := some "abc123" }) none false
  plan := [pendingActionToPlanned .approve stagedApproval.params none]

/-- The calls of the accept after its claim. -/
def acceptCalls : List ApprovalEvent :=
  [⟨.resolveRepositorySettings "acme/widgets", .ok { autonomy := none }⟩,
    ⟨.getPullRequest "acme/widgets" 7, .ok (some { headSha := some "abc123" })⟩,
    ⟨.getInstallation 1, .ok none⟩,
    ⟨.isHoldOnly "acme/widgets", false⟩,
    ⟨.isCloseHoldOnly "acme/widgets", false⟩,
    ⟨.readUntrustworthyRuleCodes, []⟩,
    ⟨.createInstallationToken 1, .ok "token"⟩,
    ⟨.fetchRequiredStatusContexts none (some "token"), .ok none⟩,
    ⟨.executeAgentMaintenanceActions approvalExecution.ctx approvalExecution.plan,
      .ok [⟨.approve, .completed, "approved"⟩]⟩]

/-- Its last two calls. -/
def acceptedCalls (audited : ApprovalAuditEvent) : List ApprovalEvent :=
  [⟨.setPendingAgentActionStatus "pending-1" .accepted "maintainer", .ok ()⟩,
    ⟨.recordAuditEvent audited, .ok ()⟩]

theorem staged_action_decided_once_accepted :
    ∃ trace pool' row', Interleaves answers
        (approvalPool approvalRuntime approvalEnv stagedApproval.id (lateTasks .accept))
          stagedApproval
        trace pool' row' ∧
      executions stagedApproval.id trace = [(true, approvalExecution)] ∧
      DecidedOnce (lateTasks .accept) stagedApproval row' trace pool' := by
  have hfollows : ∃ value audited,
      ((lateTasks .accept true).script approvalRuntime approvalEnv "pending-1" ()).Follows
        (claimCalls .accepted ++ (acceptCalls ++ acceptedCalls audited)) (.ret value) :=
    ⟨_, _, _, rfl, _, rfl, _, rfl, _, rfl, _, rfl, _, rfl, _, rfl, _, rfl, _, rfl, _, rfl, _,
      rfl, _, rfl,
      _, rfl, rfl⟩
  obtain ⟨value, audited, hfollows⟩ := hfollows
  have hset : (stagedApproval.decided .accepted).answers
      (.setPendingAgentActionStatus "pending-1" .accepted "maintainer") (.ok ())
      (stagedApproval.decided .accepted) := by
    simp [answers, stagedApproval.decided, stagedApproval, updated]
  have hkept : Evolves answers
      (stagedApproval.decided .accepted) acceptCalls
      (stagedApproval.decided .accepted) :=
    ⟨_, rfl, _, rfl, _, rfl, _, rfl, _, rfl, _, rfl, _, rfl, _, rfl, _, rfl, rfl⟩
  have hend : Evolves answers (stagedApproval.decided .accepted)
      (acceptedCalls audited) (stagedApproval.decided .accepted) := ⟨_, hset, _, rfl, rfl⟩
  have hevolves := evolves_append.2 ⟨_, claimCalls_evolves .accepted,
    evolves_append.2 ⟨_, hkept, hend⟩⟩
  obtain ⟨pool', hrun, -, -⟩ := late_run hfollows hevolves (by decide)
  exact ⟨_, pool', _, hrun, rfl, staged_action_decided_once hrun⟩

/-- The sweep has read the row as pending, and then loses the claim to a reject. It returns its
counts, which say nothing of the row. -/
theorem losing_sweep_reports_counts :
    ∃ trace pool' row', Interleaves answers
        (approvalPool approvalRuntime approvalEnv stagedApproval.id (lateTasks .reject))
          stagedApproval
        trace pool' row' ∧
      claims stagedApproval.id trace = [(true, .rejected)] ∧
      (false, ⟨.claimPendingAgentActionDecision stagedApproval.id .expired "loopover", .ok false⟩) ∈
        trace ∧
      pool' false = .ret (.ok (.swept {}), ()) ∧
      ∀ result : ApprovalDecisionResult, pool' false ≠ .ret (.ok (.decided result), ()) := by
  have hfollows : ∃ value audited,
      ((lateTasks .reject true).script approvalRuntime approvalEnv "pending-1" ()).Follows
        (claimCalls .rejected ++ [⟨.recordAuditEvent audited, .ok ()⟩]) (.ret value) :=
    ⟨_, _, _, rfl, _, rfl, _, rfl, rfl⟩
  obtain ⟨value, audited, hfollows⟩ := hfollows
  have hevolves : Evolves answers stagedApproval
      (claimCalls .rejected ++ [⟨.recordAuditEvent audited, .ok ()⟩])
      (stagedApproval.decided .rejected) :=
    evolves_append.2 ⟨_, claimCalls_evolves .rejected, _, rfl, rfl⟩
  obtain ⟨pool', hrun, -, hswept⟩ := late_run hfollows hevolves (by decide)
  refine ⟨_, pool', _, hrun, rfl, ?_, hswept, fun result hdecided => ?_⟩
  · exact mem_cons_of_mem _ (mem_append_right _ mem_cons_self)
  · rw [hswept] at hdecided
    cases hdecided

end LoopOver
