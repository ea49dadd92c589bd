import LoopOver.Miner.AllocatorSafety

/-!
# Which repository the worktree allocator answers for

An attempt has one slot, and a second `acquire` with the attempt is answered with that slot, if it
is for the same repository: another one is an error. `acquire` looks twice, since another process
may come in between, and only the first time it compares the repositories.

* `AnswersRequest` is what the answer to a call is to be.
* `SameRepoInside` is the condition: when the transaction of a call begins, its attempt is not
  active for another repository.
* **`acquire_answers_request_iff`**: in a run all answers are right exactly where all its
  transactions begin so. `acquire_answers_other_repo` is a run of two processes with one that does
  not.
-/

namespace LoopOver.WorktreeAllocator

/-- If a call answers with a slot, it is one for its attempt and its repository. -/
def AnswersRequest (call : Call) : Prop := ∀ attemptId repoFullName row,
  call.task = .acquire attemptId repoFullName → call.stage = .answered (.ok row) →
    ∃ normalizedAttempt normalizedRepo, normalizeAttemptId attemptId = .ok normalizedAttempt ∧
      normalizeRepoFullName repoFullName = .ok normalizedRepo ∧
        row.attemptId = some normalizedAttempt ∧
      row.repoFullName = some normalizedRepo

def AllAnswered (s : StoreState) : Prop := ∀ id call, s.calls id = some call → AnswersRequest call

/-- If the action is the transaction of a call, its attempt is not active for another repository. -/
def SameRepoInside (s : StoreState) : Action → Prop
  | .advance id _ => ∀ call attemptId repoFullName, s.calls id = some call →
      call.stage = .transact attemptId repoFullName → ∀ row ∈ s.rows, row.status = .active →
        row.attemptId = some attemptId → row.repoFullName = some repoFullName
  | _ => True

/-! ## A step of a call -/

/-- The names in a transaction are those of the request. -/
def TransactsRequest (call : Call) : Prop := ∀ normalizedAttempt normalizedRepo,
  call.stage = .transact normalizedAttempt normalizedRepo → ∃ attemptId repoFullName,
    call.task = .acquire attemptId repoFullName ∧
      normalizeAttemptId attemptId = .ok normalizedAttempt ∧
      normalizeRepoFullName repoFullName = .ok normalizedRepo

section Steps

variable {running : String → ℤ → Bool} {clock : ℕ} {call : Call} {rows rows' : Rows} {stage : Stage}
  {attemptId repoFullName : Untyped} {normalizedAttempt normalizedRepo : String}
    {row : WorktreeSlotRow}

theorem getByAttempt_eq_some (h : getByAttempt normalizedAttempt rows = some row) :
    row ∈ rows ∧ row.attemptId = some normalizedAttempt :=
  ⟨List.mem_of_find?_eq_some h, by simpa using List.find?_some h⟩

/-- What the lookup comes to: an error, the transaction, or a slot for the request. -/
theorem lookUp_cases (attemptId repoFullName : Untyped) (rows : Rows) :
    (∃ e, lookUp attemptId repoFullName rows = .answered (.error e)) ∨
      ∃ normalizedAttempt normalizedRepo, normalizeAttemptId attemptId = .ok normalizedAttempt ∧
        normalizeRepoFullName repoFullName = .ok normalizedRepo ∧
        (lookUp attemptId repoFullName rows = .transact normalizedAttempt normalizedRepo ∨
          ∃ row, lookUp attemptId repoFullName rows = .answered (.ok row) ∧
            row.attemptId = some normalizedAttempt ∧
            row.repoFullName = some normalizedRepo) := by
  unfold lookUp
  split
  · exact Or.inl ⟨_, rfl⟩
  · exact Or.inl ⟨_, rfl⟩
  · next normalizedAttempt normalizedRepo hattempt hrepo =>
    split
    · next existing hexisting =>
      obtain ⟨hfound, -⟩ := Option.filter_eq_some_iff.1 hexisting
      split
      · exact Or.inl ⟨_, rfl⟩
      · next hsame =>
        exact Or.inr ⟨normalizedAttempt, normalizedRepo, hattempt, hrepo,
          Or.inr ⟨existing, rfl, (getByAttempt_eq_some hfound).2, not_not.1 hsame⟩⟩
    · exact Or.inr ⟨normalizedAttempt, normalizedRepo, hattempt, hrepo, Or.inl rfl⟩

/-- **The transaction** answers for the request just if the attempt is not active for another
repository. -/
theorem transact_answers_iff (h : StoreHolds rows) (allocator : Allocator) (clock : ℕ) :
    (∀ row, (transact allocator normalizedAttempt normalizedRepo clock rows).1 = .ok row →
      row.attemptId = some normalizedAttempt ∧ row.repoFullName = some normalizedRepo) ↔
      ∀ row ∈ rows, row.status = .active → row.attemptId = some normalizedAttempt →
        row.repoFullName = some normalizedRepo := by
  unfold transact
  split
  · next raced hraced =>
    obtain ⟨hfound, hactive⟩ := Option.filter_eq_some_iff.1 hraced
    obtain ⟨hmem, hattempt⟩ := getByAttempt_eq_some hfound
    constructor
    · intro hanswer row hrow _ hid
      rw [h.attempts row hrow raced hmem normalizedAttempt hid hattempt]
      exact (hanswer raced rfl).2
    · intro hrows row hrow
      obtain rfl := Except.ok.inj hrow
      exact ⟨hattempt, hrows raced hmem (by simpa using hactive) hattempt⟩
  · next hraced =>
    refine iff_of_true ?_ ?_
    · -- a new lease is for the request
      split
      · exact fun row hrow => nomatch hrow
      · split
        · exact fun row hrow => nomatch hrow
        · split
          · exact fun row hrow => nomatch hrow
          · intro row hrow
            obtain rfl := Except.ok.inj hrow
            exact ⟨rfl, rfl⟩
    · intro row hrow hactive hid
      exfalso
      obtain ⟨found, hfound⟩ := Option.isSome_iff_exists.1
        (List.find?_isSome (p := fun row => row.attemptId == some normalizedAttempt).2 ⟨row, hrow,
          beq_iff_eq.2 hid⟩)
      obtain ⟨hmem, hattempt⟩ := getByAttempt_eq_some hfound
      obtain rfl := h.attempts row hrow found hmem normalizedAttempt hid hattempt
      rw [getByAttempt, hfound, Option.filter_some, hactive] at hraced
      cases hraced

theorem TransactsRequest.advance (h : Advances running clock call rows rows' stage) :
    TransactsRequest { call with stage := stage } := by
  intro normalizedAttempt normalizedRepo hstage
  replace hstage : stage = .transact normalizedAttempt normalizedRepo := hstage
  cases h with
  | goesOn _ hasking _ =>
    rw [hstage] at hasking
    exact hasking.elim
  | @looksUp attemptId repoFullName _ htask =>
    rcases lookUp_cases attemptId repoFullName rows with ⟨e, herror⟩ |
      ⟨attempt, repo, hattempt, hrepo, hnext⟩
    · exact nomatch herror.symm.trans hstage
    · rcases hnext with htransact | ⟨row, hrow, -⟩
      · obtain ⟨rfl, rfl⟩ := Stage.transact.inj (htransact.symm.trans hstage)
        exact ⟨attemptId, repoFullName, htask, hattempt, hrepo⟩
      · exact nomatch hrow.symm.trans hstage
  | judges | ensures | reclaims | transacts => cases hstage

theorem answersRequest_of_ne (h : ∀ answer, call.stage ≠ .answered answer) : AnswersRequest call :=
  fun _ _ row _ hstage => absurd hstage (h (.ok row))

/-- A call that goes on has not answered. -/
theorem answersRequest_of_advance (h : Advances running clock call rows rows' stage) :
    AnswersRequest call := by
  refine answersRequest_of_ne fun answer hanswered => ?_
  cases h with
  | goesOn hbefore | judges hbefore => exact (hanswered ▸ hbefore : (Stage.answered answer).Asking)
  | ensures hstage | reclaims hstage | looksUp hstage | transacts hstage =>
    exact nomatch hanswered.symm.trans hstage

/-- What a call goes on to is right just if it is no transaction that finds the attempt with another
repository. -/
theorem answersRequest_advance_iff (hstore : StoreHolds rows) (hcall : TransactsRequest call)
    (h : Advances running clock call rows rows' stage) :
    AnswersRequest { call with stage := stage } ↔ ∀ normalizedAttempt normalizedRepo,
      call.stage = .transact normalizedAttempt normalizedRepo → ∀ row ∈ rows, row.status = .active →
        row.attemptId = some normalizedAttempt → row.repoFullName = some normalizedRepo := by
  cases h with
  | goesOn hbefore hasking _ =>
    refine iff_of_true (answersRequest_of_ne fun answer hanswered => ?_) fun _ _ hstage => ?_
    · obtain rfl : stage = .answered answer := hanswered
      exact hasking
    · exact (hstage ▸ hbefore : (Stage.transact _ _).Asking).elim
  | judges hbefore _ =>
    refine iff_of_true (answersRequest_of_ne nofun) fun _ _ hstage => ?_
    exact (hstage ▸ hbefore : (Stage.transact _ _).Asking).elim
  | ensures hbefore | reclaims hbefore =>
    exact iff_of_true (answersRequest_of_ne nofun) fun _ _ hstage =>
      nomatch hbefore.symm.trans hstage
  | @looksUp attemptId repoFullName hbefore htask =>
    refine iff_of_true (fun attemptId' repoFullName' row htask' hanswered => ?_)
      fun _ _ hstage => nomatch hbefore.symm.trans hstage
    obtain ⟨rfl, rfl⟩ := Task.acquire.inj (htask.symm.trans htask')
    replace hanswered : lookUp attemptId repoFullName rows = .answered (.ok row) := hanswered
    rcases lookUp_cases attemptId repoFullName rows with ⟨e, herror⟩ |
      ⟨attempt, repo, hattempt, hrepo, hnext⟩
    · exact nomatch herror.symm.trans hanswered
    · rcases hnext with htransact | ⟨found, hfound, hid, hname⟩
      · exact nomatch htransact.symm.trans hanswered
      · obtain rfl := Except.ok.inj (Stage.answered.inj (hfound.symm.trans hanswered))
        exact ⟨attempt, repo, hattempt, hrepo, hid, hname⟩
  | @transacts normalizedAttempt normalizedRepo hstage =>
    obtain ⟨attemptId, repoFullName, htask, hattempt, hrepo⟩ := hcall _ _ hstage
    constructor
    · intro hanswers attempt repo hstage'
      obtain ⟨rfl, rfl⟩ := Stage.transact.inj (hstage.symm.trans hstage')
      refine (transact_answers_iff hstore call.allocator clock).1 fun row hrow => ?_
      obtain ⟨attempt', repo', hattempt', hrepo', hid, hname⟩ :=
        hanswers attemptId repoFullName row htask (congrArg Stage.answered hrow)
      obtain rfl := Except.ok.inj (hattempt.symm.trans hattempt')
      obtain rfl := Except.ok.inj (hrepo.symm.trans hrepo')
      exact ⟨hid, hname⟩
    · intro hrows attemptId' repoFullName' row htask' hanswered
      obtain ⟨rfl, rfl⟩ := Task.acquire.inj (htask.symm.trans htask')
      obtain ⟨hid, hname⟩ :=
        (transact_answers_iff hstore call.allocator clock).2 (hrows _ _ hstage) row
        (Stage.answered.inj hanswered)
      exact ⟨normalizedAttempt, normalizedRepo, hattempt, hrepo, hid, hname⟩

end Steps

/-! ## Runs -/

section Runs

variable {s s' : StoreState} {action : Action} {id : ℕ} {call : Call}

/-- What every reachable state keeps, with what the transactions are for. -/
structure AsksHold (s : StoreState) : Prop where
  state : StateHolds s
  calls : ∀ id call, s.calls id = some call → TransactsRequest call

theorem forall_calls_setCall {P : Call → Prop} (h : ∀ other old, s.calls other = some old → P old)
    (hcall : P call) :
    ∀ other call', (s.setCall id call).calls other = some call' → P call' := by
  intro other call' hcall'
  rcases calls_setCall hcall' with ⟨-, rfl⟩ | ⟨-, hother⟩
  · exact hcall
  · exact h other call' hother

theorem step_asksHold (h : AsksHold s) (hstep : step s action = some s') : AsksHold s' := by
  have hsteps := steps_of_step hstep
  refine ⟨step_holds h.state hsteps, ?_⟩
  cases hsteps with
  | refused | ignored | releases | exits => exact h.calls
  | opens | acquires | fails => exact forall_calls_setCall h.calls (by rintro _ _ ⟨⟩)
  | @advances _ _ _ rows _ _ hadvance =>
    exact forall_calls_setCall (s := { s with rows := rows }) h.calls
      (TransactsRequest.advance hadvance)

/-- A call that had no answer yet, or was not there, gets another stage. -/
theorem allAnswered_setCall_iff (hold : ∀ old, s.calls id = some old → AnswersRequest old) :
    AllAnswered (s.setCall id call) ↔ AllAnswered s ∧ AnswersRequest call := by
  constructor
  · intro h
    refine ⟨fun other old hother => ?_, h id call (Function.update_self ..)⟩
    by_cases heq : other = id
    · exact hold old (heq ▸ hother)
    · exact h other old ((Function.update_of_ne heq _ _).trans hother)
  · rintro ⟨h, hcall⟩
    exact forall_calls_setCall h hcall

theorem allAnswered_step_iff (h : AsksHold s) (hstep : step s action = some s') :
    AllAnswered s' ↔ AllAnswered s ∧ SameRepoInside s action := by
  cases steps_of_step hstep with
  | refused | ignored | releases | exits => exact (and_iff_left trivial).symm
  | opens _ _ _ hnew | acquires _ _ _ _ hnew =>
    rw [allAnswered_setCall_iff (by simp [hnew])]
    exact and_congr_right fun _ => iff_of_true (answersRequest_of_ne nofun) trivial
  | @advances id _ call rows _ hcall hadvance =>
    have hold : ∀ old, s.calls id = some old → AnswersRequest old := by
      intro old hold
      obtain rfl := Option.some.inj (hcall.symm.trans hold)
      exact answersRequest_of_advance hadvance
    rw [allAnswered_setCall_iff (s := { s with rows := rows }) hold,
      answersRequest_advance_iff h.state.store (h.calls id call hcall) hadvance]
    refine and_congr_right fun _ => ⟨fun hsame call' attempt repo hcall' => ?_,
      fun hsame attempt repo => ?_⟩
    · obtain rfl := Option.some.inj (hcall.symm.trans hcall')
      exact hsame attempt repo
    · exact hsame call attempt repo hcall
  | @fails id call _ hcall hwaits =>
    have hold : ∀ old, s.calls id = some old → AnswersRequest old := by
      intro old hold
      obtain rfl := Option.some.inj (hcall.symm.trans hold)
      exact answersRequest_of_ne hwaits
    rw [allAnswered_setCall_iff hold]
    exact and_congr_right fun _ => iff_of_true (by rintro _ _ _ _ ⟨⟩) trivial

theorem emptyStore_asksHold : AsksHold emptyStore :=
  ⟨emptyStore_holds, fun _ _ hcall => by cases hcall⟩

/-- **A run answers for the repositories asked** exactly where no transaction of an `acquire` begins
with its attempt active for another repository. -/
theorem acquire_answers_request_iff {actions : List Action} {s : StoreState}
    (hrun : Runs.run step emptyStore actions = some s) :
    AllAnswered s ↔ Runs.AllSteps step SameRepoInside emptyStore actions := by
  rw [Runs.run_iff_allSteps step_asksHold allAnswered_step_iff emptyStore_asksHold hrun]
  exact and_iff_right fun _ _ hcall => by cases hcall

end Runs

/-! ## Two processes -/

/-- Steps of a call. -/
def advances (id count : ℕ) : List Action := List.replicate count (.advance id 5)

/-- Each process opens the store. The first one has looked its attempt up when the second one
acquires a slot for the same attempt and another repository. -/
def racedRun : List Action :=
  .openWorktreeAllocator 0 (sampleProcess 100) sampleOptions :: (advances 0 6 ++
    .openWorktreeAllocator 1 (sampleProcess 101) sampleOptions :: (advances 1 6 ++
      .acquire 2 0 (.text "a1") (.text "acme/web") :: (advances 2 4 ++
        .acquire 3 1 (.text "a1") (.text "acme/api") :: (advances 3 5 ++ advances 2 1))))

/-- The call has a slot of another repository than it asked for. -/
def otherRepo (call : Call) : Bool :=
  match call.task, call.stage with
  | .acquire _ repoFullName, .answered (.ok row) =>
    match normalizeRepoFullName repoFullName with
    | .ok normalizedRepo => row.repoFullName != some normalizedRepo
    | .error _ => true
  | _, _ => false

theorem not_answersRequest_of_otherRepo {call : Call} (h : otherRepo call = true) :
    ¬AnswersRequest call := by
  intro hanswers
  unfold otherRepo at h
  split at h
  · next attemptId repoFullName row htask hstage =>
    obtain ⟨normalizedAttempt, normalizedRepo, -, hrepo, -, hname⟩ :=
      hanswers attemptId repoFullName row htask hstage
    rw [hrepo] at h
    simp [hname] at h
  · cases h

theorem racedRun_otherRepo : ∃ s, Runs.run step emptyStore racedRun = some s ∧
    ∃ call, s.calls 2 = some call ∧ otherRepo call = true := by
  have hrun : (Runs.run step emptyStore racedRun).any
      (fun s => (s.calls 2).any otherRepo) = true := by
    decide +kernel
  obtain ⟨s, hs, hcall⟩ := (Option.any_eq_true _ _).1 hrun
  exact ⟨s, hs, (Option.any_eq_true _ _).1 hcall⟩

theorem acquire_answers_request_raced : ¬Runs.AllSteps step SameRepoInside emptyStore racedRun := by
  obtain ⟨s, hs, call, hcall, hother⟩ := racedRun_otherRepo
  intro hall
  exact not_answersRequest_of_otherRepo hother
    ((acquire_answers_request_iff hs).2 hall 2 call hcall)

/-- The first process gets the slot of the other repository. -/
theorem acquire_answers_other_repo :
    ∃ s, Runs.run step emptyStore racedRun = some s ∧ ¬AllAnswered s := by
  obtain ⟨s, hs, call, hcall, hother⟩ := racedRun_otherRepo
  exact ⟨s, hs, fun hanswered => not_answersRequest_of_otherRepo hother (hanswered 2 call hcall)⟩

end LoopOver.WorktreeAllocator
