import LoopOver.Locks.Transient

/-!
# One owner at a time

As long as nobody steals, a lock is acquired only when no other call has it. What a call with an old
token does changes nothing, its renewals tell it so, and the registry of a process has the lock that
was registered last.

* `Held` ties the locks of the backend and the registries to the calls, and `Held.step` says that
  every step keeps it.
* **`transient_locks_lawful`** has the laws for all runs. `stale_holder_unregistered` is a run after
  which a call that has not started its release is in no registry, and two in which a renewal
  returns and the call is not told.
-/

namespace LoopOver.Locks

open Runs (AllSteps run)
open List Option

/-! ## The laws -/

section Laws

variable (backend : LockBackend) (s : LockState)

/-- The backend has granted the lock to the call, and the time is not over. -/
def LockState.Unexpired (call : LockCall) : Prop :=
  ∃ t, call.grantedUntil = some t ∧ (s.now : ℚ) < t

/-- The lock of the call has been acquired by another call since. -/
def LockState.Replaced (id : ℕ) (call : LockCall) : Prop := id ∈ (s.owners call.key).tail

/-- The backend is left as it is. -/
def LockState.SameLocks (after : LockState) : Prop :=
  after.durable = s.durable ∧ after.cache = s.cache

/-- The actions by which the holder of a token changes a lock that it has acquired. -/
def LockAction.Uses (action : LockAction) (id : ℕ) : Prop :=
  action = .releaseTakesEffect id ∨ action = .shutdownReleaseTakesEffect id ∨
    action = .renewalTakesEffect id

/-- The registry has the call of the process that was registered last for a key, until its release
has returned or the process has begun to shut down. -/
def LockState.Registered : Prop := ∀ process key id, s.lastRegistered process key = some id →
  ∀ call, s.calls id = some call → call.stage ≠ .done → call.shutdown = .absent →
    s.heldLocks process key = some id

structure LockLaws (action : LockAction) (after : LockState) : Prop where
  /-- A claim succeeds only when no other call has the lock. -/
  exclusive : ∀ id call, action = .claimTakesEffect id → after.calls id = some call →
    call.stage = .answered true →
    ∀ other, other ≠ id → ∀ held, s.calls other = some held → held.key = call.key →
      ¬s.Unexpired held
  /-- With a token that is not the current one, nothing is changed. -/
  inert : ∀ id call, action.Uses id → s.calls id = some call →
    (s.lockAt backend call.key).map LockRecord.ownerToken ≠ some id → s.SameLocks after
  /-- When the token was replaced, a renewal is answered so and extends nothing. -/
  refused : ∀ id call, action = .renewalTakesEffect id → s.calls id = some call →
    s.Replaced id call →
    s.SameLocks after ∧ ∃ call', after.calls id = some call' ∧ call'.replies = false :: call.replies
  /-- When that answer returns, the call is told, unless its heartbeat has ended. -/
  told : ∀ id call, action = .renewalReturns id false → s.calls id = some call →
    call.heartbeat = .running →
    ∃ call', after.calls id = some call' ∧ call'.lost = true
  registered : after.Registered
  /-- A release takes no other entry out of a registry. -/
  cleanup : ∀ id, action = .releaseReturns id → ∀ process key other, other ≠ id →
    s.heldLocks process key = some other → after.heldLocks process key = some other

/-- Nobody steals. -/
def NotStealing : LockAction → Prop
  | .claimTransientLock _ _ _ _ steal _ => steal = false
  | _ => True

instance : DecidablePred NotStealing
  | .claimTransientLock _ _ _ _ steal _ => inferInstanceAs (Decidable (steal = false))
  | .claimTakesEffect _ | .claimReturns _ | .startHeartbeat _ | .stopHeartbeat _ | .fireHeartbeat _
  | .renewalTakesEffect _ | .renewalReturns _ _ | .releaseTransientLock _ | .releaseTakesEffect _ |
    .releaseReturns _
  | .shutdown _ | .shutdownReleaseTakesEffect _ | .wait _ => inferInstanceAs (Decidable True)

end Laws

/-! ## Locks -/

section Locks

variable {backend : LockBackend} {s : LockState} {id : ℕ} {key other : String}
  {record : Option LockRecord}
  {call : LockCall}

theorem lockAt_setLock : (s.setLock backend key record).lockAt backend other =
    if other = key then record else s.lockAt backend other := by
  cases backend <;> simp [LockState.setLock, LockState.lockAt, Function.update_apply]

@[simp] theorem lockAt_setCall : (s.setCall id call).lockAt backend key = s.lockAt backend key := by
  cases backend <;> rfl

@[simp] theorem setLock_calls :
    (s.setLock backend key record).calls = s.calls := by cases backend <;> rfl

@[simp] theorem setLock_now : (s.setLock backend key record).now = s.now := by cases backend <;> rfl

@[simp] theorem setLock_owners :
    (s.setLock backend key record).owners = s.owners := by cases backend <;> rfl

@[simp] theorem setLock_heldLocks : (s.setLock backend key record).heldLocks = s.heldLocks := by
  cases backend <;> rfl

@[simp] theorem setLock_lastRegistered :
    (s.setLock backend key record).lastRegistered = s.lastRegistered := by
  cases backend <;> rfl

theorem setLock_lockAt : s.setLock backend key (s.lockAt backend key) = s := by
  cases backend <;> simp [LockState.setLock, LockState.lockAt]

theorem calls_setCall {found : LockCall} {n : ℕ} (h : (s.setCall id call).calls n = some found) :
    n = id ∧ found = call ∨ n ≠ id ∧ s.calls n = some found := by
  simp only [LockState.setCall, Function.update_apply] at h
  split at h
  · next heq => exact Or.inl ⟨heq, (Option.some.inj h).symm⟩
  · next hne => exact Or.inr ⟨hne, h⟩

/-- A claim that is answered takes the lock for its token, or leaves it as it is. -/
theorem claimLock_cases {now token : ℕ} {existing after : Option LockRecord} {ttlSeconds : ℚ}
    {steal acquired : Bool}
    (h : claimLock backend now existing token ttlSeconds steal = some (acquired, after)) :
    (acquired = false ∧ after = existing) ∨
      acquired = true ∧ after = some ⟨token, expiryAt now ttlSeconds⟩ ∧
      (steal = false → ∀ held, existing = some held → (now : ℚ) < held.expiresAt →
        held.ownerToken = token) := by
  unfold claimLock at h
  cases backend with
  | submissionLock withCache =>
    simp only [handleClaim] at h
    split_ifs at h with httl hheld
    · obtain ⟨rfl, rfl⟩ := Prod.mk.inj (Option.some.inj h)
      exact Or.inl ⟨rfl, rfl⟩
    · obtain ⟨rfl, rfl⟩ := Prod.mk.inj (Option.some.inj h)
      refine Or.inr ⟨rfl, rfl, fun hsteal held hexisting hlive => ?_⟩
      by_contra hother
      refine hheld ?_
      simp [hsteal, hexisting, hlive, hother]
  | cache =>
    cases steal with
    | true =>
      simp only [cacheSet, if_true] at h
      split_ifs at h
      · obtain ⟨rfl, rfl⟩ := Prod.mk.inj (Option.some.inj h)
        exact Or.inr ⟨rfl, rfl, nofun⟩
      · cases h
    | false =>
      simp only [cacheClaim, Bool.false_eq_true, if_false] at h
      split_ifs at h with hexpiry hheld
      · obtain ⟨rfl, rfl⟩ := Prod.mk.inj (Option.some.inj h)
        exact Or.inl ⟨rfl, rfl⟩
      · obtain ⟨rfl, rfl⟩ := Prod.mk.inj (Option.some.inj h)
        refine Or.inr ⟨rfl, rfl, fun _ held hexisting hlive => absurd ?_ hheld⟩
        simp [cacheGet, hexisting, hlive]

/-- A release takes the lock of its token away, or leaves the lock as it is. -/
theorem releaseLock_cases (backend : LockBackend) (now token : ℕ) (existing : Option LockRecord) :
    (existing.map LockRecord.ownerToken = some token ∧
      releaseLock backend now existing token = none) ∨
      releaseLock backend now existing token = existing := by
  unfold releaseLock
  cases backend with
  | submissionLock withCache =>
    simp only [handleRelease]
    split_ifs with howner
    · obtain ⟨held, hheld, htoken⟩ := (any_eq_true _ _).1 howner
      exact Or.inl ⟨by simp [hheld, beq_iff_eq.1 htoken], rfl⟩
    · exact Or.inr rfl
  | cache =>
    simp only [cacheReleaseIfValue]
    split_ifs with howner
    · obtain ⟨held, hheld, htoken⟩ := (any_eq_true _ _).1 howner
      have hexisting := (filter_eq_some_iff.1 hheld).1
      exact Or.inl ⟨by simp [hexisting, beq_iff_eq.1 htoken], rfl⟩
    · exact Or.inr rfl

/-- A renewal extends the lock of its token, or leaves the entry as it is; it extends one that has
not lapsed. -/
theorem cacheRenewIfValue_cases (now token : ℕ) (existing : Option LockRecord) (ttlSeconds : ℚ) :
    (existing.map LockRecord.ownerToken = some token ∧
      cacheRenewIfValue now existing token ttlSeconds =
        (true, some ⟨token, expiryAt now ttlSeconds⟩)) ∨
    (cacheRenewIfValue now existing token ttlSeconds = (false, existing) ∧
      ∀ t, existing = some ⟨token, t⟩ → ¬(now : ℚ) < t) := by
  unfold cacheRenewIfValue
  split_ifs with howner
  · obtain ⟨held, hheld, htoken⟩ := (any_eq_true _ _).1 howner
    have hexisting := (filter_eq_some_iff.1 hheld).1
    exact Or.inl ⟨by simp [hexisting, beq_iff_eq.1 htoken], rfl⟩
  · refine Or.inr ⟨rfl, fun t hexisting hlive => howner ?_⟩
    simp [cacheGet, hexisting, hlive]

end Locks

/-! ## What the steps keep -/

structure Held (backend : LockBackend) (s : LockState) : Prop where
  lock : ∀ id call, s.calls id = some call → ∀ t, call.grantedUntil = some t → (s.now : ℚ) < t →
    s.lockAt backend call.key = some ⟨id, t⟩
  owner : ∀ key record, s.lockAt backend key = some record →
    (s.owners key).head? = some record.ownerToken
  started : ∀ key id, id ∈ s.owners key → ∃ call, s.calls id = some call ∧ call.stage ≠ .claiming
  nodup : ∀ key, (s.owners key).Nodup
  cacheEmpty : backend ≠ .cache → ∀ key, s.cache key = none
  heldLocks : ∀ process key id, s.heldLocks process key = some id →
    s.lastRegistered process key = some id
  known : ∀ process key id, s.lastRegistered process key = some id →
    ∃ call, s.calls id = some call ∧ call.process = process ∧ call.key = key
  registered : s.Registered
  honest : ∀ id call, s.calls id = some call → call.steal = false

/-- What a call may change without a word to the backend or the registry. -/
structure LockCall.Follows (call call' : LockCall) : Prop where
  steal : call'.steal = call.steal
  process : call'.process = call.process
  key : call'.key = call.key
  granted : ∀ t, call'.grantedUntil = some t → call.grantedUntil = some t
  started : call.stage ≠ .claiming → call'.stage ≠ .claiming
  done : call'.stage ≠ .done → call.stage ≠ .done
  shutdown : call'.shutdown = .absent → call.shutdown = .absent

section Steps

variable {backend : LockBackend} {s after : LockState} {id : ℕ} {call call' : LockCall}

theorem LockCall.Follows.refl (call : LockCall) : call.Follows call :=
  ⟨rfl, rfl, rfl, fun _ => id, id, id, id⟩

theorem LockCall.follows_stage {before stage : LockStage} (hstage : call.stage = before)
    (hnot : before ≠ .done) (hstarted : stage ≠ .claiming) : call.Follows { call with stage :=
  stage } :=
  ⟨rfl, rfl, rfl, fun _ h => h, fun _ => hstarted, fun _ => hstage ▸ hnot, fun h => h⟩

theorem LockCall.follows_heartbeat (call : LockCall) (heartbeat : HeartbeatState) (requests : ℕ)
    (replies : List Bool) (lost : Bool) : call.Follows
      { call with
        heartbeat := heartbeat, requests := requests, replies := replies, lost := lost } :=
  ⟨rfl, rfl, rfl, fun _ h => h, fun h => h, fun h => h, fun h => h⟩

theorem held_noLocks (backend : LockBackend) : Held backend noLocks := by
  refine ⟨?_, ?_, ?_, ?_, ?_, ?_, ?_, ?_, ?_⟩
  · intro id call hcall
    cases hcall
  · intro key record hrecord
    cases backend <;> cases hrecord
  · intro key id hid
    cases hid
  · exact fun _ => nodup_nil
  · exact fun _ _ => rfl
  · intro process key id hid
    cases hid
  · intro process key id hid
    cases hid
  · intro process key id hid
    cases hid
  · intro id call hcall
    cases hcall

theorem Held.setCall (h : Held backend s) (hcall : s.calls id = some call)
    (hfollows : call.Follows call') :
    Held backend (s.setCall id call') := by
  have hcalls : ∀ n found, s.calls n = some found →
      ∃ found', (s.setCall id call').calls n = some found' ∧
      found.Follows found' := by
    intro n found hfound
    by_cases heq : n = id
    · subst heq
      obtain rfl := Option.some.inj (hcall.symm.trans hfound)
      exact ⟨call', Function.update_self .., hfollows⟩
    · exact ⟨found, (Function.update_of_ne heq _ _).trans hfound, .refl found⟩
  refine ⟨fun n found hfound t ht hlive => ?_, fun key record hrecord => ?_,
    fun key n hn => ?_, h.nodup,
    h.cacheEmpty, h.heldLocks, fun process key n hn => ?_,
      fun process key n hn found hfound hdone hshut => ?_,
    fun n found hfound => ?_⟩
  · rw [lockAt_setCall]
    rcases calls_setCall hfound with ⟨rfl, rfl⟩ | ⟨-, hfound⟩
    · rw [hfollows.key]
      exact h.lock n call hcall t (hfollows.granted t ht) hlive
    · exact h.lock n found hfound t ht hlive
  · rw [lockAt_setCall] at hrecord
    exact h.owner key record hrecord
  · obtain ⟨found, hfound, hstage⟩ := h.started key n hn
    obtain ⟨found', hfound', hfollows'⟩ := hcalls n found hfound
    exact ⟨found', hfound', hfollows'.started hstage⟩
  · obtain ⟨found, hfound, hprocess, hkey⟩ := h.known process key n hn
    obtain ⟨found', hfound', hfollows'⟩ := hcalls n found hfound
    exact ⟨found', hfound', hfollows'.process.trans hprocess, hfollows'.key.trans hkey⟩
  · rcases calls_setCall hfound with ⟨rfl, rfl⟩ | ⟨-, hfound⟩
    · exact h.registered process key n hn call hcall (hfollows.done hdone) (hfollows.shutdown hshut)
    · exact h.registered process key n hn found hfound hdone hshut
  · rcases calls_setCall hfound with ⟨rfl, rfl⟩ | ⟨-, hfound⟩
    · exact hfollows.steal.trans (h.honest n call hcall)
    · exact h.honest n found hfound

/-- Where a call has the lock, no other call has it. -/
theorem Held.not_unexpired (h : Held backend s) {n : ℕ} {found : LockCall}
    (howner : (s.lockAt backend found.key).map LockRecord.ownerToken = some id)
    (hfound : s.calls n = some found) (hne : n ≠ id) : ¬s.Unexpired found := by
  rintro ⟨t, ht, hlive⟩
  rw [h.lock n found hfound t ht hlive] at howner
  exact hne (Option.some.inj howner)

/-- A call is granted the lock that no other call has. -/
theorem Held.grant (h : Held backend s) {owners : String → List ℕ} {t : ℚ}
    (hcall : s.calls id = some call)
    (hfree : ∀ n found, n ≠ id → s.calls n = some found → found.key = call.key → ¬s.Unexpired found)
    (hothers : ∀ key, key ≠ call.key → owners key = s.owners key)
    (hhead : (owners call.key).head? = some id) (hnodup : (owners call.key).Nodup)
    (hsubset : ∀ n ∈ owners call.key, n = id ∨ n ∈ s.owners call.key)
    (hgranted : call'.grantedUntil = some t) (hstarted : call'.stage ≠ .claiming)
    (hfollows : call.Follows { call' with grantedUntil := call.grantedUntil }) :
    Held backend ((({ s with owners := owners } : LockState).setLock backend call.key
      (some ⟨id, t⟩)).setCall id
      call') := by
  have hkeep := h.setCall hcall hfollows
  refine ⟨fun n found hfound t' ht' hlive => ?_, fun key record hrecord => ?_, fun key n hn => ?_,
    fun key => ?_,
    fun hbackend key => ?_, ?_, fun process key n hn => ?_,
      fun process key n hn found hfound hdone hshut => ?_,
    fun n found hfound => ?_⟩
  · rw [lockAt_setCall, lockAt_setLock]
    rcases calls_setCall hfound with ⟨rfl, rfl⟩ | ⟨hne, hold⟩
    · rw [if_pos hfollows.key]
      rw [hgranted] at ht'
      rw [Option.some.inj ht']
    · rw [setLock_calls] at hold
      have hlive' : (s.now : ℚ) < t' := by simpa [LockState.setCall] using hlive
      rw [if_neg fun hkey => hfree n found hne hold hkey ⟨t', ht', hlive'⟩]
      cases backend <;> exact h.lock n found hold t' ht' hlive'
  · rw [lockAt_setCall, lockAt_setLock] at hrecord
    simp only [LockState.setCall, setLock_owners]
    by_cases hkey : key = call.key
    · rw [if_pos hkey] at hrecord
      rw [hkey, hhead, ← Option.some.inj hrecord]
    · rw [if_neg hkey] at hrecord
      rw [hothers key hkey]
      refine h.owner key record ?_
      cases backend <;> exact hrecord
  · simp only [LockState.setCall, setLock_owners] at hn
    have hmem : n = id ∨ n ∈ s.owners key := by
      by_cases hkey : key = call.key
      · rw [hkey] at hn ⊢
        exact hsubset n hn
      · rw [hothers key hkey] at hn
        exact Or.inr hn
    by_cases heq : n = id
    · subst heq
      exact ⟨call', Function.update_self .., hstarted⟩
    · obtain ⟨found, hfound, hstage⟩ := h.started key n (hmem.resolve_left heq)
      refine ⟨found, ?_, hstage⟩
      simp only [LockState.setCall, setLock_calls]
      exact (Function.update_of_ne heq _ _).trans hfound
  · simp only [LockState.setCall, setLock_owners]
    by_cases hkey : key = call.key
    · rw [hkey]
      exact hnodup
    · rw [hothers key hkey]
      exact h.nodup key
  · cases backend with
    | submissionLock withCache => exact h.cacheEmpty hbackend key
    | cache => exact absurd rfl hbackend
  · simp only [LockState.setCall, setLock_heldLocks, setLock_lastRegistered]
    exact h.heldLocks
  · simp only [LockState.setCall, setLock_lastRegistered] at hn
    obtain ⟨found, hfound, hprocess, hkey⟩ := hkeep.known process key n hn
    simp only [LockState.setCall, setLock_calls, Function.update_apply] at hfound ⊢
    by_cases heq : n = id
    · rw [if_pos heq] at hfound ⊢
      obtain rfl := Option.some.inj hfound
      exact ⟨call', rfl, hprocess, hkey⟩
    · rw [if_neg heq] at hfound ⊢
      exact ⟨found, hfound, hprocess, hkey⟩
  · simp only [LockState.setCall, setLock_lastRegistered, setLock_heldLocks] at hn ⊢
    rcases calls_setCall hfound with ⟨rfl, rfl⟩ | ⟨-, hfound⟩
    · exact h.registered process key n hn call hcall (hfollows.done hdone) (hfollows.shutdown hshut)
    · rw [setLock_calls] at hfound
      exact h.registered process key n hn found hfound hdone hshut
  · rcases calls_setCall hfound with ⟨rfl, rfl⟩ | ⟨-, hfound⟩
    · exact hfollows.steal.trans (h.honest n call hcall)
    · rw [setLock_calls] at hfound
      exact h.honest n found hfound

/-- A release gives up the lock of its own token only. -/
theorem Held.release (h : Held backend s) (hcall : s.calls id = some call)
    (hfollows : call.Follows call') :
    Held backend (s.release backend id call') := by
  have hgiven : call.Follows { call' with grantedUntil := none } :=
    ⟨hfollows.steal, hfollows.process, hfollows.key, fun t ht => absurd ht.symm (some_ne_none t),
      hfollows.started, hfollows.done, hfollows.shutdown⟩
  unfold LockState.release
  rcases releaseLock_cases backend s.now id (s.lockAt backend call'.key) with ⟨howner, hnone⟩ |
    hsame
  · rw [hnone]
    have hkeep := h.setCall hcall hgiven
    refine ⟨fun n found hfound t ht hlive => ?_, fun key record hrecord => ?_, ?_, ?_,
      fun hbackend key => ?_, ?_, ?_,
      ?_, ?_⟩
    · rw [lockAt_setCall, lockAt_setLock]
      rcases calls_setCall hfound with ⟨rfl, rfl⟩ | ⟨hne, hfound⟩
      · cases ht
      · rw [setLock_calls] at hfound
        have hlive' : (s.now : ℚ) < t := by simpa [LockState.setCall] using hlive
        have hother : found.key ≠ call'.key := by
          intro hkey
          rw [← hkey] at howner
          exact h.not_unexpired howner hfound hne ⟨t, ht, hlive'⟩
        rw [if_neg hother]
        exact h.lock n found hfound t ht hlive'
    · rw [lockAt_setCall, lockAt_setLock] at hrecord
      simp only [LockState.setCall, setLock_owners]
      split_ifs at hrecord
      exact h.owner key record hrecord
    · simpa [LockState.setCall] using hkeep.started
    · simpa [LockState.setCall] using hkeep.nodup
    · cases backend with
      | submissionLock withCache => exact h.cacheEmpty hbackend key
      | cache => exact absurd rfl hbackend
    · simpa [LockState.setCall] using hkeep.heldLocks
    · simpa [LockState.setCall] using hkeep.known
    · simpa [LockState.setCall, LockState.Registered] using hkeep.registered
    · simpa [LockState.setCall] using hkeep.honest
  · rw [hsame, setLock_lockAt]
    exact h.setCall hcall hgiven

theorem Held.register (h : Held backend s) (hcall : s.calls id = some call) :
    Held backend (s.register id call) := by
  unfold LockState.register
  split_ifs
  · have hupdate : ∀ {held : ℕ → String → Option ℕ} (process : ℕ) (key : String),
        Function.update held call.process (Function.update (held call.process) call.key (some id))
          process key =
          if process = call.process ∧ key = call.key then some id else held process key := by
      intro held process key
      by_cases hprocess : process = call.process
      · subst hprocess
        by_cases hkey : key = call.key <;> simp [hkey]
      · simp [hprocess]
    refine ⟨?_, ?_, h.started, h.nodup, h.cacheEmpty, fun process key n hn => ?_,
      fun process key n hn => ?_,
      fun process key n hn found hfound hdone hshut => ?_, h.honest⟩
    · cases backend <;> exact h.lock
    · cases backend <;> exact h.owner
    · simp only [hupdate] at hn ⊢
      split_ifs at hn ⊢
      · exact hn
      · exact h.heldLocks process key n hn
    · simp only [hupdate] at hn
      split_ifs at hn with hsame
      · obtain rfl := Option.some.inj hn
        exact ⟨call, hcall, hsame.1.symm, hsame.2.symm⟩
      · exact h.known process key n hn
    · simp only [hupdate] at hn ⊢
      split_ifs at hn ⊢
      · exact hn
      · exact h.registered process key n hn found hfound hdone hshut
  · exact h

/-- The entry of a call, and no other, is taken out. -/
theorem unregister_heldLocks {process n : ℕ} {key : String} :
    (s.unregister id call).heldLocks process key = some n ↔
    s.heldLocks process key = some n ∧ (process = call.process → key = call.key → n ≠ id) := by
  unfold LockState.unregister
  split_ifs with hentry
  · by_cases hprocess : process = call.process
    · subst hprocess
      by_cases hkey : key = call.key
      · subst hkey
        simp only [Function.update_self]
        refine iff_of_false (some_ne_none n ∘ Eq.symm) fun h => h.2 trivial trivial ?_
        exact Option.some.inj (h.1.symm.trans hentry)
      · simp [hkey]
    · simp [hprocess]
  · refine ⟨fun h => ⟨h, ?_⟩, fun h => h.1⟩
    rintro rfl rfl rfl
    exact hentry h

theorem Held.unregister (h : Held backend s) (hcall : s.calls id = some call)
    (hdone : call.stage = .done) :
    Held backend (s.unregister id call) := by
  have hlock : (s.unregister id call).now = s.now ∧ (s.unregister id call).durable = s.durable ∧
      (s.unregister id call).cache = s.cache ∧ (s.unregister id call).calls = s.calls ∧
      (s.unregister id call).owners = s.owners ∧
        (s.unregister id call).lastRegistered = s.lastRegistered := by
    unfold LockState.unregister
    split_ifs <;> exact ⟨rfl, rfl, rfl, rfl, rfl, rfl⟩
  obtain ⟨hnow, hdurable, hcache, hcalls, howners, hlast⟩ := hlock
  have hlockAt : ∀ key, (s.unregister id call).lockAt backend key = s.lockAt backend key := by
    intro key
    cases backend
    · exact congrFun hdurable key
    · exact congrFun hcache key
  refine ⟨?_, ?_, ?_, ?_, ?_, fun process key n hn => ?_, ?_,
    fun process key n hn found hfound hnot hshut => ?_, ?_⟩
  · simpa only [hlockAt, hcalls, hnow] using h.lock
  · simpa only [hlockAt, howners] using h.owner
  · simpa only [hcalls, howners] using h.started
  · simpa only [howners] using h.nodup
  · simpa only [hcache] using h.cacheEmpty
  · rw [hlast]
    exact h.heldLocks process key n (unregister_heldLocks.1 hn).1
  · simpa only [hcalls, hlast] using h.known
  · rw [hlast] at hn
    rw [hcalls] at hfound
    refine unregister_heldLocks.2 ⟨h.registered process key n hn found hfound hnot hshut,
      fun _ _ hn => ?_⟩
    subst hn
    obtain rfl := Option.some.inj (hcall.symm.trans hfound)
    exact hnot hdone
  · simpa only [hcalls] using h.honest

theorem Held.shutDown (h : Held backend s) (process : ℕ) : Held backend (s.shutDown process) := by
  have hcalls : ∀ n found, (s.shutDown process).calls n = some found →
      ∃ call, s.calls n = some call ∧
      found = if s.heldLocks process call.key = some n then { call with shutdown := .pending }
        else call := by
    intro n found hfound
    obtain ⟨call, hcall, rfl⟩ := map_eq_some_iff.1 hfound
    exact ⟨call, hcall, rfl⟩
  have hkept : ∀ n call, s.calls n = some call →
      ∃ found, (s.shutDown process).calls n = some found ∧
      found.process = call.process ∧ found.key = call.key ∧ found.stage = call.stage := by
    intro n call hcall
    refine ⟨_, map_eq_some_iff.2 ⟨call, hcall, rfl⟩, ?_⟩
    split_ifs <;> exact ⟨rfl, rfl, rfl⟩
  refine ⟨fun n found hfound t ht hlive => ?_, ?_, fun key n hn => ?_, h.nodup, h.cacheEmpty,
    fun other key n hn => ?_, fun other key n hn => ?_,
      fun other key n hn found hfound hdone hshut => ?_,
    fun n found hfound => ?_⟩
  · obtain ⟨call, hcall, rfl⟩ := hcalls n found hfound
    have hlock : call.grantedUntil = some t → s.lockAt backend call.key = some ⟨n, t⟩ := fun ht =>
      h.lock n call hcall t ht hlive
    split_ifs at ht ⊢ <;> cases backend <;> exact hlock ht
  · cases backend <;> exact h.owner
  · obtain ⟨call, hcall, hstage⟩ := h.started key n hn
    obtain ⟨found, hfound, -, -, hsame⟩ := hkept n call hcall
    exact ⟨found, hfound, hsame ▸ hstage⟩
  · simp only [LockState.shutDown, Function.update_apply] at hn ⊢
    split_ifs at hn
    exact h.heldLocks other key n hn
  · obtain ⟨call, hcall, hprocess, hkey⟩ := h.known other key n hn
    obtain ⟨found, hfound, hprocess', hkey', -⟩ := hkept n call hcall
    exact ⟨found, hfound, hprocess'.trans hprocess, hkey'.trans hkey⟩
  · obtain ⟨call, hcall, rfl⟩ := hcalls n found hfound
    obtain ⟨call', hcall', hprocess, hkey⟩ := h.known other key n hn
    obtain rfl := Option.some.inj (hcall.symm.trans hcall')
    by_cases hentry : s.heldLocks process call.key = some n
    · rw [if_pos hentry] at hshut
      cases hshut
    · rw [if_neg hentry] at hdone hshut
      have hheld := h.registered other key n hn call hcall hdone hshut
      simp only [LockState.shutDown, Function.update_apply]
      rw [if_neg, hheld]
      rintro rfl
      exact hentry (hkey ▸ hheld)
  · obtain ⟨call, hcall, rfl⟩ := hcalls n found hfound
    split_ifs <;> exact h.honest n call hcall

/-- A renewal extends the lock of its own token only. -/
theorem Held.renew (h : Held backend s) (hcall : s.calls id = some call)
    (hstep : s.advance backend id call (.renewalTakesEffect id) = some after) :
    Held backend after := by
  simp only [LockState.advance] at hstep
  split at hstep
  · cases hstep
  · next requests _ =>
    obtain rfl := Option.some.inj hstep
    rcases cacheRenewIfValue_cases s.now id (s.cache call.key) call.ttlSeconds with ⟨howner,
      hrenewed⟩ | ⟨hsame, -⟩
    · rw [hrenewed]
      cases backend with
      | submissionLock withCache =>
        rw [h.cacheEmpty LockBackend.noConfusion call.key] at howner
        cases howner
      | cache =>
        obtain ⟨record, hrecord, htoken⟩ := map_eq_some_iff.1 howner
        have hhead := h.owner call.key record hrecord
        rw [htoken] at hhead
        have hmem : id ∈ s.owners call.key := mem_of_mem_head? hhead
        obtain ⟨found, hfound, hstarted⟩ := h.started call.key id hmem
        obtain rfl := Option.some.inj (hcall.symm.trans hfound)
        exact h.grant hcall (fun n found hne hfound hkey =>
          h.not_unexpired (hkey ▸ howner) hfound hne)
          (fun key _ => rfl) hhead (h.nodup _) (fun n hn => Or.inr hn) rfl hstarted
            (call.follows_heartbeat _ _ _ _)
    · rw [hsame]
      dsimp only
      rw [Function.update_eq_self, if_neg Bool.false_ne_true]
      exact h.setCall hcall (call.follows_heartbeat _ _ _ _)

/-- Every step keeps the locks and the registries with the calls. -/
theorem Held.step {action : LockAction} (h : Held backend s) (hsteal : NotStealing action)
    (hstep : s.step backend action = some after) : Held backend after := by
  have hadvance : ∀ id, action.call? = some id → ∃ call, s.calls id = some call ∧
      s.advance backend id call action = some after := by
    intro id hid
    cases action <;> cases hid <;> exact bind_eq_some_iff.1 hstep
  cases action with
  | claimTransientLock id process key ttlSeconds steal registers =>
    simp only [LockState.step] at hstep
    split_ifs at hstep with hnew
    obtain rfl := Option.some.inj hstep
    refine ⟨fun n found hfound t ht hlive => ?_, ?_, fun key n hn => ?_, h.nodup, h.cacheEmpty,
      h.heldLocks,
      fun process key n hn => ?_, fun process key n hn found hfound hdone hshut => ?_,
        fun n found hfound => ?_⟩
    · rcases calls_setCall hfound with ⟨rfl, rfl⟩ | ⟨-, hfound⟩
      · cases ht
      · exact h.lock n found hfound t ht hlive
    · exact h.owner
    · obtain ⟨found, hfound, hstage⟩ := h.started key n hn
      refine ⟨found, (Function.update_of_ne ?_ _ _).trans hfound, hstage⟩
      rintro rfl
      rw [hnew] at hfound
      cases hfound
    · obtain ⟨found, hfound, hknown⟩ := h.known process key n hn
      refine ⟨found, (Function.update_of_ne ?_ _ _).trans hfound, hknown⟩
      rintro rfl
      rw [hnew] at hfound
      cases hfound
    · obtain ⟨old, hold, -⟩ := h.known process key n hn
      rcases calls_setCall hfound with ⟨rfl, -⟩ | ⟨-, hfound⟩
      · rw [hnew] at hold
        cases hold
      · exact h.registered process key n hn found hfound hdone hshut
    · rcases calls_setCall hfound with ⟨rfl, rfl⟩ | ⟨-, hfound⟩
      · exact hsteal
      · exact h.honest n found hfound
  | claimTakesEffect id =>
    obtain ⟨call, hcall, hstep⟩ := hadvance id rfl
    simp only [LockState.advance] at hstep
    split_ifs at hstep with hstage
    obtain ⟨⟨acquired, record⟩, hclaim, rfl⟩ := map_eq_some_iff.1 hstep
    rcases claimLock_cases hclaim with ⟨rfl, rfl⟩ | ⟨rfl, rfl, hfree⟩
    · dsimp only
      rw [if_neg Bool.false_ne_true, setLock_lockAt]
      exact h.setCall hcall (call.follows_stage hstage nofun nofun)
    · have hnone : id ∉ s.owners call.key := by
        intro hmem
        obtain ⟨found, hfound, hstarted⟩ := h.started call.key id hmem
        obtain rfl := Option.some.inj (hcall.symm.trans hfound)
        exact hstarted hstage
      dsimp only
      rw [if_pos rfl]
      refine h.grant hcall (fun n found hne hfound hkey ⟨t, ht, hlive⟩ => ?_)
        (fun key hkey => ?_) ?_ ?_
        (fun n hn => ?_) rfl LockStage.noConfusion (call.follows_stage hstage nofun nofun)
      · -- the other call has the record
        have hlock := h.lock n found hfound t ht hlive
        rw [hkey] at hlock
        exact hne (hfree (h.honest id call hcall) _ hlock hlive)
      · exact Function.update_of_ne hkey _ _
      · rw [Function.update_self]
        rfl
      · rw [Function.update_self]
        exact nodup_cons.2 ⟨hnone, h.nodup call.key⟩
      · rw [Function.update_self] at hn
        exact mem_cons.1 hn
  | claimReturns id =>
    obtain ⟨call, hcall, hstep⟩ := hadvance id rfl
    simp only [LockState.advance] at hstep
    split at hstep
    · next hstage =>
      obtain rfl := Option.some.inj hstep
      refine (h.register hcall).setCall ?_ (call.follows_stage hstage nofun nofun)
      unfold LockState.register
      split_ifs <;> exact hcall
    · next hstage =>
      obtain rfl := Option.some.inj hstep
      exact h.setCall hcall (call.follows_stage hstage nofun nofun)
    · cases hstep
  | renewalTakesEffect id =>
    obtain ⟨call, hcall, hstep⟩ := hadvance id rfl
    exact h.renew hcall hstep
  | startHeartbeat id | stopHeartbeat id | fireHeartbeat id | renewalReturns id stillOurs =>
    obtain ⟨call, hcall, hstep⟩ := hadvance id rfl
    simp only [LockState.advance] at hstep
    split_ifs at hstep <;> cases hstep <;> exact h.setCall hcall (call.follows_heartbeat _ _ _ _)
  | releaseTransientLock id =>
    obtain ⟨call, hcall, hstep⟩ := hadvance id rfl
    simp only [LockState.advance] at hstep
    split_ifs at hstep with hstage
    obtain rfl := Option.some.inj hstep
    exact h.setCall hcall (call.follows_stage hstage nofun nofun)
  | releaseTakesEffect id =>
    obtain ⟨call, hcall, hstep⟩ := hadvance id rfl
    simp only [LockState.advance] at hstep
    split_ifs at hstep with hstage
    obtain rfl := Option.some.inj hstep
    exact h.release hcall (call.follows_stage hstage nofun nofun)
  | releaseReturns id =>
    obtain ⟨call, hcall, hstep⟩ := hadvance id rfl
    simp only [LockState.advance] at hstep
    split_ifs at hstep with hstage
    obtain rfl := Option.some.inj hstep
    have hfollows : call.Follows { call with stage := .done } :=
      call.follows_stage hstage nofun nofun
    have hdone := (h.setCall hcall hfollows).unregister (Function.update_self ..) rfl
    have hswap : (s.setCall id { call with stage := .done }).unregister id
        { call with stage := .done } =
        (s.unregister id call).setCall id { call with stage := .done } := by
      unfold LockState.unregister LockState.setCall
      split_ifs <;> rfl
    rwa [hswap] at hdone
  | shutdown process =>
    obtain rfl := Option.some.inj hstep
    exact h.shutDown process
  | shutdownReleaseTakesEffect id =>
    obtain ⟨call, hcall, hstep⟩ := hadvance id rfl
    simp only [LockState.advance] at hstep
    split_ifs at hstep with hpending
    obtain rfl := Option.some.inj hstep
    refine h.release hcall ⟨rfl, rfl, rfl, fun _ h => h, fun h => h, fun h => h, fun h => ?_⟩
    cases h
  | wait ms =>
    obtain rfl := Option.some.inj hstep
    refine ⟨fun n found hfound t ht hlive => ?_, ?_, h.started, h.nodup, h.cacheEmpty,
      h.heldLocks, h.known,
      h.registered, h.honest⟩
    · have hbefore : (s.now : ℚ) < t := by
        refine lt_of_le_of_lt ?_ hlive
        exact_mod_cast Nat.le_add_right s.now ms
      have hlock := h.lock n found hfound t ht hbefore
      cases backend <;> exact hlock
    · cases backend <;> exact h.owner

/-- A renewal with a token that the cache does not have is answered so. -/
theorem renewal_refused (hother : (s.cache call.key).map LockRecord.ownerToken ≠ some id)
    (hstep : s.advance backend id call (.renewalTakesEffect id) = some after) :
    s.SameLocks after ∧ ∃ call', after.calls id = some call' ∧
      call'.replies = false :: call.replies := by
  simp only [LockState.advance] at hstep
  split at hstep
  · cases hstep
  · obtain rfl := Option.some.inj hstep
    rcases cacheRenewIfValue_cases s.now id (s.cache call.key) call.ttlSeconds with ⟨howner, -⟩ |
      ⟨hsame, -⟩
    · exact absurd howner hother
    · rw [hsame]
      exact ⟨⟨rfl, Function.update_eq_self _ _⟩, _, Function.update_self .., rfl⟩

/-- A release with a token that the lock does not have leaves it as it is. -/
theorem release_sameLocks
    (hother : (s.lockAt backend call.key).map LockRecord.ownerToken ≠ some id) :
    s.SameLocks (s.release backend id call) := by
  unfold LockState.release
  rcases releaseLock_cases backend s.now id (s.lockAt backend call.key) with ⟨howner, -⟩ | hsame
  · exact absurd howner hother
  · rw [hsame, setLock_lockAt]
    exact ⟨rfl, rfl⟩

/-- The cache has the token of a call only where the call has the lock. -/
theorem Held.lockAt_of_cache (h : Held backend s) {key : String}
    (hcache : (s.cache key).map LockRecord.ownerToken = some id) :
    (s.lockAt backend key).map LockRecord.ownerToken = some id := by
  cases backend with
  | submissionLock withCache =>
    rw [h.cacheEmpty LockBackend.noConfusion key] at hcache
    cases hcache
  | cache => exact hcache

theorem Held.not_replaced (h : Held backend s)
    (howner : (s.lockAt backend call.key).map LockRecord.ownerToken = some id) :
    ¬s.Replaced id call := by
  obtain ⟨record, hrecord, htoken⟩ := map_eq_some_iff.1 howner
  have hhead := h.owner call.key record hrecord
  have hnodup := h.nodup call.key
  rw [htoken] at hhead
  intro hreplaced
  rw [LockState.Replaced] at hreplaced
  rw [← cons_head?_tail hhead] at hnodup
  exact (nodup_cons.1 hnodup).1 hreplaced

/-- **The laws of a step.** -/
theorem Held.laws {action : LockAction} (h : Held backend s) (hsteal : NotStealing action)
    (hstep : s.step backend action = some after) : LockLaws backend s action after := by
  have hadvance : ∀ id, action.call? = some id → ∀ call, s.calls id = some call →
      s.advance backend id call action = some after := by
    intro id hid call hcall
    have hbind : (s.calls id).bind (fun call => s.advance backend id call action) = some after := by
      cases action <;> cases hid <;> exact hstep
    rwa [hcall] at hbind
  refine ⟨?_, ?_, ?_, ?_, (h.step hsteal hstep).registered, ?_⟩
  · rintro id call rfl hafter hacquired other hne held hheld hkey ⟨t, ht, hlive⟩
    obtain ⟨before, hbefore, -⟩ := bind_eq_some_iff.1 hstep
    have hclaims := hadvance id rfl before hbefore
    simp only [LockState.advance] at hclaims
    split_ifs at hclaims
    obtain ⟨⟨acquired, record⟩, hclaim, rfl⟩ := map_eq_some_iff.1 hclaims
    rcases claimLock_cases hclaim with ⟨rfl, rfl⟩ | ⟨rfl, rfl, hfree⟩
    · dsimp only at hafter
      rw [if_neg Bool.false_ne_true] at hafter
      rcases calls_setCall hafter with ⟨-, rfl⟩ | ⟨hnot, -⟩
      · cases hacquired
      · exact hnot rfl
    · dsimp only at hafter
      rw [if_pos rfl] at hafter
      rcases calls_setCall hafter with ⟨-, rfl⟩ | ⟨hnot, -⟩
      swap
      · exact hnot rfl
      have hlock := h.lock other held hheld t ht hlive
      rw [hkey] at hlock
      exact hne (hfree (h.honest id before hbefore) _ hlock hlive)
  · rintro id call (rfl | rfl | rfl) hcall hother
    · have hrelease := hadvance id rfl call hcall
      simp only [LockState.advance] at hrelease
      split_ifs at hrelease
      obtain rfl := Option.some.inj hrelease
      exact release_sameLocks hother
    · have hrelease := hadvance id rfl call hcall
      simp only [LockState.advance] at hrelease
      split_ifs at hrelease
      obtain rfl := Option.some.inj hrelease
      exact release_sameLocks hother
    · exact (renewal_refused (fun hcache => hother (h.lockAt_of_cache hcache))
        (hadvance id rfl call hcall)).1
  · rintro id call rfl hcall hreplaced
    refine renewal_refused (fun hcache => ?_) (hadvance id rfl call hcall)
    exact h.not_replaced (h.lockAt_of_cache hcache) hreplaced
  · rintro id call rfl hcall hrunning
    have hreturns := hadvance id rfl call hcall
    simp only [LockState.advance] at hreturns
    split_ifs at hreturns with hreply htold
    · obtain rfl := Option.some.inj hreturns
      exact ⟨_, Function.update_self .., rfl⟩
    · simp [hrunning] at htold
  · rintro id rfl process key other hne hheld
    obtain ⟨call, hcall, -⟩ := bind_eq_some_iff.1 hstep
    have hreturns := hadvance id rfl call hcall
    simp only [LockState.advance] at hreturns
    split_ifs at hreturns
    obtain rfl := Option.some.inj hreturns
    exact unregister_heldLocks.2 ⟨hheld, fun _ _ => hne⟩

end Steps

/-! ## Runs -/

/-- **Transient locks have one owner.** In every run of calls that do not steal, on either backend,
every step obeys the laws. -/
theorem transient_locks_lawful (backend : LockBackend) (actions : List LockAction)
    (hsteal : AllSteps (LockState.step backend) (fun _ => NotStealing) noLocks actions) :
    AllSteps (LockState.step backend)
      (fun s action => ∀ after, s.step backend action = some after →
        LockLaws backend s action after) noLocks actions :=
  Runs.allSteps_of_invariant (Held backend) (fun _ _ h hsteal _ hstep => h.laws hsteal hstep)
    (fun _ _ _ h hsteal hstep => h.step hsteal hstep) (held_noLocks backend) hsteal

/-- A call acquires a lock of ten minutes. -/
def acquires (id : ℕ) : List LockAction :=
  [.claimTransientLock id 0 "pr-actuation-lock:acme/widgets#7" 600 false true, .claimTakesEffect id,
    .claimReturns id]

/-- The lock of the first call lapses, and the second call acquires it and releases it. -/
def lapsedRun : List LockAction :=
  acquires 0 ++ [.startHeartbeat 0, .wait 600000] ++ acquires 1 ++
    [.releaseTransientLock 1, .releaseTakesEffect 1, .releaseReturns 1]

/-- A renewal of the first call takes effect, and returns when the second call has acquired the
lock. -/
def lateRun : List LockAction :=
  acquires 0 ++ [.startHeartbeat 0, .fireHeartbeat 0, .renewalTakesEffect 0, .wait 600000] ++
    acquires 1 ++
    [.renewalReturns 0 true]

/-- A renewal is answered that the lock is not the first call's any more, and its heartbeat is
stopped. -/
def stoppedRun : List LockAction :=
  acquires 0 ++ [.startHeartbeat 0, .fireHeartbeat 0, .wait 600000] ++ acquires 1 ++
    [.renewalTakesEffect 0, .stopHeartbeat 0, .renewalReturns 0 false]

/-- The laws, in the run in which a lock lapses. -/
theorem transient_locks_lawful_lapsed :
    AllSteps (LockState.step .cache)
      (fun s action => ∀ after, s.step .cache action = some after →
        LockLaws .cache s action after) noLocks lapsedRun :=
  transient_locks_lawful .cache lapsedRun (by decide +kernel)

/-- A call that has returned and not begun its release has no entry, nor has its key. And a call
whose lock was replaced is not told by the next renewal that returns, where that one took effect
before or the heartbeat was stopped. -/
theorem stale_holder_unregistered :
    (∃ s ∈ run (LockState.step .cache) noLocks lapsedRun,
      (∃ call ∈ s.calls 0, call.stage = .holding ∧ call.registers = true) ∧
        s.heldLocks 0 "pr-actuation-lock:acme/widgets#7" = none) ∧
    (∃ s ∈ run (LockState.step .cache) noLocks lateRun, ∃ call ∈ s.calls 0,
      0 ∈ (s.owners call.key).tail ∧ call.heartbeat = .running ∧ call.replies = [] ∧
        call.lost = false) ∧
    ∃ s ∈ run (LockState.step .cache) noLocks stoppedRun, ∃ call ∈ s.calls 0,
      0 ∈ (s.owners call.key).tail ∧ call.stage = .holding ∧ call.replies = [] ∧
        call.lost = false := by
  decide +kernel

end LoopOver.Locks
