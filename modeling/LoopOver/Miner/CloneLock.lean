import LoopOver.Miner.Allocator

/-!
# The clone lock

`acquireRepoCloneLock` in `packages/loopover-miner/lib/repo-clone.ts` serialises the processes that
work on one clone: the holder is who has created the lockfile, and a waiter unlinks a lockfile that
it finds stale and tries again. The file system is shared and its operations are the steps: to
create the file, to write the owner into it, to read it, to stat it and to unlink whatever has its
path by then.

* `isOwnerStale` and `isIncompleteLockReclaimable` are the two verdicts on a lockfile, and `advance`
  the next step of a call.
* `LockHolds` ties the lockfile to the call that has it, and `step_holds` says that it is kept as
  long as a waiter unlinks no other file than the one it has read.
* **`clone_lock_exclusive`**: then no two live calls hold the lock.
* `clone_lock_shared` is a run in which two waiters reclaim the lock of one crashed holder and both
  get it.
-/

namespace LoopOver.CloneLock

open WorktreeAllocator (isProcessAlive)

/-! ## Data -/

/-- The record of the owner, as far as its fields are usable. -/
structure RepoCloneLockMeta where
  pid : Option ℤ
  host : Option String
  atMs : Option ℚ
  token : Option ℕ
  deriving DecidableEq

/-- A file at the path of the lock. It is empty until its creator has written its record. -/
structure LockFile where
  inode : ℕ
  creator : ℕ
  mtimeMs : ℕ
  content : Option RepoCloneLockMeta
  deriving DecidableEq

/-- The options that bound the wait; `none` stands for what is no finite number. -/
structure RepoCloneLockOptions where
  lockTimeoutMs : Option ℚ
  lockStaleMs : Option ℚ

/-- Where a call of `acquireRepoCloneLock` is, and the release it returns. -/
inductive Stage
  | opening
  /-- The file is there, and the clock was read. -/
  | reading (nowMs : ℕ)
  /-- The record of this file was read. -/
  | probing (nowMs seen : ℕ) (owner : RepoCloneLockMeta)
  /-- No record could be read of the file, if there was one. -/
  | statting (nowMs : ℕ) (seen : Option ℕ)
  /-- What was read was found stale. -/
  | unlinking (seen : Option ℕ)
  | waiting
  | created (inode createdAt : ℕ)
  /-- The record could not be written. -/
  | failed (inode createdAt : ℕ) (message : String)
  | holding (token : ℕ)
  | releasing (token : ℕ)
  /-- The lockfile has the token of the call. -/
  | removing (token : ℕ)
  | released
  | thrown (message : String)
  deriving DecidableEq

structure Call where
  pid : ℤ
  staleMs : ℚ
  deadline : ℚ
  stage : Stage

/-! ## Verdicts -/

/-- `DEFAULT_LOCK_TIMEOUT_MS`. -/
def defaultLockTimeoutMs : ℚ := 10 * 60 * 1000

/-- `DEFAULT_LOCK_STALE_MS`. -/
def defaultLockStaleMs : ℚ := 15 * 60 * 1000

/-- `DEFAULT_LOCK_INCOMPLETE_GRACE_MS`. -/
def defaultLockIncompleteGraceMs : ℕ := 5000

/-- The verdict on a file without a record, from its stat. -/
def isIncompleteLockReclaimable (nowMs : ℕ) (stat : Option ℕ) : Bool :=
  match stat with
  | none => true
  | some mtimeMs => mtimeMs + defaultLockIncompleteGraceMs < nowMs

/-- The verdict on a record: an owner of this host is asked for, and any other one goes by its
age. -/
def isOwnerStale (hostname : String) (running : ℤ → Bool) (owner : RepoCloneLockMeta) (nowMs : ℕ)
    (staleMs : ℚ) :
    Bool :=
  match owner.pid.filter fun _ => owner.host == some hostname with
  | some pid => !isProcessAlive running pid
  | none =>
    match owner.atMs with
    | none => true
    | some atMs => staleMs < nowMs - atMs

/-! ## Steps -/

/-- The lockfile, if there is one, the processes that run, and the calls. -/
structure LockState where
  file : Option LockFile
  lastInode : ℕ
  lastToken : ℕ
  now : ℕ
  running : ℤ → Bool
  calls : ℕ → Option Call

def LockState.setCall (s : LockState) (id : ℕ) (call : Call) : LockState :=
  { s with calls := Function.update s.calls id (some call) }

/-- The record goes to the file that the call has open, wherever its path leads by now. -/
def writeLock (inode : ℕ) (owner : RepoCloneLockMeta) (now : ℕ) (file : Option LockFile) :
    Option LockFile :=
  file.map fun file => if file.inode = inode then
    { file with content := some owner, mtimeMs := now } else file

/-- The next step of a call; `fault` is an error of the operation, where the code expects one. -/
def advance (hostname : String) (id : ℕ) (call : Call) (fault : Option String) (s : LockState) :
    Option LockState :=
  let goto (s : LockState) (stage : Stage) : Option LockState :=
    some (s.setCall id { call with stage := stage })
  match call.stage with
  | .opening =>
    match fault, s.file with
    | some message, _ => goto s (.thrown message)
    | none, some _ => goto s (.reading s.now)
    | none, none =>
      goto { s with file := some ⟨s.lastInode + 1, id, s.now, none⟩, lastInode := s.lastInode + 1 }
        (.created (s.lastInode + 1) s.now)
  | .reading nowMs =>
    match s.file with
    | none => goto s (.statting nowMs none)
    | some file =>
      match file.content with
      | none => goto s (.statting nowMs (some file.inode))
      | some owner => goto s (.probing nowMs file.inode owner)
  | .probing nowMs seen owner =>
    goto s (if isOwnerStale hostname s.running owner nowMs call.staleMs then .unlinking (some seen)
      else .waiting)
  | .statting nowMs seen =>
    goto s (if isIncompleteLockReclaimable nowMs (s.file.map LockFile.mtimeMs) then .unlinking seen
      else .waiting)
  | .unlinking _ => goto { s with file := none } .opening
  | .waiting =>
    goto s (if call.deadline ≤ s.now then .thrown "repo_clone_lock_timeout" else .opening)
  | .created inode createdAt =>
    match fault with
    | some message => goto s (.failed inode createdAt message)
    | none =>
      goto { s with
        file := writeLock inode ⟨some call.pid, some hostname, some s.now,
          some (s.lastToken + 1)⟩ s.now s.file
        lastToken := s.lastToken + 1 } (.holding (s.lastToken + 1))
  | .failed _ _ message => goto { s with file := none } (.thrown message)
  | .releasing token =>
    goto s (if (s.file.bind LockFile.content).any fun owner => owner.token == some token then
      .removing token
      else .released)
  | .removing _ => goto { s with file := none } .released
  | .holding _ | .released | .thrown _ => none

/-- What happens around one lock file. -/
inductive Action
  | acquireRepoCloneLock (id : ℕ) (pid : ℤ) (options : RepoCloneLockOptions)
  | advance (id : ℕ) (fault : Option String)
  | release (id : ℕ)
  /-- A process ends, for good. -/
  | crash (pid : ℤ)
  | wait (ms : ℕ)

def step (hostname : String) (s : LockState) : Action → Option LockState
  | .acquireRepoCloneLock id pid options =>
    if s.calls id = none ∧ isProcessAlive s.running pid = true then
      some (s.setCall id ⟨pid, options.lockStaleMs.getD defaultLockStaleMs,
        s.now + options.lockTimeoutMs.getD defaultLockTimeoutMs, .opening⟩)
    else none
  | .advance id fault =>
    match s.calls id with
    | none => none
    | some call =>
      if isProcessAlive s.running call.pid then CloneLock.advance hostname id call fault s else none
  | .release id =>
    match s.calls id with
    | some ⟨pid, staleMs, deadline, .holding token⟩ =>
      if isProcessAlive s.running pid then
        some (s.setCall id ⟨pid, staleMs, deadline, .releasing token⟩) else none
    | _ => none
  | .crash pid => some { s with running := fun other => s.running other && other != pid }
  | .wait ms => some { s with now := s.now + ms }

/-- There is no lockfile, and every process that there will be runs. -/
def noLock : LockState := ⟨none, 0, 0, 0, fun _ => true, fun _ => none⟩

/-- Between a successful acquire and the start of its release. -/
def Stage.isHolding : Stage → Bool
  | .holding _ => true
  | _ => false

/-- The call holds the lock, and its process is alive. -/
def HoldsLock (s : LockState) (id : ℕ) : Prop :=
  ∃ call ∈ s.calls id, isProcessAlive s.running call.pid = true ∧ call.stage.isHolding = true

instance decidableHoldsLock (s : LockState) (id : ℕ) : Decidable (HoldsLock s id) :=
  inferInstanceAs (Decidable (∃ call ∈ s.calls id,
    isProcessAlive s.running call.pid = true ∧ call.stage.isHolding = true))

/-! ## Conditions -/

/-- Every call writes its record within the grace period, unless its process has crashed. -/
def RecordsTimely (s : LockState) : Prop :=
  ∀ id call, s.calls id = some call → isProcessAlive s.running call.pid = true →
    ∀ inode createdAt,
      (call.stage = .created inode createdAt ∨
        ∃ message, call.stage = .failed inode createdAt message) →
      s.now ≤ createdAt + defaultLockIncompleteGraceMs

/-- The file that a waiter is about to unlink. -/
def Stage.unlinks : Stage → Option (Option ℕ)
  | .unlinking seen => some seen
  | _ => none

/-- Where the action is the unlink of a waiter, it removes the file that the waiter has read, or
none. -/
def UnlinksWhatItRead (s : LockState) : Action → Prop
  | .advance id _ =>
    ∀ call ∈ s.calls id, ∀ seen ∈ call.stage.unlinks, ∀ file ∈ s.file, seen = some file.inode
  | _ => True

instance decidableUnlinksWhatItRead : ∀ s action, Decidable (UnlinksWhatItRead s action)
  | s, .advance id _ =>
    inferInstanceAs (Decidable (∀ call ∈ s.calls id, ∀ seen ∈ call.stage.unlinks, ∀ file ∈ s.file,
      seen = some file.inode))
  | _, .acquireRepoCloneLock _ _ _ | _, .release _ | _, .crash _ | _, .wait _ =>
    inferInstanceAs (Decidable True)

/-! ## The invariant -/

/-- The stages in which a call has the lockfile. -/
def Stage.Critical : Stage → Prop
  | .created _ _ | .failed _ _ _ | .holding _ | .releasing _ | .removing _ => True
  | _ => False

/-- What the lockfile is while the call has it. -/
def Owns (hostname : String) (call : Call) (file : LockFile) : Prop :=
  match call.stage with
  | .created inode createdAt | .failed inode createdAt _ =>
    file.inode = inode ∧ file.content = none ∧ file.mtimeMs = createdAt
  | .holding token | .releasing token | .removing token =>
    ∃ atMs, file.content = some ⟨some call.pid, some hostname, atMs, some token⟩
  | _ => False

/-- What a waiter knows of the file it has read, if it still has the path. -/
def WaiterHolds (s : LockState) : Stage → Prop
  | .reading nowMs => nowMs ≤ s.now
  | .probing nowMs seen owner =>
    nowMs ≤ s.now ∧ seen ≤ s.lastInode ∧ ∀ file, s.file = some file → file.inode = seen →
      file.content = some owner
  | .statting nowMs seen =>
    nowMs ≤ s.now ∧ ∀ inode, seen = some inode → inode ≤ s.lastInode ∧
      ∀ file, s.file = some file → file.inode = inode → file.content = none ∨ nowMs ≤ file.mtimeMs
  | .unlinking seen =>
    ∀ inode, seen = some inode → inode ≤ s.lastInode ∧
      ∀ file, s.file = some file → file.inode = inode →
        ∀ call, s.calls file.creator = some call → isProcessAlive s.running call.pid = false
  | _ => True

/-- The lockfile belongs to the call that has created it, as long as its process lives. -/
structure LockHolds (hostname : String) (s : LockState) : Prop where
  inode : ∀ file, s.file = some file → file.inode ≤ s.lastInode
  creator : ∀ file, s.file = some file → ∃ call, s.calls file.creator = some call ∧
    (isProcessAlive s.running call.pid = true → Owns hostname call file)
  critical : ∀ id call, s.calls id = some call → isProcessAlive s.running call.pid = true →
    call.stage.Critical →
    ∃ file, s.file = some file ∧ file.creator = id
  waiters : ∀ id call, s.calls id = some call → WaiterHolds s call.stage

/-- What a step does to the file and the calls, as far as a waiter is concerned. -/
structure Later (s s' : LockState) : Prop where
  now : s.now ≤ s'.now
  lastInode : s.lastInode ≤ s'.lastInode
  running : ∀ pid, isProcessAlive s'.running pid = true → isProcessAlive s.running pid = true
  calls : ∀ id call, s.calls id = some call →
    ∃ call', s'.calls id = some call' ∧ call'.pid = call.pid
  file : ∀ file', s'.file = some file' → s.lastInode < file'.inode ∨
    ∃ file, s.file = some file ∧ file'.inode = file.inode ∧ file'.creator = file.creator ∧
      (file' = file ∨ file.content = none ∧ file'.mtimeMs = s.now ∧
        ∃ call, s.calls file.creator = some call ∧ isProcessAlive s.running call.pid = true)

variable {owner : RepoCloneLockMeta}

section Invariant

variable {hostname : String} {s s' : LockState} {id : ℕ} {call : Call} {file : LockFile}
  {stage : Stage}

theorem Owns.critical (h : Owns hostname call file) : call.stage.Critical := by
  obtain ⟨pid, staleMs, deadline, stage⟩ := call
  cases stage <;> trivial

theorem LockHolds.owns (h : LockHolds hostname s) (hcall : s.calls id = some call)
    (halive : isProcessAlive s.running call.pid = true) (hcritical : call.stage.Critical) :
    ∃ file, s.file = some file ∧ file.creator = id ∧ Owns hostname call file := by
  obtain ⟨file, hfile, rfl⟩ := h.critical id call hcall halive hcritical
  obtain ⟨call', hcall', howns⟩ := h.creator file hfile
  obtain rfl := Option.some.inj (hcall.symm.trans hcall')
  exact ⟨file, hfile, rfl, howns halive⟩

/-- A waiter's knowledge lasts. -/
theorem WaiterHolds.later (h : LockHolds hostname s) (hlater : Later s s')
    (hwaiter : WaiterHolds s stage) :
    WaiterHolds s' stage := by
  have hnow := hlater.now
  have hlast := hlater.lastInode
  cases stage with
  | reading nowMs => exact hwaiter.trans hnow
  | probing nowMs seen owner =>
    obtain ⟨hread, hseen, hcontent⟩ := hwaiter
    refine ⟨hread.trans hnow, hseen.trans hlast, fun file' hfile' hinode => ?_⟩
    rcases hlater.file file' hfile' with hnew | ⟨file, hfile, hsame, _, rfl | ⟨hempty, _⟩⟩
    · omega
    · exact hcontent file' hfile hinode
    · rw [hcontent file hfile (hsame ▸ hinode)] at hempty
      cases hempty
  | statting nowMs seen =>
    obtain ⟨hread, hseen⟩ := hwaiter
    refine ⟨hread.trans hnow, fun inode heq =>
      ⟨(hseen inode heq).1.trans hlast, fun file' hfile' hinode => ?_⟩⟩
    have hle := (hseen inode heq).1
    rcases hlater.file file' hfile' with hnew | ⟨file, hfile, hsame, _, rfl | ⟨_, hwritten, _⟩⟩
    · omega
    · exact (hseen inode heq).2 file' hfile hinode
    · exact Or.inr (hwritten ▸ hread)
  | unlinking seen =>
    refine fun inode heq => ⟨(hwaiter inode heq).1.trans hlast,
      fun file' hfile' hinode call' hcall' => ?_⟩
    have hle := (hwaiter inode heq).1
    rcases hlater.file file' hfile' with hnew | ⟨file, hfile, hsame, hcreator, hkept⟩
    · omega
    · obtain ⟨call, hcall, _⟩ := h.creator file hfile
      obtain ⟨call'', hcall'', hpid⟩ := hlater.calls file.creator call hcall
      rw [hcreator, hcall''] at hcall'
      obtain rfl := Option.some.inj hcall'
      have hdead := (hwaiter inode heq).2 file hfile (hsame ▸ hinode) call hcall
      rw [hpid, Bool.eq_false_iff]
      intro halive
      rw [hlater.running call.pid halive] at hdead
      cases hdead
  | _ => trivial

/-- A lockfile without a record is as old as its call's creation of it, and a record names the
process of its call. -/
theorem Owns.content (h : Owns hostname call file) :
    (file.content = none ∧ ∃ inode, call.stage = .created inode file.mtimeMs ∨
      ∃ message, call.stage = .failed inode file.mtimeMs message) ∨
    ∃ atMs token, file.content = some ⟨some call.pid, some hostname, atMs, some token⟩ := by
  unfold Owns at h
  split at h
  · next inode createdAt hstage => exact Or.inl ⟨h.2.1, inode, Or.inl (h.2.2 ▸ hstage)⟩
  · next inode createdAt message hstage => exact Or.inl ⟨h.2.1, inode,
      Or.inr ⟨message, h.2.2 ▸ hstage⟩⟩
  all_goals first | exact Or.inr (h.imp fun _ hrecord => ⟨_, hrecord⟩) | exact h.elim

/-- **A record that is found stale is that of a dead process.** -/
theorem LockHolds.dead_of_isOwnerStale (h : LockHolds hostname s) {nowMs : ℕ} {staleMs : ℚ}
    (hstale : isOwnerStale hostname s.running owner nowMs staleMs = true)
    (hfile : s.file = some file) (hcontent : file.content = some owner)
    (hcall : s.calls file.creator = some call) :
    isProcessAlive s.running call.pid = false := by
  rw [Bool.eq_false_iff]
  intro halive
  obtain ⟨call', hcall', howns⟩ := h.creator file hfile
  obtain rfl := Option.some.inj (hcall.symm.trans hcall')
  rcases (howns halive).content with ⟨hempty, _⟩ | ⟨atMs, token, hrecord⟩
  · exact nomatch hempty.symm.trans hcontent
  · obtain rfl := Option.some.inj (hrecord.symm.trans hcontent)
    rw [isOwnerStale, Option.filter_some, beq_self_eq_true, if_pos rfl] at hstale
    simp [halive] at hstale

/-- **A file that is found incomplete for too long is that of a dead process**, if live ones write
in time. -/
theorem LockHolds.dead_of_isIncompleteLockReclaimable (h : LockHolds hostname s)
    (htimely : RecordsTimely s) {nowMs : ℕ} (hread : nowMs ≤ s.now)
    (hstale : isIncompleteLockReclaimable nowMs (some file.mtimeMs) = true)
    (hfile : s.file = some file) (hcontent : file.content = none ∨ nowMs ≤ file.mtimeMs)
    (hcall : s.calls file.creator = some call) : isProcessAlive s.running call.pid = false := by
  rw [Bool.eq_false_iff]
  intro halive
  have hold : file.mtimeMs + defaultLockIncompleteGraceMs < nowMs := of_decide_eq_true hstale
  rcases hcontent with hempty | hwritten
  · obtain ⟨call', hcall', howns⟩ := h.creator file hfile
    obtain rfl := Option.some.inj (hcall.symm.trans hcall')
    rcases (howns halive).content with ⟨_, inode, hstage⟩ | ⟨_, _, hrecord⟩
    · have hintime := htimely file.creator call hcall halive inode file.mtimeMs hstage
      omega
    · exact nomatch hempty.symm.trans hrecord
  · omega

end Invariant

/-! ## What a step keeps -/

section Steps

variable {hostname : String} {s s' : LockState} {id : ℕ} {call : Call} {file : LockFile}
  {stage : Stage}
  {action : Action}

theorem calls_setCall {other : ℕ} {call' : Call}
    (h : (s.setCall id call).calls other = some call') :
    other = id ∧ call' = call ∨ other ≠ id ∧ s.calls other = some call' := by
  simp only [LockState.setCall, Function.update_apply] at h
  split at h
  · next heq => exact Or.inl ⟨heq, (Option.some.inj h).symm⟩
  · next hne => exact Or.inr ⟨hne, h⟩

theorem later_refl (s : LockState) : Later s s :=
  ⟨Nat.le_refl _, Nat.le_refl _, fun _ => id, fun _ call hcall => ⟨call, hcall, rfl⟩,
    fun file' hfile' => Or.inr ⟨file', hfile', rfl, rfl, Or.inl rfl⟩⟩

/-- The lockfile changes. -/
theorem later_file {file : Option LockFile} {lastInode lastToken : ℕ}
    (hle : s.lastInode ≤ lastInode)
    (hfile : ∀ file', file = some file' → s.lastInode < file'.inode ∨
      ∃ file, s.file = some file ∧ file'.inode = file.inode ∧ file'.creator = file.creator ∧
        (file' = file ∨ file.content = none ∧ file'.mtimeMs = s.now ∧
          ∃ call, s.calls file.creator = some call ∧ isProcessAlive s.running call.pid = true)) :
    Later s { s with file := file, lastInode := lastInode, lastToken := lastToken } :=
  ⟨Nat.le_refl _, hle, fun _ halive => halive, fun _ call hcall => ⟨call, hcall, rfl⟩, hfile⟩

/-- A call goes on. -/
theorem Later.setCall (h : Later s s') (hcalls : s'.calls = s.calls)
    (hcall : s.calls id = some call) (stage : Stage) :
    Later s (s'.setCall id { call with stage := stage }) := by
  refine ⟨h.now, h.lastInode, h.running, fun other old hold => ?_, h.file⟩
  by_cases heq : other = id
  · subst heq
    obtain rfl := Option.some.inj (hcall.symm.trans hold)
    exact ⟨_, Function.update_self .., rfl⟩
  · exact ⟨old, (Function.update_of_ne heq _ _).trans (hcalls ▸ hold), rfl⟩

/-- The waiters keep what they know while one call goes on. -/
theorem LockHolds.waiters_setCall (h : LockHolds hostname s) (hlater : Later s (s'.setCall id call))
    (hcalls : s'.calls = s.calls) (hwaiter : WaiterHolds (s'.setCall id call) call.stage) :
    ∀ other call', (s'.setCall id call).calls other = some call' →
      WaiterHolds (s'.setCall id call) call'.stage := by
  intro other call' hcall'
  rcases calls_setCall hcall' with ⟨_, rfl⟩ | ⟨_, hother⟩
  · exact hwaiter
  · exact (h.waiters other call' (hcalls ▸ hother)).later h hlater

/-- A call goes on and leaves the lockfile alone. -/
theorem LockHolds.goto (h : LockHolds hostname s) (hcall : s.calls id = some call)
    (hback : stage.Critical → call.stage.Critical)
    (howns : ∀ file, Owns hostname call file → Owns hostname { call with stage := stage } file)
    (hwaiter : WaiterHolds s stage) : LockHolds hostname (s.setCall id { call with stage :=
  stage }) := by
  have hlater := (later_refl s).setCall rfl hcall stage
  refine ⟨h.inode, fun file hfile => ?_, fun other call' hcall' halive hcritical => ?_,
    h.waiters_setCall hlater rfl (hwaiter.later h hlater)⟩
  · obtain ⟨owner, howner, hlive⟩ := h.creator file hfile
    by_cases heq : file.creator = id
    · subst heq
      obtain rfl := Option.some.inj (hcall.symm.trans howner)
      exact ⟨_, Function.update_self .., fun halive => howns file (hlive halive)⟩
    · exact ⟨owner, (Function.update_of_ne heq _ _).trans howner, hlive⟩
  · rcases calls_setCall hcall' with ⟨rfl, rfl⟩ | ⟨_, hother⟩
    · exact h.critical other call hcall halive (hback hcritical)
    · exact h.critical other call' hother halive hcritical

/-- A call that does not have the lockfile goes on with what it knows. -/
theorem LockHolds.goto_waiter (h : LockHolds hostname s) (hcall : s.calls id = some call)
    (hbefore : ¬call.stage.Critical) (hafter : ¬stage.Critical)
    (hwaiter : WaiterHolds s call.stage → WaiterHolds s stage) :
    LockHolds hostname (s.setCall id { call with stage := stage }) :=
  h.goto hcall (fun hcritical => absurd hcritical hafter)
    (fun _ howns => absurd howns.critical hbefore)
    (hwaiter (h.waiters id call hcall))

/-- A call removes the lockfile, which nobody else has. -/
theorem LockHolds.remove (h : LockHolds hostname s) (hcall : s.calls id = some call)
    (halone : ∀ other call', s.calls other = some call' →
      isProcessAlive s.running call'.pid = true →
      call'.stage.Critical → other = id)
    (hafter : ¬stage.Critical) (hwaiter : ∀ s, WaiterHolds s stage) :
    LockHolds hostname ({ s with file := none }.setCall id { call with stage := stage }) := by
  have hnone : Later s { s with file := none } :=
    later_file (Nat.le_refl _) nofun
  have hlater := hnone.setCall rfl hcall stage
  refine ⟨?_, ?_, fun other call' hcall' halive hcritical => ?_,
    h.waiters_setCall hlater rfl (hwaiter _)⟩
  · intro file hfile
    cases hfile
  · intro file hfile
    cases hfile
  · rcases calls_setCall hcall' with ⟨rfl, rfl⟩ | ⟨hne, hother⟩
    · exact absurd hcritical hafter
    · exact absurd (halone other call' hother halive hcritical) hne

/-- A call creates the lockfile. -/
theorem LockHolds.create (h : LockHolds hostname s) (hcall : s.calls id = some call)
    (hnone : s.file = none) :
    LockHolds hostname
      ({ s with
        file := some ⟨s.lastInode + 1, id, s.now, none⟩, lastInode := s.lastInode + 1 }.setCall id
        { call with stage := .created (s.lastInode + 1) s.now }) := by
  have hnew : Later s { s with
    file := some ⟨s.lastInode + 1, id, s.now, none⟩, lastInode := s.lastInode + 1 } := by
    refine later_file (Nat.le_succ _) fun file' hfile' => Or.inl ?_
    obtain rfl := Option.some.inj hfile'
    exact Nat.lt_succ_self _
  have hlater := hnew.setCall rfl hcall (.created (s.lastInode + 1) s.now)
  refine ⟨?_, ?_, fun other call' hcall' halive hcritical => ?_,
    h.waiters_setCall hlater rfl trivial⟩
  · intro file hfile
    obtain rfl := Option.some.inj hfile
    exact Nat.le_refl _
  · intro file hfile
    obtain rfl := Option.some.inj hfile
    exact ⟨_, Function.update_self .., fun _ => ⟨rfl, rfl, rfl⟩⟩
  · rcases calls_setCall hcall' with ⟨rfl, rfl⟩ | ⟨_, hother⟩
    · exact ⟨_, rfl, rfl⟩
    · obtain ⟨file, hfile, _⟩ := h.critical other call' hother halive hcritical
      rw [hnone] at hfile
      cases hfile

/-- A call writes its record into its lockfile. -/
theorem LockHolds.write (h : LockHolds hostname s) {inode createdAt token : ℕ}
    (hcall : s.calls id = some call) (halive : isProcessAlive s.running call.pid = true)
    (hstage : call.stage = .created inode createdAt) (atMs : Option ℚ) :
    LockHolds hostname ({ s with
      file := writeLock inode ⟨some call.pid, some hostname, atMs, some token⟩ s.now s.file
      lastToken := token }.setCall id { call with stage := .holding token }) := by
  obtain ⟨file, hfile, rfl, howns⟩ := h.owns hcall halive (hstage ▸ trivial)
  simp only [Owns, hstage] at howns
  have hwritten : writeLock inode ⟨some call.pid, some hostname, atMs, some token⟩ s.now s.file =
      some { file with
        content := some ⟨some call.pid, some hostname, atMs, some token⟩, mtimeMs := s.now } := by
    rw [hfile, writeLock, Option.map_some, if_pos howns.1]
  rw [hwritten]
  have hfilled : Later s { s with
      file := some { file with
        content := some ⟨some call.pid, some hostname, atMs, some token⟩, mtimeMs := s.now }
      lastToken := token } := by
    refine later_file (Nat.le_refl _) fun file' hfile' => Or.inr ⟨file, hfile, ?_⟩
    obtain rfl := Option.some.inj hfile'
    exact ⟨rfl, rfl, Or.inr ⟨howns.2.1, rfl, call, hcall, halive⟩⟩
  have hlater := hfilled.setCall rfl hcall (.holding token)
  refine ⟨?_, ?_, fun other call' hcall' halive' hcritical => ?_,
    h.waiters_setCall hlater rfl trivial⟩
  · intro file' hfile'
    obtain rfl := Option.some.inj hfile'
    exact h.inode file hfile
  · intro file' hfile'
    obtain rfl := Option.some.inj hfile'
    exact ⟨_, Function.update_self .., fun _ => ⟨atMs, rfl⟩⟩
  · rcases calls_setCall hcall' with ⟨rfl, rfl⟩ | ⟨_, hother⟩
    · exact ⟨_, rfl, rfl⟩
    · obtain ⟨other', hother', heq⟩ := h.critical other call' hother halive' hcritical
      obtain rfl := Option.some.inj (hfile.symm.trans hother')
      exact ⟨_, rfl, heq⟩

/-- Whoever has the lockfile is its creator. -/
theorem LockHolds.alone (h : LockHolds hostname s) (hcall : s.calls id = some call)
    (halive : isProcessAlive s.running call.pid = true) (hcritical : call.stage.Critical) :
    ∀ other call', s.calls other = some call' → isProcessAlive s.running call'.pid = true →
      call'.stage.Critical → other = id := by
  intro other call' hcall' halive' hcritical'
  obtain ⟨file, hfile, heq⟩ := h.critical id call hcall halive hcritical
  obtain ⟨file', hfile', heq'⟩ := h.critical other call' hcall' halive' hcritical'
  obtain rfl := Option.some.inj (hfile.symm.trans hfile')
  exact heq'.symm.trans heq

section Stages

variable {pid : ℤ} {staleMs deadline : ℚ} {nowMs : ℕ}

theorem LockHolds.reading_empty (h : LockHolds hostname s)
    (hcall : s.calls id = some ⟨pid, staleMs, deadline, .reading nowMs⟩)
    (hfile : s.file = some file) (hempty : file.content = none) :
    LockHolds hostname (s.setCall id ⟨pid, staleMs, deadline,
      .statting nowMs (some file.inode)⟩) := by
  refine h.goto_waiter hcall (fun h => h) (fun h => h) fun hread => ⟨hread, fun inode heq => ?_⟩
  obtain rfl := Option.some.inj heq
  refine ⟨h.inode file hfile, fun file' hfile' _ => Or.inl ?_⟩
  obtain rfl := Option.some.inj (hfile.symm.trans hfile')
  exact hempty

theorem LockHolds.reading_record (h : LockHolds hostname s)
    (hcall : s.calls id = some ⟨pid, staleMs, deadline, .reading nowMs⟩)
    (hfile : s.file = some file) (hcontent : file.content = some owner) :
    LockHolds hostname (s.setCall id ⟨pid, staleMs, deadline,
      .probing nowMs file.inode owner⟩) := by
  refine h.goto_waiter hcall (fun h => h) (fun h => h) fun hread =>
    ⟨hread, h.inode file hfile, fun file' hfile' _ => ?_⟩
  obtain rfl := Option.some.inj (hfile.symm.trans hfile')
  exact hcontent

/-- The verdict on a record: the owner of a stale one is dead. -/
theorem LockHolds.probing (h : LockHolds hostname s) {seen : ℕ}
    (hcall : s.calls id = some ⟨pid, staleMs, deadline, .probing nowMs seen owner⟩) :
    LockHolds hostname (s.setCall id ⟨pid, staleMs, deadline,
      if isOwnerStale hostname s.running owner nowMs staleMs then .unlinking (some seen)
        else .waiting⟩) := by
  split_ifs with hstale
  · refine h.goto_waiter hcall (fun h => h) (fun h => h) fun ⟨_, hseen, hcontent⟩ inode heq => ?_
    obtain rfl := Option.some.inj heq
    refine ⟨hseen, fun file hfile hinode call' hcall' => ?_⟩
    exact h.dead_of_isOwnerStale hstale hfile (hcontent file hfile hinode) hcall'
  · exact h.goto_waiter hcall (fun h => h) (fun h => h) fun _ => trivial

/-- The verdict on a file without a record: who has not written it within the grace period is
dead. -/
theorem LockHolds.statting (h : LockHolds hostname s) (htimely : RecordsTimely s) {seen : Option ℕ}
    (hcall : s.calls id = some ⟨pid, staleMs, deadline, .statting nowMs seen⟩) :
    LockHolds hostname (s.setCall id ⟨pid, staleMs, deadline,
      if isIncompleteLockReclaimable nowMs (s.file.map LockFile.mtimeMs) then .unlinking seen
        else .waiting⟩) := by
  split_ifs with hstale
  · refine h.goto_waiter hcall (fun h => h) (fun h => h) fun ⟨hread, hseen⟩ inode heq => ?_
    refine ⟨(hseen inode heq).1, fun file hfile hinode call' hcall' => ?_⟩
    rw [hfile, Option.map_some] at hstale
    exact h.dead_of_isIncompleteLockReclaimable htimely hread hstale hfile
      ((hseen inode heq).2 file hfile hinode)
      hcall'
  · exact h.goto_waiter hcall (fun h => h) (fun h => h) fun _ => trivial

/-- A waiter that unlinks the file it has read takes it from nobody. -/
theorem LockHolds.unlinking (h : LockHolds hostname s) {seen : Option ℕ}
    (hcall : s.calls id = some ⟨pid, staleMs, deadline, .unlinking seen⟩)
    (hunlink : ∀ file ∈ s.file, seen = some file.inode) :
    LockHolds hostname ({ s with file := none }.setCall id ⟨pid, staleMs, deadline, .opening⟩) := by
  refine h.remove hcall (fun other call' hcall' halive' hcritical => ?_) (fun h => h)
    fun _ => trivial
  -- the file that goes was judged, so that its creator is dead
  obtain ⟨file, hfile, rfl⟩ := h.critical other call' hcall' halive' hcritical
  have hdead := (h.waiters id _ hcall file.inode (hunlink file hfile)).2 file hfile rfl call' hcall'
  rw [hdead] at halive'
  cases halive'

/-- The lockfile of a live call has its token. -/
theorem LockHolds.releasing (h : LockHolds hostname s) {token : ℕ}
    (hcall : s.calls id = some ⟨pid, staleMs, deadline, .releasing token⟩)
    (halive : isProcessAlive s.running pid = true) :
    LockHolds hostname (s.setCall id ⟨pid, staleMs, deadline,
      if (s.file.bind LockFile.content).any fun owner => owner.token == some token then
        .removing token
        else .released⟩) := by
  obtain ⟨file, hfile, _, atMs, hrecord⟩ := h.owns hcall halive trivial
  have htoken : (s.file.bind LockFile.content).any
      (fun owner => owner.token == some token) = true := by
    rw [hfile, Option.bind_some, hrecord, Option.any_some, beq_self_eq_true]
  rw [if_pos htoken]
  exact h.goto hcall (fun _ => trivial) (fun _ howns => howns) trivial

/-- What a live call's next step keeps. -/
theorem advance_holds (h : LockHolds hostname s) (htimely : RecordsTimely s) {fault : Option String}
    (hunlink : UnlinksWhatItRead s (.advance id fault)) (hcall : s.calls id = some call)
    (halive : isProcessAlive s.running call.pid = true)
    (hadvance : advance hostname id call fault s = some s') :
    LockHolds hostname s' := by
  obtain ⟨pid, staleMs, deadline, stage⟩ := call
  cases stage <;> simp only [advance] at hadvance
  case opening =>
    split at hadvance <;> cases hadvance
    · exact h.goto_waiter hcall (fun h => h) (fun h => h) fun _ => trivial
    · exact h.goto_waiter hcall (fun h => h) (fun h => h) fun _ => Nat.le_refl _
    · next hnone => exact h.create hcall hnone
  case reading nowMs =>
    split at hadvance
    · cases hadvance
      exact h.goto_waiter hcall (fun h => h) (fun h => h) fun hread => ⟨hread, nofun⟩
    · next file hfile =>
      split at hadvance <;> cases hadvance
      · next hempty => exact h.reading_empty hcall hfile hempty
      · next owner hcontent => exact h.reading_record hcall hfile hcontent
  case created inode createdAt =>
    split at hadvance <;> cases hadvance
    · exact h.goto hcall (fun _ => trivial) (fun _ howns => howns) trivial
    · exact h.write hcall halive rfl (some s.now)
  all_goals cases hadvance
  case probing => exact h.probing hcall
  case statting => exact h.statting htimely hcall
  case unlinking seen => exact h.unlinking hcall (hunlink _ hcall seen rfl)
  case waiting =>
    split_ifs
    · exact h.goto_waiter hcall (fun h => h) (fun h => h) fun _ => trivial
    · exact h.goto_waiter hcall (fun h => h) (fun h => h) fun _ => trivial
  case releasing => exact h.releasing hcall halive
  -- the lockfile is removed by the call that has it
  all_goals exact h.remove hcall (h.alone hcall halive trivial) (fun h => h) fun _ => trivial

end Stages

/-- Time goes by, or a process ends. -/
theorem LockHolds.environment (h : LockHolds hostname s) {now : ℕ} {running : ℤ → Bool}
    (hnow : s.now ≤ now)
    (hrunning : ∀ pid, isProcessAlive running pid = true → isProcessAlive s.running pid = true) :
    LockHolds hostname { s with now := now, running := running } := by
  have hlater : Later s { s with now := now, running := running } :=
    ⟨hnow, Nat.le_refl _, hrunning, fun _ call hcall => ⟨call, hcall, rfl⟩,
      fun file' hfile' => Or.inr ⟨file', hfile', rfl, rfl, Or.inl rfl⟩⟩
  refine ⟨h.inode, fun file hfile => ?_, fun id call hcall halive =>
    h.critical id call hcall (hrunning _ halive),
    fun id call hcall => (h.waiters id call hcall).later h hlater⟩
  obtain ⟨call, hcall, howns⟩ := h.creator file hfile
  exact ⟨call, hcall, fun halive => howns (hrunning _ halive)⟩

/-- A call begins. -/
theorem LockHolds.begin (h : LockHolds hostname s) (hnone : s.calls id = none)
    (hstage : call.stage = .opening) :
    LockHolds hostname (s.setCall id call) := by
  have hlater : Later s (s.setCall id call) := by
    refine ⟨Nat.le_refl _, Nat.le_refl _, fun _ halive => halive,
      fun other old hold => ⟨old, ?_, rfl⟩,
      fun file' hfile' => Or.inr ⟨file', hfile', rfl, rfl, Or.inl rfl⟩⟩
    have hne : other ≠ id := by
      rintro rfl
      rw [hnone] at hold
      cases hold
    exact (Function.update_of_ne hne _ _).trans hold
  refine ⟨h.inode, fun file hfile => ?_, fun other call' hcall' halive hcritical => ?_,
    h.waiters_setCall hlater rfl (hstage ▸ trivial)⟩
  · obtain ⟨owner, howner, hlive⟩ := h.creator file hfile
    obtain ⟨owner', howner', _⟩ := hlater.calls file.creator owner howner
    have hne : file.creator ≠ id := by
      intro heq
      rw [heq, hnone] at howner
      cases howner
    exact ⟨owner, (Function.update_of_ne hne _ _).trans howner, hlive⟩
  · rcases calls_setCall hcall' with ⟨_, rfl⟩ | ⟨_, hother⟩
    · rw [hstage] at hcritical
      exact hcritical.elim
    · exact h.critical other call' hother halive hcritical

/-- **What one step keeps**, if live calls write their records in time and a waiter unlinks what it
has read. -/
theorem step_holds (h : LockHolds hostname s)
    (hconditions : RecordsTimely s ∧ UnlinksWhatItRead s action)
    (hstep : step hostname s action = some s') : LockHolds hostname s' := by
  cases action with
  | acquireRepoCloneLock id pid options =>
    simp only [step] at hstep
    split at hstep
    · next hnew =>
      obtain rfl := Option.some.inj hstep
      exact h.begin hnew.1 rfl
    · cases hstep
  | advance id fault =>
    simp only [step] at hstep
    split at hstep
    · cases hstep
    · next call hcall =>
      split at hstep
      · next halive => exact advance_holds h hconditions.1 hconditions.2 hcall halive hstep
      · cases hstep
  | release id =>
    simp only [step] at hstep
    split at hstep
    · next pid staleMs deadline token hcall =>
      split at hstep
      · obtain rfl := Option.some.inj hstep
        exact h.goto hcall (fun _ => trivial) (fun _ howns => howns) trivial
      · cases hstep
    · cases hstep
  | crash pid =>
    obtain rfl := Option.some.inj hstep
    refine h.environment (Nat.le_refl _) fun other halive => ?_
    simp only [isProcessAlive, Bool.and_eq_true] at halive ⊢
    exact ⟨halive.1, halive.2.1⟩
  | wait ms =>
    obtain rfl := Option.some.inj hstep
    exact h.environment (Nat.le_add_right _ _) fun _ halive => halive

theorem noLock_holds (hostname : String) : LockHolds hostname noLock := by
  constructor
  · intro file hfile
    cases hfile
  · intro file hfile
    cases hfile
  · intro id call hcall
    cases hcall
  · intro id call hcall
    cases hcall

end Steps

/-- **The clone lock is exclusive**: in a run whose live calls write their records in time, and
whose waiters unlink no other file than the one they have read, no two live calls hold the lock. -/
theorem clone_lock_exclusive {hostname : String} {actions : List Action} {s : LockState}
    (hrun : Runs.run (step hostname) noLock actions = some s)
    (hall : Runs.AllSteps (step hostname) (fun s action => RecordsTimely s ∧
      UnlinksWhatItRead s action) noLock
      actions) :
    ∀ a b, HoldsLock s a → HoldsLock s b → a = b := by
  have hholds : LockHolds hostname s :=
    Runs.run_invariant_of step_holds hrun hall (noLock_holds hostname)
  have hcritical : ∀ {stage : Stage}, stage.isHolding = true → stage.Critical := by
    intro stage hholding
    cases stage with
    | holding token => trivial
    | _ => cases hholding
  rintro a b ⟨call, hcall, halive, hholding⟩ ⟨call', hcall', halive', hholding'⟩
  obtain ⟨file, hfile, rfl⟩ := hholds.critical a call hcall halive (hcritical hholding)
  obtain ⟨file', hfile', rfl⟩ := hholds.critical b call' hcall' halive' (hcritical hholding')
  obtain rfl := Option.some.inj (hfile.symm.trans hfile')
  rfl

/-- In the first seconds nobody is late. -/
theorem recordsTimely_of_now {s : LockState} (h : s.now ≤ defaultLockIncompleteGraceMs) :
    RecordsTimely s :=
  fun _ _ _ _ _ createdAt _ => h.trans (Nat.le_add_left _ createdAt)

/-- Three calls of three processes, of which the first one crashes while it holds the lock. -/
def crashedHolder : List Action :=
  [.acquireRepoCloneLock 0 1 ⟨none, none⟩, .advance 0 none, .advance 0 none, .crash 1,
    .acquireRepoCloneLock 1 2 ⟨none, none⟩, .acquireRepoCloneLock 2 3 ⟨none, none⟩]

/-- One waiter reclaims the lock of a crashed holder and gets it. -/
theorem clone_lock_exclusive_sample : ∃ s,
    Runs.run (step "host") noLock (crashedHolder ++
      [.advance 1 none, .advance 1 none, .advance 1 none, .advance 1 none,
      .advance 1 none, .advance 1 none, .advance 2 none]) = some s ∧ HoldsLock s 1 ∧
    ∀ a b, HoldsLock s a → HoldsLock s b → a = b := by
  have hcheck : (Runs.run (step "host") noLock
      (crashedHolder ++ ([.advance 1 none, .advance 1 none, .advance 1 none,
      .advance 1 none, .advance 1 none, .advance 1 none, .advance 2 none] : List Action))).any
          (fun s =>
        decide (HoldsLock s 1)) = true := by
    decide +kernel
  obtain ⟨s, hs, hholds⟩ := (Option.any_eq_true _ _).1 hcheck
  have hall : Runs.AllSteps (step "host") (fun s action => s.now ≤ defaultLockIncompleteGraceMs ∧
      UnlinksWhatItRead s action) noLock (crashedHolder ++
        ([.advance 1 none, .advance 1 none, .advance 1 none,
        .advance 1 none, .advance 1 none, .advance 1 none, .advance 2 none] : List Action)) := by
    decide +kernel
  exact ⟨s, hs, of_decide_eq_true hholds, clone_lock_exclusive hs
    (hall.mono fun _ _ h => ⟨recordsTimely_of_now h.1, h.2⟩)⟩

/-- Both waiters read the record of the crashed holder; the first one reclaims the lock and gets it,
and the second one unlinks the new lockfile. -/
def bothReclaim : List Action :=
  crashedHolder ++
    [.advance 1 none, .advance 1 none, .advance 1 none, .advance 2 none, .advance 2 none,
      .advance 2 none,
      .advance 1 none, .advance 1 none, .advance 1 none, .advance 2 none, .advance 2 none,
        .advance 2 none]

/-- **The clone lock is shared** by two live processes in that run, in which every record is written
at once. -/
theorem clone_lock_shared : ∃ s, Runs.run (step "host") noLock bothReclaim = some s ∧
    Runs.AllSteps (step "host") (fun s _ => RecordsTimely s) noLock bothReclaim ∧
    (s.calls 1).map Call.pid = some 2 ∧ (s.calls 2).map Call.pid = some 3 ∧ HoldsLock s 1 ∧
      HoldsLock s 2 := by
  have hcheck : (Runs.run (step "host") noLock bothReclaim).any (fun s =>
      decide ((s.calls 1).map Call.pid = some 2 ∧ (s.calls 2).map Call.pid = some 3 ∧
        HoldsLock s 1 ∧ HoldsLock s 2)) =
        true := by
    decide +kernel
  obtain ⟨s, hs, hholds⟩ := (Option.any_eq_true _ _).1 hcheck
  have hall : Runs.AllSteps (step "host") (fun s _ => s.now ≤ defaultLockIncompleteGraceMs) noLock
      bothReclaim := by
    decide +kernel
  exact ⟨s, hs, hall.mono fun _ _ => recordsTimely_of_now, of_decide_eq_true hholds⟩

end LoopOver.CloneLock
