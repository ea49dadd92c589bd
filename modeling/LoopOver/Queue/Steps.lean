import LoopOver.Queue.Sqlite

/-!
# What a step of the SQLite queue does

Every later argument about the queue goes by what one step can do to a row: `Change` lists it,
`Fresh` is the row that an enqueue inserts, and `Gone` lists how a row leaves the table.

* `step_rows`: each row after a step is fresh or comes from a row before it by a `Change`.
* `step_gone`: a row that has no successor is `Gone`.
* `step_rowsApart`: no two rows ever have one id.
-/

namespace LoopOver.Queue

open List

variable {P : Type} (reader : JobReader P) (setting : Setting)

/-! ## Changes of a row -/

/-- The job at a place, in a phase. -/
def InFlight (s : QueueState P) (phase : Phase) (index : ℕ) (flight : Flight P) : Prop :=
  s.flights[index]? = some flight ∧ flight.phase = phase

/-- A gate puts off the job at a place. -/
def Action.Defers (index : ℕ) : Action P → Prop
  | .deferRateLimit i .. | .deferMaintenance i .. | .deferInstallation i .. => i = index
  | _ => False

/-- The state after a step, for each kind of action. -/
inductive Outcome (s : QueueState P) : Action P → QueueState P → Prop
  | enqueue (now : ℚ) (message : P) (delaySeconds : ℚ) :
      Outcome s (.enqueue now message delaySeconds) (enqueue reader s now message delaySeconds)
  | claim (now : ℚ) : Outcome s (.claim now) (processOneClaim reader setting s now)
  | putOff {a : Action P} (index : ℕ) (hdefers : a.Defers index) (flight : Flight P)
      (hflight : InFlight s .claimed index flight) (retryAfter : ℚ) (error : String)
        (tag : DeferredBy) :
      Outcome s a (putOff s index flight retryAfter error tag)
  | settle (index : ℕ) (flight : Flight P) (hflight : InFlight s .settled index flight) :
      Outcome s (.settle index) (land s index flight)
  | consume (index : ℕ) (now : ℚ) (signals : MaintenancePressureSignals) (flight : Flight P)
      (hflight : InFlight s .claimed index flight)
        (hadmits : installationAdmits reader setting s flight.job = true) :
      Outcome s (.consume index now signals) (admitFlight reader s index flight)
  | complete (index : ℕ) (flight : Flight P) (hflight : InFlight s .consuming index flight) :
      Outcome s (.complete index)
        (land { s with rows := Table.deleteWhere (·.id == flight.job.id) s.rows } index flight)
  | lockContended (index : ℕ) (now retryDelayMs : ℚ) (error : String) (flight : Flight P)
      (hflight : InFlight s .consuming index flight) :
      Outcome s (.lockContended index now retryDelayMs error)
          (land (setRow s flight.job.id fun row =>
        { row with
          status := .pending
          runAfter := now + retryDelayMs
          lastError := some error
          deferredBy := some .lockContended }) index flight)
  | rateLimited (index : ℕ) (now delayMs : ℚ) (jitter : ℕ → ℕ) (error : String) (flight : Flight P)
      (hflight : InFlight s .consuming index flight) :
      Outcome s (.rateLimited index now delayMs jitter error)
        (processOneRateLimited reader s index flight now delayMs jitter error)
  | fail (index : ℕ) (now retryDelayMs : ℚ) (error : String) (flight : Flight P)
      (hflight : InFlight s .consuming index flight) :
      Outcome s (.fail index now retryDelayMs error)
        (processOneFail setting s index flight now retryDelayMs error)
  | reclaim (now : ℚ) (jitter : ℕ → ℕ) :
      Outcome s (.reclaim now jitter) (reclaimExpiredProcessingJobs setting s now jitter)
  | revive (now : ℚ) (jitter : ℕ → ℕ) :
      Outcome s (.revive now jitter) (reviveEligibleDeadJobs setting s now jitter)
  | sweep (now : ℚ) (rateLimitClear : P → Bool) :
      Outcome s (.sweep now rateLimitClear)
        (releaseStaleForegroundDeferrals setting s now rateLimitClear)
  | restart (now : ℚ) (jitter : ℕ → ℕ) :
      Outcome s (.restart now jitter) (startProcess reader s now jitter)
  | spread (now : ℚ) (jitter : ℕ → ℕ) :
      Outcome s (.spread now jitter) (spreadDueJobsOnStartup setting s now jitter)
  | replay (now : ℚ) (id : ℕ) : Outcome s (.replay now id) (replayDeadLetterJob s now id)
  | deleteDead (id : ℕ) :
      Outcome s (.deleteDead id)
        { s with rows := Table.deleteWhere (fun row => row.id == id && row.status == .dead) s.rows }
  | purgeDead : Outcome s .purgeDead { s with rows := Table.deleteWhere (·.status == .dead) s.rows }

/-- No full job absorbs the message, and it is merged into a row. -/
def MergesInto (s : QueueState P) (message : P) (row : Row P) (merged : P) : Prop :=
  absorbingRow reader s message = none ∧ mergeCandidate reader s message = some (row, merged)

/-- The message is a full job and takes the place of a row. -/
def Supersedes (s : QueueState P) (message : P) (row : Row P) (start : String) : Prop :=
  absorbingRow reader s message = none ∧ mergeCandidate reader s message = none ∧
    supersededRow reader s message = some (row, start)

/-- The message has the key of a row, and no other branch takes it. -/
def CoalescesWith (s : QueueState P) (message : P) (row : Row P) : Prop :=
  absorbingRow reader s message = none ∧ mergeCandidate reader s message = none ∧
    supersededRow reader s message = none ∧ coalescedRow reader s message = some row

/-- When a job meets a rate limit, the row is put off with it: it would be due before the limit is
over, or the job gives way to it. -/
def TakenByBudget (s : QueueState P) (job : Row P) (now delayMs : ℚ) (jitter : ℕ → ℕ)
    (row : Row P) :
    Prop :=
  let blocked := reader.githubRateLimitAdmissionTargetForJob job.payload
  budgetBlocked reader now delayMs blocked row = true ∨
    ∃ sibling, rescheduleSibling job
      (deferPendingJobsForRateLimit reader now delayMs jitter blocked s.rows) =
      some sibling ∧ sibling.id = row.id

/-- What a step may do to a row that stays in the table. -/
inductive Change (s : QueueState P) : Action P → Row P → Row P → Prop
  | same (a : Action P) (row : Row P) : Change s a row row
  | merged {row : Row P} (now : ℚ) (message merged : P) (delaySeconds : ℚ)
      (hmerges : MergesInto reader s message row merged) :
      Change s (.enqueue now message delaySeconds) row
        (mergeInto reader now message merged delaySeconds row)
  | superseding {row : Row P} (now : ℚ) (message : P) (delaySeconds : ℚ) (start : String)
      (hsupersedes : Supersedes reader s message row start) :
      Change s (.enqueue now message delaySeconds) row
        (replaceIn reader now message delaySeconds (reader.jobCoalesceKey message) row)
  | coalesced {row : Row P} (now : ℚ) (message : P) (delaySeconds : ℚ)
      (hcoalesces : CoalescesWith reader s message row) :
      Change s (.enqueue now message delaySeconds) row
        (replaceIn reader now message delaySeconds row.jobKey row)
  | claimed {row : Row P} (now : ℚ) (reserved : Bool)
      (hclaim : (claimNext setting s now).1 = some (row, reserved))
      (hpending : row.status = .pending) (hdue : row.runAfter ≤ now)
        (hfree : keyFree s.rows row = true) :
      Change s (.claim now) row (claimUpdate now row)
  | unparseable {row : Row P} (now : ℚ) (hpending : row.status = .pending)
      (hdue : row.runAfter ≤ now)
      (hparses : reader.parses row.payload = false) :
      Change s (.claim now) row { claimUpdate now row with
        status := .dead
        attempts := row.attempts + 1
        lastError := some "unparseable payload"
        deadAt := some now }
  | putOff {a : Action P} {row : Row P} (index : ℕ) (flight : Flight P)
      (hflight : InFlight s .claimed index flight)
      (hid : row.id = flight.job.id) (hdefers : a.Defers index) (retryAfter : ℚ) (error : String)
        (tag : DeferredBy) :
      Change s a row { row with
        status := .pending
        runAfter := max row.runAfter retryAfter
        lastError := row.lastError.or (some error)
        deferredBy := row.deferredBy.or (some tag) }
  | lockContended {row : Row P} (index : ℕ) (flight : Flight P)
      (hflight : InFlight s .consuming index flight)
      (hid : row.id = flight.job.id) (now retryDelayMs : ℚ) (error : String) :
      Change s (.lockContended index now retryDelayMs error) row { row with
        status := .pending
        runAfter := now + retryDelayMs
        lastError := some error
        deferredBy := some .lockContended }
  | budget {row : Row P} (index : ℕ) (flight : Flight P)
      (hflight : InFlight s .consuming index flight)
      (now delayMs : ℚ) (jitter : ℕ → ℕ) (error : String) (later : ℚ) (lastError : Option String)
      (hpending : row.status = .pending) (hlater : row.runAfter ≤ later)
      (htaken : TakenByBudget reader s flight.job now delayMs jitter row) :
      Change s (.rateLimited index now delayMs jitter error) row { row with
        runAfter := later
        lastError := lastError
        deferredBy := row.deferredBy.or (some .rateLimit) }
  | rateLimited {row : Row P} (index : ℕ) (flight : Flight P)
      (hflight : InFlight s .consuming index flight)
      (hid : row.id = flight.job.id) (now delayMs : ℚ) (jitter : ℕ →
        ℕ) (error : String) (retryAfter : ℚ) :
      Change s (.rateLimited index now delayMs jitter error) row { row with
        status := .pending
        runAfter := retryAfter
        lastError := some error
        deferredBy := some .rateLimit }
  | failedDead {row : Row P} (index : ℕ) (flight : Flight P)
      (hflight : InFlight s .consuming index flight)
      (hid : row.id = flight.job.id) (hbudget : setting.maxRetries ≤ flight.job.attempts + 1)
      (now retryDelayMs : ℚ) (error : String) :
      Change s (.fail index now retryDelayMs error) row { row with
        status := .dead
        attempts := flight.job.attempts + 1
        lastError := some error
        deadAt := some now }
  | failedPending {row : Row P} (index : ℕ) (flight : Flight P)
      (hflight : InFlight s .consuming index flight)
      (hid : row.id = flight.job.id) (hbudget : flight.job.attempts + 1 < setting.maxRetries)
      (now retryDelayMs : ℚ) (error : String) :
      Change s (.fail index now retryDelayMs error) row { row with
        status := .pending
        attempts := flight.job.attempts + 1
        runAfter := now + retryDelayMs
        lastError := some error }
  | reclaimed {row : Row P} (now : ℚ) (jitter : ℕ → ℕ) (hprocessing : row.status = .processing)
      (hlost : row.id ∉ s.activeJobIds) :
      Change s (.reclaim now jitter) row { row with
        status := .pending
        runAfter := now + jitter row.id
        lastError := row.lastError.or (some "processing lease expired; requeued") }
  | revived {row : Row P} (now : ℚ) (jitter : ℕ → ℕ) (hdead : row.status = .dead)
      (hbudget : row.attempts < setting.maxRetries + setting.maxExtraAttempts) :
      Change s (.revive now jitter) row { row with
        status := .pending
        runAfter := now + jitter row.id
        lastError := none
        deadAt := none }
  | released {row : Row P} (now : ℚ) (rateLimitClear : P → Bool)
      (hdeferred : isDeferredForeground now row = true) :
      Change s (.sweep now rateLimitClear) row { row with runAfter := now, deferredBy := none }
  | restarted {row : Row P} (now : ℚ) (jitter : ℕ → ℕ) :
      Change s (.restart now jitter) row
        (if (backfill reader row).status == .processing then
          { backfill reader row with
            status := .pending, runAfter := now + jitter (backfill reader row).id }
        else backfill reader row)
  | spread {row : Row P} (now : ℚ) (jitter : ℕ → ℕ) (hdue : isDue now row = true) :
      Change s (.spread now jitter) row { row with runAfter := now + jitter row.id }
  | replayed {row : Row P} (now : ℚ) (id : ℕ) (hdead : row.status = .dead) :
      Change s (.replay now id) row { row with
        status := .pending
        runAfter := now
        lastError := none
        deadAt := none
        attempts := 0 }

/-- The row that an enqueue inserts. -/
def Fresh (s : QueueState P) (a : Action P) (row : Row P) : Prop :=
  ∃ now message delaySeconds, a = .enqueue now message delaySeconds ∧
    coalescedRow reader s message = none ∧ row = insertedRow reader s now message delaySeconds

/-- How a row leaves the table. -/
inductive Gone (s : QueueState P) : Action P → Row P → Prop
  | superseded {row survivor : Row P} (now : ℚ) (message : P) (delaySeconds : ℚ) (start : String)
      (hsupersedes : Supersedes reader s message survivor start) (hpending : row.status = .pending)
      (hstart : hasKeyPrefix start row.jobKey = true) : Gone s
        (.enqueue now message delaySeconds) row
  | completed {row : Row P} (index : ℕ) (flight : Flight P)
      (hflight : InFlight s .consuming index flight)
      (hid : row.id = flight.job.id) : Gone s (.complete index) row
  | rescheduled {row : Row P} (index : ℕ) (flight : Flight P)
      (hflight : InFlight s .consuming index flight)
      (hid : row.id = flight.job.id) (now delayMs : ℚ) (jitter : ℕ → ℕ) (error : String)
      (hsibling : (rescheduleSibling flight.job
        (deferPendingJobsForRateLimit reader now delayMs jitter
        (reader.githubRateLimitAdmissionTargetForJob flight.job.payload) s.rows)).isSome) :
      Gone s (.rateLimited index now delayMs jitter error) row
  | deleted {row : Row P} {a : Action P} (hdead : row.status = .dead)
      (hoperator : (∃ id, a = .deleteDead id) ∨ a = .purgeDead) : Gone s a row

variable {reader setting} {s s' : QueueState P} {a : Action P} {row : Row P}

@[simp] theorem backfill_id (row : Row P) : (backfill reader row).id = row.id := by
  rw [backfill]
  split_ifs <;> rfl

theorem ids_backfill (rows : List (Row P)) :
    (rows.map (backfill reader)).map (·.id) = rows.map (·.id) := by
  rw [map_map]
  exact map_congr_left fun row _ => backfill_id row

variable {row' : Row P}

theorem Change.id_eq (h : Change reader setting s a row row') : row'.id = row.id := by
  cases h with
  | restarted now jitter =>
    split_ifs
    · exact backfill_id row
    · exact backfill_id row
  | _ => rfl

/-! ## Updates -/

variable {p : Row P → Bool} {rows : List (Row P)} {f : Row P → Row P}

/-- A row after an update comes from a row before it. -/
theorem mem_updateWhere_change {C : Row P → Row P → Prop} (hsame : ∀ row, C row row)
    (hchange : ∀ row ∈ rows, p row = true → C row (f row)) (h : row' ∈ Table.updateWhere p f rows) :
    ∃ row ∈ rows, C row row' := by
  obtain ⟨row, hrow, rfl⟩ := Table.mem_updateWhere.1 h
  refine ⟨row, hrow, ?_⟩
  split_ifs with hp
  · exact hchange row hrow hp
  · exact hsame row

/-- A row before an update has a successor. -/
theorem exists_mem_updateWhere (hkey : ∀ row, (f row).id = row.id) (hrow : row ∈ rows) :
    ∃ row' ∈ Table.updateWhere p f rows, row'.id = row.id := by
  refine ⟨_, Table.mem_updateWhere_of_mem p f hrow, ?_⟩
  split_ifs
  · exact hkey row
  · rfl

variable {flight : Flight P} {index : ℕ}

theorem flightIn_eq_some {phase : Phase} :
    flightIn s phase index = some flight ↔ InFlight s phase index flight := by
  rw [flightIn, Option.filter_eq_some_iff, beq_iff_eq]
  rfl

theorem InFlight.mem {phase : Phase} (h : InFlight s phase index flight) :
    flight ∈ s.flights :=
  mem_of_getElem? h.1

theorem InFlight.eq {phase phase' : Phase} {flight flight' : Flight P}
    (h : InFlight s phase index flight) (h' : InFlight s phase' index flight') : flight = flight' :=
  Option.some.inj (h.1.symm.trans h'.1)

/-- **What a step does.** -/
theorem step_outcome (hstep : step reader setting s a = some s') :
    Outcome reader setting s a s' := by
  cases a with
  | deferRateLimit index now delayMs kind =>
    obtain ⟨flight, hflight, rfl⟩ := Option.map_eq_some_iff.1 hstep
    exact .putOff index (by rfl) flight (flightIn_eq_some.1 hflight) _ _ _
  | deferMaintenance index now delayMs signals =>
    obtain ⟨flight, hflight, hdecision⟩ := Option.bind_eq_some_iff.1 hstep
    dsimp only at hdecision
    split at hdecision
    · obtain rfl := Option.some.inj hdecision
      exact .putOff index (by rfl) flight (flightIn_eq_some.1 hflight) _ _ _
    · cases hdecision
  | deferInstallation index now delayMs =>
    obtain ⟨flight, hflight, hdecision⟩ := Option.bind_eq_some_iff.1 hstep
    split at hdecision
    · cases hdecision
    · obtain rfl := Option.some.inj hdecision
      exact .putOff index (by rfl) flight (flightIn_eq_some.1 hflight) _ _ _
  | settle index =>
    obtain ⟨flight, hflight, rfl⟩ := Option.map_eq_some_iff.1 hstep
    exact .settle index flight (flightIn_eq_some.1 hflight)
  | consume index now signals =>
    obtain ⟨flight, hflight, hdecision⟩ := Option.bind_eq_some_iff.1 hstep
    dsimp only at hdecision
    split at hdecision
    · next hgates =>
      obtain rfl := Option.some.inj hdecision
      rw [Bool.and_eq_true] at hgates
      exact .consume index now signals flight (flightIn_eq_some.1 hflight) hgates.2
    · cases hdecision
  | complete index =>
    obtain ⟨flight, hflight, rfl⟩ := Option.map_eq_some_iff.1 hstep
    exact .complete index flight (flightIn_eq_some.1 hflight)
  | lockContended index now retryDelayMs error =>
    obtain ⟨flight, hflight, hdecision⟩ := Option.bind_eq_some_iff.1 hstep
    split at hdecision
    · obtain rfl := Option.some.inj hdecision
      exact .lockContended index now retryDelayMs error flight (flightIn_eq_some.1 hflight)
    · cases hdecision
  | rateLimited index now delayMs jitter error =>
    obtain ⟨flight, hflight, rfl⟩ := Option.map_eq_some_iff.1 hstep
    exact .rateLimited index now delayMs jitter error flight (flightIn_eq_some.1 hflight)
  | fail index now retryDelayMs error =>
    obtain ⟨flight, hflight, rfl⟩ := Option.map_eq_some_iff.1 hstep
    exact .fail index now retryDelayMs error flight (flightIn_eq_some.1 hflight)
  | _ =>
    obtain rfl := Option.some.inj hstep
    constructor

@[simp] theorem land_rows (index : ℕ) (flight : Flight P) : (land s index flight).rows = s.rows :=
  rfl

@[simp] theorem admitFlight_rows (index : ℕ) (flight : Flight P) :
    (admitFlight reader s index flight).rows = s.rows := by
  rw [admitFlight]
  split <;> rfl

@[simp] theorem admitFlight_nextId (index : ℕ) (flight : Flight P) :
    (admitFlight reader s index flight).nextId = s.nextId := by
  rw [admitFlight]
  split <;> rfl

/-! ## Enqueue -/

theorem mergeCandidate_mem {message merged : P}
    (h : mergeCandidate reader s message = some (row, merged)) :
    row ∈ s.rows ∧ row.status = .pending ∧
      reader.jobCoalesceMergedPayload row.payload message = some merged ∧
      ∃ start, reader.jobCoalesceMergeKeyPrefix message = some start ∧
        hasKeyPrefix start row.jobKey = true := by
  obtain ⟨start, hstart, h⟩ := Option.bind_eq_some_iff.1 h
  obtain ⟨found, hfirst, h⟩ := Option.bind_eq_some_iff.1 h
  obtain ⟨payload, hpayload, hpair⟩ := Option.map_eq_some_iff.1 h
  obtain ⟨rfl, rfl⟩ := Prod.mk.inj hpair
  obtain ⟨hmem, hpending⟩ := Table.firstBy_mem hfirst
  rw [Bool.and_eq_true, isPendingPrefix, Bool.and_eq_true, beq_iff_eq] at hpending
  exact ⟨hmem, hpending.1.1, hpayload, start, hstart, hpending.1.2⟩

variable {message : P} {start : String}

theorem supersededRow_mem (h : supersededRow reader s message = some (row, start)) :
    row ∈ s.rows ∧ row.status = .pending ∧
      reader.jobCoalesceSupersededKeyPrefix message = some start ∧
      hasKeyPrefix start row.jobKey = true := by
  obtain ⟨_, _, h⟩ := Option.bind_eq_some_iff.1 h
  obtain ⟨prefixText, hstart, h⟩ := Option.bind_eq_some_iff.1 h
  obtain ⟨found, hfirst, hpair⟩ := Option.map_eq_some_iff.1 h
  obtain ⟨rfl, rfl⟩ := Prod.mk.inj hpair
  obtain ⟨hmem, hpending⟩ := Table.firstBy_mem hfirst
  rw [isPendingPrefix, Bool.and_eq_true, beq_iff_eq] at hpending
  exact ⟨hmem, hpending.1, hstart, hpending.2⟩

theorem MergesInto.mem {message merged : P} (h : MergesInto reader s message row merged) :
    row ∈ s.rows ∧ row.status = .pending :=
  ⟨(mergeCandidate_mem h.2).1, (mergeCandidate_mem h.2).2.1⟩

theorem Supersedes.mem (h : Supersedes reader s message row start) :
    row ∈ s.rows ∧ row.status = .pending :=
  ⟨(supersededRow_mem h.2.2).1, (supersededRow_mem h.2.2).2.1⟩

theorem coalescedRow_mem (h : coalescedRow reader s message = some row) :
    row ∈ s.rows ∧ row.status = .pending ∧ row.jobKey = reader.jobCoalesceKey message := by
  obtain ⟨key, hkey, hfirst⟩ := Option.bind_eq_some_iff.1 h
  obtain ⟨hmem, hpending⟩ := Table.firstBy_mem hfirst
  rw [isPendingKey, Bool.and_eq_true, beq_iff_eq, beq_iff_eq] at hpending
  exact ⟨hmem, hpending.1, hpending.2.trans hkey.symm⟩

theorem CoalescesWith.mem (h : CoalescesWith reader s message row) :
    row ∈ s.rows ∧ row.status = .pending :=
  ⟨(coalescedRow_mem h.2.2.2).1, (coalescedRow_mem h.2.2.2).2.1⟩

/-- The branches of `enqueue`, in their order. -/
theorem enqueue_cases (reader : JobReader P) (s : QueueState P) (now : ℚ) (message : P)
    (delaySeconds : ℚ) :
    ((absorbingRow reader s message).isSome ∧ enqueue reader s now message delaySeconds = s) ∨
    (∃ row merged, MergesInto reader s message row merged ∧
      enqueue reader s now message delaySeconds = { s with
        rows := Table.updateWhere (·.id == row.id)
          (mergeInto reader now message merged delaySeconds) s.rows }) ∨
    (∃ row start, Supersedes reader s message row start ∧
      enqueue reader s now message delaySeconds = { s with
        rows := Table.deleteWhere (fun other => other.id != row.id && isPendingPrefix start other)
          (Table.updateWhere (·.id == row.id)
            (replaceIn reader now message delaySeconds (reader.jobCoalesceKey message)) s.rows) }) ∨
    (∃ row, CoalescesWith reader s message row ∧
      enqueue reader s now message delaySeconds = { s with
        rows := Table.updateWhere (·.id == row.id)
          (fun old => replaceIn reader now message delaySeconds old.jobKey old) s.rows }) ∨
    (coalescedRow reader s message = none ∧ enqueue reader s now message delaySeconds = { s with
      rows := s.rows ++ [insertedRow reader s now message delaySeconds]
      nextId := s.nextId + 1 }) := by
  rw [enqueue]
  split
  · next habsorbed => exact Or.inl ⟨habsorbed, rfl⟩
  next habsorbed =>
  rw [Bool.not_eq_true, Option.isSome_eq_false_iff, Option.isNone_iff_eq_none] at habsorbed
  split
  · next row merged hmerge => exact Or.inr (Or.inl ⟨row, merged, ⟨habsorbed, hmerge⟩, rfl⟩)
  next hmerge =>
  split
  · next row start hsuperseded =>
    exact Or.inr (Or.inr (Or.inl ⟨row, start, ⟨habsorbed, hmerge, hsuperseded⟩, rfl⟩))
  next hsuperseded =>
  split
  · next row hcoalesced =>
    exact Or.inr (Or.inr (Or.inr (Or.inl ⟨row, ⟨habsorbed, hmerge, hsuperseded, hcoalesced⟩, rfl⟩)))
  · next hcoalesced => exact Or.inr (Or.inr (Or.inr (Or.inr ⟨hcoalesced, rfl⟩)))

/-! ## Claims -/

/-- The claimed row was pending, due and free, and nothing else changed in the table. -/
structure Claims (s : QueueState P) (now : ℚ) (row : Row P) (after : QueueState P) : Prop where
  mem : row ∈ s.rows
  pending : row.status = .pending
  due : row.runAfter ≤ now
  free : keyFree s.rows row = true
  rows : after.rows =
    Table.updateWhere (fun old => old.id == row.id &&
      old.status == .pending) (claimUpdate now) s.rows

/-- What claims leave alone. -/
structure SameWork (s after : QueueState P) : Prop where
  nextId : after.nextId = s.nextId
  flights : after.flights = s.flights
  activeJobIds : after.activeJobIds = s.activeJobIds
  installationCounts : after.installationCounts = s.installationCounts

variable {after : QueueState P} {now : ℚ}

theorem claimNextWhere_cases {eligible : Row P → Bool} {found : Option (Row P)}
    (h : claimNextWhere s now eligible = (found, after)) :
    SameWork s after ∧ after.activeBackground = s.activeBackground ∧
      (found = none ∧ after = s ∨ ∃ row, found = some row ∧ Claims s now row after) := by
  rw [claimNextWhere] at h
  split at h
  · obtain ⟨rfl, rfl⟩ := Prod.mk.inj h
    exact ⟨⟨rfl, rfl, rfl, rfl⟩, rfl, Or.inl ⟨rfl, rfl⟩⟩
  · next row hfirst =>
    obtain ⟨rfl, rfl⟩ := Prod.mk.inj h
    obtain ⟨hmem, hclaimable⟩ := Table.firstBy_mem hfirst
    simp only [claimable, Bool.and_eq_true, beq_iff_eq, decide_eq_true_eq] at hclaimable
    exact ⟨⟨rfl, rfl, rfl, rfl⟩, rfl,
      Or.inr ⟨row, rfl, hmem, hclaimable.1.1.1, hclaimable.1.1.2, hclaimable.2, rfl⟩⟩

theorem claimNextForegroundLane_cases {found : Option (Row P)}
    (h : claimNextForegroundLane setting s now = (found, after)) :
    SameWork s after ∧ after.activeBackground = s.activeBackground ∧
      (found = none ∧ after.rows = s.rows ∨ ∃ row, found = some row ∧ Claims s now row after) := by
  have hclaim : ∀ {eligible : Row P → Bool} {result : Option (Row P)} {later : QueueState P},
      claimNextWhere { s with claimSequence := s.claimSequence + 1 } now eligible =
        (result, later) →
      SameWork s later ∧ later.activeBackground = s.activeBackground ∧
        (result = none ∧ later.rows = s.rows ∨ ∃ row, result = some row ∧
          Claims s now row later) := by
    intro eligible result later hresult
    obtain ⟨hsame, hbackground, ⟨hnone, rfl⟩ | ⟨row, hrow, hclaims⟩⟩ := claimNextWhere_cases hresult
    · exact ⟨⟨rfl, rfl, rfl, rfl⟩, rfl, Or.inl ⟨hnone, rfl⟩⟩
    · exact ⟨⟨hsame.nextId, hsame.flights, hsame.activeJobIds, hsame.installationCounts⟩,
        hbackground,
        Or.inr ⟨row, hrow, hclaims.mem, hclaims.pending, hclaims.due, hclaims.free, hclaims.rows⟩⟩
  simp only [claimNextForegroundLane] at h
  split at h
  · obtain ⟨rfl, rfl⟩ := Prod.mk.inj h
    exact ⟨⟨rfl, rfl, rfl, rfl⟩, rfl, Or.inl ⟨rfl, rfl⟩⟩
  split at h
  · exact hclaim h
  split at h
  · obtain ⟨rfl, rfl⟩ := Prod.mk.inj h
    exact ⟨⟨rfl, rfl, rfl, rfl⟩, rfl, Or.inl ⟨rfl, rfl⟩⟩
  split at h
  · next later hlater =>
    obtain ⟨rfl, rfl⟩ := Prod.mk.inj h
    exact hclaim hlater
  · next row later hlater =>
    obtain ⟨rfl, rfl⟩ := Prod.mk.inj h
    obtain ⟨hsame, hbackground, ⟨hnone, _⟩ | ⟨found, hfound, hclaims⟩⟩ := hclaim hlater
    · cases hnone
    · obtain rfl := Option.some.inj hfound
      exact ⟨⟨hsame.nextId, hsame.flights, hsame.activeJobIds, hsame.installationCounts⟩,
        hbackground,
        Or.inr ⟨row, rfl, hclaims.mem, hclaims.pending, hclaims.due, hclaims.free, hclaims.rows⟩⟩

/-- A claim goes by the table as it was before any of its attempts. -/
theorem Claims.of_rows_eq {s' : QueueState P} (hrows : s'.rows = s.rows)
    (h : Claims s' now row after) : Claims s now row after := by
  obtain ⟨hmem, hpending, hdue, hfree, hafter⟩ := h
  rw [hrows] at hmem hfree hafter
  exact ⟨hmem, hpending, hdue, hfree, hafter⟩

theorem SameWork.trans {m after : QueueState P} (h : SameWork s m) (h' : SameWork m after) :
    SameWork s after :=
  ⟨h'.nextId.trans h.nextId, h'.flights.trans h.flights, h'.activeJobIds.trans h.activeJobIds,
    h'.installationCounts.trans h.installationCounts⟩

variable {found : Option (Row P × Bool)}

/-- **What a claim finds and does**: a background slot is taken only while there is one. -/
theorem claimNext_cases (h : claimNext setting s now = (found, after)) :
    SameWork s after ∧
      (found = none ∧ after.rows = s.rows ∧ after.activeBackground = s.activeBackground ∨
      ∃ row reserved, found = some (row, reserved) ∧ Claims s now row after ∧
        after.activeBackground = s.activeBackground + (if reserved then 1 else 0) ∧
        (reserved = true → s.activeBackground < setting.backgroundConcurrency)) := by
  rw [claimNext] at h
  split at h
  · next row lane hlane =>
    obtain ⟨rfl, rfl⟩ := Prod.mk.inj h
    obtain ⟨hsame, hbackground, ⟨hnone, _⟩ | ⟨found, hfound, hclaims⟩⟩ :=
      claimNextForegroundLane_cases hlane
    · cases hnone
    · obtain rfl := Option.some.inj hfound
      exact ⟨hsame, Or.inr ⟨row, false, rfl, hclaims, hbackground, by simp⟩⟩
  next lane hlane =>
  obtain ⟨hlaneSame, hlaneBackground, ⟨_, hlaneRows⟩ | ⟨_, hfound, _⟩⟩ :=
    claimNextForegroundLane_cases hlane
  swap
  · cases hfound
  split at h
  · next row foreground hforeground =>
    obtain ⟨rfl, rfl⟩ := Prod.mk.inj h
    obtain ⟨hsame, hbackground, ⟨hnone, _⟩ | ⟨found, hfound, hclaims⟩⟩ :=
      claimNextWhere_cases hforeground
    · cases hnone
    · obtain rfl := Option.some.inj hfound
      exact ⟨hlaneSame.trans hsame, Or.inr ⟨row, false, rfl, hclaims.of_rows_eq hlaneRows,
        hbackground.trans hlaneBackground, by simp⟩⟩
  next foreground hforeground =>
  obtain ⟨_, _, ⟨_, rfl⟩ | ⟨_, hfound, _⟩⟩ := claimNextWhere_cases hforeground
  swap
  · cases hfound
  split at h
  · obtain ⟨rfl, rfl⟩ := Prod.mk.inj h
    exact ⟨hlaneSame, Or.inl ⟨rfl, hlaneRows, hlaneBackground⟩⟩
  next hslot =>
  split at h
  · next background hbackground =>
    obtain ⟨rfl, rfl⟩ := Prod.mk.inj h
    obtain ⟨_, _, ⟨_, rfl⟩ | ⟨_, hfound, _⟩⟩ := claimNextWhere_cases hbackground
    · exact ⟨hlaneSame, Or.inl ⟨rfl, hlaneRows, hlaneBackground⟩⟩
    · cases hfound
  · next row background hbackground =>
    obtain ⟨rfl, rfl⟩ := Prod.mk.inj h
    obtain ⟨hsame, hcount, ⟨hnone, _⟩ | ⟨found, hfound, hclaims⟩⟩ :=
      claimNextWhere_cases hbackground
    · cases hnone
    · obtain rfl := Option.some.inj hfound
      have hclaimed := hclaims.of_rows_eq hlaneRows
      refine ⟨⟨(hlaneSame.trans hsame).nextId, (hlaneSame.trans hsame).flights,
        (hlaneSame.trans hsame).activeJobIds, (hlaneSame.trans hsame).installationCounts⟩,
        Or.inr ⟨row, true, rfl, ⟨hclaimed.mem, hclaimed.pending, hclaimed.due, hclaimed.free,
          hclaimed.rows⟩, ?_, ?_⟩⟩
      · show background.activeBackground + 1 = _
        rw [hcount, hlaneBackground]
        rfl
      · intro _
        rw [← hlaneBackground]
        exact not_le.1 hslot

/-- A claim is of nothing, of a job that is now in flight, or of a payload that does not parse. -/
theorem processOneClaim_cases (reader : JobReader P) (setting : Setting) (s : QueueState P)
    (now : ℚ) :
    (∃ after, claimNext setting s now = (none, after) ∧
      processOneClaim reader setting s now = after) ∨
    (∃ job reserved after, claimNext setting s now = (some (job, reserved), after) ∧
      reader.parses job.payload = true ∧ processOneClaim reader setting s now = { after with
        activeJobIds := job.id :: after.activeJobIds
        flights := after.flights ++ [⟨job, .claimed, reserved, none⟩] }) ∨
    (∃ job reserved after, claimNext setting s now = (some (job, reserved), after) ∧
      reader.parses job.payload = false ∧ processOneClaim reader setting s now =
        release (setRow { after with activeJobIds := job.id :: after.activeJobIds }
          job.id fun row =>
          { row with
            status := .dead
            attempts := row.attempts + 1
            lastError := some "unparseable payload"
            deadAt := some now }) ⟨job, .claimed, reserved, none⟩) := by
  rw [processOneClaim]
  split
  · next after hclaim => exact Or.inl ⟨after, hclaim, rfl⟩
  · next job reserved after hclaim =>
    right
    cases hparses : reader.parses job.payload with
    | true => exact Or.inl ⟨job, reserved, after, hclaim, hparses, rfl⟩
    | false => exact Or.inr ⟨job, reserved, after, hclaim, hparses, rfl⟩

/-! ## Rows after a step -/

/-- No two rows have one id, and the next id is new. -/
structure QueueState.RowsApart (s : QueueState P) : Prop where
  nodup : (s.rows.map (·.id)).Nodup
  below : ∀ row ∈ s.rows, row.id < s.nextId

theorem QueueState.RowsApart.eq (h : s.RowsApart) {a b : Row P} (ha : a ∈ s.rows) (hb : b ∈ s.rows)
    (hid : a.id = b.id) : a = b :=
  Table.eq_of_key h.nodup ha hb hid

/-- Each row of the table comes from one of the state by a change, or is fresh. -/
def Explained (reader : JobReader P) (setting : Setting) (s : QueueState P) (a : Action P)
    (rows : List (Row P)) :
    Prop :=
  ∀ row' ∈ rows, (∃ row ∈ s.rows, Change reader setting s a row row') ∨ Fresh reader s a row'

theorem explained_self (a : Action P) : Explained reader setting s a s.rows :=
  fun row' hrow' => Or.inl ⟨row', hrow', .same a row'⟩

theorem explained_deleteWhere (h : Explained reader setting s a rows) :
    Explained reader setting s a (Table.deleteWhere p rows) :=
  fun row' hrow' => h row' (Table.mem_deleteWhere.1 hrow').1

theorem explained_updateWhere
    (h : ∀ row ∈ s.rows, p row = true → Change reader setting s a row (f row)) :
    Explained reader setting s a (Table.updateWhere p f s.rows) :=
  fun _ hrow' => Or.inl (mem_updateWhere_change (fun row => .same a row) h hrow')

theorem explained_enqueue (hapart : s.RowsApart) (now : ℚ) (message : P) (delaySeconds : ℚ) :
    Explained reader setting s (.enqueue now message delaySeconds)
      (enqueue reader s now message delaySeconds).rows := by
  obtain ⟨_, h⟩ | ⟨row, merged, hrow, h⟩ | ⟨row, start, hrow, h⟩ | ⟨row, hrow, h⟩ | ⟨hnone, h⟩ :=
    enqueue_cases reader s now message delaySeconds
  · rw [h]
    exact explained_self _
  · rw [h]
    refine explained_updateWhere fun old hold hid => ?_
    obtain rfl := hapart.eq hold hrow.mem.1 (beq_iff_eq.1 hid)
    exact .merged now message merged delaySeconds hrow
  · rw [h]
    refine explained_deleteWhere (explained_updateWhere fun old hold hid => ?_)
    obtain rfl := hapart.eq hold hrow.mem.1 (beq_iff_eq.1 hid)
    exact .superseding now message delaySeconds start hrow
  · rw [h]
    refine explained_updateWhere fun old hold hid => ?_
    obtain rfl := hapart.eq hold hrow.mem.1 (beq_iff_eq.1 hid)
    exact .coalesced now message delaySeconds hrow
  · rw [h]
    intro row' hrow'
    obtain hold | hnew := mem_append.1 hrow'
    · exact Or.inl ⟨row', hold, .same _ row'⟩
    · exact Or.inr ⟨now, message, delaySeconds, rfl, hnone, mem_singleton.1 hnew⟩

theorem explained_claim (hapart : s.RowsApart) (now : ℚ) :
    Explained reader setting s (.claim now) (processOneClaim reader setting s now).rows := by
  obtain ⟨after, hclaim, h⟩ | ⟨job, reserved, after, hclaim, hparses, h⟩ |
      ⟨job, reserved, after, hclaim, hparses, h⟩ :=
    processOneClaim_cases reader setting s now
  · obtain ⟨_, ⟨_, hrows, _⟩ | ⟨_, _, hfound, _⟩⟩ := claimNext_cases hclaim
    · rw [h, hrows]
      exact explained_self _
    · cases hfound
  · obtain ⟨_, ⟨hfound, _⟩ | ⟨row, _, hfound, hclaims, _⟩⟩ := claimNext_cases hclaim
    · cases hfound
    obtain ⟨rfl, rfl⟩ := Prod.mk.inj (Option.some.inj hfound)
    rw [h]
    show Explained reader setting s _ after.rows
    rw [hclaims.rows]
    refine explained_updateWhere fun old hold hid => ?_
    rw [Bool.and_eq_true, beq_iff_eq] at hid
    obtain rfl := hapart.eq hold hclaims.mem hid.1
    exact .claimed now reserved (by rw [hclaim]) hclaims.pending hclaims.due hclaims.free
  · obtain ⟨_, ⟨hfound, _⟩ | ⟨row, _, hfound, hclaims, _⟩⟩ := claimNext_cases hclaim
    · cases hfound
    obtain ⟨rfl, _⟩ := Prod.mk.inj (Option.some.inj hfound)
    rw [h]
    intro row' hrow'
    obtain ⟨claimed, hclaimed, rfl⟩ := Table.mem_updateWhere.1 hrow'
    have hafter : claimed ∈ after.rows := hclaimed
    rw [hclaims.rows] at hafter
    obtain ⟨old, hold, rfl⟩ := Table.mem_updateWhere.1 hafter
    by_cases hid : old.id = job.id
    · -- The two updates are on the claimed row.
      obtain rfl := hapart.eq hold hclaims.mem hid
      refine Or.inl ⟨old, hold, ?_⟩
      have hpending := hclaims.pending
      simp only [hpending, beq_self_eq_true, Bool.and_self, if_true, claimUpdate]
      exact .unparseable now hclaims.pending hclaims.due hparses
    · refine Or.inl ⟨old, hold, ?_⟩
      have hother : (old.id == job.id) = false := beq_eq_false_iff_ne.2 hid
      simp only [hother, Bool.false_and, Bool.false_eq_true, if_false]
      exact .same _ old

theorem explained_putOff (hflight : InFlight s .claimed index flight)
    (hdefers : a.Defers index) (retryAfter : ℚ) (error : String) (tag : DeferredBy) :
    Explained reader setting s a (putOff s index flight retryAfter error tag).rows := by
  refine explained_updateWhere fun row _ hid => ?_
  exact .putOff index flight hflight (beq_iff_eq.1 hid) hdefers retryAfter error tag

theorem ids_deferPendingJobsForRateLimit (reader : JobReader P) (now delayMs : ℚ) (jitter : ℕ → ℕ)
    (blocked : Option (Option String)) (rows : List (Row P)) :
    (deferPendingJobsForRateLimit reader now delayMs jitter blocked rows).map (·.id) =
      rows.map (·.id) := by
  rw [deferPendingJobsForRateLimit]
  exact Table.keys_updateWhere fun _ _ => rfl

/-- What the budget makes of a row. -/
theorem deferPendingJobsForRateLimit_mem {now delayMs : ℚ} {jitter : ℕ → ℕ}
    {blocked : Option (Option String)}
    (h : row' ∈ deferPendingJobsForRateLimit reader now delayMs jitter blocked rows) :
    row' ∈ rows ∧ budgetBlocked reader now delayMs blocked row' = false ∨
      ∃ row ∈ rows, row.status = .pending ∧ budgetBlocked reader now delayMs blocked row = true ∧
        ∃ later lastError, row.runAfter ≤ later ∧ row' = { row with
          runAfter := later
          lastError := lastError
          deferredBy := row.deferredBy.or (some .rateLimit) } := by
  obtain ⟨row, hrow, rfl⟩ := Table.mem_updateWhere.1 h
  split_ifs with hblocked
  · obtain ⟨target, _, hpending⟩ := (Option.any_eq_true _ _).1 hblocked
    simp only [Bool.and_eq_true, beq_iff_eq] at hpending
    exact Or.inr ⟨row, hrow, hpending.1.1, hblocked, _, _, le_max_left _ _, rfl⟩
  · exact Or.inl ⟨hrow, Bool.eq_false_iff.2 hblocked⟩

theorem explained_rateLimited (hapart : s.RowsApart) (hflight : InFlight s .consuming index flight)
    (now delayMs : ℚ) (jitter : ℕ → ℕ) (error : String) :
    Explained reader setting s (.rateLimited index now delayMs jitter error)
      (processOneRateLimited reader s index flight now delayMs jitter error).rows := by
  have hdeferred : ∀ row' ∈ deferPendingJobsForRateLimit reader now delayMs jitter
      (reader.githubRateLimitAdmissionTargetForJob flight.job.payload) s.rows, ∃ row ∈ s.rows,
        Change reader setting s (.rateLimited index now delayMs jitter error) row row' := by
    intro row' hrow'
    obtain ⟨hrow, _⟩ | ⟨row, hrow, hpending, hblocked, later, lastError, hlater, rfl⟩ :=
      deferPendingJobsForRateLimit_mem hrow'
    · exact ⟨row', hrow, .same _ row'⟩
    · exact ⟨row, hrow,
        .budget index flight hflight now delayMs jitter error later lastError hpending hlater
        (Or.inl hblocked)⟩
  show Explained reader setting s _ (rescheduleRateLimited flight.job _ error _)
  rw [rescheduleRateLimited]
  split
  · next sibling hsibling =>
    obtain ⟨key, _, hfirst⟩ := Option.bind_eq_some_iff.1 hsibling
    obtain ⟨hmem, hkey⟩ := Table.firstBy_mem hfirst
    simp only [isPendingKey, Bool.and_eq_true, beq_iff_eq] at hkey
    refine explained_deleteWhere fun row' hrow' => Or.inl ?_
    obtain ⟨deferred, hold, rfl⟩ := Table.mem_updateWhere.1 hrow'
    split_ifs with hsame
    · -- No other row has the id of the sibling.
      have hnodup : ((deferPendingJobsForRateLimit reader now delayMs jitter
          (reader.githubRateLimitAdmissionTargetForJob flight.job.payload) s.rows).map
            (·.id)).Nodup := by
        rw [ids_deferPendingJobsForRateLimit]
        exact hapart.nodup
      obtain rfl := Table.eq_of_key hnodup hold hmem (beq_iff_eq.1 hsame)
      obtain ⟨hrow, _⟩ | ⟨row, hrow, hpending, hblocked, later, lastError, hlater, rfl⟩ :=
        deferPendingJobsForRateLimit_mem hmem
      · exact ⟨deferred, hrow,
          .budget index flight hflight now delayMs jitter error _ _ hkey.1.1 (le_max_left _ _)
          (Or.inr ⟨deferred, hsibling, rfl⟩)⟩
      · have htag : (row.deferredBy.or (some .rateLimit)).or (some .rateLimit) =
            row.deferredBy.or (some .rateLimit) := by
          rw [Option.or_assoc, Option.or_self]
        simp only [htag]
        exact ⟨row, hrow, .budget index flight hflight now delayMs jitter error _ _ hpending
          (hlater.trans (le_max_left _ _)) (Or.inl hblocked)⟩
    · exact hdeferred deferred hold
  · refine fun row' hrow' => Or.inl ?_
    obtain ⟨deferred, hold, rfl⟩ := Table.mem_updateWhere.1 hrow'
    split_ifs with hsame
    · obtain ⟨hrow, _⟩ | ⟨row, hrow, _, _, later, lastError, _, rfl⟩ :=
        deferPendingJobsForRateLimit_mem hold
      · exact ⟨deferred, hrow,
          .rateLimited index flight hflight (beq_iff_eq.1 hsame) now delayMs jitter error _⟩
      · have hjob : row.id = flight.job.id := beq_iff_eq.1 hsame
        exact ⟨row, hrow, .rateLimited index flight hflight hjob now delayMs jitter error _⟩
    · exact hdeferred deferred hold

theorem explained_fail (hflight : InFlight s .consuming index flight)
    (now retryDelayMs : ℚ) (error : String) :
    Explained reader setting s (.fail index now retryDelayMs error)
      (processOneFail setting s index flight now retryDelayMs error).rows := by
  rw [processOneFail, land_rows]
  split
  · next hbudget =>
    refine explained_updateWhere fun row _ hid => ?_
    exact .failedDead index flight hflight (beq_iff_eq.1 hid) hbudget now retryDelayMs error
  · next hbudget =>
    refine explained_updateWhere fun row _ hid => ?_
    exact .failedPending index flight hflight (beq_iff_eq.1 hid) (not_le.1 hbudget) now
      retryDelayMs error

theorem explained_reclaim (now : ℚ) (jitter : ℕ → ℕ) :
    Explained reader setting s (.reclaim now jitter)
      (reclaimExpiredProcessingJobs setting s now jitter).rows := by
  rw [reclaimExpiredProcessingJobs]
  split
  · exact explained_self _
  · refine explained_updateWhere fun row _ hexpired => ?_
    simp only [Bool.and_eq_true, beq_iff_eq, Bool.not_eq_true', contains_eq_mem,
      decide_eq_false_iff_not]
      at hexpired
    exact .reclaimed now jitter hexpired.1.1 hexpired.2

theorem explained_revive (now : ℚ) (jitter : ℕ → ℕ) :
    Explained reader setting s (.revive now jitter)
      (reviveEligibleDeadJobs setting s now jitter).rows := by
  refine explained_updateWhere fun row _ heligible => ?_
  simp only [Bool.and_eq_true, beq_iff_eq, decide_eq_true_eq] at heligible
  exact .revived now jitter heligible.1 heligible.2

theorem sweepCandidates_deferred {row : Row P} (h : row ∈ sweepCandidates setting s now) :
    row ∈ s.rows ∧ isDeferredForeground now row = true := by
  rw [sweepCandidates, mem_append] at h
  have hmem : row ∈ s.rows.filter (isDeferredForeground now) := by
    obtain holdest | hnewest := h
    · exact (mem_insertionSort _).1 (mem_of_mem_take holdest)
    · exact (mem_insertionSort _).1 (mem_of_mem_take (mem_of_mem_filter hnewest))
  exact mem_filter.1 hmem

theorem mem_of_selected {rateLimitClear : P → Bool} {candidates : List (Row P)} {row : Row P}
    (h : row ∈ selectForegroundDeferralsToRelease setting rateLimitClear candidates) :
    row ∈ candidates := by
  rw [selectForegroundDeferralsToRelease] at h
  split at h
  · exact h
  · exact (mem_insertionSort _).1 (mem_of_mem_take h)

theorem explained_sweep (hapart : s.RowsApart) (now : ℚ) (rateLimitClear : P → Bool) :
    Explained reader setting s (.sweep now rateLimitClear)
      (releaseStaleForegroundDeferrals setting s now rateLimitClear).rows := by
  rw [releaseStaleForegroundDeferrals]
  split
  · exact explained_self _
  · refine explained_updateWhere fun row hrow hreleased => ?_
    simp only [Bool.and_eq_true, contains_iff_mem, mem_map] at hreleased
    obtain ⟨⟨⟨candidate, hcandidate, hid⟩, _⟩, _⟩ := hreleased
    obtain ⟨hmem, hdeferred⟩ :=
      sweepCandidates_deferred (mem_of_mem_filter (mem_of_selected hcandidate))
    obtain rfl := hapart.eq hmem hrow hid
    exact .released now rateLimitClear hdeferred

theorem explained_restart (now : ℚ) (jitter : ℕ → ℕ) :
    Explained reader setting s (.restart now jitter) (startProcess reader s now jitter).rows := by
  intro row' hrow'
  obtain ⟨filled, hfilled, rfl⟩ := Table.mem_updateWhere.1 hrow'
  obtain ⟨row, hrow, rfl⟩ := mem_map.1 hfilled
  exact Or.inl ⟨row, hrow, .restarted now jitter⟩

theorem explained_spread (now : ℚ) (jitter : ℕ → ℕ) :
    Explained reader setting s (.spread now jitter)
      (spreadDueJobsOnStartup setting s now jitter).rows := by
  rw [spreadDueJobsOnStartup]
  split
  · exact explained_self _
  · exact explained_updateWhere fun row _ hdue => .spread now jitter hdue

theorem explained_replay (now : ℚ) (id : ℕ) :
    Explained reader setting s (.replay now id) (replayDeadLetterJob s now id).rows := by
  refine explained_updateWhere fun row _ hdead => ?_
  rw [Bool.and_eq_true, beq_iff_eq, beq_iff_eq] at hdead
  exact .replayed now id hdead.2

/-- **Where the rows after a step come from.** -/
theorem step_rows (hapart : s.RowsApart) (hstep : step reader setting s a = some s') :
    Explained reader setting s a s'.rows := by
  cases step_outcome hstep with
  | enqueue now message delaySeconds => exact explained_enqueue hapart now message delaySeconds
  | claim now => exact explained_claim hapart now
  | putOff index hdefers flight hflight => exact explained_putOff hflight hdefers _ _ _
  | settle => exact explained_self _
  | consume =>
    rw [admitFlight_rows]
    exact explained_self _
  | complete => exact explained_deleteWhere (explained_self _)
  | lockContended index now retryDelayMs error flight hflight =>
    refine explained_updateWhere fun row _ hid => ?_
    exact .lockContended index flight hflight (beq_iff_eq.1 hid) now retryDelayMs error
  | rateLimited index now delayMs jitter error flight hflight =>
    exact explained_rateLimited hapart hflight now delayMs jitter error
  | fail index now retryDelayMs error flight hflight =>
    exact explained_fail hflight now retryDelayMs error
  | reclaim now jitter => exact explained_reclaim now jitter
  | revive now jitter => exact explained_revive now jitter
  | sweep now rateLimitClear => exact explained_sweep hapart now rateLimitClear
  | restart now jitter => exact explained_restart now jitter
  | spread now jitter => exact explained_spread now jitter
  | replay now id => exact explained_replay now id
  | deleteDead => exact explained_deleteWhere (explained_self _)
  | purgeDead => exact explained_deleteWhere (explained_self _)

/-! ## Rows that leave -/

/-- Each row of the state is still in the table, or it is gone. -/
def Accounted (reader : JobReader P) (s : QueueState P) (a : Action P) (rows : List (Row P)) :
    Prop :=
  ∀ row ∈ s.rows, (∃ row' ∈ rows, row'.id = row.id) ∨ Gone reader s a row

theorem ids_updateWhere (hid : ∀ row, (f row).id = row.id) :
    ((Table.updateWhere p f rows).map (·.id)).Sublist (rows.map (·.id)) := by
  rw [Table.keys_updateWhere fun row _ => hid row]

/-- What a step keeps of the rows and of their ids, to which at most that of a fresh row is
added. -/
structure Keeps (reader : JobReader P) (s : QueueState P) (a : Action P) (after : QueueState P) :
    Prop where
  accounted : Accounted reader s a after.rows
  ids : after.nextId = s.nextId ∧ (after.rows.map (·.id)).Sublist (s.rows.map (·.id)) ∨
    after.nextId = s.nextId + 1 ∧ after.rows.map (·.id) = s.rows.map (·.id) ++ [s.nextId]

theorem accounted_of_ids (hids : rows.map (·.id) = s.rows.map (·.id)) :
    Accounted reader s a rows := by
  intro row hrow
  have hmem : row.id ∈ rows.map (·.id) := by
    rw [hids]
    exact mem_map_of_mem hrow
  exact Or.inl (mem_map.1 hmem)

theorem keeps_of_ids (hnext : s'.nextId = s.nextId)
    (hids : s'.rows.map (·.id) = s.rows.map (·.id)) :
    Keeps reader s a s' :=
  ⟨accounted_of_ids hids, Or.inl ⟨hnext, hids ▸ List.Sublist.refl _⟩⟩

theorem keeps_updateWhere (hrows : s'.rows = Table.updateWhere p f s.rows)
    (hnext : s'.nextId = s.nextId) (hid : ∀ row, (f row).id = row.id) : Keeps reader s a s' :=
  keeps_of_ids hnext (hrows ▸ Table.keys_updateWhere fun row _ => hid row)

theorem keeps_deleteWhere (hrows : s'.rows = Table.deleteWhere p s.rows)
    (hnext : s'.nextId = s.nextId) (h : ∀ row ∈ s.rows, p row = true → Gone reader s a row) :
    Keeps reader s a s' := by
  refine ⟨fun row hrow => ?_, Or.inl ⟨hnext, hrows ▸ Table.keys_deleteWhere _⟩⟩
  cases hp : p row with
  | true => exact Or.inr (h row hrow hp)
  | false => exact Or.inl ⟨row, hrows ▸ Table.mem_deleteWhere.2 ⟨hrow, hp⟩, rfl⟩

theorem keeps_enqueue (now : ℚ) (message : P) (delaySeconds : ℚ) :
    Keeps reader s (.enqueue now message delaySeconds)
      (enqueue reader s now message delaySeconds) := by
  obtain ⟨_, h⟩ | ⟨row, merged, hrow, h⟩ | ⟨row, start, hrow, h⟩ | ⟨row, hrow, h⟩ | ⟨hnone, h⟩ :=
    enqueue_cases reader s now message delaySeconds
  · exact keeps_of_ids (by rw [h]) (by rw [h])
  · rw [h]
    exact keeps_updateWhere rfl rfl fun _ => rfl
  · rw [h]
    refine ⟨fun old hold => ?_,
      Or.inl ⟨rfl, (Table.keys_deleteWhere _).trans (ids_updateWhere fun _ => rfl)⟩⟩
    obtain ⟨old', hold', hid, hcase⟩ : ∃ old' ∈ Table.updateWhere (·.id == row.id)
        (replaceIn reader now message delaySeconds (reader.jobCoalesceKey message)) s.rows,
        old'.id = old.id ∧ (old.id = row.id ∨ old' = old) := by
      refine ⟨_, Table.mem_updateWhere_of_mem _ _ hold, ?_⟩
      split_ifs with hid
      · exact ⟨rfl, Or.inl (beq_iff_eq.1 hid)⟩
      · exact ⟨rfl, Or.inr rfl⟩
    cases hdeleted : old'.id != row.id && isPendingPrefix start old' with
    | false => exact Or.inl ⟨old', Table.mem_deleteWhere.2 ⟨hold', hdeleted⟩, hid⟩
    | true =>
      simp only [isPendingPrefix, Bool.and_eq_true, bne_iff_ne, beq_iff_eq] at hdeleted
      obtain hsame | rfl := hcase
      · exact absurd (hid.trans hsame) hdeleted.1
      · exact Or.inr (.superseded now message delaySeconds start hrow hdeleted.2.1 hdeleted.2.2)
  · rw [h]
    exact keeps_updateWhere rfl rfl fun _ => rfl
  · rw [h]
    exact ⟨fun old hold => Or.inl ⟨old, mem_append_left _ hold, rfl⟩, Or.inr ⟨rfl, map_append⟩⟩

theorem ids_claimNext
    (h : claimNext setting s now = (found, after)) : after.rows.map (·.id) = s.rows.map (·.id) := by
  obtain ⟨_, ⟨_, hrows, _⟩ | ⟨_, _, _, hclaims, _⟩⟩ := claimNext_cases h
  · rw [hrows]
  · rw [hclaims.rows]
    exact Table.keys_updateWhere fun _ _ => rfl

theorem ids_processOneClaim (now : ℚ) :
    (processOneClaim reader setting s now).rows.map (·.id) = s.rows.map (·.id) := by
  obtain ⟨after, hclaim, h⟩ | ⟨job, reserved, after, hclaim, _, h⟩ |
      ⟨job, reserved, after, hclaim, _, h⟩ :=
    processOneClaim_cases reader setting s now
  · rw [h, ids_claimNext hclaim]
  · rw [h, ← ids_claimNext hclaim]
  · rw [h, ← ids_claimNext hclaim]
    exact Table.keys_updateWhere fun _ _ => rfl

theorem processOneClaim_nextId (now : ℚ) :
    (processOneClaim reader setting s now).nextId = s.nextId := by
  obtain ⟨after, hclaim, h⟩ | ⟨job, reserved, after, hclaim, _, h⟩ |
      ⟨job, reserved, after, hclaim, _, h⟩ :=
    processOneClaim_cases reader setting s now
  · rw [h, (claimNext_cases hclaim).1.nextId]
  · rw [h, ← (claimNext_cases hclaim).1.nextId]
  · rw [h, ← (claimNext_cases hclaim).1.nextId]
    rfl

theorem keeps_rateLimited (hflight : InFlight s .consuming index flight)
    (now delayMs : ℚ) (jitter : ℕ → ℕ) (error : String) :
    Keeps reader s (.rateLimited index now delayMs jitter error)
      (processOneRateLimited reader s index flight now delayMs jitter error) := by
  have hdeferred := ids_deferPendingJobsForRateLimit reader now delayMs jitter
    (reader.githubRateLimitAdmissionTargetForJob flight.job.payload) s.rows
  refine ⟨show Accounted reader s _ (rescheduleRateLimited flight.job _ error _) from ?_,
    Or.inl ⟨rfl,
    show List.Sublist ((rescheduleRateLimited flight.job _ error _).map (·.id)) _
      from hdeferred ▸ ?_⟩⟩
  all_goals
    rw [rescheduleRateLimited]
    split
  · next sibling hsibling =>
    intro row hrow
    by_cases hjob : row.id = flight.job.id
    · refine Or.inr (.rescheduled index flight hflight hjob now delayMs jitter error ?_)
      rw [hsibling]
      rfl
    · left
      have hmem : row.id ∈ (deferPendingJobsForRateLimit reader now delayMs jitter
          (reader.githubRateLimitAdmissionTargetForJob flight.job.payload) s.rows).map (·.id) := by
        rw [hdeferred]
        exact mem_map_of_mem hrow
      obtain ⟨deferred, hmem, hid⟩ := mem_map.1 hmem
      have hmerged : ∀ f : Row P → Row P, (∀ row, (f row).id = row.id) →
          ∃ row' ∈ Table.deleteWhere (·.id == flight.job.id)
            (Table.updateWhere (·.id == sibling.id) f
            (deferPendingJobsForRateLimit reader now delayMs jitter
              (reader.githubRateLimitAdmissionTargetForJob flight.job.payload) s.rows)),
                row'.id = row.id := by
        intro f hf
        obtain ⟨row', hrow', hid'⟩ := exists_mem_updateWhere hf hmem
        refine ⟨row', Table.mem_deleteWhere.2 ⟨hrow', ?_⟩, hid'.trans hid⟩
        rw [beq_eq_false_iff_ne, hid', hid]
        exact hjob
      exact hmerged _ fun _ => rfl
  · refine accounted_of_ids (Eq.trans ?_ hdeferred)
    exact Table.keys_updateWhere fun _ _ => rfl
  · exact (Table.keys_deleteWhere _).trans (ids_updateWhere fun _ => rfl)
  · exact ids_updateWhere fun _ => rfl

/-- **What a step keeps**: no row leaves the table without a reason, and ids are never used
again. -/
theorem step_keeps (hstep : step reader setting s a = some s') : Keeps reader s a s' := by
  cases step_outcome hstep with
  | enqueue now message delaySeconds => exact keeps_enqueue now message delaySeconds
  | claim now => exact keeps_of_ids (processOneClaim_nextId now) (ids_processOneClaim now)
  | settle => exact keeps_of_ids rfl rfl
  | consume => exact keeps_of_ids (admitFlight_nextId _ _) (by rw [admitFlight_rows])
  | complete index flight hflight =>
    exact keeps_deleteWhere rfl rfl fun row _ hid =>
      .completed index flight hflight (beq_iff_eq.1 hid)
  | putOff | lockContended | revive | replay => exact keeps_updateWhere rfl rfl fun _ => rfl
  | rateLimited index now delayMs jitter error flight hflight =>
    exact keeps_rateLimited hflight now delayMs jitter error
  | fail =>
    rw [processOneFail]
    split <;> exact keeps_updateWhere rfl rfl fun _ => rfl
  | reclaim =>
    rw [reclaimExpiredProcessingJobs]
    split
    · exact keeps_of_ids rfl rfl
    · exact keeps_updateWhere rfl rfl fun _ => rfl
  | sweep =>
    rw [releaseStaleForegroundDeferrals]
    split
    · exact keeps_of_ids rfl rfl
    · exact keeps_updateWhere rfl rfl fun _ => rfl
  | restart =>
    refine keeps_of_ids rfl (Eq.trans (Table.keys_updateWhere fun _ _ => rfl) ?_)
    rw [ids_backfill]
  | spread =>
    rw [spreadDueJobsOnStartup]
    split
    · exact keeps_of_ids rfl rfl
    · exact keeps_updateWhere rfl rfl fun _ => rfl
  | deleteDead id =>
    refine keeps_deleteWhere rfl rfl fun row _ hdead => ?_
    rw [Bool.and_eq_true, beq_iff_eq, beq_iff_eq] at hdead
    exact .deleted hdead.2 (Or.inl ⟨id, rfl⟩)
  | purgeDead =>
    exact keeps_deleteWhere rfl rfl fun row _ hdead => .deleted (beq_iff_eq.1 hdead) (Or.inr rfl)

/-- **How rows leave the table.** -/
theorem step_gone (hstep : step reader setting s a = some s') : Accounted reader s a s'.rows :=
  (step_keeps hstep).accounted

/-- Ids are never used again. -/
theorem step_nextId (hstep : step reader setting s a = some s') : s.nextId ≤ s'.nextId := by
  obtain ⟨hnext, _⟩ | ⟨hnext, _⟩ := (step_keeps hstep).ids <;> omega

/-- **Ids stay apart.** -/
theorem step_rowsApart (hapart : s.RowsApart) (hstep : step reader setting s a = some s') :
    s'.RowsApart := by
  have hbelow : ∀ id ∈ s.rows.map (·.id), id < s.nextId := by
    rintro _ hid
    obtain ⟨row, hrow, rfl⟩ := mem_map.1 hid
    exact hapart.below row hrow
  obtain ⟨hnext, hids⟩ | ⟨hnext, hids⟩ := (step_keeps hstep).ids
  · exact ⟨hids.nodup hapart.nodup, fun row hrow =>
      hnext ▸ hbelow _ (hids.subset (mem_map_of_mem hrow))⟩
  · refine ⟨?_, fun row hrow => ?_⟩
    · rw [hids, ← concat_eq_append]
      exact hapart.nodup.concat fun hmem => Nat.lt_irrefl _ (hbelow _ hmem)
    · have hmem : row.id ∈ s.rows.map (·.id) ++ [s.nextId] := hids ▸ mem_map_of_mem hrow
      rw [hnext]
      obtain hold | hnew := mem_append.1 hmem
      · exact Nat.lt_succ_of_lt (hbelow _ hold)
      · exact mem_singleton.1 hnew ▸ Nat.lt_succ_self _

/-! ## Rows of one id -/

/-- A row with the id of an old one comes from it. -/
theorem change_of_id (hapart : s.RowsApart) (hstep : step reader setting s a = some s')
    {row row' : Row P} (hrow : row ∈ s.rows) (hrow' : row' ∈ s'.rows) (hid : row'.id = row.id) :
    Change reader setting s a row row' := by
  obtain ⟨old, hold, hchange⟩ | ⟨_, _, _, _, _, rfl⟩ := step_rows hapart hstep row' hrow'
  · obtain rfl := hapart.eq hold hrow (hchange.id_eq.symm.trans hid)
    exact hchange
  · exact absurd (hapart.below row hrow) (hid ▸ Nat.lt_irrefl _)

/-- The row into which a message is merged is created now. -/
theorem mem_of_merges {message merged : P} {delaySeconds : ℚ} {row : Row P}
    (hmerges : MergesInto reader s message row merged)
    (hstep : step reader setting s (.enqueue now message delaySeconds) = some s') :
    mergeInto reader now message merged delaySeconds row ∈ s'.rows := by
  obtain rfl := Option.some.inj hstep
  have henqueue : enqueue reader s now message delaySeconds = { s with
      rows := Table.updateWhere (·.id == row.id) (mergeInto reader now message merged delaySeconds)
        s.rows } := by
    rw [enqueue, hmerges.1, hmerges.2]
    rfl
  rw [henqueue]
  have hmem :=
    Table.mem_updateWhere_of_mem (·.id == row.id) (mergeInto reader now message merged delaySeconds)
    hmerges.mem.1
  rwa [if_pos (beq_self_eq_true row.id)] at hmem

/-- The row that supersedes stays. -/
theorem mem_of_supersedes {delaySeconds : ℚ} {row : Row P}
    (hsupersedes : Supersedes reader s message row start)
    (hstep : step reader setting s (.enqueue now message delaySeconds) = some s') :
    replaceIn reader now message delaySeconds (reader.jobCoalesceKey message) row ∈ s'.rows := by
  obtain rfl := Option.some.inj hstep
  have henqueue : enqueue reader s now message delaySeconds = { s with
      rows := Table.deleteWhere (fun other => other.id != row.id && isPendingPrefix start other)
        (Table.updateWhere (·.id == row.id)
          (replaceIn reader now message delaySeconds (reader.jobCoalesceKey message)) s.rows)
            } := by
    rw [enqueue, hsupersedes.1, hsupersedes.2.1, hsupersedes.2.2]
    rfl
  rw [henqueue, Table.mem_deleteWhere]
  have hmem := Table.mem_updateWhere_of_mem (·.id == row.id)
    (replaceIn reader now message delaySeconds (reader.jobCoalesceKey message)) hsupersedes.mem.1
  rw [if_pos (beq_self_eq_true row.id)] at hmem
  refine ⟨hmem, ?_⟩
  show (row.id != row.id && _) = false
  rw [bne_self_eq_false, Bool.false_and]

theorem emptyQueue_rowsApart : (emptyQueue : QueueState P).RowsApart :=
  ⟨nodup_nil, fun _ hrow => absurd hrow not_mem_nil⟩

end LoopOver.Queue
