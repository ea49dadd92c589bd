import LoopOver.Queue.Exclusion

/-!
# Delays of the SQLite queue

A message that is enqueued with a delay is not to be claimed before the delay is over. Deferrals
share the column `run_after` with the delay, and the liveness sweep takes a row that has a tag in
`deferred_by` for one that only a gate put off. But the budget of a rate limit tags pending rows
that still wait for their delay.

* `Waiting` is the row during its delay, and `step_waiting` says what keeps it.
* `delay_of_run`: over a run in which nothing tags it, the row is not claimed before its delay is
  over.
-/

namespace LoopOver.Queue

open List

variable {P : Type} {reader : JobReader P} {setting : Setting} {s s' : QueueState P} {a : Action P}

/-- When an action happens, where the source reads the clock for it. -/
def Action.time? : Action P → Option ℚ
  | .enqueue now .. | .claim now | .deferRateLimit _ now .. | .deferMaintenance _ now .. |
    .deferInstallation _ now ..
  | .consume _ now _ | .lockContended _ now .. | .rateLimited _ now .. | .fail _ now .. |
    .reclaim now _ | .revive now _
  | .sweep now _ | .restart now _ | .spread now _ | .replay now _ => some now
  | .settle _ | .complete _ | .deleteDead _ | .purgeDead => none

/-- The clock does not go back. -/
def InOrder (actions : List (Action P)) : Prop := (actions.filterMap Action.time?).Pairwise (· ≤ ·)

/-- The step coalesces no message with the row of an id. -/
def Uncoalesced (reader : JobReader P) (id : ℕ) (s : QueueState P) (a : Action P) : Prop :=
  ∀ now message delaySeconds row, a = .enqueue now message delaySeconds → row.id = id →
    (∀ merged, ¬ MergesInto reader s message row merged) ∧
      (∀ start, ¬ Supersedes reader s message row start) ∧
      ¬ CoalescesWith reader s message row

/-- No job that meets a rate limit before the deadline puts the row of an id off with it, where the
row is of the foreground. -/
def Untagged (reader : JobReader P) (id : ℕ) (deadline : ℚ) (s : QueueState P) (a : Action P) :
    Prop :=
  ∀ index now delayMs jitter error flight row, a = .rateLimited index now delayMs jitter error →
    InFlight s .consuming index flight → now < deadline → row ∈ s.rows → row.id = id →
      isForegroundJobPriority row.priority = true →
        ¬ TakenByBudget reader s flight.job now delayMs jitter row

/-- The row of an id as it waits for its delay. -/
structure Waits (reader : JobReader P) (message : P) (deadline : ℚ) (row : Row P) : Prop where
  pending : row.status = .pending
  delayed : deadline ≤ row.runAfter
  payload : row.payload = message
  priority : row.priority = reader.jobPriority message
  untagged : row.deferredBy = none ∨ isForegroundJobPriority row.priority = false

/-- The row of an id waits, and no job of it is in flight. -/
structure Waiting (reader : JobReader P) (id : ℕ) (message : P) (deadline : ℚ) (s : QueueState P) :
    Prop where
  row : ∀ row ∈ s.rows, row.id = id → Waits reader message deadline row
  flights : ∀ flight ∈ s.flights, flight.job.id ≠ id
  below : id < s.nextId

variable {deadline : ℚ} {message : P}

theorem backfill_waits {row : Row P} (h : Waits reader message deadline row) :
    Waits reader message deadline (backfill reader row) := by
  have hpending := h.pending
  rw [backfill, if_neg (by rw [hpending]; decide)]
  refine ⟨hpending, h.delayed, h.payload, congrArg reader.jobPriority h.payload, ?_⟩
  obtain hnone | hbackground := h.untagged
  · exact Or.inl hnone
  · right
    show isForegroundJobPriority (reader.jobPriority row.payload) = false
    rw [h.payload, ← h.priority]
    exact hbackground

variable {id : ℕ}

/-- A row goes on waiting at every step before the deadline. -/
theorem Change.waits {row row' : Row P} (h : Change reader setting s a row row')
    (hs : Waiting reader id message deadline s) (hrow : row ∈ s.rows) (hid : row.id = id)
    (huncoalesced : Uncoalesced reader id s a) (huntagged : Untagged reader id deadline s a)
    (hearly : ∀ time, a.time? = some time → time < deadline) :
    Waits reader message deadline row' := by
  have hwaits := hs.row row hrow hid
  have hdelayed := hwaits.delayed
  have hpending := hwaits.pending
  have hflight : ∀ {index phase flight}, InFlight s phase index flight → row.id ≠ flight.job.id :=
    fun hin hsame => hs.flights _ hin.mem (hsame.symm.trans hid)
  cases h with
  | same => exact hwaits
  | merged now message merged delaySeconds hmerges =>
    exact absurd hmerges ((huncoalesced now message delaySeconds row rfl hid).1 merged)
  | superseding now message delaySeconds start hsupersedes =>
    exact absurd hsupersedes ((huncoalesced now message delaySeconds row rfl hid).2.1 start)
  | coalesced now message delaySeconds hcoalesces =>
    exact absurd hcoalesces (huncoalesced now message delaySeconds row rfl hid).2.2
  | claimed now _ _ _ hdue => exact absurd (hdelayed.trans hdue) (not_le.2 (hearly now rfl))
  | unparseable now _ hdue => exact absurd (hdelayed.trans hdue) (not_le.2 (hearly now rfl))
  | putOff _ _ hin hjob => exact absurd hjob (hflight hin)
  | lockContended _ _ hin hjob => exact absurd hjob (hflight hin)
  | budget index flight hin now delayMs jitter error later lastError _ hlater htaken =>
    refine ⟨hpending, hdelayed.trans hlater, hwaits.payload, hwaits.priority, Or.inr ?_⟩
    rw [Bool.eq_false_iff]
    intro hforeground
    exact huntagged index now delayMs jitter error flight row rfl hin (hearly now rfl) hrow hid
      hforeground htaken
  | rateLimited _ _ hin hjob => exact absurd hjob (hflight hin)
  | failedDead _ _ hin hjob => exact absurd hjob (hflight hin)
  | failedPending _ _ hin hjob => exact absurd hjob (hflight hin)
  | reclaimed _ _ hprocessing => exact absurd (hpending.symm.trans hprocessing) (by decide)
  | revived _ _ hdead => exact absurd (hpending.symm.trans hdead) (by decide)
  | released now _ hdeferred =>
    -- A sweep takes rows of the foreground that have a tag.
    simp only [isDeferredForeground, Bool.and_eq_true] at hdeferred
    obtain hnone | hbackground := hwaits.untagged
    · rw [hnone] at hdeferred
      cases hdeferred.2
    · rw [hbackground] at hdeferred
      cases hdeferred.1.1.2
  | restarted now jitter =>
    rw [if_neg]
    · exact backfill_waits hwaits
    · rw [backfill_status, hpending]
      decide
  | spread now jitter hdue =>
    simp only [isDue, Bool.and_eq_true, decide_eq_true_eq] at hdue
    exact absurd (hdelayed.trans hdue.2) (not_le.2 (hearly now rfl))
  | replayed _ _ hdead => exact absurd (hpending.symm.trans hdead) (by decide)

/-- **A step before the deadline keeps the row waiting.** -/
theorem step_waiting (hapart : s.RowsApart) (hs : Waiting reader id message deadline s)
    (huncoalesced : Uncoalesced reader id s a) (huntagged : Untagged reader id deadline s a)
    (hearly : ∀ time, a.time? = some time → time < deadline)
    (hstep : step reader setting s a = some s') : Waiting reader id message deadline s' := by
  constructor
  · intro row' hrow' hid
    obtain ⟨row, hrow, hchange⟩ | ⟨_, _, _, _, _, rfl⟩ := step_rows hapart hstep row' hrow'
    · exact hchange.waits hs hrow (hchange.id_eq.symm.trans hid) huncoalesced huntagged hearly
    · exact absurd hs.below (hid ▸ Nat.lt_irrefl _)
  · intro flight hflight
    obtain ⟨old, hold, hjob⟩ | ⟨now, reserved, rfl, hclaim⟩ := step_flights_job hstep hflight
    · rw [← hjob]
      exact hs.flights old hold
    · intro hid
      obtain ⟨_, hclaims⟩ := claimNext_claims hclaim
      have hdelayed := (hs.row _ hclaims.mem hid).delayed
      exact absurd (hdelayed.trans hclaims.due) (not_le.2 (hearly now rfl))
  · exact hs.below.trans_le (step_nextId hstep)

/-- A claim of a waiting row, in a run whose clock does not go back, is at the deadline or later. -/
theorem delay_of_waiting {actions : List (Action P)} (hapart : s.RowsApart)
    (hs : Waiting reader id message deadline s) (horder : InOrder actions)
    (huncoalesced : Runs.AllSteps (step reader setting) (Uncoalesced reader id) s actions)
    (huntagged : Runs.AllSteps (step reader setting) (Untagged reader id deadline) s actions)
    {before after : QueueState P} {now : ℚ}
    (hoccurs : Runs.Occurs (step reader setting) s actions before (.claim now) after) {job : Row P}
    {reserved : Bool} (hclaim : (claimNext setting before now).1 = some (job, reserved))
    (hid : job.id = id) : deadline ≤ now := by
  induction actions generalizing s with
  | nil =>
    obtain ⟨front, back, hsplit, _⟩ := hoccurs
    cases front <;> cases hsplit
  | cons a actions ih =>
    obtain ⟨front, back, hsplit, hfront, hstep⟩ := hoccurs
    cases front with
    | nil =>
      obtain ⟨rfl, rfl⟩ := List.cons.inj hsplit
      obtain rfl := Option.some.inj hfront
      obtain ⟨_, hclaims⟩ := claimNext_claims hclaim
      exact (hs.row job hclaims.mem hid).delayed.trans hclaims.due
    | cons b front =>
      obtain ⟨rfl, rfl⟩ := List.cons.inj hsplit
      obtain ⟨m, hm, hrest⟩ := Runs.run_cons.1 hfront
      have hrestOrder : InOrder (front ++ .claim now :: back) := by
        rw [InOrder, filterMap_cons] at horder
        split at horder
        · exact horder
        · exact (pairwise_cons.1 horder).2
      by_cases hearly : ∀ time, a.time? = some time → time < deadline
      · exact ih (step_rowsApart hapart hm)
          (step_waiting hapart hs huncoalesced.1 huntagged.1 hearly hm) hrestOrder
          (huncoalesced.2 m hm) (huntagged.2 m hm) ⟨front, back, rfl, hrest, hstep⟩
      · -- From here on the deadline is over.
        push Not at hearly
        obtain ⟨time, htime, hlate⟩ := hearly
        rw [InOrder, filterMap_cons_some htime, pairwise_cons] at horder
        refine hlate.trans (horder.1 now (mem_filterMap.2 ⟨.claim now, ?_, rfl⟩))
        exact mem_append_right _ mem_cons_self

theorem waiting_of_inserted {t delaySeconds : ℚ} (hapart : s'.RowsApart) (hbelow : FlightsBelow s)
    (hstep : step reader setting s (.enqueue t message delaySeconds) = some s')
    (hnew : insertedRow reader s t message delaySeconds ∈ s'.rows) :
    Waiting reader s.nextId message (t + delaySeconds * 1000) s' := by
  constructor
  · intro row hrow hid
    obtain rfl := hapart.eq hrow hnew hid
    exact ⟨rfl, le_refl _, rfl, rfl, Or.inl rfl⟩
  · intro flight hflight
    obtain ⟨old, hold, hjob⟩ | ⟨_, _, hclaim, _⟩ := step_flights_job hstep hflight
    · rw [← hjob]
      exact (hbelow old hold).ne
    · cases hclaim
  · exact hapart.below _ hnew

/-- **Delays are honoured where nothing tags them**: in a run whose clock does not go back, a
message that is enqueued as a new row, is never coalesced with another one, and is not put off
together with a rate-limited job while it waits, is not claimed before its delay is over. -/
theorem delay_of_run {past actions : List (Action P)} {t delaySeconds : ℚ} {message : P}
    (hrun : Runs.run (step reader setting) emptyQueue past = some s)
    (hstep : step reader setting s (.enqueue t message delaySeconds) = some s')
    (hnew : insertedRow reader s t message delaySeconds ∈ s'.rows) (horder : InOrder actions)
    (huncoalesced : Runs.AllSteps (step reader setting) (Uncoalesced reader s.nextId) s' actions)
    (huntagged : Runs.AllSteps (step reader setting)
      (Untagged reader s.nextId (t + delaySeconds * 1000)) s' actions)
    {before after : QueueState P} {now : ℚ}
    (hoccurs : Runs.Occurs (step reader setting) s' actions before (.claim now) after) {job : Row P}
    {reserved : Bool} (hclaim : (claimNext setting before now).1 = some (job, reserved))
    (hid : job.id = s.nextId) :
    t + delaySeconds * 1000 ≤ now := by
  have horderly := run_orderly hrun
  have hapart := step_rowsApart horderly.apart hstep
  exact delay_of_waiting hapart (waiting_of_inserted hapart horderly.below hstep hnew) horder
    huncoalesced huntagged
    hoccurs hclaim hid

/-! ## A delay that is cut short -/

/-- A push to a pull request, which waits 45 seconds for the next one. -/
def pushWebhook : Payload :=
  some (.object [("type", .string "github-webhook"), ("eventName", .string "pull_request"),
    ("payload", .object [("action", .string "synchronize"), ("number", .number 7),
      ("repository", .object [("full_name", .string "o/r")]),
        ("installation", .object [("id", .number 5)])])])

/-- Another event of the installation, which waits for nothing. -/
def commentWebhook : Payload :=
  some (.object [("type", .string "github-webhook"), ("eventName", .string "issue_comment"),
    ("payload",
      .object [("action", .string "created"), ("installation", .object [("id", .number 5)])])])

/-- **The budget of a rate limit cuts a delay short**: the push is enqueued to wait until 45000, the
other event meets a rate limit, and once that is clear the sweep releases the push, which is claimed
at 30000. -/
theorem delay_of_run_tagged :
    ((Runs.run (step (queueReader asciiKeyRuntime) (sampleSetting 5 true)) emptyQueue
      [.enqueue 0 pushWebhook 45, .enqueue 0 commentWebhook 0, .claim 0, .consume 0 0 calmSignals,
        .rateLimited 0 1 60000 (fun _ => 0) "rate limit", .sweep 30000 fun _ => true,
          .claim 30000]).any
      fun s => (claimNext (sampleSetting 5 true) s 30000).1.any fun found =>
        found.1.id == 1) = true ∧
    (30000 : ℚ) < 0 + 45 * 1000 := by
  decide +kernel

/-- The check of `Uncoalesced`. -/
def uncoalesced (reader : JobReader P) (id : ℕ) (s : QueueState P) : Action P → Bool
  | .enqueue _ message _ => (mergeCandidate reader s message).all (fun found => found.1.id != id) &&
      (supersededRow reader s message).all (fun found => found.1.id != id) &&
        (coalescedRow reader s message).all fun row => row.id != id
  | _ => true

theorem uncoalesced_of_check (h : uncoalesced reader id s a = true) :
    Uncoalesced reader id s a := by
  rintro now message delaySeconds row rfl rfl
  simp only [uncoalesced, Bool.and_eq_true] at h
  obtain ⟨⟨hmerge, hsupersede⟩, hcoalesce⟩ := h
  refine ⟨?_, ?_, ?_⟩
  · rintro merged ⟨-, hfound⟩
    simp [hfound] at hmerge
  · rintro start ⟨-, -, hfound⟩
    simp [hfound] at hsupersede
  · rintro ⟨-, -, -, hfound⟩
    simp [hfound] at hcoalesce

/-- The check of `Untagged`. -/
def untagged (reader : JobReader P) (id : ℕ) (s : QueueState P) : Action P → Bool
  | .rateLimited index now delayMs jitter _ => (flightIn s .consuming index).all fun flight =>
      let blocked := reader.githubRateLimitAdmissionTargetForJob flight.job.payload
      let deferred := deferPendingJobsForRateLimit reader now delayMs jitter blocked s.rows
      s.rows.all (fun row => row.id != id || !budgetBlocked reader now delayMs blocked row) &&
        (rescheduleSibling flight.job deferred).all fun sibling => sibling.id != id
  | _ => true

theorem untagged_of_check (h : untagged reader id s a = true) :
    Untagged reader id deadline s a := by
  rintro index now delayMs jitter error flight row rfl hflight - hrow rfl - htaken
  simp only [untagged, flightIn_eq_some.2 hflight, Option.all_some, Bool.and_eq_true,
    all_eq_true] at h
  obtain ⟨hrows, hsibling⟩ := h
  obtain hblocked | ⟨sibling, hfound, hid⟩ := htaken
  · simpa [hblocked] using hrows row hrow
  · rw [hfound] at hsibling
    simp [hid] at hsibling

/-- The other event is claimed in front of the push and meets a rate limit that ends before the
delay, a sweep releases it, and it is consumed. -/
def crossingRun : List (Action Payload) :=
  [.enqueue 0 commentWebhook 0, .claim 0, .consume 0 0 calmSignals,
    .rateLimited 0 1 20000 (fun _ => 0) "rate limit", .sweep 10000 fun _ => true, .claim 10000,
    .consume 0 10000 calmSignals, .complete 0, .claim 45000]

theorem delay_of_run_push : ∃ s' before after job reserved,
    step (queueReader asciiKeyRuntime) (sampleSetting 5 true) emptyQueue
      (.enqueue 0 pushWebhook 45) = some s' ∧
    Runs.Occurs (step (queueReader asciiKeyRuntime) (sampleSetting 5 true)) s' crossingRun before
      (.claim 45000) after ∧
    (claimNext (sampleSetting 5 true) before 45000).1 = some (job, reserved) ∧ job.id = 1 ∧
    (0 : ℚ) + 45 * 1000 ≤ 45000 := by
  let first := enqueue (queueReader asciiKeyRuntime) emptyQueue 0 pushWebhook 45
  have hstep : step (queueReader asciiKeyRuntime) (sampleSetting 5 true) emptyQueue
      (.enqueue 0 pushWebhook 45) =
      some first := rfl
  have hfound : (Runs.run (step (queueReader asciiKeyRuntime) (sampleSetting 5 true)) first
      (crossingRun.take 8)).any (fun before => (claimNext (sampleSetting 5 true) before 45000).1.any
        fun found => found.1.id == 1) = true := by
    decide +kernel
  obtain ⟨before, hbefore, hclaimed⟩ := (Option.any_eq_true _ _).1 hfound
  obtain ⟨⟨job, reserved⟩, hclaim, hid⟩ := (Option.any_eq_true _ _).1 hclaimed
  have hjob : job.id = 1 := beq_iff_eq.1 hid
  have hoccurs : Runs.Occurs (step (queueReader asciiKeyRuntime) (sampleSetting 5 true)) first
      crossingRun before
      (.claim 45000) (processOneClaim (queueReader asciiKeyRuntime) (sampleSetting 5 true)
        before 45000) :=
    ⟨crossingRun.take 8, [], rfl, hbefore, rfl⟩
  have hnew : insertedRow (queueReader asciiKeyRuntime) emptyQueue 0 pushWebhook 45 ∈
      first.rows := by
    obtain ⟨habsorbed, _⟩ | ⟨_, _, hmerges, _⟩ | ⟨_, _, hsupersedes, _⟩ | ⟨_, hcoalesces, _⟩ |
        ⟨_, henqueue⟩ :=
      enqueue_cases (queueReader asciiKeyRuntime) emptyQueue 0 pushWebhook 45
    · exact absurd habsorbed (by decide +kernel)
    · exact absurd hmerges.mem.1 not_mem_nil
    · exact absurd hsupersedes.mem.1 not_mem_nil
    · exact absurd hcoalesces.mem.1 not_mem_nil
    · show _ ∈ (enqueue (queueReader asciiKeyRuntime) emptyQueue 0 pushWebhook 45).rows
      rw [henqueue]
      exact mem_append_right _ mem_cons_self
  have horder : InOrder crossingRun := by
    unfold InOrder
    decide +kernel
  have huncoalesced : Runs.AllSteps (step (queueReader asciiKeyRuntime) (sampleSetting 5 true))
      (fun s a => uncoalesced (queueReader asciiKeyRuntime) 1 s a = true) first crossingRun := by
    decide +kernel
  have huntagged : Runs.AllSteps (step (queueReader asciiKeyRuntime) (sampleSetting 5 true))
      (fun s a => untagged (queueReader asciiKeyRuntime) 1 s a = true) first crossingRun := by
    decide +kernel
  exact ⟨first, before, _, job, reserved, hstep, hoccurs, hclaim, hjob,
    delay_of_run Runs.run_nil hstep hnew horder (huncoalesced.mono fun _ _ => uncoalesced_of_check)
      (huntagged.mono fun _ _ => untagged_of_check) hoccurs hclaim hjob⟩

end LoopOver.Queue
