import LoopOver.Queue.Flights
import LoopOver.Queue.Keys

/-!
# Mutual exclusion, slots and the retry budget of the SQLite queue

What holds in every state that the queue reaches, whatever the order of its steps.

* `step_oneRunningPerKey`: of the rows with one key, at most one runs.
* `step_slots`: the background slots and the counts of the installations are those of the jobs in
  flight, within their limits.
* `step_tracked` and `step_budgeted`: the row of a job in flight is as it was claimed, and attempts
  stay within the budget, as long as no row is claimed again before the `finally` of the job that
  was put off.
* `queue_exclusion` puts these together for runs.
-/

namespace LoopOver.Queue

open List

variable {P : Type} {reader : JobReader P} {setting : Setting} {s s' : QueueState P} {a : Action P}

/-! ## One running job per key -/

/-- No two rows with one key are running. -/
def OneRunningPerKey (s : QueueState P) : Prop :=
  ∀ first ∈ s.rows, ∀ second ∈ s.rows, first.status = .processing → second.status = .processing →
    first.jobKey = second.jobKey → first.jobKey ≠ none → first = second

theorem keyFree_ne {rows : List (Row P)} {candidate : Row P} (hfree : keyFree rows candidate = true)
    (hkey : candidate.jobKey ≠ none) {row : Row P} (hrow : row ∈ rows)
    (hrunning : row.status = .processing) :
    row.jobKey ≠ candidate.jobKey := by
  intro hsame
  rw [keyFree, Bool.or_eq_true, Option.isNone_iff_eq_none] at hfree
  obtain hnone | hfree := hfree
  · exact hkey hnone
  · have hany : rows.any (fun row => row.status == .processing &&
        row.jobKey == candidate.jobKey) = true := by
      rw [any_eq_true]
      exact ⟨row, hrow, by simp [hrunning, hsame]⟩
    rw [hany] at hfree
    cases hfree

variable {row row' : Row P}

/-- A row that runs after a step ran before it or was claimed by it. -/
theorem Change.running (h : Change reader setting s a row row')
    (hrunning : row'.status = .processing) :
    row' = row ∨ ∃ now reserved, a = .claim now ∧
      (claimNext setting s now).1 = some (row, reserved) ∧
      keyFree s.rows row = true ∧ row' = claimUpdate now row := by
  cases h with
  | same => exact Or.inl rfl
  | claimed now reserved hclaim _ _ hfree => exact Or.inr ⟨now, reserved, rfl, hclaim, hfree, rfl⟩
  | merged _ _ _ _ hmerges => exact absurd (hmerges.mem.2.symm.trans hrunning) (by decide)
  | superseding _ _ _ _ hsupersedes =>
    exact absurd (hsupersedes.mem.2.symm.trans hrunning) (by decide)
  | coalesced _ _ _ hcoalesces => exact absurd (hcoalesces.mem.2.symm.trans hrunning) (by decide)
  | budget _ _ _ _ _ _ _ _ _ hpending => exact absurd (hpending.symm.trans hrunning) (by decide)
  | released _ _ hdeferred =>
    simp only [isDeferredForeground, Bool.and_eq_true, beq_iff_eq] at hdeferred
    exact absurd (hdeferred.1.1.1.symm.trans hrunning) (by decide)
  | spread _ _ hdue =>
    simp only [isDue, Bool.and_eq_true, beq_iff_eq] at hdue
    exact absurd (hdue.1.symm.trans hrunning) (by decide)
  | restarted now jitter =>
    split at hrunning
    · cases hrunning
    · next hnot => exact absurd (beq_iff_eq.2 hrunning) hnot
  | _ => cases hrunning

/-- **A step keeps the running jobs apart.** -/
theorem step_oneRunningPerKey (hapart : s.RowsApart) (hs : OneRunningPerKey s)
    (hstep : step reader setting s a = some s') : OneRunningPerKey s' := by
  intro first' hfirst second' hsecond hfirstRunning hsecondRunning hkey hnone
  have horigin : ∀ row' ∈ s'.rows, row'.status = .processing → ∃ row ∈ s.rows,
      row' = row ∨ ∃ now reserved, a = .claim now ∧
        (claimNext setting s now).1 = some (row, reserved) ∧
        keyFree s.rows row = true ∧ row' = claimUpdate now row := by
    intro row' hrow' hrunning
    obtain ⟨row, hrow, hchange⟩ | ⟨_, _, _, _, _, rfl⟩ := step_rows hapart hstep row' hrow'
    · exact ⟨row, hrow, hchange.running hrunning⟩
    · cases hrunning
  obtain ⟨first, hfirst, rfl | ⟨now, _, rfl, hclaim, hfree, rfl⟩⟩ :=
    horigin first' hfirst hfirstRunning
  · obtain ⟨second, hsecond, rfl | ⟨now, _, rfl, _, hfree, rfl⟩⟩ :=
      horigin second' hsecond hsecondRunning
    · exact hs _ hfirst _ hsecond hfirstRunning hsecondRunning hkey hnone
    · -- The second was claimed while the first ran.
      have hkeyed : second.jobKey ≠ none := fun hsecondNone => hnone (hkey.trans hsecondNone)
      exact absurd hkey (keyFree_ne hfree hkeyed hfirst hfirstRunning)
  · obtain ⟨second, hsecond, rfl | ⟨other, _, hnow, hclaim', _, rfl⟩⟩ :=
      horigin second' hsecond hsecondRunning
    · exact absurd hkey.symm (keyFree_ne hfree hnone hsecond hsecondRunning)
    · -- A claim takes one row.
      obtain rfl := Action.claim.inj hnow
      obtain ⟨rfl, _⟩ := Prod.mk.inj (Option.some.inj (hclaim.symm.trans hclaim'))
      rfl

/-! ## Slots -/

/-- A job in flight that is counted for an installation. -/
def countedFor (key : String) (flight : Flight P) : Bool :=
  flight.installationConcurrencyKey == some key

/-- The counters are those of the jobs in flight, within their limits. -/
structure Slots (reader : JobReader P) (setting : Setting) (s : QueueState P) : Prop where
  background : s.activeBackground = s.flights.countP (·.backgroundSlotReserved)
  background_le : s.activeBackground ≤ setting.backgroundConcurrency
  counted : ∀ key, s.installationCounts key = s.flights.countP (countedFor key)
  limited : setting.installationConcurrency.enabled = true → ∀ key,
    s.installationCounts key ≤ setting.installationConcurrency.maxConcurrentPerInstallation
  keyed : ∀ flight ∈ s.flights, flight.installationConcurrencyKey =
    if flight.phase = .consuming then reader.installationConcurrencyKeyForJob flight.job.payload
      else none

variable {flight : Flight P} {index : ℕ} {flights : List (Flight P)}

theorem countP_eraseIdx (p : Flight P → Bool) (hindex : flights[index]? = some flight) :
    flights.countP p = (flights.eraseIdx index).countP p + (if p flight then 1 else 0) := by
  obtain ⟨hlength, rfl⟩ := List.getElem?_eq_some_iff.1 hindex
  rw [← (getElem_cons_eraseIdx_perm hlength).countP_eq p, countP_cons]

theorem countP_set (p : Flight P → Bool)
    (hindex : flights[index]? = some flight) (flight' : Flight P) :
    (flights.set index flight').countP p + (if p flight then 1 else 0) =
      flights.countP p + (if p flight' then 1 else 0) := by
  obtain ⟨hlength, rfl⟩ := List.getElem?_eq_some_iff.1 hindex
  rw [(set_perm_cons_eraseIdx hlength flight').countP_eq p, countP_cons,
    countP_eraseIdx p (List.getElem?_eq_getElem hlength)]
  omega

theorem release_activeBackground (flight : Flight P) :
    (release s flight).activeBackground =
      s.activeBackground - (if flight.backgroundSlotReserved then 1 else 0) := by
  rw [release]
  cases flight.backgroundSlotReserved <;> rfl

theorem release_installationCounts (flight : Flight P) (key : String) :
    (release s flight).installationCounts key =
      s.installationCounts key - (if countedFor key flight then 1 else 0) := by
  rw [release, countedFor]
  cases flight.installationConcurrencyKey with
  | none => rfl
  | some own =>
    by_cases hsame : key = own
    · subst hsame
      simp
    · simp [Function.update_of_ne hsame, Ne.symm hsame]

theorem admitFlight_activeBackground (index : ℕ) (flight : Flight P) :
    (admitFlight reader s index flight).activeBackground = s.activeBackground := by
  rw [admitFlight]
  split <;> rfl

theorem admitFlight_installationCounts (index : ℕ) (flight : Flight P) (key : String) :
    (admitFlight reader s index flight).installationCounts key = s.installationCounts key +
      (if reader.installationConcurrencyKeyForJob flight.job.payload = some key then 1 else 0) := by
  rw [admitFlight]
  split
  · next hnone =>
    rw [hnone]
    rfl
  · next own hown =>
    rw [hown]
    by_cases hsame : key = own
    · subst hsame
      simp
    · simp [Function.update_of_ne hsame, Ne.symm hsame]

theorem admitFlight_flights (index : ℕ) (hnone : flight.installationConcurrencyKey = none) :
    (admitFlight reader s index flight).flights = s.flights.set index { flight with
      phase := .consuming
      installationConcurrencyKey := reader.installationConcurrencyKeyForJob
        flight.job.payload } := by
  rw [admitFlight]
  split
  · next hkey => rw [hkey, hnone]
  · next key hkey => rw [hkey]

/-- The slots are of the jobs in flight and the counters. -/
theorem Slots.congr (hs : Slots reader setting s) (hflights : s'.flights = s.flights)
    (hbackground : s'.activeBackground = s.activeBackground)
    (hcounts : s'.installationCounts = s.installationCounts) : Slots reader setting s' := by
  constructor
  · rw [hbackground, hflights, hs.background]
  · rw [hbackground]
    exact hs.background_le
  · intro key
    rw [hcounts, hflights, hs.counted]
  · rw [hcounts]
    exact hs.limited
  · rw [hflights]
    exact hs.keyed

/-- **A step keeps the slots.** -/
theorem step_slots (hs : Slots reader setting s) (hstep : step reader setting s a = some s') :
    Slots reader setting s' := by
  cases step_moves hstep with
  | stayed _ hflights _ hbackground hcounts => exact hs.congr hflights hbackground hcounts
  | discarded _ _ _ _ _ _ hflights _ hbackground hcounts =>
    exact hs.congr hflights hbackground hcounts
  | launched now job reserved _ _ _ _ _ hflights _ hbackground hslot hcounts =>
    constructor
    · rw [hbackground, hflights, countP_append, hs.background]
      cases reserved <;> rfl
    · rw [hbackground]
      cases reserved with
      | false => exact hs.background_le
      | true => exact hslot rfl
    · intro key
      rw [hcounts, hflights, countP_append, hs.counted]
      rfl
    · rw [hcounts]
      exact hs.limited
    · intro flight hflight
      rw [hflights] at hflight
      obtain hold | hnew := mem_append.1 hflight
      · exact hs.keyed flight hold
      · rw [mem_singleton.1 hnew]
        rfl
  | putOff index _ flight hflight hflights _ hbackground hcounts =>
    have hnone := (hs.keyed flight hflight.mem).trans (if_neg (by rw [hflight.2]; decide))
    constructor
    · have hset := countP_set (·.backgroundSlotReserved) hflight.1 { flight with phase := .settled }
      rw [hbackground, hflights, hs.background]
      exact (Nat.add_right_cancel hset).symm
    · rw [hbackground]
      exact hs.background_le
    · intro key
      have hset := countP_set (countedFor key) hflight.1 { flight with phase := .settled }
      rw [hcounts, hflights, hs.counted]
      exact (Nat.add_right_cancel hset).symm
    · rw [hcounts]
      exact hs.limited
    · intro other hother
      rw [hflights] at hother
      obtain hold | rfl := mem_or_eq_of_mem_set hother
      · exact hs.keyed other hold
      · exact hnone
  | admitted index now signals flight hflight hadmits =>
    have hnone := (hs.keyed flight hflight.mem).trans (if_neg (by rw [hflight.2]; decide))
    constructor
    · have hset := countP_set (·.backgroundSlotReserved) hflight.1 { flight with
        phase := .consuming
        installationConcurrencyKey := reader.installationConcurrencyKeyForJob flight.job.payload }
      rw [admitFlight_activeBackground, admitFlight_flights index hnone, hs.background]
      exact (Nat.add_right_cancel hset).symm
    · rw [admitFlight_activeBackground]
      exact hs.background_le
    · intro key
      have hset := countP_set (countedFor key) hflight.1 { flight with
        phase := .consuming
        installationConcurrencyKey := reader.installationConcurrencyKeyForJob flight.job.payload }
      have hold : countedFor key flight = false := by simp [countedFor, hnone]
      rw [hold] at hset
      rw [admitFlight_installationCounts, admitFlight_flights index hnone, hs.counted]
      simpa [countedFor] using hset.symm
    · intro henabled key
      have hle := hs.limited henabled key
      rw [admitFlight_installationCounts]
      split_ifs with hkey
      · -- The gate let the job pass below the limit.
        rw [installationAdmits, hkey, Option.all_some, evaluateInstallationConcurrencyAdmission,
          henabled] at hadmits
        simp only [Bool.not_true, Bool.false_eq_true, if_false] at hadmits
        split_ifs at hadmits with hfull
        omega
      · exact hle
    · intro other hother
      rw [admitFlight_flights index hnone] at hother
      obtain hold | rfl := mem_or_eq_of_mem_set hother
      · exact hs.keyed other hold
      · rfl
  | landed index _ flight phase hflight hflights _ hbackground hcounts =>
    constructor
    · have hslot := countP_eraseIdx (·.backgroundSlotReserved) hflight.1
      rw [hbackground, hflights, release_activeBackground, hs.background, hslot, Nat.add_sub_cancel]
    · rw [hbackground, release_activeBackground]
      exact (Nat.sub_le _ _).trans hs.background_le
    · intro key
      have hcount := countP_eraseIdx (countedFor key) hflight.1
      rw [hcounts, hflights, release_installationCounts, hs.counted, hcount, Nat.add_sub_cancel]
    · intro henabled key
      rw [hcounts, release_installationCounts]
      exact (Nat.sub_le _ _).trans (hs.limited henabled key)
    · intro other hother
      rw [hflights] at hother
      exact hs.keyed other (mem_of_mem_eraseIdx hother)
  | restarted _ _ hflights hbackground hcounts =>
    constructor
    · rw [hbackground, hflights]
      rfl
    · rw [hbackground]
      exact Nat.zero_le _
    · intro key
      rw [hcounts, hflights]
      rfl
    · intro _ key
      rw [hcounts]
      exact Nat.zero_le _
    · intro flight hflight
      rw [hflights] at hflight
      cases hflight

/-- A job that was admitted and has not ended, of an installation. -/
def runsFor (reader : JobReader P) (key : String) (flight : Flight P) : Bool :=
  flight.phase == .consuming &&
    reader.installationConcurrencyKeyForJob flight.job.payload == some key

/-- The counter of an installation is the number of its admitted jobs. -/
theorem Slots.installationCounts_eq (hs : Slots reader setting s) (key : String) :
    s.installationCounts key = s.flights.countP (runsFor reader key) := by
  rw [hs.counted]
  apply countP_congr
  intro flight hflight
  rw [countedFor, runsFor, hs.keyed flight hflight]
  cases flight.phase <;> simp

theorem emptyQueue_slots : Slots reader setting emptyQueue :=
  ⟨rfl, Nat.zero_le _, fun _ => rfl, fun _ _ => Nat.zero_le _,
    fun _ hflight => absurd hflight not_mem_nil⟩

/-! ## The rows of jobs in flight -/

/-- No claim takes the row of a job whose `finally` has not run. A row that runs is not claimed
anyway; the source only awaits the end of a trace span between the update that puts a row off and
the `finally`. -/
def ClaimsAfterFinally (setting : Setting) (s : QueueState P) (a : Action P) : Prop :=
  ∀ now row reserved, a = .claim now → (claimNext setting s now).1 = some (row, reserved) →
    ∀ flight ∈ s.flights, flight.phase = .settled → flight.job.id ≠ row.id

/-- The jobs in flight are of different rows, `activeJobIds` has them, and until a job is put off
its row is as it was claimed. -/
structure Tracked (s : QueueState P) : Prop where
  below : ∀ flight ∈ s.flights, flight.job.id < s.nextId
  apart : (s.flights.map (·.job.id)).Nodup
  active : ∀ flight ∈ s.flights, flight.job.id ∈ s.activeJobIds
  claimed : ∀ flight ∈ s.flights, flight.phase ≠ .settled → ∀ row ∈ s.rows, row.id = flight.job.id →
    ∃ now, row = claimUpdate now flight.job

theorem emptyQueue_tracked : Tracked (emptyQueue : QueueState P) :=
  ⟨fun _ hflight => absurd hflight not_mem_nil, nodup_nil,
    fun _ hflight => absurd hflight not_mem_nil,
    fun _ hflight => absurd hflight not_mem_nil⟩

theorem mem_set_iff {flight flight' other : Flight P} (hindex : flights[index]? = some flight) :
    other ∈ flights.set index flight' ↔ other = flight' ∨ other ∈ flights.eraseIdx index := by
  obtain ⟨hlength, _⟩ := List.getElem?_eq_some_iff.1 hindex
  rw [(set_perm_cons_eraseIdx hlength flight').mem_iff, mem_cons]

variable {phase : Phase}

/-- A job at another place has another row. -/
theorem Tracked.id_ne (hs : Tracked s) {flight other : Flight P}
    (hflight : InFlight s phase index flight) (hother : other ∈ s.flights.eraseIdx index) :
    other.job.id ≠ flight.job.id := by
  obtain ⟨hlength, hget⟩ := List.getElem?_eq_some_iff.1 hflight.1
  have hperm := (getElem_cons_eraseIdx_perm hlength).map (·.job.id)
  rw [hget] at hperm
  have hnodup := hperm.nodup_iff.2 hs.apart
  rw [map_cons, nodup_cons] at hnodup
  intro hsame
  exact hnodup.1 (hsame ▸ mem_map_of_mem hother)

/-- The steps that may change a row that runs: the end of its job, a reclaim and a restart. -/
theorem Change.of_running (h : Change reader setting s a row row')
    (hrunning : row.status = .processing) :
    row' = row ∨ (∃ index phase flight, InFlight s phase index flight ∧ phase ≠ .settled ∧
      row.id = flight.job.id ∧
      (a.Defers index ∨ a.Lands index)) ∨
        (∃ now jitter, a = .reclaim now jitter ∧ row.id ∉ s.activeJobIds) ∨
      ∃ now jitter, a = .restart now jitter := by
  cases h with
  | same => exact Or.inl rfl
  | merged _ _ _ _ hmerges => exact absurd (hmerges.mem.2.symm.trans hrunning) (by decide)
  | superseding _ _ _ _ hsupersedes =>
    exact absurd (hsupersedes.mem.2.symm.trans hrunning) (by decide)
  | coalesced _ _ _ hcoalesces => exact absurd (hcoalesces.mem.2.symm.trans hrunning) (by decide)
  | claimed _ _ _ hpending => exact absurd (hpending.symm.trans hrunning) (by decide)
  | unparseable _ hpending => exact absurd (hpending.symm.trans hrunning) (by decide)
  | putOff index flight hflight hid hdefers =>
    exact Or.inr (Or.inl ⟨index, _, flight, hflight, by decide, hid, Or.inl hdefers⟩)
  | lockContended index flight hflight hid =>
    exact Or.inr (Or.inl ⟨index, _, flight, hflight, by decide, hid, Or.inr rfl⟩)
  | budget _ _ _ _ _ _ _ _ _ hpending => exact absurd (hpending.symm.trans hrunning) (by decide)
  | rateLimited index flight hflight hid =>
    exact Or.inr (Or.inl ⟨index, _, flight, hflight, by decide, hid, Or.inr rfl⟩)
  | failedDead index flight hflight hid =>
    exact Or.inr (Or.inl ⟨index, _, flight, hflight, by decide, hid, Or.inr rfl⟩)
  | failedPending index flight hflight hid =>
    exact Or.inr (Or.inl ⟨index, _, flight, hflight, by decide, hid, Or.inr rfl⟩)
  | reclaimed now jitter _ hlost => exact Or.inr (Or.inr (Or.inl ⟨now, jitter, rfl, hlost⟩))
  | revived _ _ hdead => exact absurd (hdead.symm.trans hrunning) (by decide)
  | released _ _ hdeferred =>
    simp only [isDeferredForeground, Bool.and_eq_true, beq_iff_eq] at hdeferred
    exact absurd (hdeferred.1.1.1.symm.trans hrunning) (by decide)
  | restarted now jitter => exact Or.inr (Or.inr (Or.inr ⟨now, jitter, rfl⟩))
  | spread _ _ hdue =>
    simp only [isDue, Bool.and_eq_true, beq_iff_eq] at hdue
    exact absurd (hdue.1.symm.trans hrunning) (by decide)
  | replayed _ _ hdead => exact absurd (hdead.symm.trans hrunning) (by decide)

/-- The row of a job in flight that the step does not end is as it was claimed. -/
theorem Tracked.claimed_of_step (hs : Tracked s) (hapart : s.RowsApart)
    (hstep : step reader setting s a = some s')
    (hflight : flight ∈ s.flights) (hlive : flight.phase ≠ .settled)
    (hrestart : ∀ now jitter, a ≠ .restart now jitter)
    (hother : ∀ index phase other, InFlight s phase index other → phase ≠ .settled →
      a.Defers index ∨ a.Lands index →
      flight.job.id ≠ other.job.id) {row : Row P} (hrow : row ∈ s'.rows)
    (hid : row.id = flight.job.id) :
    ∃ now, row = claimUpdate now flight.job := by
  obtain ⟨old, hold, hchange⟩ | ⟨_, _, _, _, _, rfl⟩ := step_rows hapart hstep row hrow
  · have holdId : old.id = flight.job.id := hchange.id_eq.symm.trans hid
    obtain ⟨now, hclaimed⟩ := hs.claimed flight hflight hlive old hold holdId
    have hrunning : old.status = .processing := by
      rw [hclaimed]
      rfl
    obtain rfl | ⟨index, phase, other, hin, hphase, hjob, hends⟩ | ⟨_, _, _, hlost⟩ |
        ⟨now, jitter, hnow⟩ :=
      hchange.of_running hrunning
    · exact ⟨now, hclaimed⟩
    · exact absurd (holdId.symm.trans hjob) (hother index phase other hin hphase hends)
    · rw [holdId] at hlost
      exact absurd (hs.active flight hflight) hlost
    · exact absurd hnow (hrestart now jitter)
  · exact absurd (hs.below flight hflight) (hid ▸ Nat.lt_irrefl _)

theorem Action.Stays.not_ends (h : a.Stays) (index : ℕ) : ¬ (a.Defers index ∨ a.Lands index) := by
  cases a <;> simp_all [Action.Stays, Action.Defers, Action.Lands]

theorem Action.Defers.index_eq {index other : ℕ} (h : a.Defers index)
    (h' : a.Defers other ∨ a.Lands other) :
    other = index := by
  cases a <;> simp_all [Action.Defers, Action.Lands]

theorem Action.Lands.index_eq {index other : ℕ} (h : a.Lands index)
    (h' : a.Defers other ∨ a.Lands other) :
    other = index := by
  cases a <;> simp_all [Action.Defers, Action.Lands]

theorem Action.Stays.not_restart (h : a.Stays) (now : ℚ) (jitter : ℕ → ℕ) :
    a ≠ .restart now jitter := by
  rintro rfl
  exact h

theorem Action.Defers.not_restart (h : a.Defers index) (now : ℚ) (jitter : ℕ → ℕ) :
    a ≠ .restart now jitter := by
  rintro rfl
  exact h

theorem Action.Lands.not_restart (h : a.Lands index) (now : ℚ) (jitter : ℕ → ℕ) :
    a ≠ .restart now jitter := by
  rintro rfl
  exact h

/-- Only a job whose row was put off waits for its `finally` while its row can be claimed. -/
theorem Tracked.id_ne_claimed (hs : Tracked s) {now : ℚ} {row : Row P} {reserved : Bool}
    (hfinally : ClaimsAfterFinally setting s (.claim now))
    (hclaim : (claimNext setting s now).1 = some (row, reserved)) (hrow : row ∈ s.rows)
    (hpending : row.status = .pending) (hflight : flight ∈ s.flights) :
    flight.job.id ≠ row.id := by
  by_cases hphase : flight.phase = .settled
  · exact hfinally now row reserved rfl hclaim flight hflight hphase
  · intro hsame
    obtain ⟨later, hclaimed⟩ := hs.claimed flight hflight hphase row hrow hsame.symm
    rw [hclaimed] at hpending
    cases hpending

/-- Another flight of the same job takes a place. -/
theorem Tracked.set (hs : Tracked s) {flight flight' : Flight P}
    (hflight : InFlight s phase index flight) (hflights : s'.flights = s.flights.set index flight')
    (hjob : flight'.job = flight.job) (hactive : s'.activeJobIds = s.activeJobIds)
    (hnext : s.nextId ≤ s'.nextId)
    (hclaimed : ∀ other ∈ s'.flights, other.phase ≠ .settled →
      ∀ row ∈ s'.rows, row.id = other.job.id →
      ∃ now, row = claimUpdate now other.job) : Tracked s' := by
  have hids : s'.flights.map (·.job.id) = s.flights.map (·.job.id) := by
    obtain ⟨hlength, _⟩ := List.getElem?_eq_some_iff.1 hflight.1
    rw [hflights, map_set, hjob]
    apply ext_getElem?
    intro place
    rw [List.getElem?_set]
    split_ifs with hplace hshort
    · rw [← hplace, List.getElem?_map, hflight.1]
      rfl
    · exact absurd (by rwa [length_map]) hshort
    · rfl
  have hold : ∀ other ∈ s'.flights, ∃ old ∈ s.flights, old.job.id = other.job.id := by
    intro other hother
    have hmem : other.job.id ∈ s.flights.map (·.job.id) := hids ▸ mem_map_of_mem hother
    exact mem_map.1 hmem
  constructor
  · intro other hother
    obtain ⟨old, hold, hid⟩ := hold other hother
    rw [← hid]
    exact (hs.below old hold).trans_le hnext
  · rw [hids]
    exact hs.apart
  · intro other hother
    obtain ⟨old, hold, hid⟩ := hold other hother
    rw [← hid, hactive]
    exact hs.active old hold
  · exact hclaimed

/-- Of fewer jobs in flight, no row is new. -/
theorem Tracked.sublist (hs : Tracked s) (hsub : s'.flights.Sublist s.flights)
    (hnext : s.nextId ≤ s'.nextId)
    (hactive : ∀ flight ∈ s'.flights, flight.job.id ∈ s'.activeJobIds)
    (hclaimed : ∀ flight ∈ s'.flights, flight.phase ≠ .settled →
      ∀ row ∈ s'.rows, row.id = flight.job.id → ∃ now, row = claimUpdate now flight.job) :
    Tracked s' :=
  ⟨fun flight hflight => (hs.below flight (hsub.subset hflight)).trans_le hnext,
    (hsub.map _).nodup hs.apart, hactive, hclaimed⟩

/-- **A step keeps track of the jobs in flight.** -/
theorem step_tracked (hs : Tracked s) (hapart : s.RowsApart)
    (hfinally : ClaimsAfterFinally setting s a) (hstep : step reader setting s a = some s') :
    Tracked s' := by
  have hnext := step_nextId hstep
  have hclaimed : ∀ flight ∈ s.flights, flight.phase ≠ .settled →
      (∀ now jitter, a ≠ .restart now jitter) →
      (∀ index phase other, InFlight s phase index other → phase ≠ .settled →
        a.Defers index ∨ a.Lands index →
        flight.job.id ≠ other.job.id) → ∀ row ∈ s'.rows, row.id = flight.job.id →
      ∃ now, row = claimUpdate now flight.job :=
    fun flight hflight hlive hrestart hother row hrow hid =>
      hs.claimed_of_step hapart hstep hflight hlive hrestart hother hrow hid
  cases step_moves hstep with
  | stayed hstays hflights hactive =>
    refine hs.sublist (by rw [hflights]) hnext ?_ ?_
    · rw [hflights, hactive]
      exact hs.active
    · intro flight hflight hlive
      rw [hflights] at hflight
      exact hclaimed flight hflight hlive hstays.not_restart fun index _ _ _ _ hends =>
        absurd hends (hstays.not_ends index)
  | launched now job reserved hclaim hjob hpending _ hrows hflights hactive =>
    have hne : ∀ flight ∈ s.flights, flight.job.id ≠ job.id :=
      fun flight hflight => hs.id_ne_claimed hfinally hclaim hjob hpending hflight
    constructor
    · intro flight hflight
      rw [hflights] at hflight
      obtain hold | hnew := mem_append.1 hflight
      · exact (hs.below flight hold).trans_le hnext
      · rw [mem_singleton.1 hnew]
        exact (hapart.below job hjob).trans_le hnext
    · rw [hflights, map_append, nodup_append]
      refine ⟨hs.apart, nodup_singleton _, ?_⟩
      intro id hid other hother
      obtain ⟨flight, hflight, rfl⟩ := mem_map.1 hid
      rw [mem_singleton.1 hother]
      exact hne flight hflight
    · intro flight hflight
      rw [hflights] at hflight
      rw [hactive]
      obtain hold | hnew := mem_append.1 hflight
      · exact mem_cons_of_mem _ (hs.active flight hold)
      · rw [mem_singleton.1 hnew]
        exact mem_cons_self
    · intro flight hflight hlive
      rw [hflights] at hflight
      obtain hold | hnew := mem_append.1 hflight
      · exact hclaimed flight hold hlive (fun _ _ h => by cases h) fun _ _ _ _ _ hends =>
          absurd hends (by simp [Action.Defers, Action.Lands])
      · obtain rfl := mem_singleton.1 hnew
        intro row hrow hid
        rw [hrows] at hrow
        obtain ⟨old, hold, rfl⟩ := Table.mem_updateWhere.1 hrow
        have holdId : old.id = job.id := by
          split_ifs at hid
          · exact hid
          · exact hid
        obtain rfl := hapart.eq hold hjob holdId
        rw [hpending]
        simp only [beq_self_eq_true, Bool.and_self, if_true]
        exact ⟨now, rfl⟩
  | discarded now job reserved hclaim hjob hpending hflights hactive =>
    refine hs.sublist (by rw [hflights]) hnext ?_ ?_
    · intro flight hflight
      rw [hflights] at hflight
      rw [hactive, mem_filter]
      exact ⟨mem_cons_of_mem _ (hs.active flight hflight),
        bne_iff_ne.2 (hs.id_ne_claimed hfinally hclaim hjob hpending hflight)⟩
    · intro flight hflight hlive
      rw [hflights] at hflight
      exact hclaimed flight hflight hlive (fun _ _ h => by cases h) fun _ _ _ _ _ hends =>
        absurd hends (by simp [Action.Defers, Action.Lands])
  | putOff index hdefers flight hflight hflights hactive =>
    refine hs.set hflight hflights rfl hactive hnext fun other hother hlive => ?_
    rw [hflights] at hother
    obtain rfl | hothers := (mem_set_iff hflight.1).1 hother
    · exact absurd rfl hlive
    · refine hclaimed other (mem_of_mem_eraseIdx hothers) hlive hdefers.not_restart ?_
      intro place phase ended hended _ hends
      obtain rfl := hdefers.index_eq hends
      obtain rfl := hflight.eq hended
      exact hs.id_ne hflight hothers
  | admitted index now signals flight hflight _ =>
    obtain ⟨flight', hflights, hjob⟩ : ∃ flight' : Flight P,
        (admitFlight reader s index flight).flights = s.flights.set index flight' ∧
          flight'.job = flight.job := by
      rw [admitFlight]
      split <;> exact ⟨_, rfl, rfl⟩
    have hactive : (admitFlight reader s index flight).activeJobIds = s.activeJobIds := by
      rw [admitFlight]
      split <;> rfl
    have hlanded : ∀ place, ¬ ((Action.consume index now signals : Action P).Defers place ∨
        (Action.consume index now signals : Action P).Lands place) := by
      simp [Action.Defers, Action.Lands]
    refine hs.set hflight hflights hjob hactive hnext fun other hother hlive => ?_
    rw [hflights] at hother
    obtain rfl | hothers := (mem_set_iff hflight.1).1 hother
    · -- The admitted job is the one that was claimed.
      rw [hjob]
      exact hclaimed flight hflight.mem (by rw [hflight.2]; decide) (fun _ _ h => by cases h)
        fun place _ _ _ _ hends => absurd hends (hlanded place)
    · exact hclaimed other (mem_of_mem_eraseIdx hothers) hlive (fun _ _ h => by cases h)
        fun place _ _ _ _ hends => absurd hends (hlanded place)
  | landed index hlands flight phase hflight hflights hactive =>
    refine hs.sublist (by rw [hflights]; exact eraseIdx_sublist _ _) hnext ?_ ?_
    · intro other hother
      rw [hflights] at hother
      rw [hactive, mem_filter]
      exact ⟨hs.active other (mem_of_mem_eraseIdx hother), bne_iff_ne.2 (hs.id_ne hflight hother)⟩
    · intro other hother hlive
      rw [hflights] at hother
      refine hclaimed other (mem_of_mem_eraseIdx hother) hlive hlands.not_restart ?_
      intro place phase' ended hended _ hends
      obtain rfl := hlands.index_eq hends
      obtain rfl := hflight.eq hended
      exact hs.id_ne hflight hother
  | restarted _ _ hflights =>
    refine hs.sublist (by rw [hflights]; exact nil_sublist _) hnext ?_ ?_
    · rw [hflights]
      exact fun _ hflight => absurd hflight not_mem_nil
    · rw [hflights]
      exact fun _ hflight => absurd hflight not_mem_nil

theorem Tracked.running (hs : Tracked s) (hflight : InFlight s phase index flight)
    (hphase : phase ≠ .settled) {row : Row P} (hrow : row ∈ s.rows) (hid : row.id = flight.job.id) :
    row.status = .processing ∧ row.attempts = flight.job.attempts := by
  obtain ⟨now, rfl⟩ := hs.claimed flight hflight.mem (by rwa [hflight.2]) row hrow hid
  exact ⟨rfl, rfl⟩

/-! ## Attempts -/

/-- What attempts and revives together may use up; a job is tried at least once. -/
def attemptCeiling (setting : Setting) : ℕ := max 1 (setting.maxRetries + setting.maxExtraAttempts)

/-- Attempts stay within the ceiling, and what is not dead has one left. -/
structure Budgeted (setting : Setting) (s : QueueState P) : Prop where
  rows : ∀ row ∈ s.rows, row.attempts ≤ attemptCeiling setting
  left : ∀ row ∈ s.rows, row.status ≠ .dead → row.attempts < attemptCeiling setting

theorem emptyQueue_budgeted : Budgeted setting (emptyQueue : QueueState P) :=
  ⟨fun _ hrow => absurd hrow not_mem_nil, fun _ hrow => absurd hrow not_mem_nil⟩

theorem backfill_attempts (row : Row P) : (backfill reader row).attempts = row.attempts := by
  rw [backfill]
  split_ifs <;> rfl

theorem backfill_status (row : Row P) : (backfill reader row).status = row.status := by
  rw [backfill]
  split_ifs <;> rfl

/-- A change keeps a row within the budget. -/
theorem Change.budgeted (h : Change reader setting s a row row') (hs : Budgeted setting s)
    (htracked : Tracked s) (hrow : row ∈ s.rows) :
    row'.attempts ≤ attemptCeiling setting ∧
      (row'.status ≠ .dead → row'.attempts < attemptCeiling setting) := by
  have hle := hs.rows row hrow
  have hleft := hs.left row hrow
  have hrunning : ∀ {index phase flight}, InFlight s phase index flight → phase ≠ .settled →
      row.id = flight.job.id →
      row.attempts < attemptCeiling setting ∧ row.attempts = flight.job.attempts := by
    intro index phase flight hflight hphase hid
    obtain ⟨hstatus, hattempts⟩ := htracked.running hflight hphase hrow hid
    exact ⟨hleft (by rw [hstatus]; decide), hattempts⟩
  cases h with
  | same => exact ⟨hle, hleft⟩
  | merged _ _ _ _ hmerges => exact ⟨hle, fun _ => hleft (by rw [hmerges.mem.2]; decide)⟩
  | superseding _ _ _ _ hsupersedes =>
    exact ⟨hle, fun _ => hleft (by rw [hsupersedes.mem.2]; decide)⟩
  | coalesced _ _ _ hcoalesces => exact ⟨hle, fun _ => hleft (by rw [hcoalesces.mem.2]; decide)⟩
  | claimed _ _ _ hpending => exact ⟨hle, fun _ => hleft (by rw [hpending]; decide)⟩
  | unparseable _ hpending =>
    exact ⟨hleft (by rw [hpending]; decide), fun hdead => absurd rfl hdead⟩
  | putOff index flight hflight hid => exact ⟨hle, fun _ => (hrunning hflight (by decide) hid).1⟩
  | lockContended index flight hflight hid =>
    exact ⟨hle, fun _ => (hrunning hflight (by decide) hid).1⟩
  | budget _ _ _ _ _ _ _ _ _ hpending => exact ⟨hle, fun _ => hleft (by rw [hpending]; decide)⟩
  | rateLimited index flight hflight hid =>
    exact ⟨hle, fun _ => (hrunning hflight (by decide) hid).1⟩
  | failedDead index flight hflight hid =>
    obtain ⟨hlt, hattempts⟩ := hrunning hflight (by decide) hid
    refine ⟨?_, fun hdead => absurd rfl hdead⟩
    show flight.job.attempts + 1 ≤ _
    omega
  | failedPending index flight _ _ hbudget =>
    have hceiling : setting.maxRetries ≤ attemptCeiling setting := by
      rw [attemptCeiling]
      omega
    exact ⟨hbudget.le.trans hceiling, fun _ => hbudget.trans_le hceiling⟩
  | reclaimed _ _ hprocessing => exact ⟨hle, fun _ => hleft (by rw [hprocessing]; decide)⟩
  | revived _ _ _ hbudget =>
    have hceiling : setting.maxRetries + setting.maxExtraAttempts ≤ attemptCeiling setting :=
      Nat.le_max_right _ _
    exact ⟨hle, fun _ => hbudget.trans_le hceiling⟩
  | released _ _ hdeferred =>
    simp only [isDeferredForeground, Bool.and_eq_true, beq_iff_eq] at hdeferred
    exact ⟨hle, fun _ => hleft (by rw [hdeferred.1.1.1]; decide)⟩
  | restarted now jitter =>
    split
    · next hprocessing =>
      rw [beq_iff_eq, backfill_status] at hprocessing
      refine ⟨(backfill_attempts row).trans_le hle,
        fun _ => (backfill_attempts row).trans_lt (hleft ?_)⟩
      rw [hprocessing]
      decide
    · exact ⟨(backfill_attempts row).trans_le hle,
        fun hdead => (backfill_attempts row).trans_lt (hleft (by
        rwa [backfill_status] at hdead))⟩
  | spread _ _ hdue =>
    simp only [isDue, Bool.and_eq_true, beq_iff_eq] at hdue
    exact ⟨hle, fun _ => hleft (by rw [hdue.1]; decide)⟩
  | replayed =>
    have hpos : 0 < attemptCeiling setting := Nat.lt_of_lt_of_le Nat.one_pos (Nat.le_max_left _ _)
    exact ⟨Nat.zero_le _, fun _ => hpos⟩

/-- **A step keeps the budget.** -/
theorem step_budgeted (hs : Budgeted setting s) (htracked : Tracked s) (hapart : s.RowsApart)
    (hstep : step reader setting s a = some s') : Budgeted setting s' := by
  have hall : ∀ row' ∈ s'.rows, row'.attempts ≤ attemptCeiling setting ∧
      (row'.status ≠ .dead → row'.attempts < attemptCeiling setting) := by
    intro row' hrow'
    obtain ⟨row, hrow, hchange⟩ | ⟨_, _, _, _, _, rfl⟩ := step_rows hapart hstep row' hrow'
    · exact hchange.budgeted hs htracked hrow
    · have hpos : 0 < attemptCeiling setting := Nat.lt_of_lt_of_le Nat.one_pos (Nat.le_max_left _ _)
      exact ⟨Nat.zero_le _, fun _ => hpos⟩
  exact ⟨fun row hrow => (hall row hrow).1, fun row hrow => (hall row hrow).2⟩

/-- A consume that fails, or a payload that does not parse. -/
def UsesAttempt (reader : JobReader P) (a : Action P) (row : Row P) : Prop :=
  (∃ index now retryDelayMs error, a = .fail index now retryDelayMs error) ∨
    ∃ now, a = .claim now ∧ reader.parses row.payload = false

theorem Change.usesAttempt (h : Change reader setting s a row row')
    (hmore : row.attempts < row'.attempts) : UsesAttempt reader a row := by
  cases h with
  | unparseable now _ _ hparses => exact Or.inr ⟨now, rfl, hparses⟩
  | failedDead => exact Or.inl ⟨_, _, _, _, rfl⟩
  | failedPending => exact Or.inl ⟨_, _, _, _, rfl⟩
  | restarted =>
    split at hmore
    · exact absurd hmore
        (by rw [show _ = row.attempts from backfill_attempts row]; exact Nat.lt_irrefl _)
    · exact absurd hmore (by rw [backfill_attempts row]; exact Nat.lt_irrefl _)
  | replayed => exact absurd hmore (Nat.not_lt_zero _)
  | _ => exact absurd hmore (Nat.lt_irrefl _)

/-- The steps that make a running row pending again and use up no attempt: a reschedule after a rate
limit or a lock, a deferral, a reclaim, and the recovery at a restart. -/
def Action.Requeues : Action P → Prop
  | .lockContended .. | .rateLimited .. | .deferRateLimit .. | .deferMaintenance .. |
    .deferInstallation ..
  | .reclaim .. | .restart .. => True
  | _ => False

/-- A row whose retries are used up becomes pending by a revive, a manual replay, or while it
runs. -/
theorem Change.requeued (h : Change reader setting s a row row') (htracked : Tracked s)
    (hrow : row ∈ s.rows) (hbefore : row.status ≠ .pending) (hafter : row'.status = .pending)
    (hbudget : setting.maxRetries ≤ row.attempts ∨ setting.maxRetries ≤ row'.attempts) :
    (row.status = .dead ∧ ((∃ now jitter, a = .revive now jitter) ∨ ∃ now id, a = .replay now id)) ∨
      row.status = .processing ∧ a.Requeues := by
  cases h with
  | same => exact absurd hafter hbefore
  | merged _ _ _ _ hmerges => exact absurd hmerges.mem.2 hbefore
  | superseding _ _ _ _ hsupersedes => exact absurd hsupersedes.mem.2 hbefore
  | coalesced _ _ _ hcoalesces => exact absurd hcoalesces.mem.2 hbefore
  | claimed | unparseable | failedDead => cases hafter
  | putOff index flight hflight hid hdefers =>
    refine Or.inr ⟨(htracked.running hflight (by decide) hrow hid).1, ?_⟩
    cases a <;> simp_all [Action.Defers, Action.Requeues]
  | lockContended index flight hflight hid =>
    exact Or.inr ⟨(htracked.running hflight (by decide) hrow hid).1, trivial⟩
  | budget _ _ _ _ _ _ _ _ _ hpending => exact absurd hpending hbefore
  | rateLimited index flight hflight hid =>
    exact Or.inr ⟨(htracked.running hflight (by decide) hrow hid).1, trivial⟩
  | failedPending index flight hflight hid hleft =>
    have hattempts := (htracked.running hflight (by decide) hrow hid).2
    have hafterBudget : ¬ setting.maxRetries ≤ flight.job.attempts + 1 := not_le.2 hleft
    exact absurd hbudget (not_or.2 ⟨by omega, hafterBudget⟩)
  | reclaimed _ _ hprocessing => exact Or.inr ⟨hprocessing, trivial⟩
  | revived now jitter hdead => exact Or.inl ⟨hdead, Or.inl ⟨now, jitter, rfl⟩⟩
  | released _ _ hdeferred =>
    simp only [isDeferredForeground, Bool.and_eq_true, beq_iff_eq] at hdeferred
    exact absurd hdeferred.1.1.1 hbefore
  | restarted now jitter =>
    split at hafter
    · next hprocessing =>
      rw [beq_iff_eq, backfill_status] at hprocessing
      exact Or.inr ⟨hprocessing, trivial⟩
    · rw [backfill_status] at hafter
      exact absurd hafter hbefore
  | spread _ _ hdue =>
    simp only [isDue, Bool.and_eq_true, beq_iff_eq] at hdue
    exact absurd hdue.1 hbefore
  | replayed now id hdead => exact Or.inl ⟨hdead, Or.inr ⟨now, id, rfl⟩⟩

/-! ## Runs -/

/-- What every run keeps. -/
structure Orderly (reader : JobReader P) (setting : Setting) (s : QueueState P) : Prop where
  apart : s.RowsApart
  below : FlightsBelow s
  exclusive : OneRunningPerKey s
  slots : Slots reader setting s

theorem run_orderly {actions : List (Action P)}
    (hrun : Runs.run (step reader setting) emptyQueue actions = some s) :
    Orderly reader setting s :=
  Runs.run_invariant (fun hs hstep => ⟨step_rowsApart hs.apart hstep,
    step_flightsBelow hs.apart hs.below hstep,
    step_oneRunningPerKey hs.apart hs.exclusive hstep, step_slots hs.slots hstep⟩) hrun
    ⟨emptyQueue_rowsApart, fun _ hflight => absurd hflight not_mem_nil,
      fun _ hrow => absurd hrow not_mem_nil, emptyQueue_slots⟩

/-- What a run keeps where claims come after the `finally`. -/
structure Accountable (setting : Setting) (s : QueueState P) : Prop where
  apart : s.RowsApart
  tracked : Tracked s
  budgeted : Budgeted setting s

theorem run_accountable {actions : List (Action P)}
    (hrun : Runs.run (step reader setting) emptyQueue actions = some s)
    (hfinally : Runs.AllSteps (step reader setting) (ClaimsAfterFinally setting)
      emptyQueue actions) :
    Accountable setting s :=
  Runs.run_invariant_of (fun hs hcondition hstep => ⟨step_rowsApart hs.apart hstep,
    step_tracked hs.tracked hs.apart hcondition hstep,
      step_budgeted hs.budgeted hs.tracked hs.apart hstep⟩)
    hrun hfinally ⟨emptyQueue_rowsApart, emptyQueue_tracked, emptyQueue_budgeted⟩

/-- **Mutual exclusion, slots and budget.** In every state that is reached, of the rows with one key
at most one runs, the jobs that hold a background slot are within the limit, and the counter of an
installation is the number of its admitted jobs, within the limit where there is one; only a failed
consume or an unparseable payload uses an attempt up. Where claims come after the `finally`,
attempts stay within the ceiling, and a row whose retries are used up becomes pending only by a
revive or while it runs. -/
theorem queue_exclusion {actions : List (Action P)}
    (hrun : Runs.run (step reader setting) emptyQueue actions = some s) :
    OneRunningPerKey s ∧
    s.flights.countP (·.backgroundSlotReserved) ≤ setting.backgroundConcurrency ∧
    (∀ key, s.installationCounts key = s.flights.countP (runsFor reader key)) ∧
    (setting.installationConcurrency.enabled = true → ∀ key,
      s.installationCounts key ≤ setting.installationConcurrency.maxConcurrentPerInstallation) ∧
    (∀ before a after, Runs.Occurs (step reader setting) emptyQueue actions before a after →
      ∀ row ∈ before.rows, ∀ row' ∈ after.rows, row'.id = row.id → row.attempts < row'.attempts →
        UsesAttempt reader a row) ∧
    (Runs.AllSteps (step reader setting) (ClaimsAfterFinally setting) emptyQueue actions →
      (∀ row ∈ s.rows, row.attempts ≤ attemptCeiling setting) ∧
      ∀ before a after, Runs.Occurs (step reader setting) emptyQueue actions before a after →
        (∀ now id, a ≠ .replay now id) → ∀ row ∈ before.rows, ∀ row' ∈ after.rows,
          row'.id = row.id →
          row.status ≠ .pending → row'.status = .pending →
          setting.maxRetries ≤ row.attempts ∨ setting.maxRetries ≤ row'.attempts →
            (row.status = .dead ∧ ∃ now jitter, a = .revive now jitter) ∨
              row.status = .processing ∧ a.Requeues) := by
  obtain ⟨_, _, hexclusive, hslots⟩ := run_orderly hrun
  refine ⟨hexclusive, ?_, hslots.installationCounts_eq, hslots.limited, ?_,
    fun hfinally => ⟨?_, ?_⟩⟩
  · rw [← hslots.background]
    exact hslots.background_le
  · rintro before a after ⟨front, _, _, hfront, hstep⟩ row hrow row' hrow' hid hmore
    exact (change_of_id (run_orderly hfront).apart hstep hrow hrow' hid).usesAttempt hmore
  · exact (run_accountable hrun hfinally).budgeted.rows
  · intro before a after hoccurs hreplay row hrow row' hrow' hid hbefore hafter hbudget
    obtain ⟨front, hfront, hall, _⟩ := Runs.run_of_occurs hfinally hoccurs
    obtain ⟨hapart, htracked, _⟩ := run_accountable hfront hall
    obtain ⟨_, _, _, _, hstep⟩ := hoccurs
    have hchange := change_of_id hapart hstep hrow hrow' hid
    obtain ⟨hdead, hrevive | ⟨now, id, hmanual⟩⟩ | hrequeued :=
      hchange.requeued htracked hrow hbefore hafter hbudget
    · exact Or.inl ⟨hdead, hrevive⟩
    · exact absurd hmanual (hreplay now id)
    · exact Or.inr hrequeued

/-! ## Runs that break the limits -/

/-- A setting with two jobs at most for an installation, where that limit is enabled. -/
def sampleSetting (maxRetries : ℕ) (limitEnabled : Bool) : Setting where
  maxRetries := maxRetries
  maxExtraAttempts := 0
  backgroundConcurrency := 4
  processingTimeoutMs := 1000
  attemptFreeRetryDeadlineMs := 60000
  maintenanceAdmission := ⟨false, 0, 0, 0, 0, 0, 0, 0, 0⟩
  installationConcurrency := ⟨limitEnabled, 2⟩
  livenessEnabled := true
  livenessMaxDeferMs := 60000
  livenessMaxReleasePerSweep := 10
  startupJitterMinJobs := 8
  localeLe a b := decide (a ≤ b)

/-- A job of an installation that goes through the details of a repository. -/
def backfillJob (repo : String) : Payload :=
  some (.object
    [("type", .string "backfill-pr-details"), ("repoFullName", .string repo),
      ("installationId", .number 7)])

/-- No pressure at all. -/
def calmSignals : MaintenancePressureSignals := ⟨0, none, 0, 0, none, none⟩

/-- **Where the limit of the installations is not enabled, it does not hold**; a job is tried once
even where no retry is allowed; and where a row is claimed again before the `finally` of the job
that was put off, its lease is reclaimed while its job runs, and it is tried once too often. -/
theorem queue_exclusion_unlimited :
    ((Runs.run (step (queueReader asciiKeyRuntime) (sampleSetting 5 false)) emptyQueue
      [.enqueue 0 (backfillJob "o/a") 0, .enqueue 0 (backfillJob "o/b") 0,
        .enqueue 0 (backfillJob "o/c") 0,
        .claim 0, .claim 0, .claim 0, .consume 0 0 calmSignals, .consume 1 0 calmSignals,
          .consume 2 0 calmSignals]).any
      fun s =>
        decide ((sampleSetting 5 false).installationConcurrency.maxConcurrentPerInstallation <
        s.installationCounts "installation:7")) = true ∧
    ((Runs.run (step (queueReader asciiKeyRuntime) (sampleSetting 0 true)) emptyQueue
      [.enqueue 0 (backfillJob "o/a") 0, .claim 0, .consume 0 0 calmSignals,
        .fail 0 1 0 "error"]).any
      fun s => s.rows.any fun row =>
        decide ((sampleSetting 0 true).maxRetries + (sampleSetting 0 true).maxExtraAttempts <
          row.attempts)) = true ∧
    ((Runs.run (step (queueReader asciiKeyRuntime) (sampleSetting 1 true)) emptyQueue
      [.enqueue 0 (backfillJob "o/a") 0, .claim 0, .deferRateLimit 0 0 1 "background",
        .claim 1, .settle 0,
        .reclaim 1001 fun _ => 0, .claim 1001, .consume 0 1001 calmSignals,
          .consume 1 1001 calmSignals,
        .fail 1 1002 0 "error", .rateLimited 0 1003 1 (fun _ => 0) "rate limit", .claim 1004,
        .consume 0 1004 calmSignals, .fail 0 1005 0 "error"]).any
      fun s => s.rows.any fun row =>
        decide ((sampleSetting 1 true).maxRetries + (sampleSetting 1 true).maxExtraAttempts <
          row.attempts)) = true := by
  decide +kernel

/-- The check of `ClaimsAfterFinally`. -/
def claimsAfterFinally (setting : Setting) (s : QueueState P) : Action P → Bool
  | .claim now => (claimNext setting s now).1.all fun found => s.flights.all fun flight =>
      flight.phase != .settled || flight.job.id != found.1.id
  | _ => true

theorem claimsAfterFinally_of_check (h : claimsAfterFinally setting s a = true) :
    ClaimsAfterFinally setting s a := by
  rintro now row reserved rfl hclaim flight hflight hsettled
  simp only [claimsAfterFinally, hclaim, Option.all_some, all_eq_true] at h
  simpa [hsettled] using h flight hflight

/-- Two jobs of an installation. The first one is put off and claimed again, it fails and is
revived, a rate limit puts it off, and it fails for the last time. -/
def gatedRun : List (Action Payload) :=
  [.enqueue 0 (backfillJob "o/a") 0, .enqueue 0 (backfillJob "o/b") 0, .claim 0,
    .deferRateLimit 0 0 1 "background", .settle 0, .claim 1, .claim 1, .consume 0 1 calmSignals,
    .consume 1 1 calmSignals, .fail 0 2 0 "error", .revive 3 fun _ => 0, .claim 3,
    .consume 1 3 calmSignals, .rateLimited 1 4 1 (fun _ => 0) "rate limit", .claim 5,
    .consume 1 5 calmSignals, .fail 1 6 0 "error"]

/-- One retry, and one more for a dead letter. -/
def gatedSetting : Setting := { sampleSetting 1 true with maxExtraAttempts := 1 }

theorem queue_exclusion_gated : ∃ s,
    Runs.run (step (queueReader asciiKeyRuntime) gatedSetting) emptyQueue gatedRun = some s ∧
    OneRunningPerKey s ∧ s.flights.countP (·.backgroundSlotReserved) ≤ 4 ∧
    (∀ key, s.installationCounts key ≤ 2) ∧ (∀ row ∈ s.rows, row.attempts ≤ 2) ∧
      (∃ row ∈ s.rows, row.attempts = 2) ∧
    ∀ before a after,
      Runs.Occurs (step (queueReader asciiKeyRuntime) gatedSetting) emptyQueue gatedRun
        before a after →
      (∀ now id, a ≠ .replay now id) → ∀ row ∈ before.rows, ∀ row' ∈ after.rows, row'.id = row.id →
      (row.attempts < row'.attempts → UsesAttempt (queueReader asciiKeyRuntime) a row) ∧
      (row.status ≠ .pending → row'.status = .pending → 1 ≤ row.attempts ∨ 1 ≤ row'.attempts →
        (row.status = .dead ∧ ∃ now jitter, a = .revive now jitter) ∨
          row.status = .processing ∧ a.Requeues) := by
  have hrun : (Runs.run (step (queueReader asciiKeyRuntime) gatedSetting) emptyQueue gatedRun).any
      (fun s => s.rows.any fun row => row.attempts == 2) = true := by
    decide +kernel
  have hfinally : Runs.AllSteps (step (queueReader asciiKeyRuntime) gatedSetting)
      (fun s a => claimsAfterFinally gatedSetting s a = true) emptyQueue gatedRun := by
    decide +kernel
  obtain ⟨s, hs, hlast⟩ := (Option.any_eq_true _ _).1 hrun
  obtain ⟨hexclusive, hbackground, _, hlimited, huses, hbudget⟩ := queue_exclusion hs
  obtain ⟨hattempts, hrequeued⟩ := hbudget (hfinally.mono fun _ _ => claimsAfterFinally_of_check)
  obtain ⟨row, hrow, htwo⟩ := any_eq_true.1 hlast
  refine ⟨s, hs, hexclusive, hbackground, hlimited rfl, hattempts,
    ⟨row, hrow, beq_iff_eq.1 htwo⟩, ?_⟩
  intro before a after hoccurs hreplay row hrow row' hrow' hid
  exact ⟨huses before a after hoccurs row hrow row' hrow' hid,
    hrequeued before a after hoccurs hreplay row hrow row' hrow' hid⟩

end LoopOver.Queue
