import LoopOver.Queue.Steps

/-!
# Jobs in flight

What a step of the SQLite queue does to the jobs in flight, to the ids that it keeps of them, and to
the slots that they hold.

* `Moves` lists it, and `step_moves` says that the list is complete.
* `step_flights_job`: a step starts a job only by a claim.
-/

namespace LoopOver.Queue

open List

variable {P : Type} {reader : JobReader P} {setting : Setting} {s s' : QueueState P} {a : Action P}

/-- The ends of a job in flight. -/
def Action.Lands (index : ℕ) : Action P → Prop
  | .settle i | .complete i | .lockContended i .. | .rateLimited i .. | .fail i .. => i = index
  | _ => False

/-- The steps that are about no job in flight. -/
def Action.Stays : Action P → Prop
  | .enqueue .. | .claim .. | .reclaim .. | .revive .. | .sweep .. | .spread .. | .replay .. |
    .deleteDead ..
  | .purgeDead => True
  | _ => False

/-- What a step does to the jobs in flight and to the slots that they hold. -/
inductive Moves (reader : JobReader P) (setting : Setting) (s : QueueState P) :
    Action P → QueueState P → Prop
  | stayed {a : Action P} {s' : QueueState P} (hstays : a.Stays) (hflights : s'.flights = s.flights)
      (hactive : s'.activeJobIds = s.activeJobIds)
        (hbackground : s'.activeBackground = s.activeBackground)
      (hcounts : s'.installationCounts = s.installationCounts) : Moves reader setting s a s'
  | launched {s' : QueueState P} (now : ℚ) (job : Row P) (reserved : Bool)
      (hclaim : (claimNext setting s now).1 = some (job, reserved)) (hjob : job ∈ s.rows)
      (hpending : job.status = .pending) (hparses : reader.parses job.payload = true)
      (hrows : s'.rows =
        Table.updateWhere (fun old => old.id == job.id &&
          old.status == .pending) (claimUpdate now) s.rows)
      (hflights : s'.flights = s.flights ++ [⟨job, .claimed, reserved, none⟩])
      (hactive : s'.activeJobIds = job.id :: s.activeJobIds)
      (hbackground : s'.activeBackground = s.activeBackground + (if reserved then 1 else 0))
      (hslot : reserved = true → s.activeBackground < setting.backgroundConcurrency)
      (hcounts : s'.installationCounts = s.installationCounts) : Moves reader setting s
        (.claim now) s'
  | discarded {s' : QueueState P} (now : ℚ) (job : Row P) (reserved : Bool)
      (hclaim : (claimNext setting s now).1 = some (job, reserved)) (hjob : job ∈ s.rows)
      (hpending : job.status = .pending) (hflights : s'.flights = s.flights)
      (hactive : s'.activeJobIds = (job.id :: s.activeJobIds).filter (· != job.id))
      (hbackground : s'.activeBackground = s.activeBackground)
      (hcounts : s'.installationCounts = s.installationCounts) : Moves reader setting s
        (.claim now) s'
  | putOff {a : Action P} {s' : QueueState P} (index : ℕ) (hdefers : a.Defers index)
      (flight : Flight P)
      (hflight : InFlight s .claimed index flight)
      (hflights : s'.flights = s.flights.set index { flight with phase := .settled })
      (hactive : s'.activeJobIds = s.activeJobIds)
        (hbackground : s'.activeBackground = s.activeBackground)
      (hcounts : s'.installationCounts = s.installationCounts) : Moves reader setting s a s'
  | admitted (index : ℕ) (now : ℚ) (signals : MaintenancePressureSignals) (flight : Flight P)
      (hflight : InFlight s .claimed index flight)
      (hadmits : installationAdmits reader setting s flight.job = true) :
      Moves reader setting s (.consume index now signals) (admitFlight reader s index flight)
  | landed {a : Action P} {s' : QueueState P} (index : ℕ) (hlands : a.Lands index)
      (flight : Flight P)
      (phase : Phase) (hflight : InFlight s phase index flight)
        (hflights : s'.flights = s.flights.eraseIdx index)
      (hactive : s'.activeJobIds = s.activeJobIds.filter (· != flight.job.id))
      (hbackground : s'.activeBackground = (release s flight).activeBackground)
      (hcounts : s'.installationCounts = (release s flight).installationCounts) : Moves reader
        setting s a s'
  | restarted {s' : QueueState P} (now : ℚ) (jitter : ℕ → ℕ) (hflights : s'.flights = [])
      (hbackground : s'.activeBackground = 0) (hcounts : s'.installationCounts = fun _ => 0) :
      Moves reader setting s (.restart now jitter) s'

theorem moves_claim (now : ℚ) :
    Moves reader setting s (.claim now) (processOneClaim reader setting s now) := by
  obtain ⟨after, hclaim, h⟩ | ⟨job, reserved, after, hclaim, hparses, h⟩ |
      ⟨job, reserved, after, hclaim, _, h⟩ :=
    processOneClaim_cases reader setting s now
  · obtain ⟨hsame, ⟨_, _, hbackground⟩ | ⟨_, _, hfound, _⟩⟩ := claimNext_cases hclaim
    · rw [h]
      exact .stayed trivial hsame.flights hsame.activeJobIds hbackground hsame.installationCounts
    · cases hfound
  · obtain ⟨hsame, ⟨hfound, _⟩ | ⟨row, _, hfound, hclaims, hbackground, hslot⟩⟩ :=
      claimNext_cases hclaim
    · cases hfound
    obtain ⟨rfl, rfl⟩ := Prod.mk.inj (Option.some.inj hfound)
    rw [h]
    refine .launched now job reserved (by rw [hclaim]) hclaims.mem hclaims.pending hparses
      hclaims.rows ?_ ?_
      hbackground hslot hsame.installationCounts
    · show after.flights ++ _ = _
      rw [hsame.flights]
    · show job.id :: after.activeJobIds = _
      rw [hsame.activeJobIds]
  · obtain ⟨hsame, ⟨hfound, _⟩ | ⟨row, _, hfound, hclaims, hbackground, _⟩⟩ :=
      claimNext_cases hclaim
    · cases hfound
    obtain ⟨rfl, rfl⟩ := Prod.mk.inj (Option.some.inj hfound)
    rw [h]
    refine .discarded now job reserved (by rw [hclaim]) hclaims.mem hclaims.pending
      hsame.flights ?_ ?_
      hsame.installationCounts
    · rw [← hsame.activeJobIds]
      rfl
    · -- The slot is given back at once.
      show (if reserved then after.activeBackground - 1 else after.activeBackground) = _
      rw [hbackground]
      cases reserved <;> rfl

/-- **How a step moves the jobs in flight.** -/
theorem step_moves (hstep : step reader setting s a = some s') : Moves reader setting s a s' := by
  cases step_outcome hstep with
  | enqueue now message delaySeconds =>
    obtain ⟨_, h⟩ | ⟨_, _, _, h⟩ | ⟨_, _, _, h⟩ | ⟨_, _, h⟩ | ⟨_, h⟩ :=
      enqueue_cases reader s now message delaySeconds
    all_goals
      rw [h]
      exact .stayed trivial rfl rfl rfl rfl
  | claim now => exact moves_claim now
  | putOff index hdefers flight hflight =>
    exact .putOff index hdefers flight hflight rfl rfl rfl rfl
  | settle index flight hflight => exact .landed index rfl flight _ hflight rfl rfl rfl rfl
  | consume index now signals flight hflight hadmits =>
    exact .admitted index now signals flight hflight hadmits
  | complete index flight hflight => exact .landed index rfl flight _ hflight rfl rfl rfl rfl
  | lockContended index _ _ _ flight hflight =>
    exact .landed index rfl flight _ hflight rfl rfl rfl rfl
  | rateLimited index _ _ _ _ flight hflight =>
    exact .landed index rfl flight _ hflight rfl rfl rfl rfl
  | fail index _ _ _ flight hflight =>
    rw [processOneFail]
    split
    · exact .landed index rfl flight _ hflight rfl rfl rfl rfl
    · exact .landed index rfl flight _ hflight rfl rfl rfl rfl
  | reclaim =>
    rw [reclaimExpiredProcessingJobs]
    split <;> exact .stayed trivial rfl rfl rfl rfl
  | sweep =>
    rw [releaseStaleForegroundDeferrals]
    split <;> exact .stayed trivial rfl rfl rfl rfl
  | spread =>
    rw [spreadDueJobsOnStartup]
    split <;> exact .stayed trivial rfl rfl rfl rfl
  | restart now jitter => exact .restarted now jitter rfl rfl rfl
  | _ => exact .stayed trivial rfl rfl rfl rfl

/-- A claimed row was in the table, pending, due and free. -/
theorem claimNext_claims {now : ℚ} {job : Row P} {reserved : Bool}
    (hclaim : (claimNext setting s now).1 = some (job, reserved)) :
    ∃ after, Claims s now job after := by
  obtain ⟨_, ⟨hnone, _⟩ | ⟨row, _, hfound, hclaims, _⟩⟩ :=
    claimNext_cases (Prod.eta (claimNext setting s now)).symm
  · rw [hnone] at hclaim
    cases hclaim
  · rw [hfound] at hclaim
    obtain ⟨rfl, _⟩ := Prod.mk.inj (Option.some.inj hclaim)
    exact ⟨_, hclaims⟩

/-- A job in flight after a step was in flight before it, or the step claims it. -/
theorem step_flights_job (hstep : step reader setting s a = some s') {flight : Flight P}
    (hflight : flight ∈ s'.flights) :
    (∃ old ∈ s.flights, old.job = flight.job) ∨
      ∃ now reserved, a = .claim now ∧
        (claimNext setting s now).1 = some (flight.job, reserved) := by
  cases step_moves hstep with
  | stayed _ hflights =>
    rw [hflights] at hflight
    exact Or.inl ⟨flight, hflight, rfl⟩
  | launched now job reserved hclaim _ _ _ _ hflights =>
    rw [hflights] at hflight
    obtain hold | hnew := mem_append.1 hflight
    · exact Or.inl ⟨flight, hold, rfl⟩
    · rw [mem_singleton.1 hnew]
      exact Or.inr ⟨now, reserved, rfl, hclaim⟩
  | discarded _ _ _ _ _ _ hflights =>
    rw [hflights] at hflight
    exact Or.inl ⟨flight, hflight, rfl⟩
  | putOff index _ old hold hflights =>
    rw [hflights] at hflight
    obtain hmem | rfl := mem_or_eq_of_mem_set hflight
    · exact Or.inl ⟨flight, hmem, rfl⟩
    · exact Or.inl ⟨old, hold.mem, rfl⟩
  | admitted index now signals old hold =>
    rw [admitFlight] at hflight
    split at hflight
    · obtain hmem | rfl := mem_or_eq_of_mem_set hflight
      · exact Or.inl ⟨flight, hmem, rfl⟩
      · exact Or.inl ⟨old, hold.mem, rfl⟩
    · obtain hmem | rfl := mem_or_eq_of_mem_set hflight
      · exact Or.inl ⟨flight, hmem, rfl⟩
      · exact Or.inl ⟨old, hold.mem, rfl⟩
  | landed _ _ _ _ _ hflights =>
    rw [hflights] at hflight
    exact Or.inl ⟨flight, mem_of_mem_eraseIdx hflight, rfl⟩
  | restarted _ _ hflights =>
    rw [hflights] at hflight
    cases hflight

/-- The jobs in flight are of rows that were inserted before. -/
def FlightsBelow (s : QueueState P) : Prop := ∀ flight ∈ s.flights, flight.job.id < s.nextId

theorem step_flightsBelow (hapart : s.RowsApart) (hs : FlightsBelow s)
    (hstep : step reader setting s a = some s') :
    FlightsBelow s' := by
  intro flight hflight
  have hnext := step_nextId hstep
  obtain ⟨old, hold, hjob⟩ | ⟨now, reserved, _, hclaim⟩ := step_flights_job hstep hflight
  · rw [← hjob]
    exact (hs old hold).trans_le hnext
  · obtain ⟨_, hclaims⟩ := claimNext_claims hclaim
    exact (hapart.below _ hclaims.mem).trans_le hnext

end LoopOver.Queue
