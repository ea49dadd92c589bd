import LoopOver.Queue.Keys
import LoopOver.Queue.Trickle

/-!
# The newest payload of a key

Coalescing keeps one row for several messages, and a job that meets a rate limit gives way to a
pending row with its key. What is dropped on the way should be covered by something that was
enqueued later. To speak of when a payload was enqueued, each message carries the number of the step
that enqueued it: `JobReader.stamped` reads the payload as before, and `stampedStep` is the queue
with a counter.

* `Outlives` says what takes the place of a row: its key, or an index job with all its paths,
  enqueued no earlier.
* `KeepsNewest` is the condition on a step.
* `newest_of_run`: in a run whose steps meet the condition, a row is outlived when its payload is
  dropped unconsumed.
-/

namespace LoopOver.Queue

open List Option

/-! ## Stamps -/

section Stamps

variable {P : Type}

/-- The payload with the number of the step that enqueued it, which nothing reads. -/
def JobReader.stamped (reader : JobReader P) : JobReader (P × ℕ) where
  parses payload := reader.parses payload.1
  jobPriority payload := reader.jobPriority payload.1
  jobCoalesceKey payload := reader.jobCoalesceKey payload.1
  jobCoalesceAbsorbedByKey payload := reader.jobCoalesceAbsorbedByKey payload.1
  jobCoalesceMergeKeyPrefix payload := reader.jobCoalesceMergeKeyPrefix payload.1
  jobCoalesceMergedPayload existing incoming :=
    (reader.jobCoalesceMergedPayload existing.1 incoming.1).map fun merged => (merged, incoming.2)
  jobCoalesceSupersededKeyPrefix payload := reader.jobCoalesceSupersededKeyPrefix payload.1
  foregroundLaneForJob payload := reader.foregroundLaneForJob payload.1
  jobClaimSortKey payload := reader.jobClaimSortKey payload.1
  isMaintenanceJobType payload := reader.isMaintenanceJobType payload.1
  installationConcurrencyKeyForJob payload := reader.installationConcurrencyKeyForJob payload.1
  githubRateLimitAdmissionTargetForJob payload :=
    reader.githubRateLimitAdmissionTargetForJob payload.1
  jobPriority_merged existing incoming merged h := by
    obtain ⟨payload, hpayload, rfl⟩ := map_eq_some_iff.1 h
    exact reader.jobPriority_merged existing.1 incoming.1 payload hpayload

/-- The action, with a stamp on the message that it enqueues. -/
def Action.stamp (n : ℕ) : Action P → Action (P × ℕ)
  | .enqueue now message delaySeconds => .enqueue now (message, n) delaySeconds
  | .claim now => .claim now
  | .deferRateLimit flight now delayMs kind => .deferRateLimit flight now delayMs kind
  | .deferMaintenance flight now delayMs signals => .deferMaintenance flight now delayMs signals
  | .deferInstallation flight now delayMs => .deferInstallation flight now delayMs
  | .settle flight => .settle flight
  | .consume flight now signals => .consume flight now signals
  | .complete flight => .complete flight
  | .lockContended flight now retryDelayMs error => .lockContended flight now retryDelayMs error
  | .rateLimited flight now delayMs jitter error => .rateLimited flight now delayMs jitter error
  | .fail flight now retryDelayMs error => .fail flight now retryDelayMs error
  | .reclaim now jitter => .reclaim now jitter
  | .revive now jitter => .revive now jitter
  | .sweep now rateLimitClear => .sweep now fun payload => rateLimitClear payload.1
  | .restart now jitter => .restart now jitter
  | .spread now jitter => .spread now jitter
  | .replay now id => .replay now id
  | .deleteDead id => .deleteDead id
  | .purgeDead => .purgeDead

/-- A step of the queue, and the number of the next one. -/
def stampedStep (reader : JobReader P) (setting : Setting) (state : QueueState (P × ℕ) × ℕ)
    (a : Action P) :
    Option (QueueState (P × ℕ) × ℕ) :=
  (step reader.stamped setting state.1 (a.stamp state.2)).map fun after => (after, state.2 + 1)

theorem stamp_eq_enqueue {a : Action P} {n : ℕ} {now : ℚ} {message : P × ℕ} {delaySeconds : ℚ}
    (h : a.stamp n = .enqueue now message delaySeconds) :
    ∃ payload, a = .enqueue now payload delaySeconds ∧ message = (payload, n) := by
  cases a with
  | enqueue now' payload delaySeconds' =>
    obtain ⟨rfl, rfl, rfl⟩ := Action.enqueue.inj h
    exact ⟨payload, rfl, rfl⟩
  | _ => cases h

end Stamps

/-! ## Keys of rows -/

section Rows

variable {P : Type} {reader : JobReader P} {setting : Setting} {s s' : QueueState P} {a : Action P}

/-- The key of a row is that of its payload. -/
def KeyedRows (reader : JobReader P) (s : QueueState P) : Prop :=
  ∀ row ∈ s.rows, row.jobKey = reader.jobCoalesceKey row.payload

theorem backfill_payload (row : Row P) : (backfill reader row).payload = row.payload := by
  rw [backfill]
  split_ifs <;> rfl

theorem backfill_jobKey {row : Row P} (h : row.jobKey = reader.jobCoalesceKey row.payload) :
    (backfill reader row).jobKey = row.jobKey := by
  rw [backfill]
  split_ifs
  · rfl
  · exact h.symm

/-- A payload is replaced by a message that is merged, that supersedes, or that has the same key. -/
theorem Change.payload_cases {row row' : Row P} (h : Change reader setting s a row row')
    (hkeyed : row.jobKey = reader.jobCoalesceKey row.payload) :
    (row'.payload = row.payload ∧ row'.jobKey = row.jobKey) ∨
      (∃ now message delaySeconds merged, a = .enqueue now message delaySeconds ∧
        MergesInto reader s message row merged ∧ row'.payload = merged ∧
          row'.jobKey = reader.jobCoalesceKey merged) ∨
      (∃ now message delaySeconds start, a = .enqueue now message delaySeconds ∧
        Supersedes reader s message row start ∧ row'.payload = message ∧
        row'.jobKey = reader.jobCoalesceKey message) ∨
      ∃ now message delaySeconds, a = .enqueue now message delaySeconds ∧
        CoalescesWith reader s message row ∧
        row'.payload = message ∧ row'.jobKey = row.jobKey ∧
          row.jobKey = reader.jobCoalesceKey message := by
  cases h with
  | merged now message merged delaySeconds hmerges =>
    exact Or.inr (Or.inl ⟨now, message, delaySeconds, merged, rfl, hmerges, rfl, rfl⟩)
  | superseding now message delaySeconds start hsupersedes =>
    exact Or.inr (Or.inr (Or.inl ⟨now, message, delaySeconds, start, rfl, hsupersedes, rfl, rfl⟩))
  | coalesced now message delaySeconds hcoalesces =>
    exact Or.inr (Or.inr (Or.inr ⟨now, message, delaySeconds, rfl, hcoalesces, rfl, rfl,
      (coalescedRow_mem hcoalesces.2.2.2).2.2⟩))
  | restarted now jitter =>
    left
    split_ifs
    · exact ⟨backfill_payload row, backfill_jobKey hkeyed⟩
    · exact ⟨backfill_payload row, backfill_jobKey hkeyed⟩
  | _ => exact Or.inl ⟨rfl, rfl⟩

theorem step_keyedRows (hapart : s.RowsApart) (hs : KeyedRows reader s)
    (hstep : step reader setting s a = some s') :
    KeyedRows reader s' := by
  intro row' hrow'
  obtain ⟨row, hrow, hchange⟩ | ⟨_, _, _, _, _, rfl⟩ := step_rows hapart hstep row' hrow'
  · obtain ⟨hpayload, hkey⟩ | ⟨_, _, _, _, _, _, hpayload, hkey⟩ |
      ⟨_, _, _, _, _, _, hpayload, hkey⟩ |
      ⟨_, _, _, _, _, hpayload, hkey, hsame⟩ := hchange.payload_cases (hs row hrow)
    · rw [hkey, hpayload]
      exact hs row hrow
    · rw [hkey, hpayload]
    · rw [hkey, hpayload]
    · rw [hkey, hpayload]
      exact hsame
  · rfl

end Rows

/-! ## What covers a payload -/

section Covers

variable (host : KeyRuntime)

/-- The paths of an index job; there are none where it is for the whole repository. -/
def indexPaths (payload : Payload) : List String :=
  pathTexts host ((parseCoalesceMessage payload).field "paths")

/-- An index job does all that another does. -/
def CoversPaths (wide narrow : Payload) : Prop :=
  ∃ repo, indexRepo host wide = some repo ∧ indexRepo host narrow = some repo ∧
    (indexPaths host wide = [] ∨
      indexPaths host narrow ≠ [] ∧ ∀ path ∈ indexPaths host narrow, path ∈ indexPaths host wide)

/-- A row with the key of another, or an index job that covers it, that was enqueued no earlier. -/
def Outlives (row heir : Row (Payload × ℕ)) : Prop :=
  (heir.jobKey = row.jobKey ∨ CoversPaths host heir.payload.1 row.payload.1) ∧
    row.payload.2 ≤ heir.payload.2

/-- The pending rows whose keys begin like those of the repository of the message are of that
repository. -/
def RepoApart (s : QueueState (Payload × ℕ)) (message : Payload) : Prop :=
  ∀ repo, indexRepo host message = some repo → ∀ row ∈ s.rows, row.status = .pending →
    hasKeyPrefix (ragIndexRepoKeyPrefix repo) row.jobKey = true →
      indexRepo host row.payload.1 = some repo

variable {host}

theorem ragIndexScope_indexRepo {payload : Payload} {scope : String × Bool}
    (h : ragIndexScope host payload = some scope) : indexRepo host payload = some scope.1 := by
  rw [ragIndexScope] at h
  split at h
  · cases h
  next htype =>
  obtain ⟨repo, hrepo, rfl⟩ := map_eq_some_iff.1 h
  rw [not_not] at htype
  simp only [indexRepo]
  rw [if_pos htype, (filter_eq_some_iff.1 hrepo).1]
  rfl

/-- A full job has no paths. -/
theorem ragIndexScope_full {payload : Payload} {repo : String}
    (h : ragIndexScope host payload = some (repo, false)) :
    indexPaths host payload = [] := by
  rw [ragIndexScope] at h
  split at h
  · cases h
  obtain ⟨_, _, hscope⟩ := map_eq_some_iff.1 h
  have hpaths := (Prod.mk.inj hscope).2
  rw [normalizedPathScope] at hpaths
  split_ifs at hpaths with hempty
  swap
  · cases hpaths
  rw [eq_nil_iff_forall_not_mem]
  intro path hpath
  have hmem : host.trim path ∈ sortedSet ((indexPaths host payload).map host.trim) :=
    mem_sortedSet.2 (mem_map_of_mem hpath)
  exact not_mem_nil (hempty ▸ hmem)

variable {existing incoming merged : Payload}

theorem indexRepo_merged (h : jobCoalesceMergedPayload host existing incoming = some merged) :
    indexRepo host merged = indexRepo host incoming := by
  have htype : typeOf (parseCoalesceMessage merged) = typeOf (parseCoalesceMessage incoming) := by
    rw [typeOf, typeOf, field_merged h (by decide)]
  simp only [indexRepo]
  rw [htype, field_merged h (by decide)]

/-- **A merged job covers the one that it is made from.** -/
theorem coversPaths_merged {repo : String}
    (h : jobCoalesceMergedPayload host existing incoming = some merged)
    (hexisting : indexRepo host existing = some repo)
    (hincoming : indexRepo host incoming = some repo) :
    CoversPaths host merged existing := by
  refine ⟨repo, (indexRepo_merged h).trans hincoming, hexisting, Or.inr ⟨?_, ?_⟩⟩
  · intro hempty
    simp only [jobCoalesceMergedPayload] at h
    split_ifs at h with _ hpaths
    exact hpaths (Or.inl hempty)
  · intro path hpath
    exact (jobCoalesceMergedPayload_paths h).2 (Or.inl hpath)

end Covers

/-! ## What a step drops -/

section Steps

variable {host : KeyRuntime} {setting : Setting} {s s' : QueueState (Payload × ℕ)}
  {a : Action (Payload × ℕ)}

/-- The step ends the job that was claimed with the payload of the row, and the consume
succeeded. -/
def Consumes (s : QueueState (Payload × ℕ)) (a : Action (Payload × ℕ)) (row : Row (Payload × ℕ)) :
    Prop :=
  ∃ index flight, a = .complete index ∧ InFlight s .consuming index flight ∧
    flight.job.id = row.id ∧
    flight.job.payload = row.payload

/-- What an operator does to dead letters. -/
def Action.Operates {P : Type} : Action P → Prop
  | .deleteDead _ | .purgeDead => True
  | _ => False

/-- Where a job that meets a rate limit gives way to a pending row with its key, some other row
outlives it. -/
def GivesWayToNewer (host : KeyRuntime) (s : QueueState (Payload × ℕ)) (a : Action (Payload × ℕ)) :
    Prop :=
  ∀ index now delayMs jitter error flight, a = .rateLimited index now delayMs jitter error →
    InFlight s .consuming index flight → ∀ sibling ∈ s.rows, sibling.status = .pending →
      sibling.jobKey = flight.job.jobKey → flight.job.jobKey ≠ none → sibling.id ≠ flight.job.id →
        ∃ other ∈ s.rows, other.id ≠ flight.job.id ∧ Outlives host flight.job other

/-- A step that drops no payload which nothing outlives. -/
structure KeepsNewest (host : KeyRuntime) (setting : Setting) (s : QueueState (Payload × ℕ))
    (a : Action (Payload × ℕ)) : Prop where
  claims : ClaimsAfterFinally setting s a
  siblings : GivesWayToNewer host s a
  repos : ∀ now message delaySeconds, a = .enqueue now message delaySeconds →
    RepoApart host s message.1

/-- The row that a rate-limited job gives way to was pending with its key. -/
theorem rescheduleSibling_mem {P : Type} {reader : JobReader P} {job sibling : Row P}
    {rows : List (Row P)} {now delayMs : ℚ} {jitter : ℕ → ℕ} {blocked : Option (Option String)}
    (h : rescheduleSibling job (deferPendingJobsForRateLimit reader now delayMs jitter blocked
      rows) = some sibling) :
    job.jobKey ≠ none ∧
      ∃ row ∈ rows, row.status = .pending ∧ row.jobKey = job.jobKey ∧ row.id ≠ job.id := by
  obtain ⟨key, hkey, hfirst⟩ := bind_eq_some_iff.1 h
  obtain ⟨hmem, hsibling⟩ := Table.firstBy_mem hfirst
  simp only [isPendingKey, Bool.and_eq_true, beq_iff_eq, bne_iff_ne] at hsibling
  rw [hkey]
  refine ⟨some_ne_none key, ?_⟩
  obtain ⟨hrow, _⟩ | ⟨row, hrow, hpending, _, _, _, _, rfl⟩ := deferPendingJobsForRateLimit_mem hmem
  · exact ⟨sibling, hrow, hsibling.1.1, hsibling.1.2, hsibling.2⟩
  · exact ⟨row, hrow, hpending, hsibling.1.2, hsibling.2⟩

/-- A full job covers every row that it takes the place of. -/
theorem Supersedes.coversPaths {message : Payload × ℕ} {survivor row : Row (Payload × ℕ)}
    {start : String} (h : Supersedes (queueReader host).stamped s message survivor start)
    (hrepos : RepoApart host s message.1) (hrow : row ∈ s.rows) (hpending : row.status = .pending)
    (hstartsWith : hasKeyPrefix start row.jobKey = true) :
    CoversPaths host message.1 row.payload.1 := by
  obtain ⟨_, _, hstart, _⟩ := supersededRow_mem h.2.2
  obtain ⟨⟨repo, pathScoped⟩, hscope, rfl⟩ := map_eq_some_iff.1 hstart
  obtain ⟨hscope, hfull⟩ := filter_eq_some_iff.1 hscope
  obtain rfl : pathScoped = false := by simpa using hfull
  have hmessage := ragIndexScope_indexRepo hscope
  exact ⟨repo, hmessage, hrepos repo hmessage row hrow hpending hstartsWith,
    Or.inl (ragIndexScope_full hscope)⟩

/-- A row whose payload is replaced is outlived by what takes its place. -/
theorem Change.outlives {row row' : Row (Payload × ℕ)}
    (h : Change (queueReader host).stamped setting s a row row')
    (hkeyed : row.jobKey = (queueReader host).stamped.jobCoalesceKey row.payload)
    (hnewest : ∀ now message delaySeconds, a = .enqueue now message delaySeconds →
      row.payload.2 ≤ message.2)
    (hrepos : ∀ now message delaySeconds, a = .enqueue now message delaySeconds →
      RepoApart host s message.1)
    (hrow : row ∈ s.rows) : row'.payload = row.payload ∨ Outlives host row row' := by
  obtain ⟨hpayload, _⟩ | ⟨now, message, _, merged, ha, hmerges, hpayload, _⟩ |
    ⟨now, message, _, start, ha, hsupersedes, hpayload, _⟩ |
      ⟨now, message, _, ha, _, hpayload, hkey, _⟩ :=
    h.payload_cases hkeyed
  · exact Or.inl hpayload
  · right
    obtain ⟨_, hpending, hmerged, start, hstart, hstartsWith⟩ := mergeCandidate_mem hmerges.2
    obtain ⟨payload, hpaths, rfl⟩ := map_eq_some_iff.1 hmerged
    obtain ⟨scope, hscope, rfl⟩ := map_eq_some_iff.1 hstart
    have hincoming := ragIndexScope_indexRepo (filter_eq_some_iff.1 hscope).1
    have hexisting := hrepos _ _ _ ha _ hincoming row hrow hpending hstartsWith
    have hstamp := hnewest _ _ _ ha
    rw [Outlives, hpayload]
    exact ⟨Or.inr (coversPaths_merged hpaths hexisting hincoming), hstamp⟩
  · right
    have hcovers := hsupersedes.coversPaths (hrepos _ _ _ ha) hrow hsupersedes.mem.2
      (supersededRow_mem hsupersedes.2.2).2.2.2
    rw [Outlives, hpayload]
    exact ⟨Or.inr hcovers, hnewest _ _ _ ha⟩
  · right
    rw [Outlives, hpayload]
    exact ⟨Or.inl hkey, hnewest _ _ _ ha⟩

/-- The stamps of the rows are below the counter. -/
def StampsBelow (s : QueueState (Payload × ℕ)) (n : ℕ) : Prop := ∀ row ∈ s.rows, row.payload.2 < n

/-- A message of a stamped action has the stamp of the step. -/
def StampedBy (a : Action (Payload × ℕ)) (n : ℕ) : Prop :=
  ∀ now message delaySeconds, a = .enqueue now message delaySeconds → message.2 = n

theorem step_stampsBelow {n : ℕ} (hapart : s.RowsApart)
    (hkeyed : KeyedRows (queueReader host).stamped s) (hs : StampsBelow s n) (ha : StampedBy a n)
    (hstep : step (queueReader host).stamped setting s a = some s') :
    StampsBelow s' (n + 1) := by
  intro row' hrow'
  obtain ⟨row, hrow, hchange⟩ | ⟨now, message, delaySeconds, hmessage, _, rfl⟩ :=
    step_rows hapart hstep row' hrow'
  · obtain ⟨hpayload, _⟩ | ⟨_, message, _, merged, hmessage, hmerges, hpayload, _⟩ |
      ⟨_, message, _, _, hmessage, _, hpayload, _⟩ | ⟨_, message, _, hmessage, _, hpayload, _⟩ :=
      hchange.payload_cases (hkeyed row hrow)
    · rw [hpayload]
      exact (hs row hrow).trans (Nat.lt_succ_self n)
    · obtain ⟨_, _, hmerged, _⟩ := mergeCandidate_mem hmerges.2
      obtain ⟨payload, _, rfl⟩ := map_eq_some_iff.1 hmerged
      rw [hpayload]
      show message.2 < n + 1
      rw [ha _ _ _ hmessage]
      exact Nat.lt_succ_self n
    · rw [hpayload, ha _ _ _ hmessage]
      exact Nat.lt_succ_self n
    · rw [hpayload, ha _ _ _ hmessage]
      exact Nat.lt_succ_self n
  · show message.2 < n + 1
    rw [ha _ _ _ hmessage]
    exact Nat.lt_succ_self n

/-- **A step drops nothing that is not consumed or outlived.** -/
theorem step_outlives {n : ℕ} (hapart : s.RowsApart) (htracked : Tracked s)
    (hkeyed : KeyedRows (queueReader host).stamped s) (hstamps : StampsBelow s n)
    (ha : StampedBy a n) (hkeeps : KeepsNewest host setting s a) (hoperates : ¬ a.Operates)
    (hstep : step (queueReader host).stamped setting s a = some s') {row : Row (Payload × ℕ)}
    (hrow : row ∈ s.rows) :
    (∃ row' ∈ s'.rows, row'.id = row.id ∧ row'.payload = row.payload) ∨ Consumes s a row ∨
      ∃ heir ∈ s'.rows, Outlives host row heir := by
  have hnewest : ∀ old ∈ s.rows, ∀ now message delaySeconds, a = .enqueue now message delaySeconds →
      old.payload.2 ≤ message.2 := by
    intro old hold now message delaySeconds hmessage
    rw [ha now message delaySeconds hmessage]
    exact (hstamps old hold).le
  obtain ⟨row', hrow', hid⟩ | hgone := step_gone hstep row hrow
  · have hchange := change_of_id hapart hstep hrow hrow' hid
    obtain hpayload | houtlives :=
      hchange.outlives (hkeyed row hrow) (hnewest row hrow) hkeeps.repos hrow
    · exact Or.inl ⟨row', hrow', hid, hpayload⟩
    · exact Or.inr (Or.inr ⟨row', hrow', houtlives⟩)
  cases hgone with
  | superseded now message delaySeconds start hsupersedes hpending hstart =>
    have hcovers := hsupersedes.coversPaths (hkeeps.repos _ _ _ rfl) hrow hpending hstart
    exact Or.inr (Or.inr ⟨_, mem_of_supersedes hsupersedes hstep, Or.inr hcovers,
      hnewest row hrow _ _ _ rfl⟩)
  | completed index flight hflight hid =>
    -- The row is as it was when the job was claimed.
    obtain ⟨_, hclaimed⟩ :=
      htracked.claimed flight hflight.mem (by rw [hflight.2]; decide) row hrow hid
    refine Or.inr (Or.inl ⟨index, flight, rfl, hflight, hid.symm, ?_⟩)
    rw [hclaimed]
    rfl
  | rescheduled index flight hflight hid now delayMs jitter error hsibling =>
    obtain ⟨_, hclaimed⟩ :=
      htracked.claimed flight hflight.mem (by rw [hflight.2]; decide) row hrow hid
    obtain ⟨sibling, hsibling⟩ := isSome_iff_exists.1 hsibling
    obtain ⟨hkey, pending, hmem, hpending, hsame, hne⟩ := rescheduleSibling_mem hsibling
    obtain ⟨other, hother, hotherId, houtlives⟩ :=
      hkeeps.siblings _ _ _ _ _ flight rfl hflight pending hmem hpending
      hsame hkey hne
    -- The row that outlives the job stays in the table as it is.
    obtain ⟨other', hother', hotherId'⟩ | hgone := step_gone hstep other hother
    · have hchange := change_of_id hapart hstep hother hother' hotherId'
      have hpayload : other'.payload = other.payload ∧ other'.jobKey = other.jobKey := by
        obtain hkept | ⟨_, _, _, _, h, _⟩ | ⟨_, _, _, _, h, _⟩ | ⟨_, _, _, h, _⟩ :=
          hchange.payload_cases (hkeyed other hother)
        · exact hkept
        all_goals cases h
      refine Or.inr (Or.inr ⟨other', hother', ?_⟩)
      rw [Outlives, hpayload.1, hpayload.2, hclaimed]
      exact houtlives
    · cases hgone with
      | rescheduled _ flight' hflight' hid' =>
        obtain rfl := hflight.eq hflight'
        exact absurd hid' hotherId
      | deleted _ hoperator =>
        obtain ⟨_, h⟩ | h := hoperator
        · cases h
        · cases h
  | deleted _ hoperator =>
    obtain ⟨_, rfl⟩ | rfl := hoperator
    · exact absurd trivial hoperates
    · exact absurd trivial hoperates

end Steps

/-! ## Runs -/

section Runs

variable {host : KeyRuntime} {setting : Setting}

/-- What a run keeps while its steps drop nothing. -/
structure Stamped (host : KeyRuntime) (state : QueueState (Payload × ℕ) × ℕ) : Prop where
  apart : state.1.RowsApart
  tracked : Tracked state.1
  keyed : KeyedRows (queueReader host).stamped state.1
  stamps : StampsBelow state.1 state.2

theorem stampedBy_stamp (a : Action Payload) (n : ℕ) : StampedBy (a.stamp n) n := by
  intro now message delaySeconds h
  obtain ⟨_, _, rfl⟩ := stamp_eq_enqueue h
  rfl

theorem run_stamped {actions : List (Action Payload)} {state : QueueState (Payload × ℕ) × ℕ}
    (hrun : Runs.run (stampedStep (queueReader host) setting) (emptyQueue, 0) actions = some state)
    (hall : Runs.AllSteps (stampedStep (queueReader host) setting)
      (fun state a => KeepsNewest host setting state.1 (a.stamp state.2)) (emptyQueue, 0) actions) :
    Stamped host state := by
  refine Runs.run_invariant_of (fun {before a after} hs hkeeps hstep => ?_) hrun hall ?_
  · obtain ⟨next, hnext, rfl⟩ := map_eq_some_iff.1 hstep
    exact ⟨step_rowsApart hs.apart hnext, step_tracked hs.tracked hs.apart hkeeps.claims hnext,
      step_keyedRows hs.apart hs.keyed hnext,
      step_stampsBelow hs.apart hs.keyed hs.stamps (stampedBy_stamp a before.2) hnext⟩
  · exact ⟨emptyQueue_rowsApart, emptyQueue_tracked, fun _ hrow => absurd hrow not_mem_nil,
      fun _ hrow => absurd hrow not_mem_nil⟩

/-- **The newest payload of a key.** In a run whose steps meet the condition, a step that is not an
operator's keeps the payload of each row, consumes it, or leaves a row that outlives it. -/
theorem newest_of_run {actions : List (Action Payload)}
    (hall : Runs.AllSteps (stampedStep (queueReader host) setting)
      (fun state a => KeepsNewest host setting state.1 (a.stamp state.2)) (emptyQueue, 0) actions)
    {before after : QueueState (Payload × ℕ) × ℕ} {a : Action Payload}
    (hoccurs : Runs.Occurs (stampedStep (queueReader host) setting) (emptyQueue,
      0) actions before a after)
    (hoperates : ¬ a.Operates) {row : Row (Payload × ℕ)} (hrow : row ∈ before.1.rows) :
    (∃ row' ∈ after.1.rows, row'.id = row.id ∧ row'.payload = row.payload) ∨
      Consumes before.1 (a.stamp before.2) row ∨ ∃ heir ∈ after.1.rows, Outlives host row heir := by
  obtain ⟨front, hfront, hallFront, hkeeps⟩ := Runs.run_of_occurs hall hoccurs
  have hs := run_stamped hfront hallFront
  obtain ⟨_, _, _, _, hstep⟩ := hoccurs
  obtain ⟨next, hnext, rfl⟩ := map_eq_some_iff.1 hstep
  have hstamped : ¬ (a.stamp before.2).Operates := by
    cases a with
    | deleteDead | purgeDead => exact absurd trivial hoperates
    | _ => exact id
  exact step_outlives hs.apart hs.tracked hs.keyed hs.stamps (stampedBy_stamp a before.2) hkeeps
    hstamped hnext hrow

end Runs

/-! ## Payloads that are dropped -/

/-- A job that indexes a whole repository. -/
def indexAllJob (repo : String) : Payload :=
  some (.object [("type", .string "rag-index-repo"), ("repoFullName", .string repo)])

/-- **A newer payload is dropped**: a job that was enqueued while an older one ran gives way to it
after a rate limit, when the older one waits for its retry. It is dropped too where a row is claimed
again before the `finally` of the job that was put off, since its job then ends with the payload
that the row had, and where a repository whose name has a colon is taken for another. -/
theorem newest_of_run_rateLimited :
    ((Runs.run (stampedStep (queueReader asciiKeyRuntime) (sampleSetting 5 true)) (emptyQueue, 0)
      [.enqueue 0 (backfillJob "o/a") 0, .claim 0, .consume 0 0 calmSignals,
        .enqueue 1 (backfillJob "o/a") 0,
        .fail 0 2 60000 "error", .claim 3, .consume 0 3 calmSignals]).any
      fun state => state.1.rows.any fun row => row.payload.2 == 3) = true ∧
    ((Runs.run (stampedStep (queueReader asciiKeyRuntime) (sampleSetting 5 true)) (emptyQueue, 0)
      [.enqueue 0 (backfillJob "o/a") 0, .claim 0, .consume 0 0 calmSignals,
        .enqueue 1 (backfillJob "o/a") 0,
        .fail 0 2 60000 "error", .claim 3, .consume 0 3 calmSignals,
        .rateLimited 0 4 60000 (fun _ => 0) "rate limit"]).any
      fun state => state.1.rows.all fun row => decide (row.payload.2 < 3)) = true ∧
    ((Runs.run (stampedStep (queueReader asciiKeyRuntime) (sampleSetting 5 true)) (emptyQueue, 0)
      [.enqueue 0 (backfillJob "o/a") 0, .claim 0, .deferRateLimit 0 0 1 "background",
        .claim 1, .settle 0,
        .reclaim 1001 fun _ => 0, .consume 0 1001 calmSignals, .enqueue 1001 (backfillJob "o/a") 0,
          .complete 0]).any
      fun state => state.1.rows.isEmpty) = true ∧
    ((Runs.run (stampedStep (queueReader asciiKeyRuntime) (sampleSetting 5 true)) (emptyQueue, 0)
      [.enqueue 0 (indexAllJob "o/r:x") 0, .enqueue 0 (indexAllJob "o/r") 0]).any
      fun state => state.1.rows.all fun row => row.jobKey != some "rag-index-repo:o/r:x:full" &&
        indexRepo asciiKeyRuntime row.payload.1 != some "o/r:x") = true := by
  decide +kernel

/-- A second message of a key takes the place of the first. -/
theorem newest_of_run_twice :
    ∃ row ∈ (enqueue (queueReader asciiKeyRuntime).stamped emptyQueue 0
      (backfillJob "o/a", 0) 0).rows,
      ∃ row' ∈ (enqueue (queueReader asciiKeyRuntime).stamped
        (enqueue (queueReader asciiKeyRuntime).stamped emptyQueue 0 (backfillJob "o/a", 0) 0) 1
          (backfillJob "o/a", 1) 0).rows, (row'.id = row.id ∧ row'.payload = row.payload) ∨
        Outlives asciiKeyRuntime row row' := by
  have hnone : indexRepo asciiKeyRuntime (backfillJob "o/a") = none := by decide +kernel
  have hkeeps : ∀ (s : QueueState (Payload × ℕ)) (now : ℚ) (n : ℕ),
      KeepsNewest asciiKeyRuntime (sampleSetting 5 true) s
        (.enqueue now (backfillJob "o/a", n) 0) := by
    intro s now n
    constructor
    · intro _ _ _ hclaim
      cases hclaim
    · intro _ _ _ _ _ _ hlimited
      cases hlimited
    · intro _ _ _ hmessage repo hrepo
      obtain ⟨_, rfl, _⟩ := Action.enqueue.inj hmessage
      rw [hnone] at hrepo
      cases hrepo
  have hall : Runs.AllSteps (stampedStep (queueReader asciiKeyRuntime) (sampleSetting 5 true))
      (fun state a => KeepsNewest asciiKeyRuntime (sampleSetting 5 true) state.1 (a.stamp state.2))
        (emptyQueue, 0)
      [.enqueue 0 (backfillJob "o/a") 0, .enqueue 1 (backfillJob "o/a") 0] :=
    ⟨hkeeps _ 0 0, fun state _ => ⟨hkeeps _ 1 state.2, fun _ _ => trivial⟩⟩
  have hoccurs : Runs.Occurs (stampedStep (queueReader asciiKeyRuntime) (sampleSetting 5 true))
      (emptyQueue, 0)
      [.enqueue 0 (backfillJob "o/a") 0, .enqueue 1 (backfillJob "o/a") 0]
      (enqueue (queueReader asciiKeyRuntime).stamped emptyQueue 0 (backfillJob "o/a", 0) 0, 1)
      (.enqueue 1 (backfillJob "o/a") 0)
      (enqueue (queueReader asciiKeyRuntime).stamped
        (enqueue (queueReader asciiKeyRuntime).stamped emptyQueue 0 (backfillJob "o/a", 0) 0) 1
          (backfillJob "o/a", 1) 0, 2) :=
    ⟨[.enqueue 0 (backfillJob "o/a") 0], [], rfl, rfl, rfl⟩
  have hany : (enqueue (queueReader asciiKeyRuntime).stamped emptyQueue 0 (backfillJob "o/a",
      0) 0).rows.any
      (fun _ => true) = true := by
    decide +kernel
  obtain ⟨row, hrow, _⟩ := any_eq_true.1 hany
  obtain ⟨row', hrow', hkept⟩ | ⟨_, _, h, _⟩ | ⟨heir, hheir, houtlives⟩ :=
    newest_of_run hall hoccurs id hrow
  · exact ⟨row, hrow, row', hrow', Or.inl hkept⟩
  · cases h
  · exact ⟨row, hrow, heir, hheir, Or.inr houtlives⟩

end LoopOver.Queue
