import LoopOver.Queue.Exclusion
import Mathlib.Tactic.Linarith

/-!
# The trickle clock of the SQLite queue

The age at which a maintenance job is admitted under any pressure counts from `created_at`. Every
writer of a row leaves that column alone but one: the branch of `enqueue` that merges two
path-scoped index jobs sets it to the present. And where a full index job takes the place of several
pending ones, it stays in the row that is claimed last, which need not be the oldest.

* `KeepsClock` is the condition on a step, and `step_clock_iff` says that it is exact.
* `trickle_clock` is the clock over a run, with what follows for admissions.
-/

namespace LoopOver.Queue

variable {P : Type} {reader : JobReader P} {setting : Setting} {s s' : QueueState P} {a : Action P}

/-! ## The condition -/

/-- A merge does not make the row younger, and where pending rows are superseded, none is older than
the one that stays. -/
structure KeepsClock (reader : JobReader P) (s : QueueState P) (a : Action P) : Prop where
  merge : ∀ now message delaySeconds row merged, a = .enqueue now message delaySeconds →
    MergesInto reader s message row merged → now ≤ row.createdAt
  supersede : ∀ now message delaySeconds row start, a = .enqueue now message delaySeconds →
    Supersedes reader s message row start → ∀ old ∈ s.rows, isPendingPrefix start old = true →
      row.createdAt ≤ old.createdAt

/-- The row that stands for the need of a row after a step: itself, or the one that supersedes
it. -/
inductive Heir (reader : JobReader P) (s : QueueState P) (a : Action P) (row : Row P) : ℕ → Prop
  | self : Heir reader s a row row.id
  | superseded (now : ℚ) (message : P) (delaySeconds : ℚ) (survivor : Row P) (start : String)
      (haction : a = .enqueue now message delaySeconds)
        (hsupersedes : Supersedes reader s message survivor start)
      (hrow : isPendingPrefix start row = true) : Heir reader s a row survivor.id

theorem backfill_createdAt (row : Row P) : (backfill reader row).createdAt = row.createdAt := by
  rw [backfill]
  split_ifs <;> rfl

/-- Only a merge writes `created_at`. -/
theorem Change.createdAt_eq {row row' : Row P} (h : Change reader setting s a row row') :
    row'.createdAt = row.createdAt ∨
      ∃ now message delaySeconds merged, a = .enqueue now message delaySeconds ∧
      MergesInto reader s message row merged ∧ row'.createdAt = now := by
  cases h with
  | merged now message merged delaySeconds hmerges =>
    exact Or.inr ⟨now, message, delaySeconds, merged, rfl, hmerges, rfl⟩
  | restarted now jitter =>
    left
    split_ifs
    · exact backfill_createdAt row
    · exact backfill_createdAt row
  | _ => exact Or.inl rfl

theorem KeepsClock.createdAt_le (hkeeps : KeepsClock reader s a) {row row' : Row P}
    (hchange : Change reader setting s a row row') : row'.createdAt ≤ row.createdAt := by
  obtain hsame | ⟨now, message, delaySeconds, merged, haction, hmerges, hnow⟩ :=
    hchange.createdAt_eq
  · exact hsame.le
  · rw [hnow]
    exact hkeeps.merge now message delaySeconds row merged haction hmerges

/-- **The condition is exact**: a step keeps the clock of every need if and only if it meets it. -/
theorem step_clock_iff (hapart : s.RowsApart) (hstep : step reader setting s a = some s') :
    (∀ row ∈ s.rows, ∀ id, Heir reader s a row id → ∀ row' ∈ s'.rows, row'.id = id →
      row'.createdAt ≤ row.createdAt) ↔ KeepsClock reader s a := by
  constructor
  · intro hclock
    constructor
    · rintro now message delaySeconds row merged rfl hmerges
      exact hclock row hmerges.mem.1 row.id .self _ (mem_of_merges hmerges hstep) rfl
    · rintro now message delaySeconds row start rfl hsupersedes old hold hpending
      have hheir : Heir reader s (.enqueue now message delaySeconds) old row.id :=
        .superseded now message delaySeconds row start rfl hsupersedes hpending
      have hstays := mem_of_supersedes hsupersedes hstep
      exact hclock old hold row.id hheir (replaceIn _ _ _ _ _ row) hstays rfl
  · intro hkeeps row hrow id hheir row' hrow' hid
    cases hheir with
    | self => exact hkeeps.createdAt_le (change_of_id hapart hstep hrow hrow' hid)
    | superseded now message delaySeconds survivor start haction hsupersedes hpending =>
      calc row'.createdAt ≤ survivor.createdAt :=
            hkeeps.createdAt_le (change_of_id hapart hstep hsupersedes.mem.1 hrow' hid)
        _ ≤ row.createdAt :=
            hkeeps.supersede now message delaySeconds survivor start haction hsupersedes row
              hrow hpending

/-! ## Runs -/

/-- The ids that stand for the need of a row over a run. -/
def Heirs (reader : JobReader P) (setting : Setting) : QueueState P → List (Action P) → ℕ → ℕ → Prop
  | _, [], id, id' => id' = id
  | s, a :: rest, id, id' => ∃ m mid, step reader setting s a = some m ∧
      (mid = id ∨ ∃ row ∈ s.rows, row.id = id ∧ Heir reader s a row mid) ∧
        Heirs reader setting m rest mid id'

/-- What bounds the clock of a row bounds that of its heirs. -/
theorem clock_of_heirs {actions : List (Action P)} {id id' : ℕ} {clock : ℚ} (hapart : s.RowsApart)
    (hrun : Runs.run (step reader setting) s actions = some s')
    (hall : Runs.AllSteps (step reader setting) (KeepsClock reader) s actions) (hid : id < s.nextId)
    (hclock : ∀ row ∈ s.rows, row.id = id → row.createdAt ≤ clock)
    (hheirs : Heirs reader setting s actions id id') :
    ∀ row ∈ s'.rows, row.id = id' → row.createdAt ≤ clock := by
  induction actions generalizing s id with
  | nil =>
    obtain rfl := Option.some.inj hrun
    obtain rfl := hheirs
    exact hclock
  | cons a actions ih =>
    obtain ⟨m, hm, hrest⟩ := Runs.run_cons.1 hrun
    obtain ⟨m', mid, hm', hheir, hheirs⟩ := hheirs
    obtain rfl := Option.some.inj (hm.symm.trans hm')
    have hkeeps := hall.1
    have hnext := step_nextId hm
    have hown : ∀ row' ∈ m.rows, ∀ row ∈ s.rows, row'.id = row.id →
        row'.createdAt ≤ row.createdAt :=
      fun row' hrow' row hrow hsame => hkeeps.createdAt_le (change_of_id hapart hm hrow hrow' hsame)
    have hmid : mid < m.nextId ∧ ∀ row ∈ m.rows, row.id = mid → row.createdAt ≤ clock := by
      obtain rfl | ⟨row, hrow, rfl, hheir⟩ := hheir
      · refine ⟨hid.trans_le hnext, fun row' hrow' hrowId => ?_⟩
        obtain ⟨old, hold, hchange⟩ | ⟨_, _, _, _, _, rfl⟩ := step_rows hapart hm row' hrow'
        · exact (hkeeps.createdAt_le hchange).trans
            (hclock old hold (hchange.id_eq.symm.trans hrowId))
        · exact absurd hid (hrowId ▸ Nat.lt_irrefl _)
      · refine ⟨?_, fun row' hrow' hrowId =>
          ((step_clock_iff hapart hm).2 hkeeps row hrow mid hheir row' hrow' hrowId).trans
            (hclock row hrow rfl)⟩
        cases hheir with
        | self => exact hid.trans_le hnext
        | superseded _ _ _ survivor _ _ hsupersedes =>
          exact (hapart.below survivor hsupersedes.mem.1).trans_le hnext
    exact ih (step_rowsApart hapart hm) hrest (hall.2 m hm) hmid.1 hmid.2 hheirs

/-- **The trickle clock.** A step that is reached keeps the clock of every need if and only if no
merge makes a row younger and none of the superseded rows is older than the one that stays. Over a
run of such steps the clock of a need never moves on, and a job that is claimed for it is admitted
from `maxDeferAgeMs` on, under any pressure. -/
theorem trickle_clock {actions : List (Action P)}
    (hrun : Runs.run (step reader setting) emptyQueue actions = some s) :
    (∀ a s', step reader setting s a = some s' →
      ((∀ row ∈ s.rows, ∀ id, Heir reader s a row id → ∀ row' ∈ s'.rows, row'.id = id →
        row'.createdAt ≤ row.createdAt) ↔ KeepsClock reader s a)) ∧
    ∀ later s', Runs.run (step reader setting) s later = some s' →
      Runs.AllSteps (step reader setting) (KeepsClock reader) s later →
      ∀ row ∈ s.rows, ∀ id, Heirs reader setting s later row.id id →
        (∀ row' ∈ s'.rows, row'.id = id → row'.createdAt ≤ row.createdAt) ∧
        ∀ now job reserved, (claimNext setting s' now).1 = some (job, reserved) → job.id = id →
          ∀ signals evaluatedAt, setting.maintenanceAdmission.maxDeferAgeMs ≤
            evaluatedAt - row.createdAt →
            (evaluateMaintenanceAdmission signals setting.maintenanceAdmission job.createdAt
              evaluatedAt).admitted = true := by
  have hapart := (run_orderly hrun).apart
  refine ⟨fun a s' hstep => step_clock_iff hapart hstep,
    fun later s' hlater hall row hrow id hheirs => ?_⟩
  have hclock := clock_of_heirs hapart hlater hall (hapart.below row hrow)
    (fun old hold hid => (congrArg Row.createdAt (hapart.eq hold hrow hid)).le) hheirs
  refine ⟨hclock, fun now job reserved hclaim hid signals evaluatedAt hage => ?_⟩
  obtain ⟨_, hclaims⟩ := claimNext_claims hclaim
  exact evaluateMaintenanceAdmission_trickle signals _ (by linarith [hclock job hclaims.mem hid])

/-! ## A clock that is set anew -/

/-- A job that indexes one path of a repository. -/
def indexJob (path : String) : Payload :=
  some (.object [("type", .string "rag-index-repo"), ("repoFullName", .string "o/r"),
    ("paths", .array [.string path])])

/-- Maintenance waits a second at most, and any live job puts it off. -/
def tricklingSetting : Setting :=
  { sampleSetting 5 true with maintenanceAdmission := ⟨true, 0, 0, 0, 0, 0, 0, 1000, 1000⟩ }

/-- One job is live. -/
def liveSignals : MaintenancePressureSignals := ⟨1, none, 0, 0, none, none⟩

/-- **A merge sets the clock anew**: the row that was created at the start counts from the merge,
and is still put off when it has waited for a second. -/
theorem trickle_clock_merged :
    ((Runs.run (step (queueReader asciiKeyRuntime) tricklingSetting) emptyQueue
      [.enqueue 0 (indexJob "a") 0]).any
      fun s => s.rows.any fun row => row.id == 1 && decide (row.createdAt = 0)) = true ∧
    ((Runs.run (step (queueReader asciiKeyRuntime) tricklingSetting) emptyQueue
      [.enqueue 0 (indexJob "a") 0, .enqueue 900 (indexJob "b") 0, .claim 1000,
        .deferMaintenance 0 1000 60000 liveSignals]).any
      fun s => s.rows.any fun row => row.id == 1 && row.status == .pending &&
        decide (row.createdAt = 900)) = true := by
  decide +kernel

/-- The check of `KeepsClock`. -/
def keepsClock (reader : JobReader P) (s : QueueState P) : Action P → Bool
  | .enqueue now message _ =>
      (absorbingRow reader s message).isSome ||
        (mergeCandidate reader s message).all (fun found => decide (now ≤ found.1.createdAt)) &&
          (supersededRow reader s message).all fun found => s.rows.all fun old =>
            !isPendingPrefix found.2 old || decide (found.1.createdAt ≤ old.createdAt)
  | _ => true

theorem keepsClock_of_check (h : keepsClock reader s a = true) : KeepsClock reader s a := by
  constructor
  · rintro now message delaySeconds row merged rfl ⟨habsorbing, hfound⟩
    simp only [keepsClock, habsorbing, hfound, Option.isSome_none, Bool.false_or, Bool.and_eq_true,
      Option.all_some, decide_eq_true_eq] at h
    exact h.1
  · rintro now message delaySeconds row start rfl ⟨habsorbing, -, hfound⟩ old hold hpending
    simp only [keepsClock, habsorbing, hfound, Option.isSome_none, Bool.false_or, Bool.and_eq_true,
      Option.all_some, List.all_eq_true] at h
    simpa [hpending] using h.2 old hold

theorem heirs_self {actions : List (Action P)}
    (hrun : Runs.run (step reader setting) s actions = some s') (id : ℕ) :
    Heirs reader setting s actions id id := by
  induction actions generalizing s with
  | nil => rfl
  | cons a actions ih =>
    obtain ⟨m, hm, hrest⟩ := Runs.run_cons.1 hrun
    exact ⟨m, id, hm, Or.inl rfl, ih hrest⟩

/-- A job that indexes the whole repository. -/
def fullIndexJob : Payload :=
  some (.object [("type", .string "rag-index-repo"), ("repoFullName", .string "o/r")])

/-- A full index job takes the place of the first one, another is coalesced with it, it is claimed
and put off, and it absorbs a job for a path. -/
def reenqueuedRun : List (Action Payload) :=
  [.enqueue 300 fullIndexJob 0, .enqueue 400 fullIndexJob 0, .claim 500,
    .deferMaintenance 0 500 400 liveSignals,
    .settle 0, .enqueue 600 (indexJob "b") 0]

theorem trickle_clock_unmerged : ∃ s s' job reserved,
    Runs.run (step (queueReader asciiKeyRuntime) tricklingSetting) emptyQueue
      [.enqueue 0 (indexJob "a") 0] = some s ∧
    Runs.run (step (queueReader asciiKeyRuntime) tricklingSetting) s reenqueuedRun = some s' ∧
    (claimNext tricklingSetting s' 1000).1 = some (job, reserved) ∧ job.id = 1 ∧ ∀ signals,
      (evaluateMaintenanceAdmission signals tricklingSetting.maintenanceAdmission job.createdAt
        1000).admitted = true := by
  let first := enqueue (queueReader asciiKeyRuntime) emptyQueue 0 (indexJob "a") 0
  have hfirst : Runs.run (step (queueReader asciiKeyRuntime) tricklingSetting) emptyQueue
      [.enqueue 0 (indexJob "a") 0] = some first := rfl
  have hrow : ∃ row ∈ first.rows, row.id = 1 ∧ row.createdAt = 0 := by
    decide +kernel
  have hlast : (Runs.run (step (queueReader asciiKeyRuntime) tricklingSetting) first
      reenqueuedRun).any
      (fun s' => (claimNext tricklingSetting s' 1000).1.any fun found =>
        found.1.id == 1) = true := by
    decide +kernel
  have hkeeps : Runs.AllSteps (step (queueReader asciiKeyRuntime) tricklingSetting)
      (fun s a => keepsClock (queueReader asciiKeyRuntime) s a = true) first reenqueuedRun := by
    decide +kernel
  obtain ⟨row, hrow, hid, hcreated⟩ := hrow
  obtain ⟨s', hs', hclaimed⟩ := (Option.any_eq_true _ _).1 hlast
  obtain ⟨⟨job, reserved⟩, hclaim, hjob⟩ := (Option.any_eq_true _ _).1 hclaimed
  have hsame : job.id = row.id := (beq_iff_eq.1 hjob).trans hid.symm
  refine ⟨first, s', job, reserved, hfirst, hs', hclaim, beq_iff_eq.1 hjob, fun signals => ?_⟩
  refine ((trickle_clock hfirst).2 reenqueuedRun s' hs' (hkeeps.mono fun _ _ => keepsClock_of_check)
    row hrow row.id
    (heirs_self hs' _)).2 1000 job reserved hclaim hsame signals 1000 ?_
  show (1000 : ℚ) ≤ 1000 - row.createdAt
  linarith

end LoopOver.Queue
