import LoopOver.Relay.Recency

/-!
# Why an event leaves

An engine acknowledges the events of one pull with its next one. In every run, whatever fails and
whichever engine restarts, a pending event leaves when it is too old, past the cap of its
installation, overtaken by a later one with its key, or acknowledged by an engine of its enrollment
that took it before.

* `Leaves` are the reasons, and `leaves_of_step` gives one for each row that a call removes.
* `delivered_or_dropped`: in every run, a row that leaves has a reason, and an acknowledgement only
  removes rows of the enrollment that sent it.
-/

namespace LoopOver.Relay

open Queue (JsonValue Payload KeyRuntime asciiKeyRuntime)
open List

/-- A row that an engine of the enrollment gets: it is of its installation, and tagged for it if it
is tagged. -/
def RelayEnrollment.Gets (enrollment : RelayEnrollment) (row : PendingRow) : Prop :=
  row.installationId = enrollment.installationId ∧ ∀ tag, row.enrollId = some tag →
    tag = enrollment.enrollId

/-- Why a pending row leaves. -/
inductive Leaves (enrollmentOf : String → Option RelayEnrollment) (db after : RelayDb)
    (row : PendingRow) : Prop
  | expired (h : row.createdAt + relayPendingTtlSeconds < after.clock)
  | evicted (h : row ∈ db.evicted row.installationId)
  | overtaken (newer : PendingRow) (hnewer : newer ∈ db.pending)
      (hkey : SharesKey row.toNewPending newer.toNewPending)
      (hafter : row.arrival < newer.arrival)
  | taken (secret : String) (enrollment : RelayEnrollment)
      (henrollment : enrollmentOf secret = some enrollment)
      (hgets : enrollment.Gets row) (htaken : db.HasTaken secret row.deliveryId)

section

variable {host : KeyRuntime} {hasEncryptionSecret : Bool} {github : GithubDeliveries}
  {enrollmentOf : String → Option RelayEnrollment} {db after : RelayDb} {call : RelayCall}
    {reply : RelayReply call}
  {row : PendingRow}

/-- A row with a greater rowid was queued later. -/
theorem Sound.arrival_lt_of_rowid_lt (h : Sound host github db) {a b : PendingRow}
    (ha : a ∈ db.pending) (hb : b ∈ db.pending) (hlt : a.rowid < b.rowid) :
    a.arrival < b.arrival := by
  apply List.Pairwise.forall_of_forall_of_flip (R := fun a b : PendingRow => a.rowid < b.rowid →
    a.arrival < b.arrival)
    _ _ _ ha hb hlt
  · exact fun _ _ hlt => absurd hlt (lt_irrefl _)
  · exact h.order.imp fun h _ => h.2
  · exact h.order.imp fun h hgt => absurd hgt h.1.le.not_gt

/-- A row that a delete takes satisfies its condition. -/
theorem deleted_of_gone {p : PendingRow → Bool} (hrow : row ∈ db.pending)
    (hgone : row ∉ Table.deleteWhere p db.pending) : p row = true := by
  by_contra hnot
  exact hgone (Table.mem_deleteWhere.2 ⟨hrow, Bool.eq_false_of_not_eq_true hnot⟩)

/-- A row that is past the cap by its delivery id is one of the rows that are past it. -/
theorem evicted_of_isEvicted (hsound : Sound host github db) {installationId : ℕ}
    (hrow : row ∈ db.pending) (h : db.isEvicted installationId row = true) :
    row ∈ db.evicted row.installationId := by
  simp only [RelayDb.isEvicted, Bool.and_eq_true, beq_iff_eq, contains_iff_mem] at h
  obtain ⟨rfl, hid⟩ := h
  obtain ⟨other, hother, hid⟩ := mem_map.1 hid
  have hmem := mem_of_mem_drop hother
  rw [mem_insertionSort, mem_filter] at hmem
  obtain rfl := Table.eq_of_key hsound.keys hrow hmem.1 hid.symm
  exact hother

/-- An acknowledged row was taken by an engine that gets it. -/
theorem acked_cases {installationId : ℕ} {enrollId : Option String} {ack : List DeliveryId}
    (hallows : Allows host github enrollmentOf db (.deleteAcked installationId enrollId ack))
    (h : RelayDb.isAcked installationId enrollId ack row = true) :
    ∃ pull ∈ db.requests, ∃ enrollment : RelayEnrollment,
      enrollmentOf pull.secret = some enrollment ∧
      installationId = enrollment.installationId ∧ enrollId = some enrollment.enrollId ∧
      row.deliveryId ∈ pull.ack ∧ enrollment.Gets row := by
  obtain ⟨pull, hpull, enrollment, henrollment, rfl, hack⟩ := hallows
  simp only [RelayDb.isAcked, RelayDb.isOfEnrollment, Bool.and_eq_true, Bool.or_eq_true, beq_iff_eq,
    contains_iff_mem, Option.isNone_iff_eq_none] at h
  obtain ⟨⟨hinstallation, htag⟩, hid⟩ := h
  refine ⟨pull, hpull, _, henrollment, rfl, rfl, hack hid, hinstallation, ?_⟩
  intro tag hrowtag
  obtain hnone | ⟨_, hsome⟩ := htag
  · rw [hnone] at hrowtag
    cases hrowtag
  · exact Option.some.inj (hrowtag.symm.trans hsome)

/-- **A row that leaves has a reason.** -/
theorem leaves_of_step (hsound : Sound host github db)
    (hallows : Allows host github enrollmentOf db call)
    (hanswer : RelayDb.answers enrollmentOf db call reply after) (hrow : row ∈ db.pending)
    (hgone : row ∉ after.pending) : Leaves enrollmentOf db after row := by
  obtain ⟨now, _, hafter⟩ := answers_cases hanswer
  obtain rfl | rfl := hafter
  · exact absurd hrow hgone
  cases call with
  | deleteExpired => exact .expired (of_decide_eq_true (deleted_of_gone hrow hgone))
  | insertPending new =>
    have hstays : row ∈ (RelayDb.insertPending { db with clock := now } new).pending := by
      rw [RelayDb.insertPending]
      split_ifs
      · exact hrow
      · exact mem_append_left _ hrow
    exact absurd hstays hgone
  | deleteOvertaken installationId coalesceKey deliveryId =>
    obtain ⟨newer, hnewer, _, hshares, hlt, _⟩ :=
      overtaken_cases hsound hallows (deleted_of_gone hrow hgone)
    exact .overtaken newer hnewer hshares (hsound.arrival_lt_of_rowid_lt hrow hnewer hlt)
  | deleteEvicted installationId =>
    exact .evicted (evicted_of_isEvicted hsound hrow (deleted_of_gone hrow hgone))
  | deleteAcked installationId enrollId ack =>
    obtain ⟨pull, hpull, enrollment, henrollment, _, _, hid, hgets⟩ :=
      acked_cases hallows (deleted_of_gone hrow hgone)
    exact .taken pull.secret enrollment henrollment hgets
      (hsound.acked pull hpull row.deliveryId hid)
  | insertFailure deliveryId eventName installationId rawBody =>
    have hstays : row ∈
        (RelayDb.insertFailure { db with clock := now } deliveryId eventName installationId
        rawBody).pending := by
      rw [RelayDb.insertFailure]
      split_ifs <;> exact hrow
    exact absurd hstays hgone
  | _ => exact absurd hrow hgone

variable {ι : Type} [DecidableEq ι] {tasks : ι → RelayTask} {trace : List (ι × Event RelayReply)}
  {pool : ι → Prog RelayReply Unit}

/-- **Events are delivered at least once**: in every run, a row that leaves is too old, past the
cap, overtaken, or was taken by an engine of its enrollment; what an acknowledgement removes is for
the enrollment that sent it. -/
theorem delivered_or_dropped
    (h : Interleaves (RelayDb.answers enrollmentOf)
      (fun task => (tasks task).prog host hasEncryptionSecret github)
      emptyDb trace pool db) (thread : ι) {next : RelayReply call → Prog RelayReply Unit}
    (hthread : pool thread = .ask call next)
    (hanswer : RelayDb.answers enrollmentOf db call reply after) :
    (∀ row ∈ db.pending, row ∉ after.pending → Leaves enrollmentOf db after row) ∧
      ∀ installationId enrollId ack, call = .deleteAcked installationId enrollId ack →
        ∀ row ∈ db.pending, row ∉ after.pending →
          ∃ pull ∈ db.requests, ∃ enrollment : RelayEnrollment,
          enrollmentOf pull.secret = some enrollment ∧ installationId = enrollment.installationId ∧
          enrollId = some enrollment.enrollId ∧ row.deliveryId ∈ pull.ack ∧
            enrollment.Gets row := by
  obtain ⟨hsound, _, hbehaves⟩ :=
    Interleaves.behaves (C := relayConduct host github enrollmentOf) h sound_emptyDb
    (fun thread => prog_behaves (tasks thread))
  have hnext := hbehaves thread
  rw [hthread] at hnext
  have hallows : Allows host github enrollmentOf db call := hnext.allowed hsound
  refine ⟨fun row => leaves_of_step hsound hallows hanswer, ?_⟩
  rintro installationId enrollId ack rfl row hrow hgone
  obtain ⟨now, _, hafter⟩ := answers_cases hanswer
  obtain rfl | rfl := hafter
  · exact absurd hrow hgone
  · exact acked_cases hallows (deleted_of_gone hrow hgone)

end

/-! ## An event that is not enqueued -/

/-- A check suite that is requested, which an engine takes for noise. -/
def requestedSuite : GithubDeliveries where
  event _ :=
    { eventName := "check_suite"
      installationId := some 7
      rawBody :=
        some (.object [("action", .string "requested"),
          ("repository", .object [("full_name", .string "o/r")])]) }
  deliveredAt _ := 0

/-- An event is queued for an engine, which pulls twice. -/
def drainTasks : ℕ → RelayTask
  | 0 => .webhook "first"
  | 1 => .engine "secret" [0, 1]
  | 2 => .pull
  | 3 => .pull
  | _ => .idle

/-- The engine does not enqueue the event. -/
def ignoringReplies : OpenReplies where
  liveEnrollments := .ok [⟨"enrollment", "pull", none⟩]
  enqueueWebhook := .ok .ignored

def oneEnrollment (secret : String) : Option RelayEnrollment :=
  if secret = "secret" then some ⟨"enrollment", 7⟩ else none

/-- The delivery that was enqueued locally. -/
def enqueued? : Event RelayReply → Option DeliveryId
  | ⟨.enqueueWebhook _ deliveryId _ _, .ok .queued⟩ => some deliveryId
  | _ => none

/-- A program that is about to acknowledge the event. -/
def asksAck : Prog RelayReply Unit → Bool
  | .ask (.deleteAcked installationId enrollId ack) _ =>
    (installationId, enrollId, ack) == (7, some "enrollment", [.github "first"])
  | _ => false

theorem exists_of_asksAck {p : Prog RelayReply Unit} (h : asksAck p = true) :
    ∃ next, p = .ask (.deleteAcked 7 (some "enrollment") [.github "first"]) next := by
  match p with
  | .ask (.deleteAcked installationId enrollId ack) next =>
    obtain ⟨rfl, hrest⟩ := Prod.mk.inj (eq_of_beq h)
    obtain ⟨rfl, rfl⟩ := Prod.mk.inj hrest
    exact ⟨next, rfl⟩

/-- The engine ignores the event, and acknowledges it with its second pull. -/
theorem exists_ignored_acked :
    ∃ trace pool db next after row,
      Interleaves (RelayDb.answers oneEnrollment)
        (fun task => (drainTasks task).prog asciiKeyRuntime true requestedSuite) emptyDb
          trace pool db ∧
      pool 3 = .ask (.deleteAcked 7 (some "enrollment") [.github "first"]) next ∧
      RelayDb.answers oneEnrollment db (.deleteAcked 7 (some "enrollment") [.github "first"])
        (.ok ()) after ∧
      row ∈ db.pending ∧ row ∉ after.pending ∧ row.enrollId = some "enrollment" ∧
      (∀ step ∈ trace, enqueued? step.2 = none) ∧
        after.clock ≤ row.createdAt + relayPendingTtlSeconds ∧
      db.evicted row.installationId = [] ∧ ∀ newer ∈ db.pending, newer.arrival ≤ row.arrival := by
  have hplay : (play (fun replies db => db.playCall oneEnrollment replies)
      ([0, 0, 0, 0, 0, 0, 1, 2, 2, 2, 2, 2, 2, 1, 1, 1, 3, 3, 3, 3].map (·, ignoringReplies))
      (fun task => (drainTasks task).prog asciiKeyRuntime true requestedSuite) emptyDb).any
          (fun (trace, pool, db) =>
        asksAck (pool 3) && (trace.all fun step => (enqueued? step.2).isNone) &&
            db.pending.any fun row =>
          RelayDb.isAcked 7 (some "enrollment") [.github "first"] row &&
            row.enrollId == some "enrollment" &&
            decide (db.clock ≤ row.createdAt + relayPendingTtlSeconds) &&
            (db.evicted row.installationId).isEmpty &&
              db.pending.all fun newer => decide (newer.arrival ≤ row.arrival))
      = true := by
    decide +kernel
  obtain ⟨⟨trace, pool, db⟩, hout, hcheck⟩ := (Option.any_eq_true _ _).1 hplay
  simp only [Bool.and_eq_true, all_eq_true, any_eq_true, decide_eq_true_eq, beq_iff_eq,
    List.isEmpty_iff, Option.isNone_iff_eq_none] at hcheck
  obtain ⟨⟨hasks, htrace⟩, row, hrow, ⟨⟨⟨hacked, htag⟩, hage⟩, hevicted⟩, hnewest⟩ := hcheck
  obtain ⟨next, hpool⟩ := exists_of_asksAck hasks
  refine ⟨trace, pool, db, next, db.deleteAcked 7 (some "enrollment") [.github "first"], row,
    interleaves_of_play (fun _ _ _ _ _ => answers_of_playCall) hout, hpool,
      ⟨db.clock, le_rfl, Or.inl ⟨rfl, rfl⟩⟩,
    hrow, ?_, htag, htrace, hage, hevicted, hnewest⟩
  intro hmem
  have hstays := (Table.mem_deleteWhere.1 hmem).2
  rw [hacked] at hstays
  cases hstays

/-- **An event leaves without being enqueued**: the engine acknowledges an event that it ignores. -/
theorem not_enqueued_before_leaving :
    ¬ ∀ trace pool db next after row,
      Interleaves (RelayDb.answers oneEnrollment)
        (fun task => (drainTasks task).prog asciiKeyRuntime true requestedSuite) emptyDb
          trace pool db →
      pool 3 = .ask (.deleteAcked 7 (some "enrollment") [.github "first"]) next →
      RelayDb.answers oneEnrollment db (.deleteAcked 7 (some "enrollment") [.github "first"])
        (.ok ()) after →
      row ∈ db.pending → row ∉ after.pending → row.enrollId = some "enrollment" →
      (∃ step ∈ trace, enqueued? step.2 = some row.deliveryId) ∨
        row.createdAt + relayPendingTtlSeconds < after.clock ∨ row ∈ db.evicted row.installationId ∨
        ∃ newer ∈ db.pending, SharesKey row.toNewPending newer.toNewPending ∧
          row.arrival < newer.arrival := by
  intro h
  obtain ⟨trace, pool, db, next, after, row, hrun, hpool, hanswer, hrow, hgone, htag, htrace,
    hage, hevicted,
    hnewest⟩ := exists_ignored_acked
  obtain ⟨step, hstep, henqueued⟩ | hold | hpast | ⟨newer, hnewer, _, hlt⟩ :=
    h trace pool db next after row hrun hpool hanswer hrow hgone htag
  · rw [htrace step hstep] at henqueued
    cases henqueued
  · omega
  · rw [hevicted] at hpast
    cases hpast
  · have := hnewest newer hnewer
    omega

/-- The event that was ignored leaves since an engine of its enrollment took it. -/
theorem delivered_or_dropped_ignored :
    ∃ db after row, row ∈ db.pending ∧ row ∉ after.pending ∧ Leaves oneEnrollment db after row ∧
      ∃ pull ∈ db.requests, ∃ enrollment : RelayEnrollment,
        oneEnrollment pull.secret = some enrollment ∧
        row.deliveryId ∈ pull.ack ∧ enrollment.Gets row := by
  obtain ⟨trace, pool, db, next, after, row, hrun, hpool, hanswer, hrow, hgone, _⟩ :=
    exists_ignored_acked
  obtain ⟨hleaves, hacked⟩ := delivered_or_dropped hrun 3 hpool hanswer
  obtain ⟨pull, hpull, enrollment, henrollment, _, _, hack, hgets⟩ :=
    hacked _ _ _ rfl row hrow hgone
  exact ⟨db, after, row, hrow, hgone, hleaves row hrow hgone, pull, hpull, enrollment, henrollment,
    hack, hgets⟩

end LoopOver.Relay
