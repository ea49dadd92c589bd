import LoopOver.Relay.Enrollments
import LoopOver.Relay.Recency

/-!
# Draining a queue by enrollment

A forwarded event is tagged with the enrollment that wins at that moment, and a pull only sees the
events that have its own tag or none.

* `Keyed` is the invariant: no delivery has two pending rows, and no hash two enrollments.
* `pull_of_valid` is what a pull does that validates.
* `mem_drain` and `drain_subset`: acknowledged pulls return every event that they see, and no other.
* `enrollment_drains` has both, and how events are tagged, of every run.
* `rotation_strands`: the new engine does not get what was queued before its secret replaced the old
  one.
-/

namespace LoopOver.Relay

open List Script

/-- The event of a pending row, as a pull returns it. -/
def PendingRow.relayed (row : PendingRow) : OrbRelayEvent :=
  ⟨row.deliveryId, row.eventName, row.rawBody, row.kind⟩

/-! ## The invariant -/

/-- Deliveries and secrets are told apart. -/
structure Keyed (db : OrbDb) : Prop where
  deliveries : (db.relay.pending.map (·.deliveryId)).Nodup
  hashes : (db.enrollments.map (·.secretHash)).Nodup

section

variable {env : OrbEnv} {db db' : OrbDb} {relay : RelayDb} {posted : Bool}

/-- No statement gives a delivery a second row. -/
theorem nodup_effect (h : (relay.pending.map (·.deliveryId)).Nodup) (call : RelayCall) :
    ((relay.effect call).pending.map (·.deliveryId)).Nodup := by
  cases call with
  | insertPending row =>
    show ((relay.insertPending row).pending.map (·.deliveryId)).Nodup
    cases hknown : relay.hasDelivery row.deliveryId with
    | true => rwa [insertPending_of_known hknown]
    | false =>
      rw [insertPending_of_new hknown]
      exact Table.nodup_keys_concat h (hasDelivery_eq_false.1 hknown)
  | insertFailure deliveryId eventName installationId rawBody =>
    show ((relay.insertFailure deliveryId eventName installationId rawBody).pending.map
      (·.deliveryId)).Nodup
    rw [RelayDb.insertFailure]
    split_ifs <;> exact h
  | deleteExpired => exact h.sublist (Table.keys_deleteWhere _)
  | deleteOvertaken installationId coalesceKey deliveryId =>
    exact h.sublist (Table.keys_deleteWhere _)
  | deleteEvicted installationId => exact h.sublist (Table.keys_deleteWhere _)
  | deleteAcked installationId enrollId ack => exact h.sublist (Table.keys_deleteWhere _)
  | _ => exact h

/-- A script of the relay leaves the enrollments and the installations, and keeps the rows apart. -/
theorem Keyed.exec {α : Type} (h : Keyed db) (p : RelayScript Unit α) :
    Keyed (db.exec env posted p).2 := by
  have hserve : ∀ g call, Keyed g → Keyed (OrbDb.serve env posted g call).2 := fun _ call hg =>
    ⟨nodup_effect hg.deliveries call, hg.hashes⟩
  exact p.exec_keeps hserve h

theorem exec_enrollments {α : Type} (db : OrbDb) (p : RelayScript Unit α) :
    (db.exec env posted p).2.enrollments = db.enrollments ∧
      (db.exec env posted p).2.installations = db.installations := by
  have hserve : ∀ g call, (g.enrollments = db.enrollments ∧ g.installations = db.installations) →
      (OrbDb.serve env posted g call).2.enrollments = db.enrollments ∧
        (OrbDb.serve env posted g call).2.installations = db.installations := fun _ _ hg => hg
  exact p.exec_keeps hserve ⟨rfl, rfl⟩

theorem Keyed.pull (h : Keyed db) (secret : String) (ack : List DeliveryId) :
    Keyed (db.pull env secret ack).2 := by
  rw [OrbDb.pull]
  apply Keyed.exec
  exact ⟨h.deliveries, h.hashes⟩

theorem Keyed.updateWhere (h : Keyed db) (p : EnrollmentRow → Bool)
    {f : EnrollmentRow → EnrollmentRow} (hf : ∀ row, (f row).secretHash = row.secretHash) :
    Keyed { db with enrollments := Table.updateWhere p f db.enrollments } :=
  ⟨h.deliveries, (Table.keys_updateWhere fun row _ => hf row).symm ▸ h.hashes⟩

theorem Keyed.insertEnrollment (h : Keyed db) {enrollId secretHash : String} (installationId : ℕ)
    (hnew : db.hasEnrollment enrollId secretHash = false) :
    Keyed (db.insertEnrollment enrollId secretHash installationId) := by
  refine ⟨h.deliveries, Table.nodup_keys_concat h.hashes ?_⟩
  intro hmem
  obtain ⟨row, hrow, hhash⟩ := mem_map.1 hmem
  have hsame := any_eq_false.1 hnew row hrow
  simp [hhash] at hsame

theorem Keyed.issueOrbEnrollment (h : Keyed db) (installationId : ℕ) (rotate : Bool)
    (enrollId secret : String) :
    Keyed (db.issueOrbEnrollment env installationId rotate enrollId secret).2 := by
  have hrevoked : Keyed (if rotate then
      (db.revokeAllLiveEnrollmentsForInstallation installationId).2 else db) := by
    split_ifs
    · exact h.updateWhere _ fun _ => rfl
    · exact h
  rw [OrbDb.issueOrbEnrollment]
  cases db.installations installationId with
  | none => exact h
  | some install =>
    dsimp only
    generalize (if rotate then (db.revokeAllLiveEnrollmentsForInstallation installationId).2
      else db) = revoked
      at hrevoked ⊢
    split_ifs with hregistered hhas
    · exact h
    · exact hrevoked
    · exact hrevoked.insertEnrollment installationId (Bool.eq_false_iff.2 hhas)

theorem Keyed.registerOrbRelay (h : Keyed db) (secret relayUrl : String) (mode : RelayMode) :
    Keyed (db.registerOrbRelay env secret relayUrl mode).2 := by
  rw [OrbDb.registerOrbRelay]
  cases db.validateOrbRelayEnrollment env secret with
  | error e => exact h
  | ok enrollment =>
    cases mode with
    | pull => exact h.updateWhere _ fun _ => rfl
    | push =>
      simp only [OrbDb.registerValidatedOrbRelay]
      split_ifs
      · exact h
      · exact h
      · exact h.updateWhere _ fun _ => rfl

/-- **Every action keeps rows apart.** -/
theorem Keyed.act (h : Keyed db) (action : OrbAction) : Keyed (db.act env action) := by
  cases action with
  | wait seconds => exact ⟨h.deliveries, h.hashes⟩
  | setInstallation installationId install => exact ⟨h.deliveries, h.hashes⟩
  | issueOrbEnrollment installationId rotate enrollId secret =>
    exact h.issueOrbEnrollment installationId rotate enrollId secret
  | revokeOrbEnrollment enrollId =>
    show Keyed (db.revokeOrbEnrollment enrollId).2
    rw [OrbDb.revokeOrbEnrollment]
    split_ifs
    · exact h.updateWhere _ fun _ => rfl
    · exact h
  | revokeAllLiveEnrollments installationId => exact h.updateWhere _ fun _ => rfl
  | registerOrbRelay secret relayUrl mode => exact h.registerOrbRelay secret relayUrl mode
  | forward posted guid event => exact h.exec _
  | configPush installationId payload => exact h.exec _
  | prune => exact h.exec _
  | pull secret ack => exact h.pull secret ack

theorem keyed_of_run {installations : ℕ → Option OrbInstallation} {actions : List OrbAction}
    (hrun : Runs.run (orbStep env) (orbStart installations) actions = some db) : Keyed db := by
  have hstep : ∀ {s : OrbDb} {a : OrbAction} {s' : OrbDb}, Keyed s → orbStep env s a = some s' →
      Keyed s' := by
    intro s a s' hs hact
    obtain rfl := Option.some.inj hact
    exact hs.act a
  exact Runs.run_invariant hstep hrun ⟨nodup_nil, nodup_nil⟩

/-! ## What a pull does -/

/-- The relay after the rows that expired and those that are acknowledged are deleted. -/
def RelayDb.acknowledge (relay : RelayDb) (enrollment : RelayEnrollment) (ack : List DeliveryId) :
    RelayDb :=
  relay.deleteExpired.deleteAcked enrollment.installationId (some enrollment.enrollId)
    (ack.take relayPendingBatchSize)

/-- The rows that a pull of the enrollment sees. -/
def RelayDb.visible (relay : RelayDb) (enrollment : RelayEnrollment) : List PendingRow :=
  relay.pending.filter (isOfEnrollment enrollment.installationId (some enrollment.enrollId))

/-- The rows that a pull of the enrollment returns. -/
def RelayDb.batch (relay : RelayDb) (enrollment : RelayEnrollment) : List PendingRow :=
  ((relay.visible enrollment).insertionSort oldestFirst).take relayPendingBatchSize

variable {enrollment : RelayEnrollment} {secret : String} {ack : List DeliveryId}

@[simp] theorem deleteAcked_nil (installationId : ℕ) (enrollId : Option String) :
    relay.deleteAcked installationId enrollId [] = relay := by
  simp [RelayDb.deleteAcked, Table.deleteWhere, RelayDb.isAcked]

theorem exec_pruneRelayPending (db : OrbDb) :
    db.exec env posted pruneRelayPending = ((.ok (), ()),
      { db with relay := db.relay.deleteExpired }) := rfl

theorem exec_pullRelayPending (db : OrbDb) :
    db.exec env posted
      (pullRelayPending enrollment.installationId ack none (some enrollment.enrollId)) =
      ((.ok (((db.relay.acknowledge enrollment ack).batch enrollment).map (·.relayed)), ()),
        { db with relay := db.relay.acknowledge enrollment ack }) := by
  have hacked : OrbDb.exec env { db with relay := db.relay.deleteExpired } posted
      (runWhen (!(ack.take relayPendingBatchSize).isEmpty) do
        ofExcept (← request (.deleteAcked enrollment.installationId (some enrollment.enrollId)
          (ack.take relayPendingBatchSize)))) =
      ((.ok (), ()), { db with relay := db.relay.acknowledge enrollment ack }) := by
    rw [OrbDb.exec, exec_runWhen, RelayDb.acknowledge]
    split_ifs with hempty
    · rfl
    · rw [Bool.not_eq_true', Bool.not_eq_false, List.isEmpty_iff] at hempty
      rw [hempty, deleteAcked_nil]
  rw [pullRelayPending, OrbDb.exec, exec_bind_ok (exec_pruneRelayPending db)]
  exact exec_bind_ok hacked

/-- The tables when a request arrives. -/
def OrbDb.asked (db : OrbDb) (secret : String) (ack : List DeliveryId) : OrbDb :=
  { db with relay := { db.relay with requests := [⟨secret, ack⟩], responses := [] } }

/-- The events that a pull of the enrollment returns. -/
def RelayDb.answer (relay : RelayDb) (enrollment : RelayEnrollment) (ack : List DeliveryId) :
    List OrbRelayEvent :=
  ((relay.acknowledge enrollment ack).batch enrollment).map (·.relayed)

theorem exec_handlePull (hvalid : db.validateOrbRelayEnrollment env secret = .ok enrollment) :
    (db.asked secret ack).exec env posted handlePull =
      ((.ok (), ()), { db with
        relay := ((db.asked secret ack).relay.acknowledge enrollment ack).effect
          (.respond (db.relay.answer enrollment ack)) }) := by
  have hrequest : OrbDb.serve env posted (db.asked secret ack) .takeRequest =
      (⟨secret, ack⟩, db.asked secret ack) := rfl
  have hreply : (OrbDb.serve env posted (db.asked secret ack)
      (.validateOrbRelayEnrollment secret)).1 =
      .ok (some enrollment) := by
    show Except.ok (db.validateOrbRelayEnrollment env secret).toOption = _
    rw [hvalid]
    rfl
  rw [handlePull, OrbDb.exec, exec_ask_bind, hrequest, exec_ask_bind, hreply]
  exact exec_attempt_bind (exec_pullRelayPending (db.asked secret ack))

/-- **What a pull does that validates**: it deletes what expired and what is acknowledged, and
returns the oldest of the rows that its enrollment sees. -/
theorem pull_of_valid (hvalid : db.validateOrbRelayEnrollment env secret = .ok enrollment)
    (ack : List DeliveryId) :
    (db.pull env secret ack).1 = db.relay.answer enrollment ack ∧
      (db.pull env secret ack).2.relay.pending = (db.relay.acknowledge enrollment ack).pending ∧
      (db.pull env secret ack).2.clock = db.clock := by
  have hpull : db.pull env secret ack =
    (((db.asked secret ack).exec env true handlePull).2.relay.responses.headD [],
    ((db.asked secret ack).exec env true handlePull).2) := rfl
  rw [hpull, exec_handlePull hvalid]
  exact ⟨rfl, rfl, rfl⟩

/-- Whether a secret validates is up to the enrollments and the installations. -/
theorem validate_congr (henrollments : db'.enrollments = db.enrollments)
    (hinstallations : db'.installations = db.installations) :
    db'.validateOrbRelayEnrollment env secret = db.validateOrbRelayEnrollment env secret := by
  obtain ⟨relay', enrollments', installations'⟩ := db'
  obtain rfl : enrollments' = db.enrollments := henrollments
  obtain rfl : installations' = db.installations := hinstallations
  rfl

theorem validate_pull : (db.pull env secret ack).2.validateOrbRelayEnrollment env secret =
    db.validateOrbRelayEnrollment env secret := by
  have hexec : ((db.asked secret ack).exec env true handlePull).2.enrollments = db.enrollments ∧
      ((db.asked secret ack).exec env true handlePull).2.installations = db.installations :=
    exec_enrollments (db.asked secret ack) handlePull
  exact validate_congr hexec.1 hexec.2

variable {row : PendingRow}

theorem mem_acknowledge :
    row ∈ (relay.acknowledge enrollment ack).pending ↔
      row ∈ relay.pending ∧ relay.isExpired row = false ∧
        RelayDb.isAcked enrollment.installationId (some enrollment.enrollId)
          (ack.take relayPendingBatchSize) row =
          false := by
  rw [RelayDb.acknowledge, RelayDb.deleteAcked, Table.mem_deleteWhere, RelayDb.deleteExpired,
    Table.mem_deleteWhere, and_assoc]

variable {ev : OrbRelayEvent}

theorem mem_answer (h : ev ∈ relay.answer enrollment ack) :
    ∃ row ∈ relay.pending,
      RelayDb.isOfEnrollment enrollment.installationId (some enrollment.enrollId) row = true ∧
      ev = row.relayed := by
  obtain ⟨row, hrow, rfl⟩ := mem_map.1 h
  have hvisible := mem_of_mem_take hrow
  rw [mem_insertionSort, RelayDb.visible, mem_filter] at hvisible
  exact ⟨row, (mem_acknowledge.1 hvisible.1).1, hvisible.2, rfl⟩

/-! ## Draining -/

variable {waits : List ℕ}

/-- **Pulls return only events that their enrollment sees.** -/
theorem drain_subset (hvalid : db.validateOrbRelayEnrollment env secret = .ok enrollment)
    (h : ev ∈ OrbDb.drain env secret waits ack db) :
    ∃ row ∈ db.relay.pending,
      RelayDb.isOfEnrollment enrollment.installationId (some enrollment.enrollId) row = true ∧
        ev = row.relayed := by
  induction waits generalizing db ack with
  | nil => cases h
  | cons seconds later ih =>
    have hwaited : (db.wait seconds).validateOrbRelayEnrollment env secret =
        .ok enrollment := hvalid
    obtain ⟨hevents, hpending, -⟩ := pull_of_valid hwaited ack
    obtain hnow | hlater := mem_append.1 h
    · rw [hevents] at hnow
      have hsource := mem_answer hnow
      exact hsource
    · obtain ⟨row, hrow, hsees, rfl⟩ := ih (validate_pull.trans hwaited) hlater
      rw [hpending] at hrow
      exact ⟨row, (mem_acknowledge.1 hrow).1, hsees, rfl⟩

/-- The rows that the enrollment sees and that are not acknowledged. -/
def RelayDb.unacknowledged (relay : RelayDb) (enrollment : RelayEnrollment)
    (ack : List DeliveryId) :
    List PendingRow :=
  (relay.visible enrollment).filter fun row =>
    !(ack.take relayPendingBatchSize).contains row.deliveryId

theorem visible_acknowledge_length (relay : RelayDb) (enrollment : RelayEnrollment)
    (ack : List DeliveryId) :
    ((relay.acknowledge enrollment ack).visible enrollment).length ≤
      (relay.unacknowledged enrollment ack).length := by
  simp only [RelayDb.visible, RelayDb.unacknowledged, RelayDb.acknowledge, RelayDb.deleteAcked,
    RelayDb.deleteExpired, Table.deleteWhere, filter_filter, ← countP_eq_length_filter]
  apply countP_mono_left
  intro row _ hrow
  simp only [Bool.and_eq_true, Bool.not_eq_true', RelayDb.isAcked, Bool.and_eq_false_iff] at hrow ⊢
  exact ⟨hrow.2.1.resolve_left (by simp [hrow.1]), hrow.1⟩

/-- What is left of a list but for the keys of its first rows. -/
theorem length_filter_after_take (rows : List PendingRow) (count : ℕ) :
    (rows.filter fun row => !((rows.take count).map (·.deliveryId)).contains
      row.deliveryId).length ≤
      rows.length - count := by
  have htaken : (rows.take count).filter
      (fun row => !((rows.take count).map (·.deliveryId)).contains row.deliveryId) = [] := by
    rw [filter_eq_nil_iff]
    intro row hrow
    have hkey : row.deliveryId ∈ (rows.take count).map (·.deliveryId) := mem_map_of_mem hrow
    simpa only [Bool.not_eq_true', Bool.not_eq_false, contains_iff_mem] using hkey
  calc (rows.filter fun row => !((rows.take count).map (·.deliveryId)).contains
      row.deliveryId).length
      = ((rows.take count ++ rows.drop count).filter
          fun row => !((rows.take count).map (·.deliveryId)).contains row.deliveryId).length := by
        rw [take_append_drop]
    _ ≤ (rows.drop count).length := by
        rw [filter_append, htaken, nil_append]
        exact length_filter_le _ _
    _ = rows.length - count := length_drop

/-- What is acknowledged after a pull are the rows that it returned. -/
theorem unacknowledged_answer {before : RelayDb}
    (hpending : relay.pending = (before.acknowledge enrollment ack).pending) :
    (relay.unacknowledged enrollment ((before.answer enrollment ack).map (·.deliveryId))).length ≤
      ((before.acknowledge enrollment ack).visible enrollment).length - relayPendingBatchSize := by
  have hvisible : relay.visible enrollment = (before.acknowledge enrollment ack).visible
      enrollment := by
    rw [RelayDb.visible, RelayDb.visible, hpending]
  have hacked : ((before.answer enrollment ack).map (·.deliveryId)).take relayPendingBatchSize =
      ((before.acknowledge enrollment ack).batch enrollment).map (·.deliveryId) := by
    rw [RelayDb.answer, map_map, RelayDb.batch, ← map_take, take_take, Nat.min_self]
    rfl
  have hperm :=
    perm_insertionSort oldestFirst ((before.acknowledge enrollment ack).visible enrollment)
  rw [RelayDb.unacknowledged, hacked, hvisible, ← hperm.length_eq, ← (hperm.filter _).length_eq]
  exact length_filter_after_take _ _

/-- A row that is not returned is not acknowledged next. -/
theorem not_mem_answer (hkeys : (relay.pending.map (·.deliveryId)).Nodup)
    (hrow : row ∈ relay.pending)
    (hbatch : row ∉ (relay.acknowledge enrollment ack).batch enrollment) :
    row.deliveryId ∉ (relay.answer enrollment ack).map (·.deliveryId) := by
  intro hmem
  rw [RelayDb.answer, map_map] at hmem
  obtain ⟨other, hother, hid⟩ := mem_map.1 hmem
  have hvisible := mem_of_mem_take hother
  rw [mem_insertionSort, RelayDb.visible, mem_filter] at hvisible
  obtain rfl := Table.eq_of_key hkeys (mem_acknowledge.1 hvisible.1).1 hrow hid
  exact hbatch hother

/-- **Acknowledged pulls return every event that their enrollment sees**, if it does not expire:
each pull is of a whole batch until it comes to the event. -/
theorem mem_drain (hvalid : db.validateOrbRelayEnrollment env secret = .ok enrollment)
    (hkeyed : Keyed db) (hrow : row ∈ db.relay.unacknowledged enrollment ack)
    (hage : db.clock + waits.sum ≤ row.createdAt + relayPendingTtlSeconds)
    (hcount : (db.relay.unacknowledged enrollment ack).length ≤ relayPendingBatchSize *
      waits.length) :
    row.relayed ∈ OrbDb.drain env secret waits ack db := by
  induction waits generalizing db ack with
  | nil => exact absurd hcount (length_pos_of_mem hrow).not_ge
  | cons seconds later ih =>
    rw [sum_cons] at hage
    rw [length_cons] at hcount
    have hwaited : (db.wait seconds).validateOrbRelayEnrollment env secret =
        .ok enrollment := hvalid
    obtain ⟨hevents, hpending, hclock⟩ := pull_of_valid hwaited ack
    obtain ⟨hsees, hnotacked⟩ := mem_filter.1 hrow
    have hleft : row ∈ ((db.wait seconds).relay.acknowledge enrollment ack).pending := by
      refine mem_acknowledge.2 ⟨(mem_filter.1 hsees).1, decide_eq_false ?_, ?_⟩
      · show ¬row.createdAt + relayPendingTtlSeconds < db.relay.clock + seconds
        rw [OrbDb.clock] at hage
        omega
      · rw [RelayDb.isAcked, Bool.and_eq_false_iff]
        exact Or.inr (by simpa using hnotacked)
    by_cases hbatch : row ∈ ((db.wait seconds).relay.acknowledge enrollment ack).batch enrollment
    · apply mem_append_left
      rw [hevents]
      exact mem_map_of_mem hbatch
    · apply mem_append_right
      have hkeyedwait : Keyed (db.wait seconds) := ⟨hkeyed.deliveries, hkeyed.hashes⟩
      have hkeyed' : Keyed ((db.wait seconds).pull env secret ack).2 := hkeyedwait.pull secret ack
      have hid := not_mem_answer hkeyedwait.deliveries (mem_filter.1 hsees).1 hbatch
      have hlength := unacknowledged_answer hpending
      have hvisible := visible_acknowledge_length (db.wait seconds).relay enrollment ack
      rw [← hevents] at hid hlength
      refine ih (validate_pull.trans hwaited) hkeyed'
        (mem_filter.2 ⟨mem_filter.2 ⟨?_, ?_⟩, ?_⟩) ?_ ?_
      · rw [hpending]
        exact hleft
      · exact (mem_filter.1 hsees).2
      · rw [Bool.not_eq_true', contains_eq_mem, decide_eq_false_iff_not]
        exact fun hmem => hid (mem_of_mem_take hmem)
      · rw [hclock]
        show db.relay.clock + seconds + later.sum ≤ _
        rw [OrbDb.clock] at hage
        omega
      · have hsame : (db.wait seconds).relay.unacknowledged enrollment ack =
            db.relay.unacknowledged enrollment ack := rfl
        rw [hsame] at hvisible
        rw [Nat.mul_succ] at hcount
        omega

/-! ## Live enrollments and tags -/

variable {installationId : ℕ}

theorem mem_liveRows {row : EnrollmentRow} :
    row ∈ db.liveRows installationId ↔
      row ∈ db.enrollments ∧ row.installationId = installationId ∧ row.isLive = true := by
  rw [OrbDb.liveRows, mem_insertionSort, mem_filter, isLiveOf, Bool.and_eq_true, beq_iff_eq]

/-- The secret of a live enrollment validates, unless the installation is not eligible. -/
theorem live_validates (hkeyed : Keyed db) {row : EnrollmentRow}
    (hlive : row ∈ db.liveRows installationId) (hsecret : env.hashToken secret = row.secretHash)
    (heligible : db.isEligible installationId = true) :
    db.validateOrbRelayEnrollment env secret = .ok ⟨row.enrollId, installationId⟩ := by
  obtain ⟨hrow, rfl, hislive⟩ := mem_liveRows.1 hlive
  have hfound : db.enrollments.find? (·.secretHash == env.hashToken secret) = some row := by
    cases hfind : db.enrollments.find? (·.secretHash == env.hashToken secret) with
    | none =>
      have hnone := List.find?_eq_none.1 hfind row hrow
      simp [hsecret] at hnone
    | some other =>
      have hhash : other.secretHash = row.secretHash := by
        simpa [hsecret] using List.find?_some hfind
      rw [Table.eq_of_key hkeyed.hashes (mem_of_find?_eq_some hfind) hrow hhash]
  simp [OrbDb.validateOrbRelayEnrollment, hfound, hislive, heligible]

/-- An insert adds at most its own row. -/
theorem mem_insertPending {new : NewPending} (h : row ∈ (relay.insertPending new).pending) :
    row ∈ relay.pending ∨ row.toNewPending = new := by
  cases hknown : relay.hasDelivery new.deliveryId with
  | true =>
    rw [insertPending_of_known hknown] at h
    exact Or.inl h
  | false =>
    rw [insertPending_of_new hknown] at h
    obtain hold | rfl := mem_append.1 h |>.imp_right mem_singleton.1
    · exact Or.inl hold
    · exact Or.inr rfl

theorem exec_enqueueRelayPending (env : OrbEnv) (posted : Bool) (db : OrbDb) (guid : String)
    (installationId : ℕ) (event : RelayEvent) (enrollId : Option String) :
    ∃ after, db.exec env posted (enqueueRelayPending env.runtime guid installationId event.eventName
      event.rawBody
        enrollId) = ((.ok (), ()), after) ∧
      after.relay.pending ⊆ (db.relay.deleteExpired.insertPending
        (webhookRow env.runtime guid installationId event.eventName event.rawBody
          enrollId)).pending := by
  have hchanges : (OrbDb.serve env posted { db with relay := db.relay.deleteExpired }
      (.insertPending
      (webhookRow env.runtime guid installationId event.eventName event.rawBody enrollId))).1 =
      .ok (if db.relay.deleteExpired.hasDelivery (.github guid) then 0 else 1) := rfl
  rw [enqueueRelayPending, OrbDb.exec, exec_bind_ok (exec_pruneRelayPending db)]
  rw [exec_ask_bind, hchanges, exec_ofExcept_bind]
  cases truthy (relayPendingCoalesceKey env.runtime event.eventName event.rawBody) with
  | none => exact ⟨_, rfl, filter_subset_self _⟩
  | some key =>
    dsimp only
    by_cases hknown : db.relay.deleteExpired.hasDelivery (.github guid) = true
    · rw [if_pos hknown]
      exact ⟨_, rfl, filter_subset_self _⟩
    · rw [if_neg hknown]
      exact ⟨_, rfl, List.Subset.trans (filter_subset_self _) (filter_subset_self _)⟩

theorem mem_forwardToEnrollment {guid : String} {event : RelayEvent} {live : LiveEnrollment}
    (h : row ∈
      (db.exec env posted (forwardToEnrollment env.runtime env.hasEncryptionSecret guid
        installationId event
      live)).2.relay.pending) :
    row ∈ db.relay.pending ∨
      row.toNewPending =
        webhookRow env.runtime guid installationId event.eventName event.rawBody
          (some live.enrollId) := by
  rw [forwardToEnrollment] at h
  split_ifs at h with hpull hskip
  · obtain ⟨after, hafter, hsubset⟩ :=
      exec_enqueueRelayPending env posted db guid installationId event (some live.enrollId)
    rw [OrbDb.exec, exec_attempt_bind hafter] at h
    obtain hold | hnew := mem_insertPending (hsubset h)
    · exact Or.inl (Table.mem_deleteWhere.1 hold).1
    · exact Or.inr hnew
  · exact Or.inl h
  · rw [OrbDb.exec, exec_ask_bind] at h
    cases posted with
    | true => exact Or.inl h
    | false => exact Or.inl h

/-- **A forward adds at most its own event**, tagged with the winner of the moment. -/
theorem mem_forwardOrbEvent {guid : String} {event : RelayEvent}
    (h : row ∈ (db.forwardOrbEvent env posted guid event).relay.pending) :
    row ∈ db.relay.pending ∨ ∃ installationId winner, event.installationId = some installationId ∧
      db.winner installationId = some winner ∧
      row.toNewPending =
        webhookRow env.runtime guid installationId event.eventName event.rawBody
          (some winner.enrollId) := by
  rw [OrbDb.forwardOrbEvent, OrbDb.exec, Relay.forwardOrbEvent] at h
  cases hid : truthyId event.installationId with
  | none =>
    rw [hid] at h
    exact Or.inl h
  | some installationId =>
    rw [hid] at h
    dsimp only at h
    split_ifs at h with hforwardable
    · have hread : (OrbDb.serve env posted db (.liveEnrollments installationId)).1 =
        .ok ((db.liveRows installationId).map (·.live)) := rfl
      rw [exec_ask_bind, hread] at h
      cases hlive : db.liveRows installationId with
      | nil =>
        rw [hlive] at h
        exact Or.inl h
      | cons winner others =>
        rw [hlive] at h
        have hwinner : db.winner installationId = some winner := by
          rw [OrbDb.winner, hlive]
          rfl
        obtain hold | hnew := mem_forwardToEnrollment h
        · exact Or.inl hold
        · exact Or.inr ⟨installationId, winner, (Option.filter_eq_some_iff.1 hid).1, hwinner, hnew⟩
    · exact Or.inl h

/-! ## Runs -/

/-- An event that is tagged for one enrollment is not returned to another one. -/
theorem drain_of_other (hvalid : db.validateOrbRelayEnrollment env secret = .ok enrollment)
    (hkeyed : Keyed db) (hrow : row ∈ db.relay.pending) {tag : String}
    (htag : row.enrollId = some tag) (hother : tag ≠ enrollment.enrollId)
    (hev : ev ∈ OrbDb.drain env secret waits ack db) : ev.deliveryId ≠ row.deliveryId := by
  intro hid
  obtain ⟨source, hsource, hsees, rfl⟩ := drain_subset hvalid hev
  obtain rfl : source = row := Table.eq_of_key hkeyed.deliveries hsource hrow hid
  simp [RelayDb.isOfEnrollment, htag, hother] at hsees

/-- **In every run, a queue is drained by enrollment.** Repeated acknowledged pulls with the secret
of a live enrollment return every pending event with its tag or with none, and no event with another
tag; an event gets the tag of the enrollment that wins when it is forwarded. -/
theorem enrollment_drains {installations : ℕ → Option OrbInstallation} {actions : List OrbAction}
    (hrun : Runs.run (orbStep env) (orbStart installations) actions = some db) {installationId : ℕ}
    {holder : EnrollmentRow} (hholder : holder ∈ db.liveRows installationId)
    (hsecret : env.hashToken secret = holder.secretHash)
    (heligible : db.isEligible installationId = true) :
    (∀ row ∈ db.relay.pending, row.installationId = installationId →
      row.enrollId = none ∨ row.enrollId = some holder.enrollId →
      ∀ waits : List ℕ, db.clock + waits.sum ≤ row.createdAt + relayPendingTtlSeconds →
        (db.relay.visible ⟨holder.enrollId, installationId⟩).length ≤ relayPendingBatchSize *
          waits.length →
        row.relayed ∈ OrbDb.drain env secret waits [] db) ∧
    (∀ row ∈ db.relay.pending, ∀ tag, row.enrollId = some tag → tag ≠ holder.enrollId →
      ∀ waits ack, ∀ ev ∈ OrbDb.drain env secret waits ack db, ev.deliveryId ≠ row.deliveryId) ∧
    ∀ winner, db.winner installationId = some winner →
      ∀ posted guid (event : RelayEvent), event.installationId = some installationId →
        ∀ row ∈ (db.forwardOrbEvent env posted guid event).relay.pending,
          row ∈ db.relay.pending ∨ row.deliveryId = .github guid ∧
            row.enrollId = some winner.enrollId := by
  have hkeyed := keyed_of_run hrun
  have hvalid := live_validates hkeyed hholder hsecret heligible
  refine ⟨?_, ?_, ?_⟩
  · intro row hrow hinstallation htag waits hage hcount
    have hsees : row ∈ db.relay.visible ⟨holder.enrollId, installationId⟩ := by
      refine mem_filter.2 ⟨hrow, ?_⟩
      obtain hnone | hsome := htag
      · simp [RelayDb.isOfEnrollment, hinstallation, hnone]
      · simp [RelayDb.isOfEnrollment, hinstallation, hsome]
    apply mem_drain hvalid hkeyed _ hage
    · exact (length_filter_le _ _).trans hcount
    · simpa [RelayDb.unacknowledged] using hsees
  · intro row hrow tag htag hother waits ack ev hev
    exact drain_of_other hvalid hkeyed hrow htag hother hev
  · intro winner hwinner posted guid event hevent row hrow
    obtain hold | ⟨other, found, hother, hfound, hnew⟩ := mem_forwardOrbEvent hrow
    · exact Or.inl hold
    · obtain rfl : installationId = other := Option.some.inj (hevent.symm.trans hother)
      obtain rfl : winner = found := Option.some.inj (hwinner.symm.trans hfound)
      refine Or.inr ⟨?_, ?_⟩
      · show row.toNewPending.deliveryId = _
        rw [hnew]
        rfl
      · show row.toNewPending.enrollId = _
        rw [hnew]
        rfl

end

/-- Texts are their own hashes. -/
def plainOrbEnv : OrbEnv := ⟨id, Queue.asciiKeyRuntime, true, fun _ => true⟩

/-- An engine pulls, an event is queued for it, and a minute later its secret is rotated. -/
def rotation : List OrbAction :=
  [.setInstallation 1 (some ⟨1, none, none⟩), .issueOrbEnrollment 1 false "orbenr_1" "orbsec_1",
    .registerOrbRelay "orbsec_1" "" .pull,
      .forward true "guid" ⟨"pull_request", some 1, none⟩, .wait 60,
    .issueOrbEnrollment 1 true "orbenr_2" "orbsec_2", .registerOrbRelay "orbsec_2" "" .pull]

def rotated : OrbDb := rotation.foldl (OrbDb.act plainOrbEnv) (orbStart fun _ => none)

theorem run_rotation :
    Runs.run (orbStep plainOrbEnv) (orbStart fun _ => none) rotation = some rotated := rfl

def rotatedWinner : EnrollmentRow :=
  ⟨2, "orbenr_2", 1, "orbsec_2", .enrolled, 60, none, "pull", none, some 60⟩

def rotatedRow : PendingRow :=
  ⟨⟨.github "guid", 1, "pull_request", none, none, some "orbenr_1", "github_webhook"⟩, 1, 0, 0⟩

theorem liveRows_rotated : rotated.liveRows 1 = [rotatedWinner] := by decide +kernel

/-- An event of after the rotation is returned to the new engine. -/
theorem enrollment_drains_sample :
    ∃ db, Runs.run (orbStep plainOrbEnv) (orbStart fun _ => none)
        (rotation ++ [.forward true "later" ⟨"issues", some 1, none⟩]) = some db ∧
      ∃ row ∈ db.relay.pending, row.deliveryId = .github "later" ∧ row.enrollId = some "orbenr_2" ∧
        row.relayed ∈ OrbDb.drain plainOrbEnv "orbsec_2" [0] [] db := by
  let later : PendingRow :=
    ⟨⟨.github "later", 1, "issues", none, none, some "orbenr_2", "github_webhook"⟩, 2, 60, 1⟩
  let db : OrbDb := rotated.act plainOrbEnv (.forward true "later" ⟨"issues", some 1, none⟩)
  have hrun : Runs.run (orbStep plainOrbEnv) (orbStart fun _ => none)
      (rotation ++ [.forward true "later" ⟨"issues", some 1, none⟩]) = some db := rfl
  have hlive : db.liveRows 1 = [rotatedWinner] := by decide +kernel
  have hrow : later ∈ db.relay.pending := mem_cons_of_mem _ mem_cons_self
  have hholder : rotatedWinner ∈ db.liveRows 1 := hlive ▸ mem_cons_self
  have hsecret : plainOrbEnv.hashToken "orbsec_2" = rotatedWinner.secretHash := rfl
  have heligible : db.isEligible 1 = true := rfl
  refine ⟨db, hrun, later, hrow, rfl, rfl, ?_⟩
  refine (enrollment_drains hrun hholder hsecret heligible).1 later hrow rfl (Or.inr rfl) [0] ?_ ?_
  · decide +kernel
  · decide +kernel

/-- **The event of before a rotation is still pending, and no number of pulls with the new secret
returns it.** -/
theorem rotation_strands :
    ∃ db, Runs.run (orbStep plainOrbEnv) (orbStart fun _ => none) rotation = some db ∧
      db.isEligible 1 = true ∧
      ∃ winner, db.winner 1 = some winner ∧ plainOrbEnv.hashToken "orbsec_2" = winner.secretHash ∧
        ∃ row ∈ db.relay.pending, row.installationId = 1 ∧ db.relay.isExpired row = false ∧
          ∀ waits, row.relayed ∉ OrbDb.drain plainOrbEnv "orbsec_2" waits [] db := by
  have hwinner : rotatedWinner ∈ rotated.liveRows 1 := liveRows_rotated ▸ mem_cons_self
  have hpending : rotated.relay.pending = [rotatedRow] := rfl
  have hrow : rotatedRow ∈ rotated.relay.pending := hpending ▸ mem_cons_self
  have hkeyed := keyed_of_run run_rotation
  have hvalid : rotated.validateOrbRelayEnrollment plainOrbEnv "orbsec_2" = .ok ⟨"orbenr_2", 1⟩ :=
    live_validates hkeyed hwinner rfl rfl
  refine ⟨rotated, run_rotation, rfl, rotatedWinner, ?_, rfl, rotatedRow, hrow, rfl,
    by decide +kernel, ?_⟩
  · rw [OrbDb.winner, liveRows_rotated]
    rfl
  · intro waits hmem
    exact drain_of_other hvalid hkeyed hrow rfl (by decide) hmem rfl

end LoopOver.Relay
