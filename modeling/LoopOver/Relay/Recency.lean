import LoopOver.Relay.Conduct

/-!
# Which event stays

An event that is queued removes the pending ones of its installation and key that were queued before
it. This keeps the newest, as long as events are queued in the order in which GitHub delivered them;
a failure that is forwarded again is queued after events that were delivered later.

* `GithubDeliveries.NoLater` is the order of delivery, and `RelayDb.InOrder` the condition on a
  call.
* `ordered_insertPending` says that an insert keeps the pending events of a key in order just when
  it meets the condition.
* `newest_stays`: in a run whose calls meet the condition, what stays is never older than what is
  removed.
-/

namespace LoopOver.Relay

open Queue (JsonValue Payload KeyRuntime asciiKeyRuntime)
open List

/-- Rows that coalesce: they have one installation, and one key. -/
def SharesKey (a b : NewPending) : Prop :=
  a.installationId = b.installationId ∧ a.coalesceKey.isSome ∧ a.coalesceKey = b.coalesceKey

instance (a b : NewPending) : Decidable (SharesKey a b) :=
  inferInstanceAs (Decidable (a.installationId = b.installationId ∧ a.coalesceKey.isSome ∧
    a.coalesceKey = b.coalesceKey))

/-- GitHub delivered the first one no later than the second. -/
def GithubDeliveries.NoLater (github : GithubDeliveries) : DeliveryId → DeliveryId → Prop
  | .github guid, .github guid' => github.deliveredAt guid ≤ github.deliveredAt guid'
  | _, _ => False

instance (github : GithubDeliveries) (a b : DeliveryId) : Decidable (github.NoLater a b) :=
  match a, b with
  | .github guid, .github guid' =>
    inferInstanceAs (Decidable (github.deliveredAt guid ≤ github.deliveredAt guid'))
  | .configPush _ _, _ => isFalse id
  | .github _, .configPush _ _ => isFalse id

/-- The row that a call inserts. -/
def RelayCall.inserted? : RelayCall → Option NewPending
  | .insertPending row => some row
  | _ => none

variable {deliveryId : DeliveryId} {installationId : ℕ} {coalesceKey : String} {row : PendingRow}

section

variable (github : GithubDeliveries)

/-- No row that the new one coalesces with was delivered after it. -/
def RelayDb.ComesInOrder (db : RelayDb) (row : NewPending) : Prop :=
  ∀ other ∈ db.pending, SharesKey other.toNewPending row →
    github.NoLater other.deliveryId row.deliveryId

/-- A delivery that is queued, and is not pending, comes in order. -/
def RelayDb.InOrder (db : RelayDb) (call : RelayCall) : Prop :=
  ∀ row ∈ call.inserted?, db.hasDelivery row.deliveryId = false → db.ComesInOrder github row

/-- Rows that coalesce were queued in the order of their delivery. -/
def RelayDb.Ordered (db : RelayDb) : Prop :=
  ∀ a ∈ db.pending, ∀ b ∈ db.pending, SharesKey a.toNewPending b.toNewPending → a.rowid < b.rowid →
    github.NoLater a.deliveryId b.deliveryId

/-- What the delivery removes is of its key, and was delivered no later; the delivery itself
stays. -/
def GivesWayToNewer (deliveryId : DeliveryId) (db after : RelayDb) : Prop :=
  ∀ row ∈ db.pending, row ∉ after.pending → ∃ kept ∈ after.pending, kept.deliveryId = deliveryId ∧
    SharesKey row.toNewPending kept.toNewPending ∧ github.NoLater row.deliveryId kept.deliveryId

/-- The calls of a run whose inserts come in order. -/
def orderedAnswers (enrollmentOf : String → Option RelayEnrollment) : Answers RelayReply RelayDb :=
  fun db call reply after => db.InOrder github call ∧
    RelayDb.answers enrollmentOf db call reply after

variable {host : KeyRuntime} {hasEncryptionSecret : Bool} {github}
  {enrollmentOf : String → Option RelayEnrollment}
  {db after : RelayDb}

/-- **An insert keeps the order just when it comes in order.** -/
theorem ordered_insertPending {row : NewPending} (h : db.Ordered github)
    (hnew : db.hasDelivery row.deliveryId = false) :
    (db.insertPending row).Ordered github ↔ db.ComesInOrder github row := by
  rw [insertPending_of_new hnew]
  constructor
  · intro hordered other hother hshares
    exact hordered other (mem_append_left _ hother) _ (mem_append_right _ mem_cons_self) hshares
      (rowid_lt_next hother)
  · intro hrow a ha b hb hshares hlt
    obtain ha | rfl := mem_append.1 ha |>.imp_right mem_singleton.1
    · obtain hb | rfl := mem_append.1 hb |>.imp_right mem_singleton.1
      · exact h a ha b hb hshares hlt
      · exact hrow a ha hshares
    · obtain hb | rfl := mem_append.1 hb |>.imp_right mem_singleton.1
      · exact absurd (rowid_lt_next hb) hlt.le.not_gt
      · exact absurd hlt (lt_irrefl _)

theorem RelayDb.Ordered.subset (h : db.Ordered github) (hsubset : after.pending ⊆ db.pending) :
    after.Ordered github :=
  fun a ha b hb => h a (hsubset ha) b (hsubset hb)

/-- No other call adds a row. -/
theorem pending_effect_subset {call : RelayCall} (h : ∀ row, call ≠ .insertPending row) :
    (db.effect call).pending ⊆ db.pending := by
  cases call with
  | insertPending row => exact absurd rfl (h row)
  | insertFailure deliveryId eventName installationId rawBody =>
    show (db.insertFailure deliveryId eventName installationId rawBody).pending ⊆ db.pending
    rw [RelayDb.insertFailure]
    split_ifs <;> exact List.Subset.refl _
  | deleteExpired => exact filter_subset_self _
  | deleteOvertaken installationId coalesceKey deliveryId => exact filter_subset_self _
  | deleteEvicted installationId => exact filter_subset_self _
  | deleteAcked installationId enrollId ack => exact filter_subset_self _
  | _ => exact List.Subset.refl _

/-- **A call in order keeps the order.** -/
theorem RelayDb.Ordered.step {call : RelayCall} {reply : RelayReply call} (h : db.Ordered github)
    (hanswer : orderedAnswers github enrollmentOf db call reply after) : after.Ordered github := by
  obtain ⟨hinorder, hanswer⟩ := hanswer
  obtain ⟨now, _, hafter⟩ := answers_cases hanswer
  have hnow : RelayDb.Ordered github { db with clock := now } := h
  obtain rfl | rfl := hafter
  · exact hnow
  · by_cases hinsert : ∃ row, call = .insertPending row
    · obtain ⟨row, rfl⟩ := hinsert
      cases hknown : db.hasDelivery row.deliveryId with
      | true =>
        have hsame : RelayDb.effect { db with clock := now } (.insertPending row) =
            { db with clock := now } :=
          insertPending_of_known hknown
        rwa [hsame]
      | false => exact (ordered_insertPending hnow hknown).2 (hinorder row rfl hknown)
    · apply hnow.subset
      exact pending_effect_subset fun row hrow => hinsert ⟨row, hrow⟩

/-- A row of a delivery of GitHub has the installation and the key of its event. -/
theorem event_of_filed {guid : String} (h : Filed host github row.toNewPending)
    (hid : row.deliveryId = .github guid) :
    truthyId (github.event guid).installationId = some row.installationId ∧
      row.coalesceKey = relayPendingCoalesceKey host (github.event guid).eventName
        (github.event guid).rawBody ∧
      row.enrollId.isSome := by
  generalize row.toNewPending = new at h hid ⊢
  cases h with
  | webhook guid' installationId enrollId hinstallation =>
    obtain rfl := DeliveryId.github.inj hid
    exact ⟨hinstallation, rfl, rfl⟩
  | configPush installationId payload => cases hid

/-- A row that is overtaken shares its key with the row of the delivery, which was queued after
it. -/
theorem overtaken_cases (hsound : Sound host github db)
    (hallows : Allows host github enrollmentOf db
      (.deleteOvertaken installationId coalesceKey deliveryId))
    (h : db.isOvertaken installationId coalesceKey deliveryId row = true) :
    ∃ kept ∈ db.pending, kept.deliveryId = deliveryId ∧
      SharesKey row.toNewPending kept.toNewPending ∧
      row.rowid < kept.rowid ∧
        db.isOvertaken installationId coalesceKey deliveryId kept = false := by
  simp only [RelayDb.isOvertaken, Bool.and_eq_true, beq_iff_eq, Option.any_eq_true,
    decide_eq_true_eq] at h
  obtain ⟨⟨hinstallation, hkey⟩, rowid, hrowid, hlt⟩ := h
  have hself := hrowid
  obtain ⟨kept, hfound, rfl⟩ := Option.map_eq_some_iff.1 hrowid
  have hid : kept.deliveryId = deliveryId := by simpa using List.find?_some hfound
  obtain ⟨guid, rfl, hevent, hcoalesce⟩ := hallows
  have hmem := mem_of_find?_eq_some hfound
  obtain ⟨hinstallation', hkey', _⟩ := event_of_filed (hsound.filed kept hmem) hid
  refine ⟨kept, hmem, hid, ⟨?_, ?_, ?_⟩, hlt, ?_⟩
  · rw [hinstallation]
    exact Option.some.inj (hevent.symm.trans hinstallation')
  · rw [hkey]
    rfl
  · rw [hkey, hkey', hcoalesce]
  · have hrow : db.rowidOf (.github guid) = some kept.rowid := hself
    simp [RelayDb.isOvertaken, hrow]

/-- What a delivery removes makes place for it. -/
theorem givesWay_of_ordered
    {reply : RelayReply (.deleteOvertaken installationId coalesceKey deliveryId)}
    (hsound : Sound host github db) (hordered : db.Ordered github)
    (hallows : Allows host github enrollmentOf db
      (.deleteOvertaken installationId coalesceKey deliveryId))
    (hanswer : RelayDb.answers enrollmentOf db
      (.deleteOvertaken installationId coalesceKey deliveryId) reply after) :
    GivesWayToNewer github deliveryId db after := by
  intro row hrow hgone
  obtain ⟨now, _, hafter⟩ := answers_cases hanswer
  obtain rfl | rfl := hafter
  · exact absurd hrow hgone
  · have hovertaken : db.isOvertaken installationId coalesceKey deliveryId row = true := by
      by_contra hnot
      exact hgone (Table.mem_deleteWhere.2 ⟨hrow, Bool.eq_false_of_not_eq_true hnot⟩)
    obtain ⟨kept, hkept, hid, hshares, hlt, hstays⟩ := overtaken_cases hsound hallows hovertaken
    exact ⟨kept, Table.mem_deleteWhere.2 ⟨hkept, hstays⟩, hid, hshares,
      hordered row hrow kept hkept hshares hlt⟩

variable {ι : Type} [DecidableEq ι] {tasks : ι → RelayTask} {trace : List (ι × Event RelayReply)}
  {pool : ι → Prog RelayReply Unit}

/-- **The newest event stays**: in a run whose inserts come in order, the pending events of an
installation and key were queued in the order of their delivery, and what a delivery removes was
delivered no later than it. -/
theorem newest_stays
    (h : Interleaves (orderedAnswers github enrollmentOf)
      (fun task => (tasks task).prog host hasEncryptionSecret github)
      emptyDb trace pool db) :
    db.Ordered github ∧
      ∀ thread installationId coalesceKey deliveryId next reply after,
        pool thread = .ask (.deleteOvertaken installationId coalesceKey deliveryId) next →
        RelayDb.answers enrollmentOf db (.deleteOvertaken installationId coalesceKey deliveryId)
          reply after →
        GivesWayToNewer github deliveryId db after := by
  obtain ⟨hordered, hsound, _, hbehaves⟩ :=
    h.behaves_induction (C := relayConduct host github enrollmentOf)
    (motive := fun db => db.Ordered github) (fun _ _ _ _ hanswer => hanswer.2)
    sound_emptyDb (fun thread => prog_behaves (tasks thread)) nofun
    (fun _ _ _ _ _ _ hordered hanswer => hordered.step hanswer)
  refine ⟨hordered, ?_⟩
  intro thread installationId coalesceKey deliveryId next reply after hthread hanswer
  have hnext := hbehaves thread
  rw [hthread] at hnext
  exact givesWay_of_ordered hsound hordered (hnext.allowed hsound) hanswer

end

/-! ## Two pushes -/

/-- A push to a pull request. -/
def pushEvent : RelayEvent where
  eventName := "pull_request"
  installationId := some 7
  rawBody :=
    some (.object [("action", .string "synchronize"),
      ("repository", .object [("full_name", .string "o/r")]),
    ("pull_request", .object [("number", .number 1)])])

/-- GitHub delivers the second push after the first one. -/
def twoPushes : GithubDeliveries where
  event _ := pushEvent
  deliveredAt guid := if guid = "second" then 2 else 1

def pushTasks : ℕ → RelayTask
  | 0 => .webhook "first"
  | 1 => .webhook "second"
  | _ => .retryTick

/-- There is an engine that pulls, unless the lookup fails. -/
def engineReplies (found : Bool) : OpenReplies where
  liveEnrollments := if found then .ok [⟨"enrollment", "pull", none⟩] else .error "timeout"
  enqueueWebhook := .ok .queued

/-- What a program is about to remove. -/
def removal? : Prog RelayReply Unit → Option (ℕ × String × DeliveryId)
  | .ask (.deleteOvertaken installationId coalesceKey deliveryId) _ =>
    some (installationId, coalesceKey, deliveryId)
  | _ => none

theorem removal?_eq_some {p : Prog RelayReply Unit}
    (h : removal? p = some (installationId, coalesceKey, deliveryId)) :
    ∃ next, p = .ask (.deleteOvertaken installationId coalesceKey deliveryId) next := by
  match p with
  | .ask (.deleteOvertaken _ _ _) next =>
    cases h
    exact ⟨next, rfl⟩

/-- A program that is about to remove a row for a delivery. -/
def Removes (p : Prog RelayReply Unit) (db : RelayDb) (deliveryId : DeliveryId) (row : PendingRow) :
    Bool :=
  removal? p == some (7, "github-webhook:pr-push:o/r#1", deliveryId) &&
    db.isOvertaken 7 "github-webhook:pr-push:o/r#1" deliveryId row

theorem exists_removed {p : Prog RelayReply Unit} {db : RelayDb}
    (h : Removes p db deliveryId row = true) :
    ∃ next after, p = .ask (.deleteOvertaken 7 "github-webhook:pr-push:o/r#1" deliveryId) next ∧
      RelayDb.answers (fun _ => none) db
        (.deleteOvertaken 7 "github-webhook:pr-push:o/r#1" deliveryId) (.ok ()) after ∧
      row ∉ after.pending := by
  obtain ⟨hremoval, hovertaken⟩ := Bool.and_eq_true_iff.1 h
  obtain ⟨next, hp⟩ := removal?_eq_some (eq_of_beq hremoval)
  refine ⟨next, db.deleteOvertaken 7 _ deliveryId, hp, ⟨db.clock, le_rfl, Or.inl ⟨rfl, rfl⟩⟩, ?_⟩
  intro hmem
  have hstays := (Table.mem_deleteWhere.1 hmem).2
  rw [hovertaken] at hstays
  cases hstays

/-- **A retried push removes a newer one**: the first push is not forwarded, since the lookup of the
enrollment fails; the second one is queued, and removed when the failure is forwarded again. -/
theorem newest_stays_retried :
    ∃ trace pool db next after row,
      Interleaves (RelayDb.answers fun _ => none)
        (fun task => (pushTasks task).prog asciiKeyRuntime true twoPushes)
        emptyDb trace pool db ∧
      trace.map Prod.fst = [0, 0, 1, 1, 1, 1, 1, 1, 1, 2, 2, 2, 2, 2, 2, 2] ∧
      pool 2 = .ask (.deleteOvertaken 7 "github-webhook:pr-push:o/r#1" (.github "first")) next ∧
      RelayDb.answers (fun _ => none) db
        (.deleteOvertaken 7 "github-webhook:pr-push:o/r#1" (.github "first"))
        (.ok ()) after ∧
      row ∈ db.pending ∧ row.deliveryId = .github "second" ∧ row ∉ after.pending ∧
      ¬ GivesWayToNewer twoPushes (.github "first") db after := by
  have hplay : (play (fun found db => db.playCall (fun _ => none) (engineReplies found))
      ([0, 0].map (·, false) ++ [1, 1, 1, 1, 1, 1, 1, 2, 2, 2, 2, 2, 2, 2].map (·, true))
      (fun task => (pushTasks task).prog asciiKeyRuntime true twoPushes) emptyDb).any
          (fun (trace, pool, db) =>
        trace.map Prod.fst == [0, 0, 1, 1, 1, 1, 1, 1, 1, 2, 2, 2, 2, 2, 2, 2] &&
          db.pending.any fun row => row.deliveryId == .github "second" &&
            Removes (pool 2) db (.github "first") row)
      = true := by
    decide +kernel
  obtain ⟨⟨trace, pool, db⟩, hout, hcheck⟩ := (Option.any_eq_true _ _).1 hplay
  obtain ⟨htrace, hrows⟩ := Bool.and_eq_true_iff.1 hcheck
  obtain ⟨row, hrow, hcheck⟩ := any_eq_true.1 hrows
  obtain ⟨hid, hremoves⟩ := Bool.and_eq_true_iff.1 hcheck
  obtain ⟨next, after, hpool, hanswer, hgone⟩ := exists_removed hremoves
  refine ⟨trace, pool, db, next, after, row,
    interleaves_of_play (fun _ _ _ _ _ => answers_of_playCall) hout,
    eq_of_beq htrace, hpool, hanswer, hrow, eq_of_beq hid, hgone, ?_⟩
  intro hgives
  obtain ⟨kept, _, hkept, _, hlater⟩ := hgives row hrow hgone
  rw [eq_of_beq hid, hkept] at hlater
  exact absurd hlater (by decide)

instance (github : GithubDeliveries) (db : RelayDb) (row : NewPending) :
    Decidable (db.ComesInOrder github row) :=
  inferInstanceAs (Decidable (∀ other ∈ db.pending, SharesKey other.toNewPending row →
    github.NoLater other.deliveryId row.deliveryId))

instance (github : GithubDeliveries) (db : RelayDb) (call : RelayCall) :
    Decidable (db.InOrder github call) :=
  inferInstanceAs (Decidable (∀ row ∈ call.inserted?, db.hasDelivery row.deliveryId = false →
    db.ComesInOrder github row))

/-- A push that comes in order removes the one before it. -/
theorem newest_stays_pushed :
    ∃ trace pool db next after row,
      Interleaves (orderedAnswers twoPushes fun _ => none)
        (fun task => (pushTasks task).prog asciiKeyRuntime true twoPushes) emptyDb trace pool db ∧
      pool 1 = .ask (.deleteOvertaken 7 "github-webhook:pr-push:o/r#1" (.github "second")) next ∧
      row ∈ db.pending ∧ row.deliveryId = .github "first" ∧ row ∉ after.pending ∧
      db.Ordered twoPushes ∧ GivesWayToNewer twoPushes (.github "second") db after := by
  have hplay : (play (fun found db call =>
        if db.InOrder twoPushes call then db.playCall (fun _ => none) (engineReplies found) call
          else none)
      ([0, 0, 0, 0, 0, 0, 0, 1, 1, 1, 1].map (·, true))
      (fun task => (pushTasks task).prog asciiKeyRuntime true twoPushes) emptyDb).any
          (fun (_, pool, db) =>
        db.pending.any fun row => row.deliveryId == .github "first" &&
          Removes (pool 1) db (.github "second") row)
      = true := by
    decide +kernel
  obtain ⟨⟨trace, pool, db⟩, hout, hrows⟩ := (Option.any_eq_true _ _).1 hplay
  obtain ⟨row, hrow, hcheck⟩ := any_eq_true.1 hrows
  obtain ⟨hid, hremoves⟩ := Bool.and_eq_true_iff.1 hcheck
  obtain ⟨next, after, hpool, hanswer, hgone⟩ := exists_removed hremoves
  have hrun : Interleaves (orderedAnswers twoPushes fun _ => none)
      (fun task => (pushTasks task).prog asciiKeyRuntime true twoPushes) emptyDb trace pool db := by
    apply interleaves_of_play _ hout
    intro found db call reply after hreply
    split_ifs at hreply with horder
    exact ⟨horder, answers_of_playCall hreply⟩
  obtain ⟨hordered, hgives⟩ := newest_stays hrun
  exact ⟨trace, pool, db, next, after, row, hrun, hpool, hrow, eq_of_beq hid, hgone, hordered,
    hgives 1 7 _ _ next _ after hpool hanswer⟩

end LoopOver.Relay
