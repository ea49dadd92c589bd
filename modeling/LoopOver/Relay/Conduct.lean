import LoopOver.Relay.Forward
import Mathlib.Data.List.MinMax

/-!
# What the orb and its engines may call

What holds of the tables in every run, whatever the order of the steps. Rows come only from events
of GitHub and from config pushes, and an engine only acknowledges what it has taken.

* `RelayDb.effect` is what a call changes, if it takes effect: `answers_cases`.
* `Sound` is the invariant, and `Allows` says which calls keep it.
* `relayConduct` puts them together, and `prog_behaves` says that every task keeps to it.
-/

variable (guid : String)

namespace LoopOver.Relay

open Queue (JsonValue Payload KeyRuntime)
open List Script

/-! ## Effects -/

/-- What a call changes, if it takes effect. -/
def RelayDb.effect (db : RelayDb) : RelayCall → RelayDb
  | .deleteExpired => db.deleteExpired
  | .insertPending row => db.insertPending row
  | .deleteOvertaken installationId coalesceKey deliveryId =>
    db.deleteOvertaken installationId coalesceKey deliveryId
  | .deleteEvicted installationId => db.deleteEvicted installationId
  | .deleteAcked installationId enrollId ack => db.deleteAcked installationId enrollId ack
  | .insertFailure deliveryId eventName installationId rawBody =>
    db.insertFailure deliveryId eventName installationId rawBody
  | .deleteFailuresOver => db.deleteFailuresOver
  | .deleteFailure deliveryId => db.deleteFailure deliveryId
  | .recordRetry deliveryId => db.recordRetry deliveryId
  | .respond events => { db with responses := events :: db.responses }
  | .sendRequest request => { db with requests := request :: db.requests }
  | .enqueueWebhook secret deliveryId _ _ => { db with taken := (secret, deliveryId) :: db.taken }
  | .surfaceConfigPush secret deliveryId _ =>
    { db with surfaced := (secret, deliveryId) :: db.surfaced }
  | _ => db

section

variable {enrollmentOf : String → Option RelayEnrollment} {db after : RelayDb} {call : RelayCall}
  {reply : RelayReply call}

/-- What takes effect at once changes the tables or leaves them. -/
theorem serves_cases (h : RelayDb.serves enrollmentOf db call reply after) :
    after = db ∨ after = db.effect call := by
  cases call with
  | deleteExpired => exact h.cases
  | insertPending row => exact h.cases
  | deleteOvertaken installationId coalesceKey deliveryId => exact h.cases
  | deleteEvicted installationId => exact h.cases
  | deleteAcked installationId enrollId ack => exact h.cases
  | insertFailure deliveryId eventName installationId rawBody => exact h.cases
  | deleteFailuresOver => exact h.cases
  | deleteFailure deliveryId => exact h.cases
  | recordRetry deliveryId => exact h.cases
  | respond events => exact h.cases
  | sendRequest request => exact h.cases
  | selectPending installationId enrollId limit => exact Or.inl h.1
  | selectFailures => exact Or.inl h.1
  | validateOrbRelayEnrollment secret => exact Or.inl h.1
  | receiveEvents => exact Or.inl h.1
  | takeRequest => exact Or.inl h.2
  | enqueueWebhook secret deliveryId eventName rawBody =>
    by_cases htakes : Takes reply
    · exact Or.inr (h.trans (if_pos htakes))
    · exact Or.inl (h.trans (if_neg htakes))
  | surfaceConfigPush secret deliveryId rawBody =>
    by_cases hok : reply.isOk
    · exact Or.inr (h.trans (if_pos hok))
    · exact Or.inl (h.trans (if_neg hok))
  | sampleExpired => exact Or.inl h
  | sampleEvicted installationId => exact Or.inl h
  | sampleFailuresOver => exact Or.inl h
  | liveEnrollments installationId => exact Or.inl h
  | postRelay enrollment deliveryId eventName rawBody => exact Or.inl h

/-- A call takes effect at the time that it has become, or not at all. -/
theorem answers_cases (h : RelayDb.answers enrollmentOf db call reply after) :
    ∃ now, db.clock ≤ now ∧
      (after = { db with clock := now } ∨ after =
        RelayDb.effect { db with clock := now } call) := by
  obtain ⟨now, hnow, hserves⟩ := h
  exact ⟨now, hnow, serves_cases hserves⟩

end

/-! ## The invariant -/

variable {deliveryId : DeliveryId}

section Sound

variable (host : KeyRuntime) (github : GithubDeliveries)

/-- The rows that are inserted: an event of GitHub with an installation, or a config push. -/
inductive Filed : NewPending → Prop
  | webhook (guid : String) (installationId : ℕ) (enrollId : String)
      (hinstallation : truthyId (github.event guid).installationId = some installationId) :
      Filed (webhookRow host guid installationId (github.event guid).eventName
        (github.event guid).rawBody
        (some enrollId))
  | configPush (installationId : ℕ) (payload : ConfigPushPayload) :
      Filed (configPushRow installationId payload)

/-- An event is marked as a config push when it is one. -/
def OrbRelayEvent.IsMarked (ev : OrbRelayEvent) : Prop :=
  ev.kind = "config_push" ↔
    ∃ pushId installationId, ev.deliveryId = .configPush pushId installationId

/-- The engine with the secret took the delivery: it was enqueued locally, or surfaced if it is a
config push. -/
def RelayDb.HasTaken (db : RelayDb) (secret : String) : DeliveryId → Prop
  | .github guid => (secret, .github guid) ∈ db.taken
  | .configPush pushId installationId => (secret, .configPush pushId installationId) ∈ db.surfaced

/-- What holds of the tables in every run. -/
structure Sound (db : RelayDb) : Prop where
  filed : ∀ row ∈ db.pending, Filed host github row.toNewPending
  keys : (db.pending.map (·.deliveryId)).Nodup
  /-- The rows stand in the order in which they were inserted. -/
  order : db.pending.Pairwise fun a b => a.rowid < b.rowid ∧ a.arrival < b.arrival
  arrival_lt : ∀ row ∈ db.pending, row.arrival < db.arrivals
  failures : ∀ row ∈ db.failures, row.event = github.event row.deliveryId
  acked : ∀ pull ∈ db.requests, ∀ deliveryId ∈ pull.ack, db.HasTaken pull.secret deliveryId
  marked : ∀ events ∈ db.responses, ∀ ev ∈ events, ev.IsMarked

/-- What the steps of the others leave: what was taken and sent. -/
structure Grows (db db' : RelayDb) : Prop where
  taken : db.taken ⊆ db'.taken
  surfaced : db.surfaced ⊆ db'.surfaced
  requests : db.requests ⊆ db'.requests

/-- Which calls keep the invariant. -/
def Allows (enrollmentOf : String → Option RelayEnrollment) (db : RelayDb) : RelayCall → Prop
  | .insertPending row => Filed host github row
  | .deleteOvertaken installationId coalesceKey deliveryId =>
    ∃ guid, deliveryId = .github guid ∧
      truthyId (github.event guid).installationId = some installationId ∧
      relayPendingCoalesceKey host (github.event guid).eventName (github.event guid).rawBody =
        some coalesceKey
  | .deleteAcked installationId enrollId ack =>
    ∃ pull ∈ db.requests, ∃ enrollment, enrollmentOf pull.secret =
      some ⟨enrollment, installationId⟩ ∧
      enrollId = some enrollment ∧ ack ⊆ pull.ack
  | .insertFailure deliveryId eventName installationId rawBody =>
    ⟨eventName, some installationId, rawBody⟩ = github.event deliveryId
  | .respond events => ∀ ev ∈ events, ev.IsMarked
  | .sendRequest pull => ∀ deliveryId ∈ pull.ack, db.HasTaken pull.secret deliveryId
  | _ => True

variable {host github} {db db' : RelayDb} {call : RelayCall}

/-- A step that leaves them leaves the past. -/
theorem grows_of_eq (htaken : db'.taken = db.taken) (hsurfaced : db'.surfaced = db.surfaced)
    (hrequests : db'.requests = db.requests) : Grows db db' :=
  ⟨fun _ h => htaken ▸ h, fun _ h => hsurfaced ▸ h, fun _ h => hrequests ▸ h⟩

theorem Grows.rfl : Grows db db := ⟨List.Subset.refl _, List.Subset.refl _, List.Subset.refl _⟩

theorem Grows.trans {db'' : RelayDb} (h : Grows db db') (h' : Grows db' db'') : Grows db db'' :=
  ⟨List.Subset.trans h.taken h'.taken, List.Subset.trans h.surfaced h'.surfaced,
    List.Subset.trans h.requests h'.requests⟩

theorem Grows.hasTaken {secret : String} (h : Grows db db')
    (htaken : db.HasTaken secret deliveryId) : db'.HasTaken secret deliveryId := by
  cases deliveryId with
  | github guid => exact h.taken htaken
  | configPush pushId installationId => exact h.surfaced htaken

variable {row : NewPending}

theorem insertPending_of_new (h : db.hasDelivery row.deliveryId = false) :
    db.insertPending row =
      { db with
        pending := db.pending ++ [⟨row, db.nextRowid, db.clock, db.arrivals⟩]
        arrivals := db.arrivals + 1 } := by
  simp [RelayDb.insertPending, h]

theorem insertPending_of_known (h : db.hasDelivery row.deliveryId = true) :
    db.insertPending row = db := by
  simp [RelayDb.insertPending, h]

theorem hasDelivery_eq_false :
    db.hasDelivery deliveryId = false ↔ deliveryId ∉ db.pending.map (·.deliveryId) := by
  simp [RelayDb.hasDelivery]

/-- The next rowid is greater than all of the table. -/
theorem rowid_lt_next {row : PendingRow} (h : row ∈ db.pending) : row.rowid < db.nextRowid := by
  have hmem : row.rowid ∈ db.pending.map (·.rowid) := mem_map_of_mem h
  exact Nat.lt_succ_of_le (le_max_of_le' 0 hmem le_rfl)

/-- Every call lets the past be. -/
theorem grows_effect (db : RelayDb) (call : RelayCall) : Grows db (db.effect call) := by
  cases call with
  | sendRequest pull => exact ⟨List.Subset.refl _, List.Subset.refl _, subset_cons_self _ _⟩
  | enqueueWebhook secret deliveryId eventName rawBody =>
    exact ⟨subset_cons_self _ _, List.Subset.refl _, List.Subset.refl _⟩
  | surfaceConfigPush secret deliveryId rawBody =>
    exact ⟨List.Subset.refl _, subset_cons_self _ _, List.Subset.refl _⟩
  | insertPending row =>
    show Grows db (db.insertPending row)
    rw [RelayDb.insertPending]
    split_ifs <;> exact grows_of_eq (by rfl) (by rfl) (by rfl)
  | insertFailure deliveryId eventName installationId rawBody =>
    show Grows db (db.insertFailure deliveryId eventName installationId rawBody)
    rw [RelayDb.insertFailure]
    split_ifs <;> exact grows_of_eq (by rfl) (by rfl) (by rfl)
  | _ => exact grows_of_eq rfl rfl rfl

variable {enrollmentOf : String → Option RelayEnrollment}

theorem grows_answers {reply : RelayReply call}
    (h : RelayDb.answers enrollmentOf db call reply db') : Grows db db' := by
  obtain ⟨now, _, hafter⟩ := answers_cases h
  have hnow : Grows db { db with clock := now } := grows_of_eq rfl rfl rfl
  obtain rfl | rfl := hafter
  · exact hnow
  · exact hnow.trans (grows_effect _ call)

/-- A `DELETE` of pending rows keeps the invariant. -/
theorem Sound.deleteWhere (h : Sound host github db) (p : PendingRow → Bool) :
    Sound host github { db with pending := Table.deleteWhere p db.pending } where
  filed row hrow := h.filed row (Table.mem_deleteWhere.1 hrow).1
  keys := h.keys.sublist (Table.keys_deleteWhere _)
  order := h.order.sublist filter_sublist
  arrival_lt row hrow := h.arrival_lt row (Table.mem_deleteWhere.1 hrow).1
  failures := h.failures
  acked pull hpull deliveryId hmem := Grows.rfl.hasTaken (h.acked pull hpull deliveryId hmem)
  marked := h.marked

/-- An insert of a filed row keeps the invariant. -/
theorem Sound.insertPending (h : Sound host github db) (hrow : Filed host github row) :
    Sound host github (db.insertPending row) := by
  cases hknown : db.hasDelivery row.deliveryId with
  | true => rwa [insertPending_of_known hknown]
  | false =>
    rw [insertPending_of_new hknown]
    constructor
    · intro other hother
      obtain hold | rfl := mem_append.1 hother |>.imp_right mem_singleton.1
      · exact h.filed other hold
      · exact hrow
    · exact Table.nodup_keys_concat h.keys (hasDelivery_eq_false.1 hknown)
    · apply pairwise_append.2
      refine ⟨h.order, pairwise_singleton _ _, ?_⟩
      intro a ha b hb
      obtain rfl := mem_singleton.1 hb
      exact ⟨rowid_lt_next ha, h.arrival_lt a ha⟩
    · intro other hother
      obtain hold | rfl := mem_append.1 hother |>.imp_right mem_singleton.1
      · exact Nat.lt_succ_of_lt (h.arrival_lt other hold)
      · exact Nat.lt_succ_self _
    · exact h.failures
    · intro pull hpull deliveryId hmem
      exact (grows_of_eq rfl rfl rfl).hasTaken (h.acked pull hpull deliveryId hmem)
    · exact h.marked

/-- What changes only failures keeps the invariant, if they still are of events. -/
theorem Sound.ofFailures (h : Sound host github db) {failures : List FailureRow}
    (hfailures : ∀ row ∈ failures, row.event = github.event row.deliveryId) :
    Sound host github { db with failures := failures } where
  filed := h.filed
  keys := h.keys
  order := h.order
  arrival_lt := h.arrival_lt
  failures := hfailures
  acked pull hpull deliveryId hmem :=
    (grows_of_eq rfl rfl rfl).hasTaken (h.acked pull hpull deliveryId hmem)
  marked := h.marked

theorem Sound.deleteFailures (h : Sound host github db) (p : FailureRow → Bool) :
    Sound host github { db with failures := Table.deleteWhere p db.failures } :=
  h.ofFailures fun row hrow => h.failures row (Table.mem_deleteWhere.1 hrow).1

/-- Time passes. -/
theorem Sound.at (h : Sound host github db) (now : ℕ) : Sound host github { db with clock :=
  now } where
  filed := h.filed
  keys := h.keys
  order := h.order
  arrival_lt := h.arrival_lt
  failures := h.failures
  acked pull hpull deliveryId hmem :=
    (grows_of_eq rfl rfl rfl).hasTaken (h.acked pull hpull deliveryId hmem)
  marked := h.marked

/-- **An allowed call keeps the invariant.** -/
theorem Sound.effect (h : Sound host github db)
    (hallows : Allows host github enrollmentOf db call) : Sound host github (db.effect call) := by
  have hgrows := grows_effect db call
  cases call with
  | deleteExpired => exact h.deleteWhere _
  | insertPending row => exact h.insertPending hallows
  | deleteOvertaken installationId coalesceKey deliveryId => exact h.deleteWhere _
  | deleteEvicted installationId => exact h.deleteWhere _
  | deleteAcked installationId enrollId ack => exact h.deleteWhere _
  | insertFailure deliveryId eventName installationId rawBody =>
    show Sound host github (db.insertFailure deliveryId eventName installationId rawBody)
    rw [RelayDb.insertFailure]
    split_ifs
    · exact h
    · apply h.ofFailures
      intro row hrow
      obtain hold | rfl := mem_append.1 hrow |>.imp_right mem_singleton.1
      · exact h.failures row hold
      · exact hallows
  | deleteFailuresOver => exact h.deleteFailures _
  | deleteFailure deliveryId => exact h.deleteFailures _
  | recordRetry deliveryId =>
    apply h.ofFailures
    intro row hrow
    obtain ⟨old, hold, rfl⟩ := Table.mem_updateWhere.1 hrow
    split_ifs
    · exact h.failures old hold
    · exact h.failures old hold
  | respond events =>
    refine { h with
      acked := fun pull hpull id hmem => hgrows.hasTaken (h.acked pull hpull id hmem),
      marked := ?_ }
    intro sent hsent
    obtain rfl | hold := mem_cons.1 hsent
    · exact hallows
    · exact h.marked sent hold
  | sendRequest pull =>
    refine { h with acked := ?_ }
    intro sent hsent deliveryId hmem
    obtain rfl | hold := mem_cons.1 hsent
    · exact hgrows.hasTaken (hallows deliveryId hmem)
    · exact hgrows.hasTaken (h.acked sent hold deliveryId hmem)
  | enqueueWebhook secret deliveryId eventName rawBody =>
    exact { h with acked := fun pull hpull id hmem => hgrows.hasTaken (h.acked pull hpull id hmem) }
  | surfaceConfigPush secret deliveryId rawBody =>
    exact { h with acked := fun pull hpull id hmem => hgrows.hasTaken (h.acked pull hpull id hmem) }
  | _ => exact h

end Sound

/-! ## The conduct of the tasks -/

section Conduct

variable (host : KeyRuntime) (hasEncryptionSecret : Bool) (github : GithubDeliveries)
  (enrollmentOf : String → Option RelayEnrollment)

/-- The calls that the orb and its engines may make, and what they keep. -/
def relayConduct : Conduct RelayReply RelayDb where
  answers := RelayDb.answers enrollmentOf
  inv := Sound host github
  allowed := Allows host github enrollmentOf
  rely := Grows
  refl _ := Grows.rfl
  trans := Grows.trans
  step {db call reply after} hinv hallowed hanswer := by
    refine ⟨?_, grows_answers hanswer⟩
    obtain ⟨now, _, hafter⟩ := answers_cases hanswer
    have hallows : Allows host github enrollmentOf { db with clock := now } call := hallowed
    obtain rfl | rfl := hafter
    · exact hinv.at now
    · exact (hinv.at now).effect hallows

/-- The script may end in any way. -/
abbrev AnyEnd {σ α : Type} : Except String α → σ → RelayDb → Prop := fun _ _ _ => True

variable {host hasEncryptionSecret github enrollmentOf} {σ α β : Type} {s : σ} {db : RelayDb}
  {post : Except String α → σ → RelayDb → Prop}

variable {call : RelayCall}

/-- Make a call that is always allowed, and go on with its reply. -/
theorem behaves_call {f : RelayReply call → RelayScript σ α}
    (hallows : ∀ db₁, Grows db db₁ → Allows host github enrollmentOf db₁ call)
    (hnext : ∀ reply db₁, Grows db db₁ →
      (f reply).Behaves (relayConduct host github enrollmentOf) post s db₁) :
    (request call >>= f).Behaves (relayConduct host github enrollmentOf) post s db := by
  apply behaves_ask_bind
  intro db₁ hgrows _
  refine ⟨hallows db₁ hgrows, fun reply db₂ hanswer => hnext reply db₂ ?_⟩
  exact hgrows.trans (grows_answers hanswer)

variable {f : β → RelayScript σ α}

/-- Make a call that is always allowed; throw if it failed, or go on with its value. -/
theorem behaves_statement {result : RelayReply call → Except String β}
    (hallows : ∀ db₁, Grows db db₁ → Allows host github enrollmentOf db₁ call)
    (hthrow : ∀ e db₁, Grows db db₁ → post (.error e) s db₁)
    (hnext : ∀ value db₁, Grows db db₁ →
      (f value).Behaves (relayConduct host github enrollmentOf) post s db₁) :
    (request call >>= fun reply => ofExcept (result reply) >>= f).Behaves
      (relayConduct host github enrollmentOf) post s db := by
  apply behaves_call hallows
  intro reply db₁ hgrows
  apply behaves_ofExcept_bind
  · intro e _ db₂ hgrows₂ _
    exact hthrow e db₂ (hgrows.trans hgrows₂)
  · intro value _
    exact hnext value db₁ hgrows

/-- Make a call that is always allowed, and end with its value or its error. -/
theorem behaves_lastStatement {result : RelayReply call → Except String α}
    (hallows : ∀ db₁, Grows db db₁ → Allows host github enrollmentOf db₁ call)
    (hend : ∀ r db₁, Grows db db₁ → post r s db₁) :
    (request call >>= fun reply => ofExcept (result reply)).Behaves
      (relayConduct host github enrollmentOf) post s db := by
  apply behaves_call hallows
  intro reply db₁ hgrows
  exact behaves_ofExcept fun db₂ hgrows₂ _ => hend _ db₂ (hgrows.trans hgrows₂)

theorem pure_behaves (value : α) :
    (pure value : RelayScript σ α).Behaves (relayConduct host github enrollmentOf) AnyEnd s db :=
  behaves_pure fun _ _ _ => trivial

theorem pruneRelayPending_behaves :
    (pruneRelayPending : RelayScript σ Unit).Behaves (relayConduct host github enrollmentOf)
      AnyEnd s db := by
  apply behaves_statement
  · exact fun _ _ => trivial
  · exact fun _ _ _ => trivial
  intro _ db₁ _
  apply behaves_lastStatement
  · exact fun _ _ => trivial
  · exact fun _ _ _ => trivial

/-- Do something, and go on. -/
theorem behaves_then {p : RelayScript σ β}
    (h : p.Behaves (relayConduct host github enrollmentOf) AnyEnd s db)
    (hthrow : ∀ e s db, post (.error e) s db)
    (hnext : ∀ value s db₁, Grows db db₁ →
      (f value).Behaves (relayConduct host github enrollmentOf) post s db₁) :
    (p >>= f).Behaves (relayConduct host github enrollmentOf) post s db := by
  apply behaves_bind
  apply h.since.mono
  rintro r s₁ db₁ ⟨hgrows, _⟩
  cases r with
  | error e => exact fun db₂ _ _ => hthrow e s₁ db₂
  | ok value => exact hnext value s₁ db₁ hgrows

theorem behaves_runWhen {guard : Bool} {p : RelayScript σ Unit}
    (h : guard = true → p.Behaves (relayConduct host github enrollmentOf) AnyEnd s db) :
    (runWhen guard p).Behaves (relayConduct host github enrollmentOf) AnyEnd s db := by
  rw [runWhen]
  split_ifs with hguard
  · exact h hguard
  · exact pure_behaves ()

theorem tell_behaves (hallows : ∀ db₁, Grows db db₁ → Allows host github enrollmentOf db₁ call) :
    (Script.tell call : RelayScript σ Unit).Behaves (relayConduct host github enrollmentOf)
      AnyEnd s db := by
  apply behaves_call hallows
  intro _ db₁ _
  exact pure_behaves ()

/-! ### The orb -/

/-- The rows past the cap of an installation go. -/
theorem evict_behaves (installationId : ℕ) :
    (do
      ofExcept (← request (.sampleEvicted installationId))
      ofExcept (← request (.deleteEvicted installationId)) : RelayScript σ Unit).Behaves
        (relayConduct host github enrollmentOf) AnyEnd s db := by
  apply behaves_statement
  · exact fun _ _ => trivial
  · exact fun _ _ _ => trivial
  intro _ db₂ _
  apply behaves_lastStatement
  · exact fun _ _ => trivial
  · exact fun _ _ _ => trivial

/-- An event of GitHub is queued under its own key. -/
theorem enqueueRelayPending_behaves {guid : String} {installationId : ℕ} (enrollId : String)
    (hinstallation : truthyId (github.event guid).installationId = some installationId) :
    (enqueueRelayPending host guid installationId (github.event guid).eventName
      (github.event guid).rawBody
      (some enrollId) : RelayScript σ Unit).Behaves (relayConduct host github enrollmentOf)
        AnyEnd s db := by
  apply behaves_then pruneRelayPending_behaves (fun _ _ _ => trivial)
  intro _ s db₁ _
  apply behaves_statement
  · exact fun _ _ => .webhook guid installationId enrollId hinstallation
  · exact fun _ _ _ => trivial
  intro changes db₂ _
  cases hkey : truthy
    (relayPendingCoalesceKey host (github.event guid).eventName (github.event guid).rawBody) with
  | none => exact evict_behaves installationId
  | some key =>
    apply behaves_then _ (fun _ _ _ => trivial)
    · exact fun _ _ _ _ => evict_behaves installationId
    apply behaves_runWhen
    intro _
    apply behaves_lastStatement
    · exact fun _ _ => ⟨guid, rfl, hinstallation, (Option.filter_eq_some_iff.1 hkey).1⟩
    · exact fun _ _ _ => trivial

theorem enqueueConfigPushRelay_behaves (installationId : ℕ) (payload : ConfigPushPayload) :
    (enqueueConfigPushRelay installationId payload : RelayScript σ Unit).Behaves
      (relayConduct host github enrollmentOf) AnyEnd s db := by
  apply behaves_statement
  · exact fun _ _ => .configPush installationId payload
  · exact fun _ _ _ => trivial
  intro _ db₁ _
  apply behaves_lastStatement
  · exact fun _ _ => trivial
  · exact fun _ _ _ => trivial

/-- The event of a filed row is marked as what it is. -/
theorem marked_of_filed {row : PendingRow} (h : Filed host github row.toNewPending) :
    OrbRelayEvent.IsMarked ⟨row.deliveryId, row.eventName, row.rawBody, row.kind⟩ := by
  generalize hnew : row.toNewPending = new at h
  cases h with
  | webhook guid installationId enrollId hinstallation => simp [OrbRelayEvent.IsMarked, webhookRow]
  | configPush installationId payload => simp [OrbRelayEvent.IsMarked, configPushRow]

/-- An acknowledgement is that of a request, and the events of a pull are marked as what they
are. -/
theorem pullRelayPending_behaves {pull : PullRequest} {enrollment : RelayEnrollment}
    {limit : Option ℚ} (hpull : pull ∈ db.requests)
    (henrollment : enrollmentOf pull.secret = some enrollment) :
    (pullRelayPending enrollment.installationId pull.ack limit
      (some enrollment.enrollId) : RelayScript σ _).Behaves
      (relayConduct host github enrollmentOf)
      (fun r _ _ => ∀ events, r = .ok events → ∀ ev ∈ events, ev.IsMarked) s db := by
  have hthrow : ∀ (e : String) (events : List OrbRelayEvent), Except.error e = .ok events →
      ∀ ev ∈ events, ev.IsMarked := by
    intro e events h
    cases h
  apply behaves_then pruneRelayPending_behaves (fun e _ _ => hthrow e)
  intro _ s db₁ hgrows
  apply behaves_then _ (fun e _ _ => hthrow e)
  · intro _ s db₂ _
    apply behaves_ask_bind
    intro db₃ _ hsound
    refine ⟨trivial, fun reply db₄ hanswer => behaves_ofExcept fun _ _ _ => ?_⟩
    rintro events rfl ev hev
    obtain ⟨now, _, _, hevents⟩ := hanswer
    obtain rfl := hevents events rfl
    obtain ⟨row, hrow, rfl⟩ := mem_map.1 hev
    have hmem := mem_of_mem_take hrow
    rw [mem_insertionSort, mem_filter] at hmem
    exact marked_of_filed (hsound.filed row hmem.1)
  · apply behaves_runWhen
    intro _
    apply behaves_lastStatement
    · intro db₂ hgrows₂
      exact ⟨pull, (hgrows.trans hgrows₂).requests hpull, enrollment.enrollId, henrollment, rfl,
        take_subset _ _⟩
    · exact fun _ _ _ => trivial

theorem handlePull_behaves :
    (handlePull : RelayScript σ Unit).Behaves (relayConduct host github enrollmentOf)
      AnyEnd s db := by
  apply behaves_ask_bind
  intro db₁ _ _
  refine ⟨trivial, ?_⟩
  rintro pull db₂ ⟨now, _, hpull, rfl⟩
  apply behaves_ask_bind
  intro db₃ hgrows _
  refine ⟨trivial, ?_⟩
  rintro reply db₄ ⟨now₄, _, rfl, hreply⟩
  match reply, hreply with
  | .error e, _ => exact pure_behaves ()
  | .ok none, _ => exact pure_behaves ()
  | .ok (some enrollment), hreply =>
    apply behaves_attempt_bind
    have hsent : pull ∈ { db₃ with clock := now₄ }.requests := hgrows.requests hpull
    apply (pullRelayPending_behaves hsent (hreply (some enrollment) rfl enrollment rfl)).mono
    intro r s₁ db₅ hr
    cases r with
    | error e => exact pure_behaves ()
    | ok events => exact tell_behaves fun _ _ => hr events rfl

/-! ### Forwarding -/

theorem forwardToEnrollment_behaves {guid : String} {installationId : ℕ} (row : LiveEnrollment)
    (hinstallation : truthyId (github.event guid).installationId = some installationId) :
    (forwardToEnrollment host hasEncryptionSecret guid installationId (github.event guid) row :
      RelayScript σ _).Behaves (relayConduct host github enrollmentOf) AnyEnd s db := by
  rw [forwardToEnrollment]
  split_ifs
  · apply behaves_attempt_bind
    apply (enqueueRelayPending_behaves row.enrollId hinstallation).mono
    intro r s₁ db₁ _
    cases r with
    | error e => exact pure_behaves _
    | ok _ => exact pure_behaves _
  · exact pure_behaves _
  · apply behaves_call (fun _ _ => by trivial)
    intro reply db₁ _
    split <;> exact pure_behaves _

theorem forwardOrbEvent_behaves :
    (forwardOrbEvent host hasEncryptionSecret guid (github.event guid) : RelayScript σ _).Behaves
      (relayConduct host github enrollmentOf) AnyEnd s db := by
  rw [forwardOrbEvent]
  cases hinstallation : truthyId (github.event guid).installationId with
  | none => exact pure_behaves _
  | some installationId =>
    dsimp only
    split_ifs
    · apply behaves_call (fun _ _ => by trivial)
      intro reply db₁ _
      split
      · exact pure_behaves _
      · exact pure_behaves _
      · exact forwardToEnrollment_behaves _ hinstallation
    · exact pure_behaves _

/-- A failure is persisted as its event. -/
theorem persistRelayForwardOutcome_behaves (outcome : RelayForwardOutcome) :
    (persistRelayForwardOutcome guid (github.event guid) outcome : RelayScript σ Unit).Behaves
      (relayConduct host github enrollmentOf) AnyEnd s db := by
  apply behaves_runWhen
  intro hpersist
  apply behaves_lastStatement
  · intro _ _
    have hsome : (github.event guid).installationId.isSome := by
      simp only [shouldPersistRelayFailure, Bool.and_eq_true] at hpersist
      exact hpersist.1.1
    obtain ⟨installationId, hid⟩ := Option.isSome_iff_exists.1 hsome
    show (⟨_, some ((github.event guid).installationId.getD 0), _⟩ : RelayEvent) = _
    rw [hid, Option.getD_some, ← hid]
  · exact fun _ _ _ => trivial

theorem relayForward_behaves :
    (relayForward host hasEncryptionSecret guid (github.event guid) : RelayScript σ Unit).Behaves
      (relayConduct host github enrollmentOf) AnyEnd s db := by
  apply behaves_attempt_bind
  apply behaves_then (forwardOrbEvent_behaves guid) (fun _ _ _ => pure_behaves ())
  intro outcome s₁ db₁ _
  apply (persistRelayForwardOutcome_behaves guid outcome).mono
  intro _ s₂ db₂ _
  exact pure_behaves ()

theorem retryRow_behaves :
    (retryRow host hasEncryptionSecret guid (github.event guid) : RelayScript σ Unit).Behaves
      (relayConduct host github enrollmentOf) AnyEnd s db := by
  apply behaves_then (forwardOrbEvent_behaves guid) (fun _ _ _ => trivial)
  intro outcome s₁ db₁ _
  rw [finalizeRelayFailureRetryRow]
  split_ifs
  · exact tell_behaves fun _ _ => trivial
  · exact tell_behaves fun _ _ => trivial

theorem retryFailedRelays_behaves :
    (retryFailedRelays host hasEncryptionSecret : RelayScript σ Unit).Behaves
      (relayConduct host github enrollmentOf) AnyEnd s db := by
  apply behaves_statement
  · exact fun _ _ => trivial
  · exact fun _ _ _ => trivial
  intro _ db₁ _
  apply behaves_statement
  · exact fun _ _ => trivial
  · exact fun _ _ _ => trivial
  intro _ db₂ _
  apply behaves_ask_bind
  intro db₃ _ hsound
  refine ⟨trivial, fun reply db₄ hanswer => ?_⟩
  apply behaves_ofExcept_bind (fun _ _ _ _ _ => trivial)
  rintro rows rfl
  obtain ⟨now, _, _, hrows⟩ := hanswer
  obtain rfl := hrows rows rfl
  have hrows : ∀ row ∈ RelayDb.selectFailures { db₃ with clock := now }, ∀ s₁ db₅, True →
      (retryRow host hasEncryptionSecret row.deliveryId row.event).Behaves
        (relayConduct host github enrollmentOf)
        (fun _ (_ : σ) _ => True) s₁ db₅ := by
    intro row hrow s₁ db₅ _
    have hmem := mem_of_mem_take hrow
    rw [mem_insertionSort, mem_filter] at hmem
    have hevent : row.event = github.event row.deliveryId := hsound.failures row hmem.1
    rw [hevent]
    exact retryRow_behaves row.deliveryId
  exact behaves_forEach (fun _ _ _ _ _ => trivial) hrows trivial

/-! ### Engines -/

section Engine

variable {secret : String} {state : OrbRelayDrainState}

/-- The engine has taken all that it is about to acknowledge. -/
def HasTakenAll (secret : String) (state : OrbRelayDrainState) (db : RelayDb) : Prop :=
  ∀ deliveryId ∈ state.pendingAck, db.HasTaken secret deliveryId

theorem HasTakenAll.grows {db' : RelayDb} (h : HasTakenAll secret state db)
    (hgrows : Grows db db') :
    HasTakenAll secret state db' :=
  fun deliveryId hmem => hgrows.hasTaken (h deliveryId hmem)

theorem HasTakenAll.push (h : HasTakenAll secret state db)
    (htaken : db.HasTaken secret deliveryId) :
    HasTakenAll secret (pushAck deliveryId state) db := by
  intro other hother
  obtain hold | rfl := mem_append.1 hother |>.imp_right mem_singleton.1
  · exact h other hold
  · exact htaken

/-- A pull acknowledges what was taken, and its events are marked as what they are. -/
theorem drainOrbRelay_behaves (h : HasTakenAll secret state db) :
    (drainOrbRelay secret state.pendingAck).Behaves (relayConduct host github enrollmentOf)
      (fun r s _ => s = state ∧ ∀ events, r = .ok events →
        ∀ ev ∈ events, ev.IsMarked) state db := by
  apply behaves_statement
  · exact fun db₁ hgrows => h.grows hgrows
  · exact fun _ _ _ => ⟨rfl, nofun⟩
  intro _ db₁ _
  apply behaves_ask_bind
  intro db₂ _ hsound
  refine ⟨trivial, fun reply db₃ hanswer => behaves_ofExcept fun _ _ _ => ⟨rfl, ?_⟩⟩
  rintro events rfl
  obtain ⟨now, _, _, hevents⟩ := hanswer
  exact hsound.marked events (hevents events rfl)

/-- An event is acknowledged when it was taken. -/
theorem drainEvent_behaves {ev : OrbRelayEvent} (hmarked : ev.IsMarked)
    (h : HasTakenAll secret state db) :
    (drainEvent secret ev).Behaves (relayConduct host github enrollmentOf)
      (fun _ => HasTakenAll secret) state db := by
  have hskip : ∀ {db₁}, HasTakenAll secret state db₁ →
      (pure () : RelayScript OrbRelayDrainState Unit).Behaves
      (relayConduct host github enrollmentOf) (fun _ => HasTakenAll secret) state db₁ :=
    fun h₁ => behaves_pure fun _ hgrows _ => h₁.grows hgrows
  have hpush : ∀ {db₁}, HasTakenAll secret state db₁ → db₁.HasTaken secret ev.deliveryId →
      (Script.modify (pushAck ev.deliveryId) : RelayScript OrbRelayDrainState Unit).Behaves
        (relayConduct host github enrollmentOf) (fun _ => HasTakenAll secret) state db₁ :=
    fun h₁ htaken _ hgrows _ => (h₁.push htaken).grows hgrows
  rw [drainEvent]
  split_ifs with hkind
  · obtain ⟨pushId, installationId, hid⟩ := hmarked.1 hkind
    apply behaves_ask_bind
    intro db₁ hgrows _
    refine ⟨trivial, fun reply db₂ hanswer => ?_⟩
    have h₂ := h.grows (hgrows.trans (grows_answers hanswer))
    obtain ⟨now, _, rfl⟩ := hanswer
    match reply with
    | .error e => exact hskip h₂
    | .ok _ =>
      apply hpush h₂
      rw [hid]
      exact mem_cons_self
  · apply behaves_ask_bind
    intro db₁ hgrows _
    refine ⟨trivial, fun reply db₂ hanswer => ?_⟩
    have h₂ := h.grows (hgrows.trans (grows_answers hanswer))
    obtain ⟨now, _, hafter⟩ := hanswer
    match reply with
    | .error e => exact hskip h₂
    | .ok result =>
      dsimp only
      split_ifs with hresult
      · apply hpush h₂
        obtain rfl := hafter.trans (if_pos hresult)
        cases hid : ev.deliveryId with
        | github guid => exact mem_cons_self
        | configPush pushId installationId =>
          exact absurd (hmarked.2 ⟨pushId, installationId, hid⟩) hkind
      · exact hskip h₂

theorem drainOrbRelayWithMonitor_behaves (nowMs : ℚ) (h : HasTakenAll secret state db) :
    (drainOrbRelayWithMonitor secret nowMs).Behaves (relayConduct host github enrollmentOf)
      (fun _ => HasTakenAll secret) state db := by
  apply behaves_get_bind
  apply behaves_attempt_bind
  apply (drainOrbRelay_behaves h).since.mono
  rintro r s₁ db₁ ⟨hgrows, rfl, hevents⟩
  have h₁ := h.grows hgrows
  cases r with
  | error e =>
    apply behaves_modify_bind
    exact behaves_ofExcept fun _ hgrows₁ _ => HasTakenAll.grows h₁ hgrows₁
  | ok events =>
    apply behaves_modify_bind
    apply behaves_forEach
    · exact fun _ _ _ hgrows₁ h₁ => HasTakenAll.grows h₁ hgrows₁
    · exact fun ev hev _ _ h₂ => drainEvent_behaves (hevents events rfl ev hev) h₂
    · intro _ hmem
      cases hmem

theorem drainTicks_behaves {ticks : List ℚ} (h : HasTakenAll secret state db) :
    (drainTicks secret ticks).Behaves (relayConduct host github enrollmentOf) AnyEnd state db := by
  induction ticks generalizing state db with
  | nil => exact pure_behaves ()
  | cons nowMs later ih =>
    apply behaves_attempt_bind
    apply (drainOrbRelayWithMonitor_behaves nowMs h).mono
    intro _ s₁ db₁ h₁
    exact ih h₁

end Engine

/-! ### Tasks -/

theorem callsOf_behaves {script : RelayScript σ α}
    (h : script.Behaves (relayConduct host github enrollmentOf) AnyEnd s db) :
    (callsOf script s).Behaves (relayConduct host github enrollmentOf) (fun _ _ => True) db := by
  apply Prog.behaves_bind
  apply Prog.Behaves.mono h
  exact fun _ _ _ _ _ _ => trivial

/-- **Every task keeps to the conduct.** -/
theorem prog_behaves (task : RelayTask) :
    (task.prog host hasEncryptionSecret github).Behaves (relayConduct host github enrollmentOf)
      (fun _ _ => True)
      db := by
  cases task with
  | idle => exact fun _ _ _ => trivial
  | webhook guid => exact callsOf_behaves (relayForward_behaves guid)
  | retryTick => exact callsOf_behaves retryFailedRelays_behaves
  | retryRow guid => exact callsOf_behaves (retryRow_behaves guid)
  | prune => exact callsOf_behaves pruneRelayPending_behaves
  | configPush installationId payload =>
    exact callsOf_behaves (enqueueConfigPushRelay_behaves installationId payload)
  | pull => exact callsOf_behaves handlePull_behaves
  | engine secret ticks =>
    apply callsOf_behaves
    apply drainTicks_behaves
    intro _ hmem
    cases hmem

theorem sound_emptyDb : Sound host github emptyDb where
  filed _ h := by cases h
  keys := nodup_nil
  order := List.Pairwise.nil
  arrival_lt _ h := by cases h
  failures _ h := by cases h
  acked _ h := by cases h
  marked _ h := by cases h

end Conduct

/-! ## A host to play with -/

section Play

variable (enrollmentOf : String → Option RelayEnrollment)

/-- What is replied where nothing is known of the reply. -/
structure OpenReplies where
  liveEnrollments : Except String (List LiveEnrollment)
  enqueueWebhook : Except String EnqueueWebhookResult

/-- The reply of a host on which nothing else fails. -/
def RelayDb.reply? (replies : OpenReplies) (db : RelayDb) :
    (call : RelayCall) → Option (RelayReply call)
  | .sampleExpired | .deleteExpired | .deleteOvertaken .. | .sampleEvicted _ | .deleteEvicted _ |
    .deleteAcked ..
  | .insertFailure .. | .sampleFailuresOver | .deleteFailuresOver | .deleteFailure _ |
    .recordRetry _ | .respond _
  | .sendRequest _ | .surfaceConfigPush .. => some (.ok ())
  | .insertPending row => some (.ok (if db.hasDelivery row.deliveryId then 0 else 1))
  | .selectPending installationId enrollId limit =>
    some (.ok (db.selectPending installationId enrollId limit))
  | .receiveEvents => db.responses.head?.map .ok
  | .selectFailures => some (.ok db.selectFailures)
  | .liveEnrollments _ => some replies.liveEnrollments
  | .postRelay .. => some (.ok true)
  | .validateOrbRelayEnrollment secret => some (.ok (enrollmentOf secret))
  | .takeRequest => db.requests.head?
  | .enqueueWebhook .. => some replies.enqueueWebhook

/-- What the reply of a call leaves. -/
def RelayDb.after (db : RelayDb) : (call : RelayCall) → RelayReply call → RelayDb
  | .enqueueWebhook secret deliveryId eventName rawBody, reply =>
    if Takes reply then db.effect (.enqueueWebhook secret deliveryId eventName rawBody) else db
  | call, _ => db.effect call

def RelayDb.playCall (replies : OpenReplies) (db : RelayDb) (call : RelayCall) :
    Option (RelayReply call × RelayDb) :=
  (db.reply? enrollmentOf replies call).map fun reply => (reply, db.after call reply)

variable {enrollmentOf} {db after : RelayDb} {call : RelayCall} {reply : RelayReply call}

theorem answers_of_playCall {replies : OpenReplies}
    (h : db.playCall enrollmentOf replies call = some (reply, after)) :
    RelayDb.answers enrollmentOf db call reply after := by
  refine ⟨db.clock, le_rfl, ?_⟩
  obtain ⟨given, hgiven, hout⟩ := Option.map_eq_some_iff.1 h
  obtain ⟨rfl, rfl⟩ := Prod.mk.inj hout
  have hok : ∀ {α : Type} {effect : RelayDb} {value : α} {given : Except String α},
      some (.ok value) = some given →
      Outcome db effect value given effect :=
    fun h => Or.inl ⟨(Option.some.inj h).symm, rfl⟩
  have hread : ∀ {α : Type} {value : α} {given : Except String α} {holds : α → Prop}, holds value →
      some (.ok value) = some given → Reads db holds given db := by
    intro α value given holds hholds h
    obtain rfl := Option.some.inj h
    exact ⟨rfl, fun found hfound => Except.ok.inj hfound ▸ hholds⟩
  cases call with
  | deleteExpired => exact hok hgiven
  | insertPending row => exact hok hgiven
  | deleteOvertaken installationId coalesceKey deliveryId => exact hok hgiven
  | deleteEvicted installationId => exact hok hgiven
  | deleteAcked installationId enrollId ack => exact hok hgiven
  | insertFailure deliveryId eventName installationId rawBody => exact hok hgiven
  | deleteFailuresOver => exact hok hgiven
  | deleteFailure deliveryId => exact hok hgiven
  | recordRetry deliveryId => exact hok hgiven
  | respond events => exact hok hgiven
  | sendRequest pull => exact hok hgiven
  | selectPending installationId enrollId limit => exact hread rfl hgiven
  | selectFailures => exact hread rfl hgiven
  | validateOrbRelayEnrollment secret => exact hread (fun _ hfound => hfound) hgiven
  | takeRequest => exact ⟨mem_of_mem_head? hgiven, rfl⟩
  | receiveEvents =>
    obtain ⟨events, hevents, rfl⟩ := Option.map_eq_some_iff.1 hgiven
    exact hread (mem_of_mem_head? hevents) rfl
  | enqueueWebhook secret deliveryId eventName rawBody => rfl
  | surfaceConfigPush secret deliveryId rawBody =>
    obtain rfl := Option.some.inj hgiven
    rfl
  | _ => rfl

end Play

end LoopOver.Relay
