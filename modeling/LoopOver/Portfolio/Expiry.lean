import LoopOver.Foundations.Runs
import LoopOver.Portfolio.Invariants

/-!
# Leases of the portfolio queue

`packages/loopover-miner/lib/portfolio-queue-expiry.ts` puts the items back whose lease is older
than a bound. The sweep lists the items in progress, decides, and then reclaims them one by one,
each in a statement of its own; other processes work on the same file in between.

* `step` is one step of any process: an operation of the store, or a step of a sweep.
  `run_sweepStuckItems` says that a sweep that nobody interrupts ends with what `sweepStuckItems`
  leaves.
* `ListedLease` is what the statement does not check: the row still has the lease that the sweep
  listed.
* **`fresh_lease_stays`**: in every run whose reclaims meet it, a sweep only puts back a row whose
  own lease is too old, and an item changes hands only when it was given up or its lease was too
  old.
* `fresh_lease_reclaimed`: without it, a sweep puts back a row that was claimed a moment before.
-/

namespace LoopOver.Portfolio

open List

/-! ## The sweep -/

/-- The age of a lease; a row without one has none. -/
def leaseAgeMs (item : QueueLeaseEntry) (nowMs : JsNumber) : Option JsNumber :=
  item.leasedAt.map fun leasedAt => nowMs.sub (.finite leasedAt)

/-- `Number.isFinite(value) && value >= 0`. -/
def isNonNegative : JsNumber → Bool
  | .finite value => 0 ≤ value
  | _ => false

def findStuckItems (items : List QueueLeaseEntry) (nowMs maxLeaseMs : JsNumber) :
    Except String (List QueueLeaseEntry) :=
  if !isNonNegative nowMs then .error "invalid_now_ms"
  else if !isNonNegative maxLeaseMs then .error "invalid_max_lease_ms"
  else .ok (items.filter fun item =>
    item.status == .inProgress && (leaseAgeMs item nowMs).all fun age => maxLeaseMs.lt age)

/-- The loop of the sweep. -/
def reclaimItems : List QueueLeaseEntry → Rows → Except String (List QueueEntry) × Rows
  | [], rows => (.ok [], rows)
  | item :: rest, rows =>
    match reclaimStuckItem item.target rows with
    | (.error e, rows) => (.error e, rows)
    | (.ok updated, rows) =>
      ((reclaimItems rest rows).1.map fun reclaimed => updated.toList ++ reclaimed,
        (reclaimItems rest rows).2)

def sweepStuckItems (nowMs maxLeaseMs : JsNumber) (rows : Rows) :
    Except String (List QueueEntry) × Rows :=
  match findStuckItems (listInProgress rows) nowMs maxLeaseMs with
  | .error e => (.error e, rows)
  | .ok stuck => reclaimItems stuck rows

/-! ## Sweeps among other processes -/

/-- A sweep under way: the time it was started, its bound, and the items it has left once it has
listed them. -/
structure Sweep where
  nowMs : ℕ
  maxLeaseMs : JsNumber
  stuck : Option (List QueueLeaseEntry)

/-- The file and the clock that the processes share, and their sweeps. -/
structure FleetState where
  now : ℕ
  rows : Rows
  sweeps : ℕ → Option Sweep

inductive Action
  | wait (ms : ℕ)
  | perform (op : QueueOp)
  | startSweep (sweeper : ℕ) (maxLeaseMs : JsNumber)
  | listStuck (sweeper : ℕ)
  | reclaimNext (sweeper : ℕ)

/-- A sweeper goes on with another sweep, or without one. -/
def FleetState.setSweep (s : FleetState) (sweeper : ℕ) (sweep : Option Sweep) : FleetState :=
  { s with sweeps := Function.update s.sweeps sweeper sweep }

/-- One step of one of the processes. A sweep that throws is over. -/
def step (s : FleetState) : Action → Option FleetState
  | .wait ms => some { s with now := s.now + ms }
  | .perform op => some { s with rows := (op.apply s.now s.rows).2 }
  | .startSweep sweeper maxLeaseMs => some (s.setSweep sweeper (some ⟨s.now, maxLeaseMs, none⟩))
  | .listStuck sweeper =>
    match s.sweeps sweeper with
    | some ⟨nowMs, maxLeaseMs, none⟩ =>
      match findStuckItems (listInProgress s.rows) (.finite nowMs) maxLeaseMs with
      | .error _ => some (s.setSweep sweeper none)
      | .ok stuck => some (s.setSweep sweeper (some ⟨nowMs, maxLeaseMs, some stuck⟩))
    | _ => none
  | .reclaimNext sweeper =>
    match s.sweeps sweeper with
    | some ⟨nowMs, maxLeaseMs, some (item :: rest)⟩ =>
      match reclaimStuckItem item.target s.rows with
      | (.error _, rows) => some ({ s with rows := rows }.setSweep sweeper none)
      | (.ok _, rows) =>
        some ({ s with rows := rows }.setSweep sweeper (some ⟨nowMs, maxLeaseMs, some rest⟩))
    | _ => none

/-- No items and no sweeps. -/
def emptyFleet : FleetState := ⟨0, [], fun _ => none⟩

/-- The row that the next reclaim of the sweep puts back. -/
def PutsBack (s : FleetState) (sweeper : ℕ) (sweep : Sweep) (row : PortfolioQueueDbRow) : Prop :=
  s.sweeps sweeper = some sweep ∧
    (∃ item rest, sweep.stuck = some (item :: rest) ∧ item.toQueueKey = row.toQueueKey) ∧
    row ∈ s.rows ∧ row.status = .inProgress

/-- The lease of the row is older than the bound of the sweep. -/
def LeaseExpired (s : FleetState) (maxLeaseMs : JsNumber) (row : PortfolioQueueDbRow) : Prop :=
  ∃ leasedAt, row.leasedAt = some leasedAt ∧ maxLeaseMs.lt (.finite (s.now - leasedAt)) = true

/-- The row that is about to be reclaimed still has the lease that the sweep listed. -/
def ListedLease (s : FleetState) : Action → Prop
  | .reclaimNext sweeper =>
    match s.sweeps sweeper with
    | some ⟨_, _, some (item :: _)⟩ =>
      ∀ row ∈ s.rows, row.toQueueKey = item.toQueueKey → row.status = .inProgress →
        row.leasedAt = item.leasedAt
    | _ => True
  | _ => True

instance (s : FleetState) (a : Action) : Decidable (ListedLease s a) := by
  unfold ListedLease
  split
  · split <;> infer_instance
  · infer_instance

/-- The operations with which an item in progress is given up. -/
def QueueOp.GivesUp (key : QueueKey) : QueueOp → Prop
  | .markDone target | .markFailed target | .reclaimStuckItem target =>
    normalizeKey target = .ok key
  | _ => False

/-- The item is in progress under the lease. -/
def HasLease (rows : Rows) (key : QueueKey) (leasedAt : ℕ) : Prop :=
  ∃ row ∈ rows, row.toQueueKey = key ∧ row.status = .inProgress ∧ row.leasedAt = some leasedAt

/-! ## What the steps keep -/

/-- Every item that a sweep has left was too old when it was listed. -/
structure FleetHolds (s : FleetState) : Prop where
  store : StoreHolds s.rows
  started : ∀ sweeper sweep, s.sweeps sweeper = some sweep → sweep.nowMs ≤ s.now
  stuck : ∀ sweeper sweep stuck, s.sweeps sweeper = some sweep → sweep.stuck = some stuck →
    ∀ item ∈ stuck,
    AcceptedKey item.toQueueKey ∧
      ∃ leasedAt, item.leasedAt = some leasedAt ∧
        sweep.maxLeaseMs.lt (.finite (sweep.nowMs - leasedAt)) = true

section Leases

variable {s s' : FleetState} {a : Action} {actions : List Action} {rows : Rows} {now : ℕ}
  {op : QueueOp}
  {row : PortfolioQueueDbRow} {sweeper : ℕ} {maxLeaseMs : JsNumber} {item : QueueLeaseEntry}

theorem lt_finite_mono {a b : ℚ} (hab : a ≤ b) (h : maxLeaseMs.lt (.finite a) = true) :
    maxLeaseMs.lt (.finite b) = true := by
  cases maxLeaseMs with
  | finite bound =>
    rw [JsNumber.lt, decide_eq_true_iff] at h ⊢
    exact h.trans_le hab
  | infinite negative => cases negative <;> exact h
  | nan => exact h

/-- What a sweep finds in the table: rows in progress whose lease is too old. -/
theorem findStuckItems_mem {nowMs : ℕ} {stuck : List QueueLeaseEntry} (hrows : StoreHolds rows)
    (hfound : findStuckItems (listInProgress rows) (.finite nowMs) maxLeaseMs = .ok stuck)
    (hitem : item ∈ stuck) :
    AcceptedKey item.toQueueKey ∧
      ∃ leasedAt, item.leasedAt = some leasedAt ∧
        maxLeaseMs.lt (.finite (nowMs - leasedAt)) = true := by
  unfold findStuckItems at hfound
  split at hfound
  · cases hfound
  split at hfound
  · cases hfound
  obtain rfl := Except.ok.inj hfound
  obtain ⟨hlisted, hstuck⟩ := mem_filter.1 hitem
  obtain ⟨row, hrow, rfl⟩ := mem_map.1 hlisted
  rw [listInProgressStatement, mem_insertionSort, mem_filter] at hrow
  refine ⟨hrows.accepted row hrow.1, ?_⟩
  have hleased := (hrows.row row hrow.1).leased_iff.2 (beq_iff_eq.1 hrow.2)
  obtain ⟨leasedAt, hleasedAt⟩ := Option.ne_none_iff_exists'.1 hleased
  have hage := (Bool.and_eq_true_iff.1 hstuck).2
  simp only [leaseAgeMs, rowToLeaseEntry, hleasedAt] at hage
  refine ⟨leasedAt, hleasedAt, ?_⟩
  simpa [JsNumber.sub, JsNumber.add, sub_eq_add_neg] using hage

/-- The statement of a reclaim is the operation of the store. -/
theorem reclaim_holds (hrows : StoreHolds rows) (target : QueueTarget) :
    StoreHolds (reclaimStuckItem target rows).2 := by
  have hstepped : Stepped 0 rows (reclaimStuckItem target rows).2 :=
    apply_stepped hrows.keys hrows.rowids (.reclaimStuckItem target)
  exact hstepped.holds hrows

theorem setSweep_sweeps {sweep : Option Sweep} {other : ℕ} {found : Sweep}
    (h : (s.setSweep sweeper sweep).sweeps other = some found) :
    (other = sweeper ∧ sweep = some found) ∨ s.sweeps other = some found := by
  by_cases hother : other = sweeper
  · subst hother
    left
    exact ⟨rfl, by simpa [FleetState.setSweep] using h⟩
  · right
    simpa [FleetState.setSweep, Function.update_of_ne hother] using h

/-- A sweep that is set is in order, and so are the others. -/
theorem FleetHolds.setSweep (h : FleetHolds s) (hrows : StoreHolds rows) {sweep : Option Sweep}
    (hstarted : ∀ found, sweep = some found → found.nowMs ≤ s.now)
    (hstuck : ∀ found stuck, sweep = some found → found.stuck = some stuck → ∀ item ∈ stuck,
      AcceptedKey item.toQueueKey ∧
        ∃ leasedAt, item.leasedAt = some leasedAt ∧
          found.maxLeaseMs.lt (.finite (found.nowMs - leasedAt)) = true) :
    FleetHolds ({ s with rows := rows }.setSweep sweeper sweep) := by
  refine ⟨hrows, fun other found hfound => ?_, fun other found stuck hfound => ?_⟩
  · obtain ⟨_, hsweep⟩ | hold := setSweep_sweeps hfound
    · exact hstarted found hsweep
    · exact h.started other found hold
  · obtain ⟨_, hsweep⟩ | hold := setSweep_sweeps hfound
    · exact hstuck found stuck hsweep
    · exact h.stuck other found stuck hold

theorem FleetHolds.setSweep_none (h : FleetHolds s) (hrows : StoreHolds rows) :
    FleetHolds ({ s with rows := rows }.setSweep sweeper none) :=
  h.setSweep hrows nofun nofun

/-- A sweep lists what is stuck, or it is over. -/
theorem listStuck_cases (hstep : step s (.listStuck sweeper) = some s') :
    ∃ nowMs maxLeaseMs sweep, s.sweeps sweeper = some ⟨nowMs, maxLeaseMs, none⟩ ∧
      (sweep = none ∨
        ∃ stuck, findStuckItems (listInProgress s.rows) (.finite nowMs) maxLeaseMs = .ok stuck ∧
        sweep = some ⟨nowMs, maxLeaseMs, some stuck⟩) ∧
      s' = s.setSweep sweeper sweep := by
  simp only [step] at hstep
  split at hstep
  · next nowMs maxLeaseMs hsweep =>
    split at hstep
    · exact ⟨nowMs, maxLeaseMs, none, hsweep, .inl rfl, (Option.some.inj hstep).symm⟩
    · next stuck hstuck =>
      exact ⟨nowMs, maxLeaseMs, _, hsweep, .inr ⟨stuck, hstuck, rfl⟩, (Option.some.inj hstep).symm⟩
  · cases hstep

/-- A sweep reclaims the first item that it has left, and it goes on or is over. -/
theorem reclaimNext_cases (hstep : step s (.reclaimNext sweeper) = some s') :
    ∃ nowMs maxLeaseMs item rest sweep, s.sweeps sweeper =
      some ⟨nowMs, maxLeaseMs, some (item :: rest)⟩ ∧
      (sweep = none ∨ sweep = some ⟨nowMs, maxLeaseMs, some rest⟩) ∧
      s' = { s with rows := (reclaimStuckItem item.target s.rows).2 }.setSweep sweeper sweep := by
  simp only [step] at hstep
  split at hstep
  · next nowMs maxLeaseMs item rest hsweep =>
    split at hstep
    · next rows hreclaim =>
      refine ⟨nowMs, maxLeaseMs, item, rest, none, hsweep, .inl rfl, ?_⟩
      rw [hreclaim]
      exact (Option.some.inj hstep).symm
    · next rows hreclaim =>
      refine ⟨nowMs, maxLeaseMs, item, rest, _, hsweep, .inr rfl, ?_⟩
      rw [hreclaim]
      exact (Option.some.inj hstep).symm
  · cases hstep

theorem emptyFleet_holds : FleetHolds emptyFleet := by
  refine ⟨storeAfter_holds [], fun sweeper sweep h => ?_, fun sweeper sweep stuck h => ?_⟩
  · cases h
  · cases h

theorem step_holds (h : FleetHolds s) (hstep : step s a = some s') : FleetHolds s' := by
  cases a with
  | wait ms =>
    obtain rfl := Option.some.inj hstep
    refine ⟨h.store, fun sweeper sweep hsweep => ?_, h.stuck⟩
    exact (h.started sweeper sweep hsweep).trans (Nat.le_add_right _ _)
  | perform op =>
    obtain rfl := Option.some.inj hstep
    exact ⟨(apply_stepped h.store.keys h.store.rowids op).holds h.store, h.started, h.stuck⟩
  | startSweep sweeper maxLeaseMs =>
    obtain rfl := Option.some.inj hstep
    apply h.setSweep h.store
    · rintro found hfound
      obtain rfl := Option.some.inj hfound
      exact Nat.le_refl _
    · rintro found stuck hfound hstuck
      obtain rfl := Option.some.inj hfound
      cases hstuck
  | listStuck sweeper =>
    obtain ⟨nowMs, maxLeaseMs, next, hsweep, hnext, rfl⟩ := listStuck_cases hstep
    rcases hnext with rfl | ⟨stuck, hstuck, rfl⟩
    · exact h.setSweep_none h.store
    · apply h.setSweep h.store
      · rintro found hfound
        obtain rfl := Option.some.inj hfound
        have hstarted : nowMs ≤ s.now := h.started sweeper _ hsweep
        exact hstarted
      · rintro found stuck' hfound hstuck' item hitem
        obtain rfl := Option.some.inj hfound
        obtain rfl := Option.some.inj hstuck'
        exact findStuckItems_mem h.store hstuck hitem
  | reclaimNext sweeper =>
    obtain ⟨nowMs, maxLeaseMs, item, rest, next, hsweep, hnext, rfl⟩ := reclaimNext_cases hstep
    have hrows := reclaim_holds h.store item.target
    rcases hnext with rfl | rfl
    · exact h.setSweep_none hrows
    · apply h.setSweep hrows
      · rintro found hfound
        obtain rfl := Option.some.inj hfound
        have hstarted : nowMs ≤ s.now := h.started sweeper _ hsweep
        exact hstarted
      · rintro found stuck hfound hstuck other hother
        obtain rfl := Option.some.inj hfound
        obtain rfl := Option.some.inj hstuck
        exact h.stuck sweeper _ _ hsweep rfl other (mem_cons_of_mem item hother)

/-- A reclaim that meets the condition puts back a row whose lease is too old. -/
theorem leaseExpired_of_putsBack (h : FleetHolds s) (hlisted : ListedLease s (.reclaimNext sweeper))
    {sweep : Sweep} (hputs : PutsBack s sweeper sweep row) :
    LeaseExpired s sweep.maxLeaseMs row := by
  obtain ⟨hsweep, ⟨item, rest, hstuck, hkey⟩, hrow, hstatus⟩ := hputs
  obtain ⟨nowMs, maxLeaseMs, stuck⟩ := sweep
  obtain rfl : stuck = some (item :: rest) := hstuck
  simp only [ListedLease, hsweep] at hlisted
  obtain ⟨_, leasedAt, hleasedAt, hold⟩ := h.stuck sweeper _ _ hsweep rfl item mem_cons_self
  refine ⟨leasedAt, (hlisted row hrow hkey.symm hstatus).trans hleasedAt, lt_finite_mono ?_ hold⟩
  have hstarted : nowMs ≤ s.now := h.started sweeper _ hsweep
  have hcast : (nowMs : ℚ) ≤ s.now := Nat.cast_le.2 hstarted
  exact sub_le_sub_right hcast _

/-! ### Who holds an item -/

variable {change : PortfolioQueueDbRow → PortfolioQueueDbRow} {allowed : QueueStatus → Bool}

theorem mem_transition {key : QueueKey} (hrow : row ∈ rows)
    (hnot : ¬(row.toQueueKey = key ∧ allowed row.status = true)) :
    row ∈ (transition allowed change key rows).2 := by
  have hmem := Table.mem_updateWhere_of_mem (fun row => row.toQueueKey == key &&
    allowed row.status) change hrow
  rwa [if_neg] at hmem
  rw [Bool.and_eq_true, beq_iff_eq]
  exact hnot

theorem mem_onItem {target : QueueTarget} (hrow : row ∈ rows)
    (hnot : ¬(normalizeKey target = .ok row.toQueueKey ∧ allowed row.status = true)) :
    row ∈ (onItem (transition allowed change) target rows).2 := by
  unfold onItem
  cases hkey : normalizeKey target with
  | error e => exact hrow
  | ok key =>
    apply mem_transition hrow
    rintro ⟨rfl, hallowed⟩
    exact hnot ⟨hkey, hallowed⟩

theorem Claims.mem_of_inProgress {rows' : Rows} {returned : List QueueEntry}
    (h : Claims now rows rows' returned) (hrows : StoreHolds rows) (hrow : row ∈ rows)
    (hstatus : row.status = .inProgress) : row ∈ rows' := by
  rw [h.rows_eq]
  refine mem_map.2 ⟨row, hrow, if_neg fun hmem => ?_⟩
  have hqueued := h.queued hrows.keys hrow hmem
  rw [hstatus] at hqueued
  cases hqueued

/-- An item in progress stays as it is until it is given up. -/
theorem mem_apply_of_inProgress (hrows : StoreHolds rows) (hrow : row ∈ rows)
    (hstatus : row.status = .inProgress) (hnot : ¬op.GivesUp row.toQueueKey) :
    row ∈ (op.apply now rows).2 := by
  cases op with
  | enqueue item =>
    show row ∈ (enqueue item now rows).2
    unfold enqueue
    split
    · exact hrow
    · exact hrow
    · next key priority _ _ =>
      show row ∈ enqueueStatement key priority now rows
      unfold enqueueStatement
      split
      · have hmem := Table.mem_updateWhere_of_mem
          (fun row => row.toQueueKey == key && row.status != .inProgress) (reactivate priority) hrow
        rwa [if_neg (by simp [hstatus])] at hmem
      · exact mem_append_left _ hrow
  | dequeueNext =>
    exact (claims_dequeue hrows.keys hrows.rowids).mem_of_inProgress hrows hrow hstatus
  | batchClaim selectFn =>
    obtain ⟨hsame, _⟩ | ⟨targets, returned, hresult, _⟩ := batchClaim_cases selectFn now rows
    · show row ∈ (batchClaim selectFn now rows).2
      rwa [hsame]
    · exact (claims_claimTargets hrows.keys hresult).mem_of_inProgress hrows hrow hstatus
  | markDone target => exact mem_onItem hrow fun hboth => hnot hboth.1
  | markFailed target => exact mem_onItem hrow fun hboth => hnot hboth.1
  | reclaimStuckItem target => exact mem_onItem hrow fun hboth => hnot hboth.1
  | requeueItem target =>
    apply mem_onItem hrow
    rintro ⟨_, hdone⟩
    rw [hstatus] at hdone
    cases hdone

/-- A step by which a lease ends. -/
theorem step_ends_lease {key : QueueKey} {leasedAt : ℕ} (h : FleetHolds s)
    (hlisted : ListedLease s a) (hstep : step s a = some s') (hlease : HasLease s.rows key leasedAt)
    (hended : ¬HasLease s'.rows key leasedAt) :
    (∃ op, a = .perform op ∧ op.GivesUp key) ∨
      ∃ sweeper sweep, a = .reclaimNext sweeper ∧ s.sweeps sweeper = some sweep ∧
        sweep.maxLeaseMs.lt (.finite (s.now - leasedAt)) = true := by
  obtain ⟨row, hrow, rfl, hstatus, hleasedAt⟩ := hlease
  have hgone : row ∉ s'.rows := fun hmem => hended ⟨row, hmem, rfl, hstatus, hleasedAt⟩
  cases a with
  | wait ms =>
    obtain rfl := Option.some.inj hstep
    exact absurd hrow hgone
  | perform op =>
    obtain rfl := Option.some.inj hstep
    left
    refine ⟨op, rfl, ?_⟩
    by_contra hnot
    exact hgone (mem_apply_of_inProgress h.store hrow hstatus hnot)
  | startSweep sweeper maxLeaseMs =>
    obtain rfl := Option.some.inj hstep
    exact absurd hrow hgone
  | listStuck sweeper =>
    obtain ⟨_, _, _, _, _, rfl⟩ := listStuck_cases hstep
    exact absurd hrow hgone
  | reclaimNext sweeper =>
    right
    obtain ⟨nowMs, maxLeaseMs, item, rest, _, hsweep, _, rfl⟩ := reclaimNext_cases hstep
    have haccepted := (h.stuck sweeper _ _ hsweep rfl item mem_cons_self).1
    have hkey : item.toQueueKey = row.toQueueKey := by
      by_contra hne
      apply hgone
      apply mem_onItem hrow
      rintro ⟨hnormal, _⟩
      rw [normalizeKey_target haccepted] at hnormal
      exact hne (Except.ok.inj hnormal)
    refine ⟨sweeper, _, rfl, hsweep, ?_⟩
    obtain ⟨leasedAt', hleasedAt', hexpired⟩ := leaseExpired_of_putsBack h hlisted
      ⟨hsweep, ⟨item, rest, rfl, hkey⟩, hrow, hstatus⟩
    rw [hleasedAt, Option.some.injEq] at hleasedAt'
    rwa [hleasedAt']

/-- The sweep has no step left. -/
def SweepOver (s : FleetState) (sweeper : ℕ) : Prop :=
  step s (.listStuck sweeper) = none ∧ step s (.reclaimNext sweeper) = none

theorem sweepOver_setSweep_none : SweepOver (s.setSweep sweeper none) sweeper := by
  simp [SweepOver, step, FleetState.setSweep]

/-- The steps of the loop, when nobody interrupts it, until no item is left. -/
theorem run_reclaimItems (items : List QueueLeaseEntry) {nowMs : ℕ}
    (hsweep : s.sweeps sweeper = some ⟨nowMs, maxLeaseMs, some items⟩) :
    ∃ n s', Runs.run step s (List.replicate n (.reclaimNext sweeper)) = some s' ∧
      SweepOver s' sweeper ∧ s'.now = s.now ∧ s'.rows = (reclaimItems items s.rows).2 := by
  induction items generalizing s with
  | nil => exact ⟨0, s, rfl, by simp [SweepOver, step, hsweep], rfl, rfl⟩
  | cons item rest ih =>
    cases hreclaim : reclaimStuckItem item.target s.rows with
    | mk reply rows =>
      cases reply with
      | error e =>
        refine ⟨1, { s with rows := rows }.setSweep sweeper none, ?_,
          sweepOver_setSweep_none, rfl, ?_⟩
        · simp [Runs.run, step, hsweep, hreclaim]
        · simp [FleetState.setSweep, reclaimItems, hreclaim]
      | ok updated =>
        obtain ⟨n, s', hrun, hover, hnow, hrows⟩ :=
          ih (s := { s with rows := rows }.setSweep sweeper (some ⟨nowMs, maxLeaseMs, some rest⟩))
            (by simp [FleetState.setSweep])
        refine ⟨n + 1, s', ?_, hover, hnow, ?_⟩
        · rw [replicate_succ, Runs.run_cons]
          refine ⟨_, ?_, hrun⟩
          simp [step, hsweep, hreclaim]
        · rw [hrows, reclaimItems, hreclaim]
          rfl

/-- **A sweep that nobody interrupts** ends, and it is `sweepStuckItems`. -/
theorem run_sweepStuckItems (s : FleetState) (sweeper : ℕ) (maxLeaseMs : JsNumber) :
    ∃ n s', Runs.run step s (.startSweep sweeper maxLeaseMs :: .listStuck sweeper ::
        List.replicate n (.reclaimNext sweeper)) = some s' ∧
      SweepOver s' sweeper ∧ s'.now = s.now ∧
      s'.rows = (sweepStuckItems (.finite s.now) maxLeaseMs s.rows).2 := by
  unfold sweepStuckItems
  cases hfound : findStuckItems (listInProgress s.rows) (.finite s.now) maxLeaseMs with
  | error e =>
    refine ⟨0, (s.setSweep sweeper (some ⟨s.now, maxLeaseMs, none⟩)).setSweep sweeper none, ?_,
      sweepOver_setSweep_none, rfl, rfl⟩
    simp [Runs.run, step, FleetState.setSweep, hfound]
  | ok stuck =>
    have hlisted : ((s.setSweep sweeper (some ⟨s.now, maxLeaseMs, none⟩)).setSweep sweeper
        (some ⟨s.now, maxLeaseMs, some stuck⟩)).sweeps sweeper =
          some ⟨s.now, maxLeaseMs, some stuck⟩ := by
      simp [FleetState.setSweep]
    obtain ⟨n, s', hrun, hover, hnow, hrows⟩ := run_reclaimItems stuck hlisted
    refine ⟨n, s', ?_, hover, hnow, hrows⟩
    rw [Runs.run_cons]
    refine ⟨_, rfl, Runs.run_cons.2 ⟨_, ?_, hrun⟩⟩
    simp [step, FleetState.setSweep, hfound]

end Leases

/-- **A fresh lease stays**: in every run whose reclaims find the lease that was listed, a sweep
puts a row back only if its own lease is older than the bound, and a lease ends only when the item
is given up or the lease is too old. -/
theorem fresh_lease_stays {actions : List Action} {s : FleetState}
    (hrun : Runs.run step emptyFleet actions = some s)
    (hall : Runs.AllSteps step ListedLease emptyFleet actions) :
    (∀ before after sweeper sweep row,
      Runs.Occurs step emptyFleet actions before (.reclaimNext sweeper) after →
      PutsBack before sweeper sweep row → LeaseExpired before sweep.maxLeaseMs row) ∧
    ∀ front mid back s₁ s₂ key leasedAt, actions = front ++ mid ++ back →
      Runs.run step emptyFleet front = some s₁ → Runs.run step s₁ mid = some s₂ →
      HasLease s₁.rows key leasedAt → ¬HasLease s₂.rows key leasedAt →
      ∃ before a after, Runs.Occurs step s₁ mid before a after ∧ HasLease before.rows key leasedAt ∧
        ((∃ op, a = .perform op ∧ op.GivesUp key) ∨
          ∃ sweeper sweep, a = .reclaimNext sweeper ∧ before.sweeps sweeper = some sweep ∧
            sweep.maxLeaseMs.lt (.finite (before.now - leasedAt)) = true) := by
  have hholds : ∀ {actions s}, Runs.run step emptyFleet actions = some s → FleetHolds s :=
    fun hrun => Runs.run_invariant step_holds hrun emptyFleet_holds
  refine ⟨fun before after sweeper sweep row hoccurs hputs => ?_, ?_⟩
  · obtain ⟨front, hfront, _, hlisted⟩ := Runs.run_of_occurs hall hoccurs
    exact leaseExpired_of_putsBack (hholds hfront) hlisted hputs
  · rintro front mid back s₁ s₂ key leasedAt rfl hfront hmid hlease hended
    obtain ⟨before, a, after, hoccurs, hbefore, hafter, _, hreached, hlisted, hstep⟩ :=
      Runs.exists_leaving_within (P := fun s => HasLease s.rows key leasedAt) hall hfront hmid
        hlease hended
    exact ⟨before, a, after, hoccurs, hbefore,
      step_ends_lease (hholds hreached) hlisted hstep hbefore hafter⟩

/-- An item of the default forge. -/
def sampleItem (identifier : String) : EnqueueItem :=
  ⟨⟨.undefined, .text "acme/web", .text identifier⟩, .undefined⟩

/-- Two sweepers with different bounds. Between the reclaims of the first item and of the second,
the first one is claimed again. -/
def sampleSweeps : List Action :=
  [.wait 100, .startSweep 0 50, .startSweep 1 20, .wait 5, .listStuck 0, .reclaimNext 0,
    .listStuck 1,
    .perform .dequeueNext, .reclaimNext 1]

/-- Two items in progress, the second one claimed later. -/
def sampleClaims : List Action :=
  [.perform (.enqueue (sampleItem "42")), .perform (.enqueue (sampleItem "43")),
    .perform .dequeueNext, .wait 70, .perform .dequeueNext]

theorem fresh_lease_stays_sample : ∃ s s', Runs.run step emptyFleet sampleClaims = some s ∧
    Runs.run step s sampleSweeps = some s' ∧
    (∀ before after sweeper sweep row,
      Runs.Occurs step emptyFleet (sampleClaims ++ sampleSweeps) before
        (.reclaimNext sweeper) after →
      PutsBack before sweeper sweep row → LeaseExpired before sweep.maxLeaseMs row) ∧
    ∃ row ∈ s.rows, row.identifier = "43" ∧ ∃ before a after,
      Runs.Occurs step s sampleSweeps before a after ∧
      HasLease before.rows row.toQueueKey 70 ∧
        ((∃ op, a = .perform op ∧ op.GivesUp row.toQueueKey) ∨
        ∃ sweeper sweep, a = .reclaimNext sweeper ∧ before.sweeps sweeper = some sweep ∧
          sweep.maxLeaseMs.lt (.finite (before.now - (70 : ℕ))) = true) := by
  have hcheck : (Runs.run step emptyFleet sampleClaims).any
      (fun s => (Runs.run step s sampleSweeps).any fun s' =>
      decide (∃ row ∈ s.rows, row.identifier = "43" ∧
        (∃ row' ∈ s.rows, row'.toQueueKey = row.toQueueKey ∧ row'.status = .inProgress ∧
          row'.leasedAt = some 70) ∧
        ¬∃ row' ∈ s'.rows, row'.toQueueKey = row.toQueueKey ∧ row'.status = .inProgress ∧
          row'.leasedAt = some 70)) = true := by
    decide +kernel
  obtain ⟨s, hs, hrest⟩ := (Option.any_eq_true _ _).1 hcheck
  obtain ⟨s', hs', hleases⟩ := (Option.any_eq_true _ _).1 hrest
  obtain ⟨hputs, hends⟩ := fresh_lease_stays (Runs.run_append.2 ⟨s, hs, hs'⟩) (by decide +kernel)
  obtain ⟨row, hrow, hsecond, hheld, hended⟩ := of_decide_eq_true hleases
  refine ⟨s, s', hs, hs', hputs, row, hrow, hsecond, ?_⟩
  exact hends sampleClaims sampleSweeps [] s s' _ 70 (append_nil _).symm hs hs' hheld hended

/-- **A fresh lease is reclaimed**: two sweepers list the item, the first one puts it back, it is
claimed again, and the second one takes it from its new owner at once. -/
theorem fresh_lease_reclaimed : ∃ actions s before after sweep row,
    Runs.run step emptyFleet actions = some s ∧
      Runs.Occurs step emptyFleet actions before (.reclaimNext 1) after ∧
      PutsBack before 1 sweep row ∧ ¬LeaseExpired before sweep.maxLeaseMs row := by
  have hcheck : (Runs.run step emptyFleet [.perform (.enqueue (sampleItem "42")),
      .perform .dequeueNext, .wait 100,
      .startSweep 0 50, .startSweep 1 50, .listStuck 0, .listStuck 1, .reclaimNext 0,
        .perform .dequeueNext]).any
      (fun before => decide ((∃ after ∈ step before (.reclaimNext 1), True) ∧
        ∃ sweep ∈ before.sweeps 1,
        ∃ stuck ∈ sweep.stuck, ∃ item ∈ stuck.head?, ∃ row ∈ before.rows,
          item.toQueueKey = row.toQueueKey ∧
          row.status = .inProgress ∧ ¬∃ leasedAt ∈ row.leasedAt,
            sweep.maxLeaseMs.lt (.finite (before.now - leasedAt)) = true)) = true := by
    decide +kernel
  obtain ⟨before, hbefore, hcheck⟩ := (Option.any_eq_true _ _).1 hcheck
  obtain ⟨⟨after, hafter, _⟩, sweep, hsweep, stuck, hstuck, item, hitem, row, hrow, hkey,
      hstatus, hfresh⟩ :=
    of_decide_eq_true hcheck
  obtain ⟨rest, rfl⟩ := List.head?_eq_some_iff.1 hitem
  refine ⟨_ ++ [.reclaimNext 1], after, before, after, sweep, row,
    Runs.run_concat.2 ⟨before, hbefore, hafter⟩,
    ⟨_, [], rfl, hbefore, hafter⟩, ⟨hsweep, ⟨item, rest, hstuck, hkey⟩, hrow, hstatus⟩, hfresh⟩

end LoopOver.Portfolio
