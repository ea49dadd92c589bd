import LoopOver.Foundations.Table
import LoopOver.Miner.Names
import Mathlib.Data.List.Infix

/-!
# The store of the portfolio queue

`packages/loopover-miner/lib/portfolio-queue.ts` keeps the miner's backlog in a table of SQLite, one
row for each forge host, repository and identifier. Every operation is one statement, except
`batchClaim`, which is a transaction around the caller's selector.

* The statements and the operations stand here under the names of the source; an operation returns
  its reply, which may be an error, and the rows it leaves.
* Times are milliseconds. The texts of a clock, up to the year 9999, sort and parse as those.
* `QueueOp.apply` is any of the operations, and `storeAfter` the rows after a sequence of them.
-/

namespace LoopOver.Portfolio

/-! ## Data -/

/-- Where an item stands. -/
inductive QueueStatus
  | queued
  | inProgress
  | done
  deriving DecidableEq

/-- The primary key of the table. -/
structure QueueKey where
  apiBaseUrl : String
  repoFullName : String
  identifier : String
  deriving DecidableEq

/-- An item, as callers see it. -/
structure QueueEntry extends QueueKey where
  priority : ℚ
  status : QueueStatus
  enqueuedAt : ℕ
  deriving DecidableEq

/-- A row of `miner_portfolio_queue`. -/
structure PortfolioQueueDbRow extends QueueEntry where
  leasedAt : Option ℕ
  attemptsCount : ℕ
  consecutiveFailures : ℕ
  reenqueueCount : ℕ
  rowid : ℕ
  deriving DecidableEq

/-- An item with the time of its lease. -/
structure QueueLeaseEntry extends QueueKey where
  status : QueueStatus
  leasedAt : Option ℕ
  deriving DecidableEq

/-- The arguments that name an item. -/
structure QueueTarget where
  apiBaseUrl : Untyped
  repoFullName : Untyped
  identifier : Untyped
  deriving DecidableEq

/-- What a caller enqueues. -/
structure EnqueueItem extends QueueTarget where
  priority : Untyped

abbrev Rows : Type := List PortfolioQueueDbRow

def rowToEntry (row : PortfolioQueueDbRow) : QueueEntry := row.toQueueEntry

def rowToLeaseEntry (row : PortfolioQueueDbRow) : QueueLeaseEntry :=
  ⟨row.toQueueKey, row.status, row.leasedAt⟩

/-! ## Arguments -/

/-- A text that is not blank and has no `::`, trimmed. -/
def normalizeIdentifier : Untyped → Except String String
  | .text identifier =>
    if trimText identifier = "" ∨
      [':', ':'] <:+: (trimText identifier).toList then .error "invalid_identifier"
    else .ok (trimText identifier)
  | _ => .error "invalid_identifier"

/-- No priority is zero, and none is negative. -/
def normalizePriority : Untyped → Except String ℚ
  | .undefined | .null => .ok 0
  | .number (.finite priority) => if priority < 0 then .error "invalid_priority" else .ok priority
  | _ => .error "invalid_priority"

/-- The three checks that every operation on an item starts with. -/
def normalizeKey (target : QueueTarget) : Except String QueueKey := do
  let apiBaseUrl ← normalizeApiBaseUrl target.apiBaseUrl
  let repoFullName ← normalizeRepoFullName target.repoFullName
  let identifier ← normalizeIdentifier target.identifier
  return ⟨apiBaseUrl, repoFullName, identifier⟩

/-- The arguments that name the item of a key. -/
def QueueKey.target (key : QueueKey) : QueueTarget :=
  ⟨.text key.apiBaseUrl, .text key.repoFullName, .text key.identifier⟩

/-- A key that the checks make. -/
structure AcceptedKey (key : QueueKey) : Prop where
  apiBaseUrl_ne : key.apiBaseUrl ≠ ""
  apiBaseUrl_trimmed : Trimmed key.apiBaseUrl.toList
  repoFullName : RepoName key.repoFullName
  identifier_ne : key.identifier ≠ ""
  identifier_trimmed : Trimmed key.identifier.toList
  identifier_separate : ¬[':', ':'] <:+: key.identifier.toList

section Arguments

variable {target : QueueTarget} {key : QueueKey} {argument : Untyped} {name : String}

theorem normalizeIdentifier_eq_ok (h : normalizeIdentifier argument = .ok name) :
    name ≠ "" ∧ Trimmed name.toList ∧ ¬[':', ':'] <:+: name.toList := by
  cases argument with
  | text text =>
    rw [normalizeIdentifier] at h
    split at h
    · cases h
    · next hnot =>
      obtain rfl := Except.ok.inj h
      rw [not_or] at hnot
      exact ⟨hnot.1, trimmed_trimText text, hnot.2⟩
  | _ => cases h

theorem normalizeKey_eq_ok :
    normalizeKey target = .ok key ↔ normalizeApiBaseUrl target.apiBaseUrl = .ok key.apiBaseUrl ∧
      normalizeRepoFullName target.repoFullName = .ok key.repoFullName ∧
      normalizeIdentifier target.identifier = .ok key.identifier := by
  unfold normalizeKey
  cases normalizeApiBaseUrl target.apiBaseUrl with
  | error e => simp [bind, Except.bind]
  | ok apiBaseUrl =>
    cases normalizeRepoFullName target.repoFullName with
    | error e => simp [bind, Except.bind]
    | ok repoFullName =>
      cases normalizeIdentifier target.identifier with
      | error e => simp [bind, Except.bind]
      | ok identifier =>
        cases key
        simp [bind, Except.bind, pure, Except.pure]

theorem acceptedKey_of_normalizeKey (h : normalizeKey target = .ok key) : AcceptedKey key := by
  obtain ⟨hapi, hrepo, hidentifier⟩ := normalizeKey_eq_ok.1 h
  obtain ⟨hne, htrimmed⟩ := normalizeApiBaseUrl_eq_ok hapi
  obtain ⟨hne', htrimmed', hseparate⟩ := normalizeIdentifier_eq_ok hidentifier
  exact ⟨hne, htrimmed, (normalizeRepoFullName_eq_ok.1 hrepo).1, hne', htrimmed', hseparate⟩

/-- A key is accepted again as it is. -/
theorem normalizeKey_target (h : AcceptedKey key) : normalizeKey key.target = .ok key := by
  rw [normalizeKey_eq_ok]
  refine ⟨normalizeApiBaseUrl_normal h.apiBaseUrl_ne h.apiBaseUrl_trimmed,
    normalizeRepoFullName_normal h.repoFullName, ?_⟩
  show normalizeIdentifier (.text key.identifier) = _
  rw [normalizeIdentifier, trimText_eq_self h.identifier_trimmed,
    if_neg (not_or.2 ⟨h.identifier_ne, h.identifier_separate⟩)]

end Arguments

/-! ## Statements -/

/-- `ORDER BY priority DESC, enqueued_at ASC, rowid ASC`. -/
def queueOrder (a b : PortfolioQueueDbRow) : Prop :=
  b.priority < a.priority ∨ a.priority = b.priority ∧
    (a.enqueuedAt < b.enqueuedAt ∨ a.enqueuedAt = b.enqueuedAt ∧ a.rowid ≤ b.rowid)

instance : DecidableRel queueOrder := fun _ _ => inferInstanceAs (Decidable (_ ∨ _))

def nextRowid (rows : Rows) : ℕ := (rows.map PortfolioQueueDbRow.rowid).foldr max 0 + 1

/-- Take a row in again, in its place. -/
def reactivate (priority : ℚ) (row : PortfolioQueueDbRow) : PortfolioQueueDbRow :=
  { row with priority := priority, status := .queued }

/-- An item that is there is queued again, unless it is leased. -/
def enqueueStatement (key : QueueKey) (priority : ℚ) (enqueuedAt : ℕ) (rows : Rows) : Rows :=
  if rows.any fun row => row.toQueueKey == key then
    Table.updateWhere (fun row => row.toQueueKey == key &&
      row.status != .inProgress) (reactivate priority) rows
  else rows ++ [⟨⟨key, priority, .queued, enqueuedAt⟩, none, 0, 0, 0, nextRowid rows⟩]

/-- A lease counts as an attempt. -/
def claimRow (leasedAt : ℕ) (row : PortfolioQueueDbRow) : PortfolioQueueDbRow :=
  { row with
    status := .inProgress, leasedAt := some leasedAt, attemptsCount := row.attemptsCount + 1 }

/-- The first queued row becomes the caller's. -/
def dequeueStatement (leasedAt : ℕ) (rows : Rows) : Option PortfolioQueueDbRow × Rows :=
  match Table.firstBy queueOrder (fun row => row.status == .queued) rows with
  | none => (none, rows)
  | some top => Table.updateReturning (fun row => row.rowid == top.rowid) (claimRow leasedAt) rows

/-- The update of one row, if its status allows it. -/
def transition (allowed : QueueStatus → Bool) (change : PortfolioQueueDbRow → PortfolioQueueDbRow)
    (key : QueueKey) (rows : Rows) : Option PortfolioQueueDbRow × Rows :=
  Table.updateReturning (fun row => row.toQueueKey == key && allowed row.status) change rows

/-- A success ends the run of failures. -/
def finishRow (row : PortfolioQueueDbRow) : PortfolioQueueDbRow :=
  { row with status := .done, leasedAt := none, consecutiveFailures := 0 }

/-- What is not done becomes done. -/
def markDoneStatement : QueueKey → Rows → Option PortfolioQueueDbRow × Rows :=
  transition (· != .done) finishRow

/-- A failure queues the item again. -/
def releaseRow (row : PortfolioQueueDbRow) : PortfolioQueueDbRow :=
  { row with
    status := .queued, leasedAt := none, consecutiveFailures := row.consecutiveFailures + 1
    reenqueueCount := row.reenqueueCount + 1 }

/-- Only a leased item fails. -/
def markFailedStatement : QueueKey → Rows → Option PortfolioQueueDbRow × Rows :=
  transition (· == .inProgress) releaseRow

/-- Only a leased item is reclaimed, and that is a failure. -/
def reclaimStatement : QueueKey → Rows → Option PortfolioQueueDbRow × Rows :=
  transition (· == .inProgress) releaseRow

/-- A finished item is queued again, with its history. -/
def reopenRow (row : PortfolioQueueDbRow) : PortfolioQueueDbRow :=
  { row with status := .queued, leasedAt := none }

/-- Only a finished item is opened again. -/
def requeueStatement : QueueKey → Rows → Option PortfolioQueueDbRow × Rows :=
  transition (· == .done) reopenRow

/-- Only a queued item is claimed. -/
def claimTargetStatement (leasedAt : ℕ) : QueueKey → Rows → Option PortfolioQueueDbRow × Rows :=
  transition (· == .queued) (claimRow leasedAt)

/-- What is not done, in the order of the queue. -/
def listActiveStatement (rows : Rows) : Rows :=
  (rows.filter fun row => row.status == .queued ||
    row.status == .inProgress).insertionSort queueOrder

/-- What is leased, in the order of the queue. -/
def listInProgressStatement (rows : Rows) : Rows :=
  (rows.filter fun row => row.status == .inProgress).insertionSort queueOrder

/-! ## Operations -/

/-- Nothing is stored where the item is refused. -/
def enqueue (item : EnqueueItem) (now : ℕ) (rows : Rows) :
    Except String (Option QueueEntry) × Rows :=
  match normalizeKey item.toQueueTarget, normalizePriority item.priority with
  | .error e, _ => (.error e, rows)
  | .ok _, .error e => (.error e, rows)
  | .ok key, .ok priority =>
    let rows := enqueueStatement key priority now rows
    (.ok ((rows.find? fun row => row.toQueueKey == key).map rowToEntry), rows)

/-- The first queued item is leased. -/
def dequeueNext (now : ℕ) (rows : Rows) : Except String (Option QueueEntry) × Rows :=
  (.ok ((dequeueStatement now rows).1.map rowToEntry), (dequeueStatement now rows).2)

def listInProgress (rows : Rows) : List QueueLeaseEntry :=
  (listInProgressStatement rows).map rowToLeaseEntry

/-- An operation that is one statement about one item. -/
def onItem (statement : QueueKey → Rows → Option PortfolioQueueDbRow × Rows) (target : QueueTarget)
    (rows : Rows) :
    Except String (Option QueueEntry) × Rows :=
  match normalizeKey target with
  | .error e => (.error e, rows)
  | .ok key => (.ok ((statement key rows).1.map rowToEntry), (statement key rows).2)

def reclaimStuckItem : QueueTarget → Rows → Except String (Option QueueEntry) × Rows :=
  onItem reclaimStatement

def requeueItem : QueueTarget → Rows → Except String (Option QueueEntry) × Rows :=
  onItem requeueStatement

def markDone : QueueTarget → Rows → Except String (Option QueueEntry) × Rows :=
  onItem markDoneStatement

def markFailed : QueueTarget → Rows → Except String (Option QueueEntry) × Rows :=
  onItem markFailedStatement

/-- What a selector makes of the active entries: it may throw, or return something that is no
array. -/
abbrev Selector : Type := List QueueEntry → Except String (Option (List QueueTarget))

/-- The loop of `batchClaim`, with the rows it leaves, also when it throws. -/
def claimTargets (leasedAt : ℕ) : List QueueTarget → Rows → Except String (List QueueEntry) × Rows
  | [], rows => (.ok [], rows)
  | target :: rest, rows =>
    match normalizeKey target with
    | .error e => (.error e, rows)
    | .ok key =>
      let (row, rows) := claimTargetStatement leasedAt key rows
      let (claimed, rows) := claimTargets leasedAt rest rows
      (claimed.map fun entries => row.toList.map rowToEntry ++ entries, rows)

/-- What throws inside the transaction rolls it back. -/
def batchClaim (selectFn : Option Selector) (now : ℕ) (rows : Rows) :
    Except String (List QueueEntry) × Rows :=
  match selectFn with
  | none => (.error "invalid_batch_claim_selector", rows)
  | some selectFn =>
    match selectFn ((listActiveStatement rows).map rowToEntry) with
    | .error e => (.error e, rows)
    | .ok none => (.error "invalid_batch_claim_selection", rows)
    | .ok (some targets) =>
      match claimTargets now targets rows with
      | (.error e, _) => (.error e, rows)
      | (.ok claimed, rows) => (.ok claimed, rows)

/-- The operations that change the store. -/
inductive QueueOp
  | enqueue (item : EnqueueItem)
  | dequeueNext
  | batchClaim (selectFn : Option Selector)
  | markDone (target : QueueTarget)
  | markFailed (target : QueueTarget)
  | reclaimStuckItem (target : QueueTarget)
  | requeueItem (target : QueueTarget)

/-- The operation at a time, with the entries that it returns. -/
def QueueOp.apply (now : ℕ) (rows : Rows) : QueueOp → Except String (List QueueEntry) × Rows
  | .enqueue item => (Portfolio.enqueue item now rows).map (Except.map Option.toList) id
  | .dequeueNext => (Portfolio.dequeueNext now rows).map (Except.map Option.toList) id
  | .batchClaim selectFn => Portfolio.batchClaim selectFn now rows
  | .markDone target => (Portfolio.markDone target rows).map (Except.map Option.toList) id
  | .markFailed target => (Portfolio.markFailed target rows).map (Except.map Option.toList) id
  | .reclaimStuckItem target =>
    (Portfolio.reclaimStuckItem target rows).map (Except.map Option.toList) id
  | .requeueItem target => (Portfolio.requeueItem target rows).map (Except.map Option.toList) id

/-- The rows after operations on the empty store, each at its time. -/
def storeAfter (history : List (ℕ × QueueOp)) : Rows :=
  history.foldl (fun rows op => (op.2.apply op.1 rows).2) []

end LoopOver.Portfolio
