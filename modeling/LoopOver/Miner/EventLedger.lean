import LoopOver.Foundations.Runs
import LoopOver.Foundations.Table
import LoopOver.Miner.Names
import Mathlib.Data.List.MinMax
import Mathlib.Logic.Function.Basic

/-!
# The event ledger

`packages/loopover-miner/lib/event-ledger.ts` keeps the events of the miner's loop in one table. An
event gets a `seq` that is one more than the greatest of the table, and a reader asks for the events
after the greatest `seq` that it has seen. Besides `appendEvent`, two operations of
`store-maintenance.ts` delete rows: the retention of a ledger, by age and by number, and the purge
of a repository.

* `nextSeq` depends on the rows that are there, and so does the order of the events.
* `seqs_append`: what an append adds to the seqs that were assigned.
* **`cursor_misses_nothing_iff`**: the seqs increase and no reader misses an event exactly in the
  runs in which the newest event is there at every append.
* `cursor_misses_event` is a run in which a purge takes it away.
-/

namespace LoopOver.EventLedger

open List

/-! ## Data -/

/-- What the ledger uses of its host, for payloads of type `π`. -/
structure LedgerHost (π : Type) where
  /-- `new Date(ms).toISOString()`, which throws where there is no such date. -/
  toISOString : JsNumber → Option String
  /-- An object that is no array. -/
  isRecord : π → Bool
  /-- `JSON.stringify`, which throws on a cycle. -/
  stringify : π → Option String
  parse : String → π
  isDeepStrictEqual : π → π → Bool

/-- A row of `miner_event_ledger`. -/
structure EventDbRow where
  id : ℕ
  seq : ℕ
  eventType : String
  repoFullName : Option String
  payloadJson : String
  createdAt : String
  deriving DecidableEq

structure LedgerEntry (π : Type) where
  id : ℕ
  seq : ℕ
  type : String
  repoFullName : Option String
  payload : π
  createdAt : String

structure AppendEventInput (π : Type) where
  type : Untyped
  repoFullName : Untyped
  payload : π

/-- What a reader asks for. -/
structure ReadEventsFilter where
  repoFullName : Untyped
  since : Untyped

structure LedgerRetentionPolicy where
  maxAgeMs : Option JsNumber
  maxRows : Option JsNumber

/-- The table, with the last id that was given out. -/
structure EventTable where
  rows : List EventDbRow
  lastId : ℕ

variable {π : Type} (host : LedgerHost π)

/-! ## Arguments -/

def normalizeEventType : Untyped → Except String String
  | .text type => if trimText type = "" then .error "invalid_event_type" else .ok (trimText type)
  | _ => .error "invalid_event_type"

def normalizeOptionalRepoFullName : Untyped → Except String (Option String)
  | .undefined | .null => .ok none
  | repoFullName => (normalizeRepoFullName repoFullName).map some

def normalizeOptionalSince : Untyped → Except String (Option ℕ)
  | .undefined | .null => .ok none
  | .number (.finite since) =>
    if since.den = 1 ∧ 0 ≤ since then .ok (some since.num.toNat) else .error "invalid_since"
  | _ => .error "invalid_since"

def serializePayload (payload : π) : Except String String :=
  if !host.isRecord payload then .error "invalid_payload"
  else
    match host.stringify payload with
    | none => .error "invalid_payload"
    | some json =>
      if host.isDeepStrictEqual (host.parse json) payload then .ok json
        else .error "invalid_payload"

/-- What `appendEvent` checks before it begins: the row, but for its id and its seq. -/
def prepareEvent (event : AppendEventInput π) (createdAt : String) : Except String EventDbRow := do
  let type ← normalizeEventType event.type
  let repoFullName ← normalizeOptionalRepoFullName event.repoFullName
  let payloadJson ← serializePayload host event.payload
  return ⟨0, 0, type, repoFullName, payloadJson, createdAt⟩

def rowToEntry (row : EventDbRow) : LedgerEntry π :=
  ⟨row.id, row.seq, row.eventType, row.repoFullName, host.parse row.payloadJson, row.createdAt⟩

/-! ## Operations -/

/-- `COALESCE(MAX(seq), 0)`. -/
def latestSeq (table : EventTable) : ℕ := (table.rows.map fun row => row.seq).foldr max 0

def nextSeq (table : EventTable) : ℕ := latestSeq table + 1

/-- The transaction of an append. -/
def appendRow (prepared : EventDbRow) (table : EventTable) : EventTable :=
  ⟨table.rows ++ [{ prepared with id := table.lastId + 1, seq := nextSeq table }], table.lastId + 1⟩

def appendEvent (event : AppendEventInput π) (createdAt : String) (table : EventTable) :
    Except String (LedgerEntry π) × EventTable :=
  match prepareEvent host event createdAt with
  | .error e => (.error e, table)
  | .ok prepared =>
    (.ok (rowToEntry host { prepared with id := table.lastId + 1, seq := nextSeq table }),
      appendRow prepared table)

def readEvents (filter : ReadEventsFilter) (table : EventTable) :
    Except String (List (LedgerEntry π)) := do
  let repoFullName ← normalizeOptionalRepoFullName filter.repoFullName
  let since ← normalizeOptionalSince filter.since
  let read := table.rows.filter fun row =>
    repoFullName.all (fun repo => row.repoFullName == some repo) &&
      since.all (fun seq => seq < row.seq)
  return (read.insertionSort fun a b => a.seq ≤ b.seq).map (rowToEntry host)

def purgeByRepo (repoFullName : Untyped) (table : EventTable) : Except String ℕ × EventTable :=
  match normalizeOptionalRepoFullName repoFullName with
  | .error e => (.error e, table)
  | .ok none => (.error "invalid_repo_full_name", table)
  | .ok (some normalized) =>
    (.ok (table.rows.countP fun row => row.repoFullName == some normalized),
      { table with
        rows := Table.deleteWhere (fun row => row.repoFullName == some normalized) table.rows })

/-- The bound on the age; a date that is out of range throws. -/
def pruneByAge (policy : LedgerRetentionPolicy) (nowMs : JsNumber) (rows : List EventDbRow) :
    Option (List EventDbRow) :=
  match policy.maxAgeMs.filter fun maxAgeMs => JsNumber.lt 0 maxAgeMs with
  | none => some rows
  | some maxAgeMs =>
    (host.toISOString (nowMs.sub maxAgeMs)).map fun cutoff =>
      Table.deleteWhere (fun row => decide (row.createdAt < cutoff)) rows

/-- The ids of the newest rows. -/
def newestIds (maxRows : ℕ) (rows : List EventDbRow) : List ℕ :=
  ((rows.map fun row => row.id).insertionSort fun a b => b ≤ a).take maxRows

/-- The bound on the number of rows; SQLite takes no other limit than an integer. -/
def pruneByCount (policy : LedgerRetentionPolicy) (rows : List EventDbRow) :
    Option (List EventDbRow) :=
  match policy.maxRows.filter fun maxRows => JsNumber.le 1 maxRows with
  | none => some rows
  | some (.finite maxRows) =>
    if maxRows.den = 1 ∧ maxRows < 2 ^ 63 then
      some (Table.deleteWhere (fun row => !(newestIds maxRows.num.toNat rows).contains row.id) rows)
    else none
  | some _ => none

/-- The retention of the ledger; a throw rolls both deletions back. -/
def pruneLedgerByRetention (policy : Option LedgerRetentionPolicy) (nowMs : JsNumber)
    (table : EventTable) :
    EventTable :=
  match policy with
  | none => table
  | some policy =>
    match (pruneByAge host policy nowMs table.rows).bind (pruneByCount policy) with
    | none => table
    | some rows => { table with rows := rows }

/-! ## The processes -/

/-- A reader: the cursor it polls with, and the last id there was when it last looked. -/
structure Reader where
  since : ℕ
  lastId : ℕ

/-- The table, the seqs that were assigned so far, and the readers. -/
structure LedgerState where
  table : EventTable
  assigned : List ℕ
  readers : ℕ → Option Reader

/-- What the writers and readers of one ledger do. -/
inductive Action (π : Type)
  | appendEvent (event : AppendEventInput π) (createdAt : String)
  | purgeByRepo (repoFullName : Untyped)
  | prune (policy : Option LedgerRetentionPolicy) (nowMs : JsNumber)
  /-- A reader starts at `latestSeq`. -/
  | prime (reader : ℕ)
  | poll (reader : ℕ)

/-- The filter of a poll. -/
def sinceFilter (since : ℕ) : ReadEventsFilter := ⟨.undefined, .number (.finite since)⟩

/-- The greatest seq that a reader has seen after a poll. -/
def advanceCursor (since : ℕ) (events : List (LedgerEntry π)) : ℕ :=
  (events.map fun event => event.seq).foldr max since

def step (s : LedgerState) : Action π → Option LedgerState
  | .appendEvent event createdAt =>
    let (answer, table) := EventLedger.appendEvent host event createdAt s.table
    match answer with
    | .error _ => some { s with table := table }
    | .ok entry => some { s with table := table, assigned := s.assigned ++ [entry.seq] }
  | .purgeByRepo repoFullName =>
    some { s with table := (EventLedger.purgeByRepo repoFullName s.table).2 }
  | .prune policy nowMs => some { s with table := pruneLedgerByRetention host policy nowMs s.table }
  | .prime reader =>
    some { s with
      readers := Function.update s.readers reader (some ⟨latestSeq s.table, s.table.lastId⟩) }
  | .poll reader =>
    match s.readers reader with
    | none => none
    | some cursor =>
      match readEvents host (sinceFilter cursor.since) s.table with
      | .error _ => some s
      | .ok events =>
        some { s with
          readers := Function.update s.readers reader
            (some ⟨advanceCursor cursor.since events, s.table.lastId⟩) }

def emptyLedger : LedgerState := ⟨⟨[], 0⟩, [], fun _ => none⟩

/-- Every event that the run appends gets a seq above those that were assigned before. -/
def SeqsIncrease (actions : List (Action π)) : Prop :=
  ∀ before after event createdAt entry,
    Runs.Occurs (step host) emptyLedger actions before (.appendEvent event createdAt) after →
    (appendEvent host event createdAt before.table).1 = .ok entry →
      ∀ seq ∈ before.assigned, seq < entry.seq

/-- Every poll of the run gives its reader all events that were appended since it last looked, and
still exist. -/
def ReadersMissNothing (actions : List (Action π)) : Prop :=
  ∀ before after reader cursor,
    Runs.Occurs (step host) emptyLedger actions before (.poll reader) after →
    before.readers reader = some cursor →
    ∃ events, readEvents host (sinceFilter cursor.since) before.table = .ok events ∧
      ∀ row ∈ before.table.rows, cursor.lastId < row.id → rowToEntry host row ∈ events

/-- Where the action appends an event, the one with the greatest seq so far has not been deleted. -/
def NewestKept (s : LedgerState) : Action π → Prop
  | .appendEvent event createdAt =>
    ∀ prepared, prepareEvent host event createdAt = .ok prepared →
      ∀ seq ∈ s.assigned, ∃ row ∈ s.table.rows, seq ≤ row.seq
  | _ => True

/-! ## Seqs -/

section Seqs

variable {table : EventTable} {row : EventDbRow} {host : LedgerHost π} {event : AppendEventInput π}
  {createdAt : String}

theorem foldr_max_mem (b : ℕ) (l : List ℕ) : l.foldr max b = b ∨ l.foldr max b ∈ l := by
  induction l with
  | nil => exact Or.inl rfl
  | cons a l ih =>
    rw [foldr_cons]
    rcases max_cases a (l.foldr max b) with ⟨heq, _⟩ | ⟨heq, _⟩
    · rw [heq]
      exact Or.inr mem_cons_self
    · rw [heq]
      exact ih.imp_right (mem_cons_of_mem a)

theorem seq_le_latestSeq (hrow : row ∈ table.rows) : row.seq ≤ latestSeq table :=
  le_max_of_le' 0 (mem_map_of_mem (f := fun row => row.seq) hrow) le_rfl

theorem latestSeq_cases (table : EventTable) :
    latestSeq table = 0 ∨ ∃ row ∈ table.rows, row.seq = latestSeq table :=
  (foldr_max_mem 0 _).imp_right mem_map.1

/-- **What an append does**: it fails, or it assigns the next seq to a new row. -/
theorem appendEvent_cases (host : LedgerHost π) (event : AppendEventInput π) (createdAt : String)
    (table : EventTable) :
    (∃ e, prepareEvent host event createdAt = .error e ∧
      appendEvent host event createdAt table = (.error e, table)) ∨
      ∃ prepared entry, prepareEvent host event createdAt = .ok prepared ∧
        entry.seq = nextSeq table ∧
        appendEvent host event createdAt table = (.ok entry, appendRow prepared table) := by
  unfold appendEvent
  cases prepareEvent host event createdAt with
  | error e => exact Or.inl ⟨e, rfl, rfl⟩
  | ok prepared => exact Or.inr ⟨prepared, _, rfl, rfl, rfl⟩

theorem mem_purgeByRepo {repoFullName : Untyped}
    (hrow : row ∈ (purgeByRepo repoFullName table).2.rows) :
    row ∈ table.rows := by
  unfold purgeByRepo at hrow
  split at hrow
  · exact hrow
  · exact hrow
  · exact (Table.mem_deleteWhere.1 hrow).1

theorem lastId_purgeByRepo (repoFullName : Untyped) (table : EventTable) :
    (purgeByRepo repoFullName table).2.lastId = table.lastId := by
  unfold purgeByRepo
  split <;> rfl

variable {policy : LedgerRetentionPolicy} {rows rows' : List EventDbRow}

theorem pruneByAge_subset {nowMs : JsNumber}
    (h : pruneByAge host policy nowMs rows = some rows') : rows' ⊆ rows := by
  unfold pruneByAge at h
  split at h
  · obtain rfl := Option.some.inj h
    exact List.Subset.refl _
  · obtain ⟨cutoff, _, rfl⟩ := Option.map_eq_some_iff.1 h
    exact fun row hrow => (Table.mem_deleteWhere.1 hrow).1

theorem pruneByCount_subset (h : pruneByCount policy rows = some rows') : rows' ⊆ rows := by
  unfold pruneByCount at h
  split at h
  · obtain rfl := Option.some.inj h
    exact List.Subset.refl _
  · split at h
    · obtain rfl := Option.some.inj h
      exact fun row hrow => (Table.mem_deleteWhere.1 hrow).1
    · cases h
  · cases h

theorem mem_pruneLedgerByRetention {policy : Option LedgerRetentionPolicy} {nowMs : JsNumber}
    (hrow : row ∈ (pruneLedgerByRetention host policy nowMs table).rows) : row ∈ table.rows := by
  unfold pruneLedgerByRetention at hrow
  split at hrow
  · exact hrow
  · split at hrow
    · exact hrow
    · next rows hrows =>
      obtain ⟨aged, haged, hcounted⟩ := Option.bind_eq_some_iff.1 hrows
      exact pruneByAge_subset haged (pruneByCount_subset hcounted hrow)

theorem lastId_pruneLedgerByRetention (policy : Option LedgerRetentionPolicy) (nowMs : JsNumber)
    (table : EventTable) :
    (pruneLedgerByRetention host policy nowMs table).lastId = table.lastId := by
  unfold pruneLedgerByRetention
  split
  · rfl
  · split <;> rfl

/-- A poll reads the rows after its cursor. -/
theorem readEvents_since (host : LedgerHost π) (since : ℕ) (table : EventTable) :
    readEvents host (sinceFilter since) table =
      .ok (((table.rows.filter fun row => decide (since < row.seq)).insertionSort fun a b =>
        a.seq ≤ b.seq).map
        (rowToEntry host)) := by
  have hsince : normalizeOptionalSince (sinceFilter since).since = .ok (some since) := by
    have hle : (0 : ℚ) ≤ since := Nat.cast_nonneg since
    rw [sinceFilter, normalizeOptionalSince, if_pos ⟨Rat.den_natCast since, hle⟩, Rat.num_natCast,
      Int.toNat_natCast]
  unfold readEvents
  rw [hsince]
  rfl

variable {events : List (LedgerEntry π)}

theorem since_lt_of_mem {since : ℕ} {entry : LedgerEntry π}
    (h : readEvents host (sinceFilter since) table = .ok events) (hentry : entry ∈ events) :
    since < entry.seq := by
  rw [readEvents_since] at h
  obtain rfl := Except.ok.inj h
  obtain ⟨row, hrow, rfl⟩ := mem_map.1 hentry
  rw [mem_insertionSort, mem_filter] at hrow
  exact of_decide_eq_true hrow.2

/-- A cursor stays, or becomes the seq of a row. -/
theorem advanceCursor_cases {since : ℕ}
    (h : readEvents host (sinceFilter since) table = .ok events) :
    advanceCursor since events = since ∨
      ∃ row ∈ table.rows, row.seq = advanceCursor since events := by
  rw [readEvents_since] at h
  obtain rfl := Except.ok.inj h
  refine (foldr_max_mem since _).imp_right fun hmem => ?_
  obtain ⟨entry, hentry, hseq⟩ := mem_map.1 hmem
  obtain ⟨row, hrow, rfl⟩ := mem_map.1 hentry
  rw [mem_insertionSort, mem_filter] at hrow
  exact ⟨row, hrow.1, hseq⟩

end Seqs

/-! ## Ledgers in order -/

/-- Every row has a greater seq than those before it, as in a ledger from which nothing was
deleted. -/
def EventTable.InOrder (table : EventTable) : Prop := table.rows.Pairwise fun a b => a.seq < b.seq

section Order

variable {host : LedgerHost π} {table : EventTable} {prepared : EventDbRow}
  {event : AppendEventInput π}
  {createdAt : String}

theorem normalizeOptionalRepoFullName_text (text : String) :
    normalizeOptionalRepoFullName (.text text) = (normalizeRepoFullName (.text text)).map some :=
      rfl

/-- A text is the name of a repository, or it is refused. -/
theorem normalizeOptionalRepoFullName_ok {text : String} {repo : Option String}
    (h : normalizeOptionalRepoFullName (.text text) = .ok repo) :
    ∃ name, normalizeRepoFullName (.text text) = .ok name ∧ repo = some name := by
  rw [normalizeOptionalRepoFullName_text] at h
  cases hname : normalizeRepoFullName (.text text) with
  | error e =>
    rw [hname] at h
    cases h
  | ok name =>
    rw [hname] at h
    exact ⟨name, rfl, (Except.ok.inj h).symm⟩

theorem EventTable.InOrder.appendRow (h : table.InOrder) (prepared : EventDbRow) :
    (EventLedger.appendRow prepared table).InOrder := by
  refine pairwise_append.2 ⟨h, pairwise_singleton _ _, fun row hrow new hnew => ?_⟩
  rw [mem_singleton.1 hnew]
  exact Nat.lt_succ_of_le (seq_le_latestSeq hrow)

/-- The events of a repository, or all, are read in the order of the rows. -/
theorem readEvents_inOrder (h : table.InOrder) (host : LedgerHost π) (repoFullName : Untyped) :
    readEvents host ⟨repoFullName, .undefined⟩ table =
      (normalizeOptionalRepoFullName repoFullName).map fun repoFullName =>
        (table.rows.filter fun row => repoFullName.all fun repo =>
          row.repoFullName == some repo).map
          (rowToEntry host) := by
  have hsorted : ∀ p : EventDbRow →
      Bool, (table.rows.filter p).insertionSort (fun a b => a.seq ≤ b.seq) =
      table.rows.filter p := fun p =>
    ((h.filter p).imp fun hlt => Nat.le_of_lt hlt).insertionSort_eq
  unfold readEvents
  cases normalizeOptionalRepoFullName repoFullName with
  | error e => rfl
  | ok repo =>
    have hfilter : (fun row : EventDbRow => (repo.all fun name => row.repoFullName == some name) &&
        (none : Option ℕ).all fun seq => decide (seq < row.seq)) =
        fun row => repo.all fun name => row.repoFullName == some name :=
          funext fun row => Bool.and_true _
    show Except.ok (((table.rows.filter _).insertionSort _).map _) = Except.ok _
    rw [hfilter, hsorted]

/-- What is appended is what was given: the event is read back as it was. -/
theorem prepareEvent_ok (h : prepareEvent host event createdAt = .ok prepared) :
    normalizeEventType event.type = .ok prepared.eventType ∧
      normalizeOptionalRepoFullName event.repoFullName = .ok prepared.repoFullName ∧
      host.isDeepStrictEqual (host.parse prepared.payloadJson) event.payload = true ∧
      prepared.createdAt = createdAt := by
  unfold prepareEvent at h
  obtain ⟨type, htype, h⟩ := exists_of_bind_ok h
  obtain ⟨repo, hrepo, h⟩ := exists_of_bind_ok h
  obtain ⟨json, hjson, h⟩ := exists_of_bind_ok h
  obtain rfl := Except.ok.inj h
  refine ⟨htype, hrepo, ?_, rfl⟩
  unfold serializePayload at hjson
  split at hjson
  · cases hjson
  · split at hjson
    · cases hjson
    · split at hjson
      · next hequal =>
        obtain rfl := Except.ok.inj hjson
        exact hequal
      · cases hjson

end Order

/-! ## Runs -/

/-- The rows have seqs that were assigned, and ids that were given out. -/
structure StateHolds (s : LedgerState) : Prop where
  positive : ∀ seq ∈ s.assigned, 1 ≤ seq
  seqs : ∀ row ∈ s.table.rows, row.seq ∈ s.assigned
  ids : ∀ row ∈ s.table.rows, row.id ≤ s.table.lastId

/-- The cursor is a seq that was assigned, and below those of the rows that were appended since. -/
structure ReaderHolds (s : LedgerState) (cursor : Reader) : Prop where
  since : cursor.since = 0 ∨ cursor.since ∈ s.assigned
  lastId : cursor.lastId ≤ s.table.lastId
  later : ∀ row ∈ s.table.rows, cursor.lastId < row.id → cursor.since < row.seq

/-- Both of them. -/
structure LedgerHolds (s : LedgerState) : Prop where
  state : StateHolds s
  readers : ∀ reader cursor, s.readers reader = some cursor → ReaderHolds s cursor

section Runs

variable {host : LedgerHost π} {s s' : LedgerState} {action : Action π} {cursor : Reader}
  {actions : List (Action π)}

/-- A step is an append that succeeds, or it adds no row and assigns nothing. -/
theorem step_cases (hstep : step host s action = some s') :
    (∃ event createdAt prepared, action = .appendEvent event createdAt ∧
        prepareEvent host event createdAt = .ok prepared ∧
        s' = { s with
          table := appendRow prepared s.table, assigned := s.assigned ++ [nextSeq s.table] }) ∨
      s'.table.rows ⊆ s.table.rows ∧ s'.table.lastId = s.table.lastId ∧ s'.assigned = s.assigned ∧
        ∀ reader cursor, s'.readers reader = some cursor → s.readers reader = some cursor ∨
          cursor = ⟨latestSeq s.table, s.table.lastId⟩ ∨
          ∃ old events, s.readers reader = some old ∧
            readEvents host (sinceFilter old.since) s.table = .ok events ∧
            cursor = ⟨advanceCursor old.since events, s.table.lastId⟩ := by
  cases action with
  | appendEvent event createdAt =>
    rcases appendEvent_cases host event createdAt s.table with ⟨e, _, heq⟩ |
      ⟨prepared, entry, hok, hseq, heq⟩
    · simp only [step, heq] at hstep
      obtain rfl := Option.some.inj hstep
      exact Or.inr ⟨List.Subset.refl _, rfl, rfl, fun _ _ => Or.inl⟩
    · simp only [step, heq, hseq] at hstep
      exact Or.inl ⟨event, createdAt, prepared, rfl, hok, (Option.some.inj hstep).symm⟩
  | purgeByRepo repoFullName =>
    obtain rfl := Option.some.inj hstep
    exact Or.inr ⟨fun _ => mem_purgeByRepo, lastId_purgeByRepo repoFullName s.table, rfl,
      fun _ _ => Or.inl⟩
  | prune policy nowMs =>
    obtain rfl := Option.some.inj hstep
    exact Or.inr ⟨fun _ => mem_pruneLedgerByRetention,
      lastId_pruneLedgerByRetention policy nowMs s.table, rfl,
      fun _ _ => Or.inl⟩
  | prime reader =>
    obtain rfl := Option.some.inj hstep
    refine Or.inr ⟨List.Subset.refl _, rfl, rfl, fun other cursor hcursor => ?_⟩
    simp only [Function.update_apply] at hcursor
    split at hcursor
    · exact Or.inr (Or.inl (Option.some.inj hcursor).symm)
    · exact Or.inl hcursor
  | poll reader =>
    simp only [step] at hstep
    split at hstep
    · cases hstep
    · next old hold =>
      split at hstep
      · obtain rfl := Option.some.inj hstep
        exact Or.inr ⟨List.Subset.refl _, rfl, rfl, fun _ _ => Or.inl⟩
      · next events hevents =>
        obtain rfl := Option.some.inj hstep
        refine Or.inr ⟨List.Subset.refl _, rfl, rfl, fun other cursor hcursor => ?_⟩
        simp only [Function.update_apply] at hcursor
        split at hcursor
        · next heq =>
          subst heq
          exact Or.inr (Or.inr ⟨old, events, hold, hevents, (Option.some.inj hcursor).symm⟩)
        · exact Or.inl hcursor

theorem step_holds (h : StateHolds s) (hstep : step host s action = some s') : StateHolds s' := by
  rcases step_cases hstep with ⟨event, createdAt, prepared, _, _, rfl⟩ |
    ⟨hrows, hlast, hassigned, _⟩
  · refine ⟨fun seq hseq => ?_, fun row hrow => ?_, fun row hrow => ?_⟩
    · rcases mem_append.1 hseq with hold | hnew
      · exact h.positive seq hold
      · rw [mem_singleton.1 hnew]
        exact Nat.le_add_left 1 _
    · rcases mem_append.1 hrow with hold | hnew
      · exact mem_append_left _ (h.seqs row hold)
      · rw [mem_singleton.1 hnew]
        exact mem_append_right _ mem_cons_self
    · rcases mem_append.1 hrow with hold | hnew
      · exact (h.ids row hold).trans (Nat.le_succ _)
      · rw [mem_singleton.1 hnew]
        exact Nat.le_refl _
  · refine ⟨hassigned ▸ h.positive, fun row hrow => ?_, fun row hrow => ?_⟩
    · rw [hassigned]
      exact h.seqs row (hrows hrow)
    · rw [hlast]
      exact h.ids row (hrows hrow)

/-- Where the newest event is there, the next seq is above all that were assigned. -/
theorem lt_nextSeq (hkept : ∀ seq ∈ s.assigned, ∃ row ∈ s.table.rows, seq ≤ row.seq) :
    ∀ seq ∈ s.assigned, seq < nextSeq s.table := by
  intro seq hseq
  obtain ⟨row, hrow, hle⟩ := hkept seq hseq
  have hlatest := seq_le_latestSeq hrow
  rw [nextSeq]
  omega

/-- **What one step keeps of a reader**: nobody's cursor passes an event that is appended later. -/
theorem step_readers (hholds : LedgerHolds s) (hkept : NewestKept host s action)
    (hstep : step host s action = some s') : LedgerHolds s' := by
  obtain ⟨h, hreaders⟩ := hholds
  refine ⟨step_holds h hstep, ?_⟩
  rcases step_cases hstep with ⟨event, createdAt, prepared, rfl, hok, rfl⟩ |
    ⟨hrows, hlast, hassigned, hcursors⟩
  · intro reader cursor hcursor
    have hold := hreaders reader cursor hcursor
    refine ⟨hold.since.imp_right (mem_append_left _), hold.lastId.trans (Nat.le_succ _),
      fun row hrow hlater => ?_⟩
    rcases mem_append.1 hrow with hrow | hnew
    · exact hold.later row hrow hlater
    · rw [mem_singleton.1 hnew]
      rcases hold.since with hzero | hseq
      · rw [hzero]
        exact Nat.succ_pos _
      · exact lt_nextSeq (hkept prepared hok) _ hseq
  · intro reader cursor hcursor
    rcases hcursors reader cursor hcursor with hold | rfl | ⟨old, events, hold, hevents, rfl⟩
    · have hreader := hreaders reader cursor hold
      exact ⟨hassigned ▸ hreader.since, hlast ▸ hreader.lastId,
        fun row hrow => hreader.later row (hrows hrow)⟩
    · refine ⟨?_, hlast.ge, fun row hrow hlater =>
        absurd (h.ids row (hrows hrow)) (Nat.not_le.2 hlater)⟩
      rcases latestSeq_cases s.table with hzero | ⟨row, hrow, hseq⟩
      · exact Or.inl hzero
      · exact Or.inr (hassigned ▸ hseq ▸ h.seqs row hrow)
    · refine ⟨?_, hlast.ge, fun row hrow hlater =>
        absurd (h.ids row (hrows hrow)) (Nat.not_le.2 hlater)⟩
      rcases advanceCursor_cases hevents with hstays | ⟨row, hrow, hseq⟩
      · rw [hstays, hassigned]
        exact (hreaders reader old hold).since
      · exact Or.inr (hassigned ▸ hseq ▸ h.seqs row hrow)

theorem emptyLedger_holds : StateHolds emptyLedger :=
  ⟨fun _ hseq => absurd hseq not_mem_nil, fun _ hrow => absurd hrow not_mem_nil,
    fun _ hrow => absurd hrow not_mem_nil⟩

theorem run_holds (hrun : Runs.run (step host) emptyLedger actions = some s) : StateHolds s :=
  Runs.run_invariant step_holds hrun emptyLedger_holds

theorem run_readers (hrun : Runs.run (step host) emptyLedger actions = some s)
    (hall : Runs.AllSteps (step host) (NewestKept host) emptyLedger actions) : LedgerHolds s :=
  Runs.run_invariant_of step_readers hrun hall ⟨emptyLedger_holds,
    nofun⟩

/-- An append assigns a seq above all others exactly if the newest event is there. -/
theorem newestKept_iff (h : StateHolds s) :
    (∀ seq ∈ s.assigned, ∃ row ∈ s.table.rows, seq ≤ row.seq) ↔
      ∀ seq ∈ s.assigned, seq < nextSeq s.table := by
  refine ⟨lt_nextSeq, fun hlt seq hseq => ?_⟩
  have hle := Nat.le_of_lt_succ (hlt seq hseq)
  rcases latestSeq_cases s.table with hzero | ⟨row, hrow, heq⟩
  · have hpos := h.positive seq hseq
    omega
  · exact ⟨row, hrow, heq ▸ hle⟩

end Runs

/-- **The cursors of the ledger miss nothing exactly where the newest event stays**: in a run of
appends, purges, prunes and polls, every event gets a seq above those before it and every poll gives
its reader all that was appended since, exactly if at each append the event with the greatest seq so
far has not been deleted. -/
theorem cursor_misses_nothing_iff (host : LedgerHost π) (actions : List (Action π)) :
    SeqsIncrease host actions ∧ ReadersMissNothing host actions ↔
      Runs.AllSteps (step host) (NewestKept host) emptyLedger actions := by
  constructor
  · rintro ⟨hseqs, _⟩
    refine Runs.allSteps_iff.2 fun front action back s hsplit hfront => ?_
    cases action with
    | appendEvent event createdAt =>
      intro prepared hok
      rcases appendEvent_cases host event createdAt s.table with ⟨e, herror, _⟩ |
        ⟨prepared, entry, _, hseq, heq⟩
      · rw [hok] at herror
        cases herror
      · refine (newestKept_iff (run_holds hfront)).2 fun seq hassigned => hseq ▸ ?_
        obtain ⟨after, hafter⟩ : ∃ after, step host s (.appendEvent event createdAt) =
            some after := by
          simp only [step, heq]
          exact ⟨_, rfl⟩
        exact hseqs s after event createdAt entry ⟨front, back, hsplit, hfront,
          hafter⟩ (by rw [heq]) seq hassigned
    | _ => trivial
  · intro hall
    refine ⟨?_, ?_⟩
    · intro before after event createdAt entry hoccurs hanswer seq hassigned
      obtain ⟨front, hfront, _, hkept⟩ := Runs.run_of_occurs hall hoccurs
      rcases appendEvent_cases host event createdAt before.table with ⟨e, _, heq⟩ |
        ⟨prepared, entry', hok, hseq, heq⟩
      · rw [heq] at hanswer
        cases hanswer
      · rw [heq] at hanswer
        obtain rfl := Except.ok.inj hanswer
        rw [hseq]
        exact lt_nextSeq (hkept prepared hok) seq hassigned
    · intro before after reader cursor hoccurs hcursor
      obtain ⟨front, hfront, hkept, _⟩ := Runs.run_of_occurs hall hoccurs
      have hreader := (run_readers hfront hkept).readers reader cursor hcursor
      refine ⟨_, readEvents_since host cursor.since before.table, fun row hrow hlater => ?_⟩
      refine mem_map_of_mem ?_
      rw [mem_insertionSort, mem_filter]
      exact ⟨hrow, decide_eq_true (hreader.later row hrow hlater)⟩

/-- A host whose payloads are texts. -/
def sampleHost : LedgerHost String where
  toISOString _ := none
  isRecord _ := true
  stringify := some
  parse := id
  isDeepStrictEqual a b := a == b

def sampleEvent (repoFullName : String) : AppendEventInput String :=
  ⟨.text "plan_built", .text repoFullName, "{}"⟩

/-- The second event is purged after the reader has seen it, and the third one gets its seq. -/
def purgedRun : List (Action String) :=
  [.appendEvent (sampleEvent "acme/web") "2026-01-01T00:00:00.000Z",
    .appendEvent (sampleEvent "acme/api") "2026-01-02T00:00:00.000Z", .prime 0,
      .purgeByRepo (.text "acme/api")]

/-- **A cursor misses an event**: the newest event is purged with its repository, and the next one
gets its seq, which the reader has already seen. -/
theorem cursor_misses_event : ∃ actions : List (Action String),
    ¬SeqsIncrease sampleHost actions ∧ ¬ReadersMissNothing sampleHost actions := by
  refine ⟨purgedRun ++
    ([.appendEvent (sampleEvent "acme/web") "2026-01-03T00:00:00.000Z",
      .poll 0] : List (Action String)), ?_, ?_⟩
  · intro hincrease
    have hcheck : (Runs.run (step sampleHost) emptyLedger purgedRun).any (fun before =>
        (step sampleHost before
            (.appendEvent (sampleEvent "acme/web") "2026-01-03T00:00:00.000Z")).any fun _ =>
          (appendEvent sampleHost (sampleEvent "acme/web") "2026-01-03T00:00:00.000Z"
            before.table).1.toOption.any
            fun entry => before.assigned.any fun seq => decide (entry.seq ≤ seq)) = true := by
      decide +kernel
    obtain ⟨before, hbefore, hcheck⟩ := (Option.any_eq_true _ _).1 hcheck
    obtain ⟨after, hafter, hcheck⟩ := (Option.any_eq_true _ _).1 hcheck
    obtain ⟨entry, hentry, hcheck⟩ := (Option.any_eq_true _ _).1 hcheck
    obtain ⟨seq, hseq, hle⟩ := any_eq_true.1 hcheck
    have hanswer : (appendEvent sampleHost (sampleEvent "acme/web") "2026-01-03T00:00:00.000Z"
        before.table).1 =
        .ok entry := by
      cases heq : (appendEvent sampleHost (sampleEvent "acme/web") "2026-01-03T00:00:00.000Z"
        before.table).1 with
      | error e =>
        rw [heq] at hentry
        cases hentry
      | ok other =>
        rw [heq] at hentry
        rw [Option.some.inj hentry]
    have hlt :=
      hincrease before after _ _ entry ⟨purgedRun, [.poll 0], rfl, hbefore, hafter⟩ hanswer seq hseq
    exact absurd (of_decide_eq_true hle) (Nat.not_le.2 hlt)
  · intro hnothing
    have hcheck : (Runs.run (step sampleHost) emptyLedger
        (purgedRun ++ [.appendEvent (sampleEvent "acme/web") "2026-01-03T00:00:00.000Z"])).any
          (fun before =>
        (step sampleHost before (.poll 0)).any fun _ => (before.readers 0).any fun cursor =>
          before.table.rows.any fun row => decide (cursor.lastId < row.id ∧
            row.seq ≤ cursor.since)) = true := by
      decide +kernel
    obtain ⟨before, hbefore, hcheck⟩ := (Option.any_eq_true _ _).1 hcheck
    obtain ⟨after, hafter, hcheck⟩ := (Option.any_eq_true _ _).1 hcheck
    obtain ⟨cursor, hcursor, hcheck⟩ := (Option.any_eq_true _ _).1 hcheck
    obtain ⟨row, hrow, hmissed⟩ := any_eq_true.1 hcheck
    obtain ⟨hlater, hle⟩ := of_decide_eq_true hmissed
    obtain ⟨events, hevents, hall⟩ :=
      hnothing before after 0 cursor ⟨_, [], rfl, hbefore, hafter⟩ hcursor
    exact absurd (since_lt_of_mem hevents (hall row hrow hlater)) (Nat.not_lt.2 hle)

end LoopOver.EventLedger
