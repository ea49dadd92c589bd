import LoopOver.Ledger.Paging
import LoopOver.Ledger.Persist

/-!
# Verification after retention

Records are persisted and pruned at the same time, in any interleaving, and then the ledger is
verified. Retention goes by the time of the record, the verification by the time of its ledger row.

* `TaskTrace` is what a call writes, in which order; it is read off the scripts.
* `LedgerDb.orderly` are the steps that are in order: a prune deletes only records whose rows are
  past the cutoff too, and no record takes an id that a row already carries.
* `Consistent` is the invariant of orderly runs: every row has its record, or the record was pruned.
* **`retention_no_false_alarm`**: after an orderly run, a walk through the ledger has no finding.
* `append_gap_false_alarm` is a run that is not: a record is pruned whose ledger row is younger than
  the cutoff, and the verification reports it missing.
-/

namespace LoopOver

open List Script
open LedgerDb

/-! ## Tasks and their traces -/

/-- A call that runs at the same time as others. -/
inductive LedgerTask
  | persist (call : PersistCall)
  | prune (nowMs : ℤ)

/-- The script of a task; what it returns does not matter here. -/
def LedgerTask.script (rt : LedgerRuntime) (text : Runtime) : LedgerTask → LedgerScript Unit
  | .persist call => do
    let _ ← persistDecisionRecord rt text call
    pure ()
  | .prune nowMs => do
    let _ ← pruneDecisionRecords rt nowMs
    pure ()

/-- A row that a statement has added to a table. -/
inductive LedgerWrite
  | record (row : DecisionRecordRow)
  | row (row : LedgerRow)

/-- The rows that the events have added, in their order. -/
def writes (events : List LedgerEvent) : List LedgerWrite :=
  events.filterMap fun
    | ⟨.insertRecord row, .ok ()⟩ => some (.record row)
    | ⟨.insertLedgerRow row, .ok ()⟩ => some (.row row)
    | _ => none

/-- The cutoffs of the prunes among the events. -/
def pruneCutoffs (events : List LedgerEvent) : List String :=
  events.filterMap fun e =>
    match e.call with
    | .deleteExpired cutoff _ => some cutoff
    | _ => none

theorem writes_append (front back : List LedgerEvent) :
    writes (front ++ back) = writes front ++ writes back := filterMap_append

theorem pruneCutoffs_append (front back : List LedgerEvent) :
    pruneCutoffs (front ++ back) = pruneCutoffs front ++ pruneCutoffs back := filterMap_append

/-- What a task has done: a call writes its record and then a row for it, and a prune deletes up to
its own cutoff. -/
def TaskTrace (rt : LedgerRuntime) (events : List LedgerEvent) : LedgerTask → Prop
  | .persist call => pruneCutoffs events = [] ∧ ∃ n reevaluated row,
      row.IsOf (nextRevisionId call.head.baseId n) call.recordDigest ∧
      writes events <+: [.record (call.row n reevaluated), .row row]
  | .prune nowMs =>
      (∀ cutoff ∈ pruneCutoffs events, cutoff = retentionCutoffIso rt nowMs) ∧ writes events = []

variable {task : LedgerTask}

theorem TaskTrace.of_append {rt : LedgerRuntime} {front back : List LedgerEvent}
    (h : TaskTrace rt (front ++ back) task) : TaskTrace rt front task := by
  cases task with
  | persist call =>
    obtain ⟨hcutoffs, n, reevaluated, row, hrow, hwrites⟩ := h
    rw [pruneCutoffs_append, append_eq_nil_iff] at hcutoffs
    rw [writes_append] at hwrites
    exact ⟨hcutoffs.1, n, reevaluated, row, hrow, (prefix_append _ _).trans hwrites⟩
  | prune nowMs =>
    obtain ⟨hcutoffs, hwrites⟩ := h
    rw [writes_append, append_eq_nil_iff] at hwrites
    rw [pruneCutoffs_append] at hcutoffs
    exact ⟨fun cutoff hmem => hcutoffs cutoff (mem_append_left _ hmem), hwrites.1⟩

variable {retries : ℕ}

section Traces

variable {rt : LedgerRuntime} {text : Runtime} {call : PersistCall} {t : List LedgerEvent}
variable {s s' : Unit}

theorem append_trace {recordId recordDigest : String} {attempts : ℕ} {r : Except HostError Unit}
    (h : (appendDecisionLedger rt recordId recordDigest attempts).Ends s t r s') :
    pruneCutoffs t = [] ∧ ∃ row : LedgerRow, row.IsOf recordId recordDigest ∧
      writes t <+: [.row row] := by
  induction attempts generalizing t with
  | zero =>
    obtain ⟨rfl, -, -⟩ := ends_pure.1 h
    exact ⟨rfl, nextLedgerRow rt none recordId recordDigest "", ⟨rfl, rfl⟩, nil_prefix⟩
  | succ attempts ih =>
    rw [appendDecisionLedger] at h
    obtain ⟨tipReply, t₁, rfl, h₁⟩ := ends_ask_bind.1 h
    rcases ends_ofExcept_bind.1 h₁ with ⟨error, -, rfl, -, -⟩ | ⟨tip, -, h₂⟩
    · exact ⟨rfl, nextLedgerRow rt none recordId recordDigest "", ⟨rfl, rfl⟩, nil_prefix⟩
    obtain ⟨createdAt, t₂, rfl, h₃⟩ := ends_ask_bind.1 h₂
    obtain ⟨inserted, t₃, rfl, h₄⟩ := ends_ask_bind.1 h₃
    cases inserted with
    | ok _ =>
      obtain ⟨rfl, -, -⟩ := ends_pure.1 h₄
      exact ⟨rfl, nextLedgerRow rt tip recordId recordDigest createdAt, ⟨rfl, rfl⟩, prefix_rfl⟩
    | error error =>
      rcases ends_ite.1 h₄ with ⟨-, h₅⟩ | ⟨-, h₅⟩
      · obtain ⟨rfl, -, -⟩ := ends_ofExcept.1 h₅
        exact ⟨rfl, nextLedgerRow rt none recordId recordDigest "", ⟨rfl, rfl⟩, nil_prefix⟩
      · have hrest := ih h₅
        exact hrest

/-- A call that writes nothing. -/
theorem TaskTrace.of_no_writes (hcutoffs : pruneCutoffs t = []) (hwrites : writes t = []) :
    TaskTrace rt t (.persist call) := by
  refine ⟨hcutoffs, 0, none,
    nextLedgerRow rt none (nextRevisionId call.head.baseId 0) call.recordDigest "", ⟨rfl, rfl⟩, ?_⟩
  rw [hwrites]
  exact nil_prefix

variable {r : Except HostError PersistOutcome}

/-- An attempt ends the call, or its insert has failed and the next one is due. -/
theorem persistAttempts_cases (h : (persistAttempts rt text call retries).Ends s t r s') :
    TaskTrace rt t (.persist call) ∨
      ∃ count row error rest, t = ⟨.countRevisions call.head.storedRepo call.head.pullNumber
          call.head.headSha, count⟩ :: ⟨.insertRecord row, .error error⟩ :: rest ∧
        (match retries with
          | 0 => ofExcept (.error error)
          | retries + 1 => persistAttempts rt text call retries).Ends s rest r s' := by
  rw [persistAttempts] at h
  obtain ⟨count, t₁, rfl, h₁⟩ := ends_ask_bind.1 h
  rcases ends_ofExcept_bind.1 h₁ with ⟨error, -, rfl, -, -⟩ | ⟨n, -, h₂⟩
  · exact Or.inl (.of_no_writes rfl rfl)
  cases hresolve : resolveReevaluation text n call.head.baseId call.reevaluation
    call.head.target with
  | error error =>
    rw [hresolve] at h₂
    obtain ⟨rfl, -, -⟩ := ends_pure.1 h₂
    exact Or.inl (.of_no_writes rfl rfl)
  | ok reevaluated =>
    rw [hresolve] at h₂
    obtain ⟨inserted, t₂, rfl, h₃⟩ := ends_ask_bind.1 h₂
    cases inserted with
    | error error => exact Or.inr ⟨count, _, error, t₂, rfl, h₃⟩
    | ok _ =>
      obtain ⟨front, appended, s₁, back, happend, h₄, rfl⟩ := ends_attempt_bind.1 h₃
      obtain ⟨rfl, -, -⟩ := ends_pure.1 h₄
      obtain ⟨hcutoffs, row, hrow, hwrites⟩ := append_trace happend
      rw [append_nil]
      exact Or.inl ⟨hcutoffs, n, reevaluated, row, hrow, cons_prefix_cons.2 ⟨rfl, hwrites⟩⟩

theorem persistAttempts_trace (h : (persistAttempts rt text call retries).Ends s t r s') :
    TaskTrace rt t (.persist call) := by
  induction retries generalizing t with
  | zero =>
    rcases persistAttempts_cases h with htrace | ⟨count, row, error, rest, rfl, hlast⟩
    · exact htrace
    · obtain ⟨rfl, -, -⟩ := ends_ofExcept.1 hlast
      exact .of_no_writes rfl rfl
  | succ retries ih =>
    rcases persistAttempts_cases h with htrace | ⟨count, row, error, rest, rfl, hnext⟩
    · exact htrace
    · have hrest := ih hnext
      exact hrest

theorem persist_trace
    (h : (persistDecisionRecord rt text call).Ends s t r s') : TaskTrace rt t (.persist call) := by
  rw [persistDecisionRecord] at h
  obtain ⟨front, result, s₁, back, hattempts, h₁, rfl⟩ := ends_attempt_bind.1 h
  have hback : back = [] := by
    cases result with
    | ok outcome => exact (ends_pure.1 h₁).1
    | error error => exact (ends_pure.1 h₁).1
  rw [hback, append_nil]
  exact persistAttempts_trace hattempts

theorem prune_trace {nowMs : ℤ} {batchSize maxPerTable fuel deleted : ℕ} {r : Except HostError ℕ}
    (h : (pruneBatches (retentionCutoffIso rt nowMs) batchSize maxPerTable fuel deleted).Ends s t r
      s') :
    TaskTrace rt t (.prune nowMs) := by
  induction fuel generalizing t deleted with
  | zero =>
    obtain ⟨rfl, -, -⟩ := ends_pure.1 h
    exact ⟨fun cutoff hmem => (not_mem_nil hmem).elim, rfl⟩
  | succ fuel ih =>
    rw [pruneBatches] at h
    obtain ⟨reply, t₁, rfl, h₁⟩ := ends_ask_bind.1 h
    have hrest : TaskTrace rt t₁ (.prune nowMs) := by
      rcases ends_ofExcept_bind.1 h₁ with ⟨error, -, rfl, -, -⟩ | ⟨changes, -, h₂⟩
      · exact ⟨fun cutoff hmem => (not_mem_nil hmem).elim, rfl⟩
      rcases ends_ite.1 h₂ with ⟨-, h₃⟩ | ⟨-, h₃⟩
      · obtain ⟨rfl, -, -⟩ := ends_pure.1 h₃
        exact ⟨fun cutoff hmem => (not_mem_nil hmem).elim, rfl⟩
      · exact ih h₃
    exact ⟨forall_mem_cons.2 ⟨rfl, hrest.1⟩, hrest.2⟩

/-- What a run of a task writes and deletes. -/
theorem task_trace {r : Except HostError Unit}
    (h : (task.script rt text).Ends s t r s') : TaskTrace rt t task := by
  cases task with
  | persist call =>
    rcases ends_bind.1 h with ⟨error, hcall, -⟩ | ⟨front, outcome, s₁, back, hcall, hend, rfl⟩
    · exact persist_trace hcall
    · obtain ⟨rfl, -, -⟩ := ends_pure.1 hend
      rw [append_nil]
      exact persist_trace hcall
  | prune nowMs =>
    rcases ends_bind.1 h with ⟨error, hprune, -⟩ | ⟨front, n, s₁, back, hprune, hend, rfl⟩
    · exact prune_trace hprune
    · obtain ⟨rfl, -, -⟩ := ends_pure.1 hend
      rw [append_nil]
      exact prune_trace hprune

instance (call : LedgerCall) : Nonempty (LedgerReply call) := by
  cases call with
  | nowIso => exact ⟨""⟩
  | readTip | insertLedgerRow | countRevisions | insertRecord | deleteExpired =>
    exact ⟨.error { message := "" }⟩

/-- What a task has done so far. -/
theorem task_trace_of_follows {p' : Prog LedgerReply (Except HostError Unit × Unit)}
    (h : (task.script rt text ()).Follows t p') : TaskTrace rt t task := by
  obtain ⟨rest, ⟨r, s'⟩, hruns⟩ := h.exists_runs
  have htrace : TaskTrace rt (t ++ rest) task := task_trace hruns
  exact htrace.of_append

end Traces

/-! ## Orderly steps -/

/-- The steps that are in order. A prune deletes only records that have a ledger row, and whose rows
are all older than its cutoff; a record gets an id that no ledger row carries. -/
def LedgerDb.orderly : Answers LedgerReply LedgerDb := fun db call reply db' =>
  db.answers call reply db' ∧
    match call, reply with
    | .deleteExpired cutoff _, .ok _ => ∀ record ∈ db.records, record ∉ db'.records →
        (∃ row ∈ db.ledger, row.recordId = record.id) ∧
          ∀ row ∈ db.ledger, row.recordId = record.id → row.createdAt < cutoff
    | .insertRecord record, .ok _ => ∀ row ∈ db.ledger, row.recordId ≠ record.id
    | _, _ => True

/-- What an orderly run keeps, for the rows that each task has written and the cutoffs of the
prunes: every ledger row has its record, with the content it commits to, or the record was pruned
and the row is older than a cutoff. -/
structure Consistent {ι : Type} (rt : LedgerRuntime) (written : ι → List LedgerWrite)
    (cutoffs : List String) (db : LedgerDb) : Prop where
  source : ∀ record ∈ db.records, ∃ i, .record record ∈ written i
  stored : ∀ i record, .record record ∈ written i →
    record ∈ db.records ∨ ∃ row ∈ db.ledger, row.recordId = record.id
  unique : ∀ i j record record', .record record ∈ written i → .record record' ∈ written j →
    record.id = record'.id → i = j
  vouched : ∀ row ∈ db.ledger, ∃ i record, .record record ∈ written i ∧ .row row ∈ written i ∧
    record.id = row.recordId
  accounted : ∀ row ∈ db.ledger,
    (∃ record ∈ db.records, record.id = row.recordId ∧ contentMatches rt row record = true) ∨
    (row.recordId ∉ db.records.map DecisionRecordRow.id ∧
      ∃ cutoff ∈ cutoffs, row.createdAt < cutoff)

variable {record : DecisionRecordRow}

namespace Consistent

variable {ι : Type} {rt : LedgerRuntime} {written : ι → List LedgerWrite} {cutoffs : List String}
  {db : LedgerDb} {i : ι}

/-- A prune that deletes only records whose rows are older than its cutoff. -/
theorem deleteRecords (h : Consistent rt written cutoffs db) {cutoff : String} {ids : List String}
    (horderly : ∀ record ∈ db.records, record ∉ (db.deleteRecords ids).records →
      (∃ row ∈ db.ledger, row.recordId = record.id) ∧
        ∀ row ∈ db.ledger, row.recordId = record.id → row.createdAt < cutoff) :
    Consistent rt written (cutoffs ++ [cutoff]) (db.deleteRecords ids) := by
  have hsubset : ∀ record ∈ (db.deleteRecords ids).records, record ∈ db.records :=
    fun record hrecord => (mem_filter.1 hrecord).1
  constructor
  · exact fun record hrecord => h.source record (hsubset record hrecord)
  · intro j record hrecord
    rcases h.stored j record hrecord with hstored | hvouched
    · by_cases hkept : record ∈ (db.deleteRecords ids).records
      · exact Or.inl hkept
      · exact Or.inr (horderly record hstored hkept).1
    · exact Or.inr hvouched
  · exact h.unique
  · exact h.vouched
  · intro row hrow
    rcases h.accounted row hrow with ⟨record, hrecord, hid, hmatch⟩ | ⟨hmissing, old, hold, hlt⟩
    · by_cases hkept : record ∈ (db.deleteRecords ids).records
      · exact Or.inl ⟨record, hkept, hid, hmatch⟩
      · refine Or.inr ⟨?_, cutoff, mem_append_right _ (mem_singleton_self _), ?_⟩
        · intro hmem
          obtain ⟨other, hother, hsame⟩ := mem_map.1 hmem
          have heq : other = record := inj_on_of_nodup_map db.records_nodup
            (hsubset other hother) hrecord (hsame.trans hid.symm)
          exact hkept (heq ▸ hother)
        · exact (horderly record hrecord hkept).2 row hrow hid.symm
    · refine Or.inr ⟨fun hmem => hmissing ?_, old, mem_append_left _ hold, hlt⟩
      obtain ⟨other, hother, hsame⟩ := mem_map.1 hmem
      exact hsame ▸ mem_map_of_mem (hsubset other hother)

/-- More cutoffs do no harm. -/
theorem mono (h : Consistent rt written cutoffs db) {more : List String} :
    Consistent rt written (cutoffs ++ more) db := by
  refine ⟨h.source, h.stored, h.unique, h.vouched, fun row hrow => ?_⟩
  rcases h.accounted row hrow with hstored | ⟨hmissing, cutoff, hcutoff, hlt⟩
  · exact Or.inl hstored
  · exact Or.inr ⟨hmissing, cutoff, mem_append_left _ hcutoff, hlt⟩

variable [DecidableEq ι]

theorem mem_update {w : LedgerWrite} {ws : List LedgerWrite} {j : ι} :
    w ∈ Function.update written i (written i ++ ws) j ↔ w ∈ written j ∨ j = i ∧ w ∈ ws := by
  by_cases h : j = i
  · subst h
    simp
  · simp [h]

/-- A record under a new id. -/
theorem insertRecord (h : Consistent rt written cutoffs db) {record : DecisionRecordRow}
    (hnew : record.id ∉ db.records.map DecisionRecordRow.id)
    (hfree : ∀ row ∈ db.ledger, row.recordId ≠ record.id) (hfirst : written i = []) :
    Consistent rt (Function.update written i (written i ++ [.record record])) cutoffs
      (db.insertRecord record hnew) := by
  -- no task has written a record under this id
  have hunwritten : ∀ j other, .record other ∈ written j → other.id ≠ record.id := by
    intro j other hother hid
    rcases h.stored j other hother with hstored | ⟨row, hrow, hvouches⟩
    · exact hnew (hid ▸ mem_map_of_mem hstored)
    · exact hfree row hrow (hvouches.trans hid)
  constructor
  · intro other hother
    rcases mem_append.1 hother with hold | hlast
    · obtain ⟨j, hj⟩ := h.source other hold
      exact ⟨j, mem_update.2 (Or.inl hj)⟩
    · exact ⟨i,
        mem_update.2 (Or.inr ⟨rfl, by rw [mem_singleton.1 hlast]; exact mem_singleton_self _⟩)⟩
  · intro j other hother
    rcases mem_update.1 hother with hold | ⟨-, hlast⟩
    · exact (h.stored j other hold).imp_left (mem_append_left _)
    · cases mem_singleton.1 hlast
      exact Or.inl (mem_append_right _ (mem_singleton_self _))
  · intro j k one two hone htwo hid
    rcases mem_update.1 hone with hold₁ | ⟨rfl, hlast₁⟩
    · rcases mem_update.1 htwo with hold₂ | ⟨-, hlast₂⟩
      · exact h.unique j k one two hold₁ hold₂ hid
      · cases mem_singleton.1 hlast₂
        exact absurd hid (hunwritten j one hold₁)
    · rcases mem_update.1 htwo with hold₂ | ⟨rfl, -⟩
      · cases mem_singleton.1 hlast₁
        exact absurd hid.symm (hunwritten k two hold₂)
      · rfl
  · intro row hrow
    obtain ⟨j, other, hother, hj, hid⟩ := h.vouched row hrow
    exact ⟨j, other, mem_update.2 (Or.inl hother), mem_update.2 (Or.inl hj), hid⟩
  · intro row hrow
    rcases h.accounted row hrow with ⟨other, hother, hid, hmatch⟩ | ⟨hmissing, hcutoff⟩
    · exact Or.inl ⟨other, mem_append_left _ hother, hid, hmatch⟩
    · refine Or.inr ⟨?_, hcutoff⟩
      rw [show (db.insertRecord record hnew).records = db.records ++ [record] from rfl, map_append,
        mem_append, map_singleton, mem_singleton]
      rintro (hold | hlast)
      · exact hmissing hold
      · exact hfree row hrow hlast

theorem mem_insertLedgerRow {row r : LedgerRow} (hfree : ∀ r ∈ db.ledger, r.seq ≠ row.seq) :
    r ∈ (db.insertLedgerRow row).ledger ↔ r ∈ db.ledger ∨ r = row := by
  rw [insertLedgerRow, (insertBySeq_perm hfree).mem_iff, mem_append, mem_singleton]

/-- A row for a record that its own task has written, and for which it has added no row yet. -/
theorem insertLedgerRow (h : Consistent rt written cutoffs db) {row : LedgerRow}
    (hfree : ∀ r ∈ db.ledger, r.seq ≠ row.seq) (hwritten : written i = [.record record])
    (hid : record.id = row.recordId) (hmatch : contentMatches rt row record = true) :
    Consistent rt (Function.update written i (written i ++ [.row row])) cutoffs
      (db.insertLedgerRow row) := by
  have hown : .record record ∈ written i := by rw [hwritten]; exact mem_singleton_self _
  have hrecord : ∀ {j other}, .record other ∈
      Function.update written i (written i ++ [.row row]) j →
      .record other ∈ written j := by
    intro j other hother
    rcases mem_update.1 hother with hold | ⟨-, hlast⟩
    · exact hold
    · cases mem_singleton.1 hlast
  -- no row vouches for the record yet: it would be one of this task
  have hstored : record ∈ db.records := by
    rcases h.stored i record hown with hstored | ⟨other, hother, hvouches⟩
    · exact hstored
    · obtain ⟨j, record', hrecord', hrow', hid'⟩ := h.vouched other hother
      obtain rfl := h.unique j i record' record hrecord' hown (hid'.trans hvouches)
      rw [hwritten] at hrow'
      cases mem_singleton.1 hrow'
  constructor
  · intro other hother
    obtain ⟨j, hj⟩ := h.source other hother
    exact ⟨j, mem_update.2 (Or.inl hj)⟩
  · intro j other hother
    rcases h.stored j other (hrecord hother) with hold | ⟨r, hr, hvouches⟩
    · exact Or.inl hold
    · exact Or.inr ⟨r, (mem_insertLedgerRow hfree).2 (Or.inl hr), hvouches⟩
  · intro j k one two hone htwo
    exact h.unique j k one two (hrecord hone) (hrecord htwo)
  · intro r hr
    rcases (mem_insertLedgerRow hfree).1 hr with hold | rfl
    · obtain ⟨j, other, hother, hj, hvouches⟩ := h.vouched r hold
      exact ⟨j, other, mem_update.2 (Or.inl hother), mem_update.2 (Or.inl hj), hvouches⟩
    · exact ⟨i, record, mem_update.2 (Or.inl hown),
        mem_update.2 (Or.inr ⟨rfl, mem_singleton_self _⟩), hid⟩
  · intro r hr
    rcases (mem_insertLedgerRow hfree).1 hr with hold | rfl
    · exact h.accounted r hold
    · exact Or.inl ⟨record, hstored, hid, hmatch⟩

end Consistent

/-! ## Runs -/

/-- The record is stored with the digest of its content, as `buildDecisionRecord` computes it, and
`JSON.parse` reads back what was written. -/
structure PersistCall.Digested (rt : LedgerRuntime) (call : PersistCall) : Prop where
  digest : call.recordDigest = contentDigest rt call.record.toJson
  restored : (rt.jsonParse (canonicalJson call.record.toJson)).map canonicalJson =
    some (canonicalJson call.record.toJson)

section Runs

variable {rt : LedgerRuntime} {text : Runtime} {call : PersistCall}

theorem PersistCall.Digested.contentMatches (h : call.Digested rt) (n : ℕ)
    (reevaluated : Option ResolvedReevaluation) {row : LedgerRow}
    (hrow : row.recordDigest = call.recordDigest) :
    contentMatches rt row (call.row n reevaluated) = true := by
  have hdigest := congrArg (Option.map rt.sha256Hex) h.restored
  rw [Option.map_map] at hdigest
  simp only [LoopOver.contentMatches, recomputedContentDigest, PersistCall.row, beq_iff_eq, hrow,
    h.digest]
  exact hdigest

/-- An attempt keeps the chain, whatever other tasks do between its steps, when what comes after a
failed insert does. -/
theorem persistAttempts_behaves_of
    (hnext : ∀ (error : HostError) (db : LedgerDb), (match retries with
      | 0 => ofExcept (.error error)
      | retries + 1 => persistAttempts rt text call retries).Behaves (appendConduct rt)
        (fun _ _ _ => True) () db) (db : LedgerDb) :
    (persistAttempts rt text call retries).Behaves (appendConduct rt)
      (fun _ _ _ => True) () db := by
  rw [persistAttempts]
  refine behaves_keeping_ask_bind fun db₁ _ hchain₁ reply db₂ hread => ?_
  obtain ⟨rfl, -⟩ := hread
  refine ⟨hchain₁, prefix_rfl, ?_⟩
  refine behaves_ofExcept_bind (fun _ _ _ _ _ => trivial) fun n _ => ?_
  cases resolveReevaluation text n call.head.baseId call.reevaluation call.head.target with
  | error error => exact behaves_pure fun _ _ _ => trivial
  | ok reevaluated =>
    refine behaves_keeping_ask_bind fun db₃ _ hchain₃ inserted db₄ hinsert => ?_
    cases inserted with
    | ok _ =>
      obtain ⟨hnew, rfl⟩ := hinsert
      refine ⟨hchain₃, prefix_rfl, behaves_attempt_bind ?_⟩
      exact (appendDecisionLedger_behaves 3 _).mono fun _ _ _ _ => behaves_pure fun _ _ _ => trivial
    | error error =>
      obtain rfl : db₄ = db₃ := hinsert
      exact ⟨hchain₃, prefix_rfl, hnext error db₄⟩

theorem persistAttempts_behaves (retries : ℕ) (db : LedgerDb) :
    (persistAttempts rt text call retries).Behaves (appendConduct rt)
      (fun _ _ _ => True) () db := by
  induction retries generalizing db with
  | zero =>
    exact persistAttempts_behaves_of (fun _ _ => behaves_ofExcept fun _ _ _ => trivial) db
  | succ retries ih => exact persistAttempts_behaves_of (fun _ => ih) db

theorem pruneBatches_behaves {cutoff : String} {batchSize maxPerTable : ℕ} (fuel deleted : ℕ)
    (db : LedgerDb) :
    (pruneBatches cutoff batchSize maxPerTable fuel deleted).Behaves (appendConduct rt)
      (fun _ _ _ => True) () db := by
  induction fuel generalizing deleted db with
  | zero => exact behaves_pure fun _ _ _ => trivial
  | succ fuel ih =>
    rw [pruneBatches]
    refine behaves_keeping_ask_bind fun db₁ _ hchain₁ reply db₂ hdelete => ?_
    have hledger : db₂.ledger = db₁.ledger := by
      cases reply with
      | ok n =>
        obtain ⟨ids, -, -, rfl⟩ := hdelete
        rfl
      | error error =>
        obtain rfl : db₂ = db₁ := hdelete
        rfl
    refine ⟨?_, ?_, ?_⟩
    · rw [hledger]
      exact hchain₁
    · rw [hledger]
    refine behaves_ofExcept_bind (fun _ _ _ _ _ => trivial) fun changes _ => ?_
    split
    · exact behaves_pure fun _ _ _ => trivial
    · exact ih _ db₂

theorem task_behaves (task : LedgerTask) (db : LedgerDb) :
    (task.script rt text).Behaves (appendConduct rt) (fun _ _ _ => True) () db := by
  cases task with
  | persist call =>
    refine behaves_bind (behaves_attempt_bind ?_)
    refine (persistAttempts_behaves _ db).mono fun out s₁ db₁ _ => ?_
    cases out with
    | ok outcome => exact behaves_pure fun _ _ _ => behaves_pure fun _ _ _ => trivial
    | error error => exact behaves_pure fun _ _ _ => behaves_pure fun _ _ _ => trivial
  | prune nowMs =>
    refine behaves_bind ((pruneBatches_behaves _ _ db).mono fun out s₁ db₁ _ => ?_)
    cases out with
    | ok n => exact behaves_pure fun _ _ _ => trivial
    | error error => exact fun _ _ _ => trivial

variable {ι : Type} {tasks : ι → LedgerTask} {events : List LedgerEvent}

/-- The prunes of a task go up to its own cutoff. -/
theorem TaskTrace.cutoff_eq {i : ι} (h : TaskTrace rt events (tasks i))
    {cutoff : String} (hmem : cutoff ∈ pruneCutoffs events) :
    ∃ i nowMs, tasks i = .prune nowMs ∧ cutoff = retentionCutoffIso rt nowMs := by
  cases htask : tasks i with
  | persist call =>
    rw [htask] at h
    rw [h.1] at hmem
    cases hmem
  | prune nowMs =>
    rw [htask] at h
    exact ⟨i, nowMs, htask, h.1 cutoff hmem⟩

variable [DecidableEq ι]

/-- The tasks as programs that run at the same time. -/
def taskPool (rt : LedgerRuntime) (text : Runtime) {ι : Type} (tasks : ι → LedgerTask) :
    ι → Prog LedgerReply (Except HostError Unit × Unit) := fun i => (tasks i).script rt text ()

/-- The rows that each task has written so far. -/
def writtenBy (past : List (ι × LedgerEvent)) (i : ι) : List LedgerWrite :=
  writes (ownEvents i past)

theorem writtenBy_append (past : List (ι × LedgerEvent)) (i : ι) (e : LedgerEvent) :
    writtenBy (past ++ [(i, e)]) =
      Function.update (writtenBy past) i (writtenBy past i ++ writes [e]) := by
  funext j
  rw [writtenBy, ownEvents_append, writes_append, ownEvents_cons, ownEvents_nil]
  by_cases h : i = j
  · subst h
    rw [if_pos rfl, Function.update_self]
    rfl
  · rw [if_neg h, Function.update_of_ne (Ne.symm h)]
    exact append_nil _

variable {e : LedgerEvent}

theorem writtenBy_append_of_no_write (past : List (ι × LedgerEvent)) (i : ι)
    (h : writes [e] = []) : writtenBy (past ++ [(i, e)]) = writtenBy past := by
  rw [writtenBy_append, h, append_nil, Function.update_eq_self]

/-- What holds after any part of a run: the tables are consistent, and the cutoffs are those of
prunes. -/
structure RunInvariant (rt : LedgerRuntime) (tasks : ι → LedgerTask) (past : List (ι × LedgerEvent))
    (db : LedgerDb) : Prop where
  consistent : Consistent rt (writtenBy past) (pruneCutoffs (past.map Prod.snd)) db
  cutoffs : ∀ cutoff ∈ pruneCutoffs (past.map Prod.snd),
    ∃ i nowMs, tasks i = .prune nowMs ∧ cutoff = retentionCutoffIso rt nowMs

variable {past : List (ι × LedgerEvent)}

/-- The cutoffs of a run are those of its prunes, so that only the database is left to look at. -/
theorem RunInvariant.extend {db db' : LedgerDb} {i : ι}
    (h : RunInvariant rt tasks past db)
    (hcutoff : ∀ cutoff ∈ pruneCutoffs [e],
      ∃ i nowMs, tasks i = .prune nowMs ∧ cutoff = retentionCutoffIso rt nowMs)
    (hconsistent : Consistent rt (writtenBy (past ++ [(i, e)]))
      (pruneCutoffs (past.map Prod.snd) ++ pruneCutoffs [e]) db') :
    RunInvariant rt tasks (past ++ [(i, e)]) db' := by
  have hcutoffs : pruneCutoffs ((past ++ [(i, e)]).map Prod.snd) =
      pruneCutoffs (past.map Prod.snd) ++ pruneCutoffs [e] := by
    rw [map_append, pruneCutoffs_append]
    rfl
  refine ⟨hcutoffs ▸ hconsistent, ?_⟩
  rw [hcutoffs]
  exact forall_mem_append.2 ⟨h.cutoffs, hcutoff⟩

/-- A step that changes nothing but the clock or its own knowledge. -/
theorem RunInvariant.read {db : LedgerDb} {i : ι}
    (h : RunInvariant rt tasks past db) (hwrite : writes [e] = [])
    (hcutoff : ∀ cutoff ∈ pruneCutoffs [e],
      ∃ i nowMs, tasks i = .prune nowMs ∧ cutoff = retentionCutoffIso rt nowMs) :
    RunInvariant rt tasks (past ++ [(i, e)]) db := by
  refine h.extend hcutoff ?_
  rw [writtenBy_append_of_no_write past i hwrite]
  exact h.consistent.mono

/-- The row that a task has added is one for its record. -/
theorem TaskTrace.recordId_eq {events : List LedgerEvent} {task : LedgerTask}
    (h : TaskTrace rt events task) {record : DecisionRecordRow} {row : LedgerRow}
    (hrecord : .record record ∈ writes events) (hrow : .row row ∈ writes events) :
    row.recordId = record.id := by
  cases task with
  | prune nowMs =>
    rw [h.2] at hrow
    cases hrow
  | persist call =>
    obtain ⟨-, n, reevaluated, row', hof, hinitial⟩ := h
    have hrecord' := hinitial.subset hrecord
    have hrow' := hinitial.subset hrow
    simp only [mem_cons, not_mem_nil, or_false, LedgerWrite.record.injEq, LedgerWrite.row.injEq,
      reduceCtorEq, false_or] at hrecord' hrow'
    subst hrecord' hrow'
    exact hof.recordId_eq

theorem mem_of_record_mem_writes
    (h : .record record ∈ writes events) : ⟨.insertRecord record, .ok ()⟩ ∈ events := by
  obtain ⟨⟨call, reply⟩, he, hwrite⟩ := mem_filterMap.1 h
  cases call with
  | insertRecord row =>
    cases reply with
    | ok _ =>
      cases hwrite
      exact he
    | error error => cases hwrite
  | insertLedgerRow row => cases reply <;> cases hwrite
  | nowIso | readTip | countRevisions | deleteExpired => cases hwrite

/-- A task that adds a record has added nothing before; one that adds a row has added the record. -/
theorem TaskTrace.before_write
    (h : TaskTrace rt (events ++ [e]) task) {w : LedgerWrite} (hwrite : writes [e] = [w]) :
    ∃ call, task = .persist call ∧ ∃ n reevaluated,
      (writes events = [] ∧ w = .record (call.row n reevaluated)) ∨
      (writes events = [.record (call.row n reevaluated)] ∧ ∃ row : LedgerRow, w = .row row ∧
        row.IsOf (nextRevisionId call.head.baseId n) call.recordDigest) := by
  cases task with
  | prune nowMs =>
    obtain ⟨-, hnone⟩ := h
    rw [writes_append, hwrite] at hnone
    simp at hnone
  | persist call =>
    obtain ⟨-, n, reevaluated, row, hrow, hinitial⟩ := h
    rw [writes_append, hwrite] at hinitial
    refine ⟨call, rfl, n, reevaluated, ?_⟩
    cases hevents : writes events with
    | nil =>
      rw [hevents] at hinitial
      obtain ⟨rfl, -⟩ := cons_prefix_cons.1 hinitial
      exact Or.inl ⟨rfl, rfl⟩
    | cons first rest =>
      rw [hevents, cons_append] at hinitial
      obtain ⟨rfl, hrest⟩ := cons_prefix_cons.1 hinitial
      cases rest with
      | nil =>
        obtain ⟨rfl, -⟩ := cons_prefix_cons.1 hrest
        exact Or.inr ⟨rfl, row, rfl, hrow⟩
      | cons second rest =>
        obtain ⟨-, hrest⟩ := cons_prefix_cons.1 hrest
        simp at hrest

/-- An orderly step keeps the invariant. -/
theorem RunInvariant.step (hcalls : ∀ i call, tasks i = .persist call → call.Digested rt)
    {db db' : LedgerDb} {i : ι}
    (h : RunInvariant rt tasks past db) (hanswer : db.orderly e.call e.reply db')
    (htrace : TaskTrace rt (ownEvents i past ++ [e]) (tasks i)) :
    RunInvariant rt tasks (past ++ [(i, e)]) db' := by
  have hcutoff : ∀ cutoff ∈ pruneCutoffs [e],
      ∃ i nowMs, tasks i = .prune nowMs ∧ cutoff = retentionCutoffIso rt nowMs := by
    intro cutoff hmem
    refine htrace.cutoff_eq ?_
    rw [pruneCutoffs_append]
    exact mem_append_right _ hmem
  obtain ⟨call, reply⟩ := e
  obtain ⟨hanswer, horderly⟩ := hanswer
  cases call with
  | nowIso =>
    obtain rfl : db' = db := hanswer
    exact h.read rfl hcutoff
  | readTip =>
    obtain ⟨rfl, -⟩ := hanswer
    exact h.read rfl hcutoff
  | countRevisions repoFullName pullNumber headSha =>
    obtain ⟨rfl, -⟩ := hanswer
    exact h.read rfl hcutoff
  | insertRecord record =>
    cases reply with
    | error error =>
      obtain rfl : db' = db := hanswer
      exact h.read rfl hcutoff
    | ok _ =>
      obtain ⟨hnew, rfl⟩ := hanswer
      obtain ⟨call, -, n, reevaluated, ⟨hfirst, hw⟩ | ⟨-, row, hw, -⟩⟩ := htrace.before_write rfl
      · refine h.extend hcutoff ?_
        rw [writtenBy_append]
        exact (h.consistent.insertRecord hnew horderly hfirst).mono
      · cases hw
  | insertLedgerRow row =>
    cases reply with
    | error error =>
      obtain rfl : db' = db := hanswer
      exact h.read rfl hcutoff
    | ok _ =>
      obtain ⟨hfree, rfl⟩ := hanswer
      obtain ⟨call, htask, n, reevaluated, ⟨-, hw⟩ | ⟨hwritten, row', hw, hof⟩⟩ :=
        htrace.before_write rfl
      · cases hw
      · cases hw
        have hmatch := (hcalls i call htask).contentMatches n reevaluated hof.recordDigest_eq
        refine h.extend hcutoff ?_
        rw [writtenBy_append]
        exact (h.consistent.insertLedgerRow hfree hwritten hof.recordId_eq.symm hmatch).mono
  | deleteExpired cutoff batchSize =>
    cases reply with
    | error error =>
      obtain rfl : db' = db := hanswer
      exact h.read rfl hcutoff
    | ok n =>
      obtain ⟨ids, -, -, rfl⟩ := hanswer
      refine h.extend hcutoff ?_
      rw [writtenBy_append_of_no_write past i rfl]
      exact h.consistent.deleteRecords horderly

variable {trace : List (ι × LedgerEvent)}
  {pool' : ι → Prog LedgerReply (Except HostError Unit × Unit)} {db : LedgerDb}

/-- An orderly run of tasks from empty tables keeps the invariant. -/
theorem run_invariant (hcalls : ∀ i call, tasks i = .persist call → call.Digested rt)
    (hrun : Interleaves orderly (taskPool rt text tasks) empty trace pool' db) :
    RunInvariant rt tasks trace db := by
  refine hrun.history_induction ?_ ?_
  · refine ⟨⟨?_, ?_, ?_, ?_, ?_⟩, ?_⟩
    · exact fun record hrecord => (not_mem_nil hrecord).elim
    · exact fun i record hrecord => (not_mem_nil hrecord).elim
    · exact fun i j record record' hrecord => (not_mem_nil hrecord).elim
    · exact fun row hrow => (not_mem_nil hrow).elim
    · exact fun row hrow => (not_mem_nil hrow).elim
    · exact fun cutoff hcutoff => (not_mem_nil hcutoff).elim
  · rintro past db₁ i e db₂ hinv hanswer ⟨p', hfollows⟩
    exact hinv.step hcalls hanswer (task_trace_of_follows hfollows)

theorem run_chained (hrun : Interleaves orderly (taskPool rt text tasks) empty trace pool' db) :
    Chained rt db.ledger := by
  have hanswers : Interleaves (appendConduct rt).answers (taskPool rt text tasks)
      empty trace
      pool' db := hrun.mono fun _ _ _ _ h => h.1
  exact (hanswers.behaves trivial fun i => task_behaves (tasks i) empty).1

/-- When every call that stored a record has added its row, every stored record has a row. -/
theorem run_no_orphans (hcalls : ∀ i call, tasks i = .persist call → call.Digested rt)
    (hrun : Interleaves orderly (taskPool rt text tasks) empty trace pool' db)
    (happend : ∀ i record, (i, ⟨.insertRecord record, .ok ()⟩) ∈ trace →
      ∃ row, (i, ⟨.insertLedgerRow row, .ok ()⟩) ∈ trace)
    (nowMs : ℤ) : dueOrphans rt db nowMs = [] := by
  have hanswers : Interleaves answers (taskPool rt text tasks) empty
      trace pool' db :=
    hrun.mono fun _ _ _ _ h => h.1
  refine filter_eq_nil_iff.2 fun record hrecord => ?_
  suffices hrow : ∃ row ∈ db.ledger, row.recordId = record.id by
    simpa [isOrphan] using fun _ => hrow
  obtain ⟨i, hwritten⟩ := (run_invariant hcalls hrun).consistent.source record hrecord
  obtain ⟨row, hrow⟩ := happend i record (mem_ownEvents.1 (mem_of_record_mem_writes hwritten))
  have hledger : row ∈ db.ledger := by
    refine (evolves_ledger hanswers.evolves).mem_iff.2 (mem_append_right _ ?_)
    exact mem_filterMap.2 ⟨_, mem_map_of_mem hrow, rfl⟩
  refine ⟨row, hledger, ?_⟩
  -- both are of the same call, which adds one record and one row for it
  have htrace := task_trace_of_follows (hrun.follows i)
  have hown : .row row ∈ writes (ownEvents i trace) :=
    mem_filterMap.2 ⟨_, mem_ownEvents.2 hrow, rfl⟩
  exact htrace.recordId_eq hwritten hown

end Runs

/-! ## Verification after a run -/

/-- In four-digit years, the order of the texts of `toISOString` is that of the times. -/
def LedgerRuntime.IsoOrdered (rt : LedgerRuntime) : Prop :=
  ∀ s t, InFourDigitYear s → InFourDigitYear t → s ≤ t → rt.toISOString s ≤ rt.toISOString t

/-- The retention cutoff of a time lies in a four-digit year. -/
def HasIsoCutoff (nowMs : ℤ) : Prop :=
  InFourDigitYear (nowMs - decisionRecordsRetentionDays * msPerDay)

theorem LedgerRuntime.IsoOrdered.cutoff_le {rt : LedgerRuntime} (h : rt.IsoOrdered) {s t : ℤ}
    (hs : HasIsoCutoff s) (ht : HasIsoCutoff t) (hle : s ≤ t) :
    retentionCutoffIso rt s ≤ retentionCutoffIso rt t :=
  h _ _ hs ht (by omega)

theorem LedgerDb.findRecord_eq_some {db : LedgerDb} {id : String}
    (hrecord : record ∈ db.records) (hid : record.id = id) : db.findRecord id = some record := by
  cases hfind : db.findRecord id with
  | none =>
    have := List.find?_eq_none.1 hfind record hrecord
    simp [hid] at this
  | some found =>
    have hfound : found.id = id := by simpa using List.find?_some hfind
    rw [inj_on_of_nodup_map db.records_nodup (mem_of_find?_eq_some hfind) hrecord
      (hfound.trans hid.symm)]

/-- **No false alarm after an orderly run.** Any number of calls and prunes run at the same time,
from empty tables, and every call that stored a record has appended it. When each step was in order,
and the ledger is verified no earlier than the prunes ran, every window of the walk is fine. -/
theorem retention_no_false_alarm (rt : LedgerRuntime) (text : Runtime) (hiso : rt.IsoOrdered)
    {ι : Type} [DecidableEq ι] (tasks : ι → LedgerTask)
    (hcalls : ∀ i call, tasks i = .persist call → call.Digested rt)
    {trace : List (ι × LedgerEvent)} {pool' : ι → Prog LedgerReply (Except HostError Unit × Unit)}
    {db : LedgerDb}
    (hrun : Interleaves orderly (taskPool rt text tasks) empty trace pool' db)
    (happend : ∀ i record, (i, ⟨.insertRecord record, .ok ()⟩) ∈ trace →
      ∃ row, (i, ⟨.insertLedgerRow row, .ok ()⟩) ∈ trace)
    (waivers : LedgerWaivers) (windows : ℕ → LedgerWindow)
    (hwindows : ∀ j, HasIsoCutoff (windows j).nowMs)
    (hlater : ∀ i nowMs, tasks i = .prune nowMs →
      HasIsoCutoff nowMs ∧ ∀ j, nowMs ≤ (windows j).nowMs) :
    ∀ result ∈ walkLedger rt db waivers windows, result.ok = true := by
  have hinv := run_invariant hcalls hrun
  have hchain := run_chained hrun
  have hrows : db.chainRows = db.ledger := by
    refine filter_eq_self.2 fun row hrow => ?_
    have := hchain.seq_mem hrow
    simp only [decide_eq_true_eq]
    omega
  have hwalk := walkLedger_walk rt db waivers windows
  rw [hrows] at hwalk
  refine hwalk.all_ok hchain ?_ ?_ fun j => run_no_orphans hcalls hrun happend _
  · intro j row hrow hmissing
    rcases hinv.consistent.accounted row hrow with ⟨record, hrecord, hid, -⟩ |
      ⟨-, cutoff, hcutoff, hlt⟩
    · rw [findRecord_eq_some hrecord hid] at hmissing
      cases hmissing
    · obtain ⟨i, nowMs, htask, rfl⟩ := hinv.cutoffs cutoff hcutoff
      obtain ⟨hrange, hafter⟩ := hlater i nowMs htask
      exact lt_of_lt_of_le hlt (hiso.cutoff_le hrange (hwindows j) (hafter j))
  · intro row hrow
    unfold contentBreak
    rcases hinv.consistent.accounted row hrow with ⟨record, hrecord, hid, hmatch⟩ | ⟨hmissing, -⟩
    · rw [findRecord_eq_some hrecord hid]
      simp [hmatch]
    · cases hfind : db.findRecord row.recordId with
      | none => rfl
      | some found =>
        have hid : found.id = row.recordId := by simpa using List.find?_some hfind
        exact absurd (hid ▸ mem_map_of_mem (mem_of_find?_eq_some hfind)) hmissing

/-! ## A record that is pruned -/

theorem LedgerDb.deleteRecords_all {db : LedgerDb} {ids : List String}
    (h : ∀ row ∈ db.records, row.id ∈ ids) : (db.deleteRecords ids).records = [] := by
  refine filter_eq_nil_iff.2 fun row hrow => ?_
  simpa using h row hrow

/-- An evaluation of the head, and the prune of July. -/
def widgetTasks (decidedAt : String) : Bool → LedgerTask
  | false => .persist (widgetCall decidedAt)
  | true => .prune julyNowMs

/-- The ledger row of the evaluation. -/
def widgetRow (decidedAt appendedAt : String) : LedgerRow :=
  nextLedgerRow widgetRuntime none (nextRevisionId widgetHead.baseId 0)
    (widgetCall decidedAt).recordDigest appendedAt

/-- The record is stored and appended. -/
def widgetPersist (decidedAt appendedAt : String) : List LedgerEvent :=
  [⟨.countRevisions widgetHead.storedRepo 7 "c0ffee", .ok 0⟩,
    ⟨.insertRecord ((widgetCall decidedAt).row 0 none), .ok ()⟩, ⟨.readTip, .ok none⟩,
    ⟨.nowIso, appendedAt⟩, ⟨.insertLedgerRow (widgetRow decidedAt appendedAt), .ok ()⟩]

/-- The prune deletes one record. -/
def widgetPrune : List LedgerEvent :=
  [⟨.deleteExpired (retentionCutoffIso widgetRuntime julyNowMs) pruneBatchSize, .ok 1⟩]

/-- The record is stored and appended, and later pruned. -/
def widgetTrace (decidedAt appendedAt : String) : List (Bool × LedgerEvent) :=
  (widgetPersist decidedAt appendedAt).map (Prod.mk false) ++ widgetPrune.map (Prod.mk true)

/-- The tables after the evaluation. -/
def widgetStored (decidedAt appendedAt : String) : LedgerDb where
  ledger := [widgetRow decidedAt appendedAt]
  records := [(widgetCall decidedAt).row 0 none]
  ledger_sorted := pairwise_singleton _ _
  records_nodup := nodup_singleton _

/-- The tables after the prune. -/
def widgetPruned (decidedAt appendedAt : String) : LedgerDb where
  ledger := [widgetRow decidedAt appendedAt]
  records := []
  ledger_sorted := pairwise_singleton _ _
  records_nodup := nodup_nil

section Widget

variable (decidedAt appendedAt : String)

theorem widgetPersist_follows :
    ((widgetTasks decidedAt false).script widgetRuntime asciiRuntime ()).Follows
      (widgetPersist decidedAt appendedAt) (.ret (.ok (), ())) := by
  unfold widgetTasks LedgerTask.script persistDecisionRecord persistAttempts
  exact ⟨_, rfl, _, rfl, _, rfl, _, rfl, _, rfl, rfl⟩

theorem widgetPrune_follows :
    ((widgetTasks decidedAt true).script widgetRuntime asciiRuntime ()).Follows widgetPrune
      (.ret (.ok (), ())) := by
  exact ⟨_, rfl, rfl⟩

/-- The evaluation is in order. -/
theorem widgetPersist_evolves :
    Evolves orderly .empty (widgetPersist decidedAt appendedAt)
      (widgetStored decidedAt appendedAt) := by
  let stored := empty.insertRecord ((widgetCall decidedAt).row 0 none) not_mem_nil
  refine ⟨.empty, ⟨⟨rfl, fun n h => (Except.ok.inj h).symm⟩, trivial⟩, stored, ?_,
    stored, ?_, stored,
    ⟨rfl, trivial⟩, _, ?_, rfl⟩
  · exact ⟨⟨not_mem_nil, rfl⟩, fun row hrow => (not_mem_nil hrow).elim⟩
  · exact ⟨⟨rfl, fun tip h => (Except.ok.inj h).symm⟩, trivial⟩
  · exact ⟨⟨fun row hrow => (not_mem_nil hrow).elim, rfl⟩, trivial⟩

/-- The prune deletes the record, which is older than the cutoff. -/
theorem widgetPrune_answers (hexpired : decidedAt < retentionCutoffIso widgetRuntime julyNowMs) :
    answers (widgetStored decidedAt appendedAt)
      (.deleteExpired (retentionCutoffIso widgetRuntime julyNowMs) pruneBatchSize) (.ok 1)
      (widgetPruned decidedAt appendedAt) := by
  have hid : ∀ row ∈ (widgetStored decidedAt appendedAt).records,
      row.id ∈ [nextRevisionId widgetHead.baseId 0] := by
    intro row hrow
    obtain rfl := mem_singleton.1 hrow
    exact mem_singleton_self _
  refine ⟨[nextRevisionId widgetHead.baseId 0], ⟨nodup_singleton _, ?_, ?_, ?_, ?_⟩, rfl, ?_⟩
  · intro id hmem
    obtain rfl := mem_singleton.1 hmem
    exact ⟨_, mem_singleton_self _, rfl, hexpired⟩
  · exact (by decide : 1 ≤ 1000)
  · exact fun _ row hrow _ => hid row hrow
  · exact fun gone _ _ row hrow _ hkept => absurd (hid row hrow) hkept
  · exact LedgerDb.ext rfl (deleteRecords_all hid).symm

/-- The run, under answers that allow the prune. -/
theorem widget_interleaves {answers : Answers LedgerReply LedgerDb}
    (hle : ∀ db call reply db', orderly db call reply db' → answers db call reply db')
    (hprune : answers (widgetStored decidedAt appendedAt)
      (.deleteExpired (retentionCutoffIso widgetRuntime julyNowMs) pruneBatchSize) (.ok 1)
      (widgetPruned decidedAt appendedAt)) :
    ∃ pool', Interleaves answers (taskPool widgetRuntime asciiRuntime (widgetTasks decidedAt))
        .empty (widgetTrace decidedAt appendedAt) pool' (widgetPruned decidedAt appendedAt) ∧
      ∀ i, ∃ value, pool' i = .ret value := by
  refine Interleaves.exists_calls (widgetPersist_follows decidedAt appendedAt)
    ((widgetPersist_evolves decidedAt appendedAt).mono hle) ?_
  rw [← append_nil (widgetPrune.map (Prod.mk true))]
  refine Interleaves.exists_calls (widgetPrune_follows decidedAt) ⟨_, hprune, rfl⟩ ?_
  refine ⟨_, .done _ _, fun i => ?_⟩
  cases i with
  | false => exact ⟨_, rfl⟩
  | true => exact ⟨_, rfl⟩

/-- Every record of the run has been appended. -/
theorem widgetTrace_appended (i : Bool) (record : DecisionRecordRow)
    (h : (i, ⟨.insertRecord record, .ok ()⟩) ∈ widgetTrace decidedAt appendedAt) :
    ∃ row, (i, ⟨.insertLedgerRow row, .ok ()⟩) ∈ widgetTrace decidedAt appendedAt := by
  cases i with
  | false => exact ⟨widgetRow decidedAt appendedAt, by simp [widgetTrace, widgetPersist]⟩
  | true => simp [widgetTrace, widgetPersist, widgetPrune] at h

end Widget

/-- Windows of a hundred rows, on the day of the prune. -/
def julyWindows : ℕ → LedgerWindow := fun _ => ⟨100, julyNowMs⟩

theorem widgetRuntime_isoOrdered : widgetRuntime.IsoOrdered := by
  have hlater : ("2026-01-16T00:00:00.000Z" : String) ≤ "2026-07-14T23:55:00.000Z" := by decide
  intro s t _ _ hle
  simp only [widgetRuntime]
  split_ifs
  · exact le_refl _
  · exact hlater
  · omega
  · exact le_refl _

/-- The parser of the concrete runs restores the texts that it knows. -/
theorem find_canonicalJson {values : List Json} {value : Json} (h : value ∈ values) :
    (values.find? fun v => canonicalJson v == canonicalJson value).map canonicalJson =
      some (canonicalJson value) := by
  cases hfind : values.find? fun v => canonicalJson v == canonicalJson value with
  | none => simpa using List.find?_eq_none.1 hfind value h
  | some found => simpa using List.find?_some hfind

theorem widgetCall_digested {decidedAt : String} (h : decidedAt ∈ widgetDigests.map Prod.fst) :
    (widgetCall decidedAt).Digested widgetRuntime := by
  have hknown : (widgetRecord decidedAt).toJson ∈
      widgetDigests.map fun entry => (widgetRecord entry.1).toJson := by
    obtain ⟨entry, hentry, rfl⟩ := mem_map.1 h
    exact mem_map_of_mem hentry
  have hrecord : (widgetCall decidedAt).record = widgetRecord decidedAt := rfl
  have hparse : ∀ text, widgetRuntime.jsonParse text =
      (widgetDigests.map fun entry => (widgetRecord entry.1).toJson).find? fun value =>
        canonicalJson value == text := fun _ => rfl
  constructor
  · simp only [widgetCall]
  · rw [hrecord, hparse]
    exact find_canonicalJson hknown

theorem july_hasIsoCutoff : HasIsoCutoff julyNowMs := by
  unfold HasIsoCutoff InFourDigitYear julyNowMs decisionRecordsRetentionDays msPerDay
  omega

theorem retention_no_false_alarm_pruned :
    ∃ pool' db, Interleaves orderly
        (taskPool widgetRuntime asciiRuntime (widgetTasks "2026-01-01T00:00:00.000Z")) .empty
        (widgetTrace "2026-01-01T00:00:00.000Z" "2026-01-01T00:00:00.100Z") pool' db ∧
      db.ledger.length = 1 ∧ db.records = [] ∧
      ∀ result ∈ walkLedger widgetRuntime db {} julyWindows, result.ok = true := by
  have hcutoff : retentionCutoffIso widgetRuntime julyNowMs = "2026-01-16T00:00:00.000Z" := rfl
  have hexpired : "2026-01-01T00:00:00.000Z" < retentionCutoffIso widgetRuntime julyNowMs := by
    rw [hcutoff]
    decide
  have hold : "2026-01-01T00:00:00.100Z" < retentionCutoffIso widgetRuntime julyNowMs := by
    rw [hcutoff]
    decide
  have horderly : orderly
      (widgetStored "2026-01-01T00:00:00.000Z" "2026-01-01T00:00:00.100Z")
      (.deleteExpired (retentionCutoffIso widgetRuntime julyNowMs) pruneBatchSize) (.ok 1)
      (widgetPruned "2026-01-01T00:00:00.000Z" "2026-01-01T00:00:00.100Z") := by
    refine ⟨widgetPrune_answers _ _ hexpired, fun record hrecord _ => ?_⟩
    obtain rfl := mem_singleton.1 hrecord
    refine ⟨⟨_, mem_singleton_self _, rfl⟩, fun row hrow _ => ?_⟩
    obtain rfl := mem_singleton.1 hrow
    exact hold
  obtain ⟨pool', hrun, -⟩ := widget_interleaves _ _ (fun _ _ _ _ h => h) horderly
  refine ⟨pool', _, hrun, rfl, rfl, ?_⟩
  refine retention_no_false_alarm widgetRuntime asciiRuntime widgetRuntime_isoOrdered
    (widgetTasks "2026-01-01T00:00:00.000Z") ?_ hrun (widgetTrace_appended _ _) {} julyWindows
    (fun _ => july_hasIsoCutoff) ?_
  · intro i call htask
    cases i with
    | false =>
      cases htask
      exact widgetCall_digested mem_cons_self
    | true => cases htask
  · intro i nowMs htask
    cases i with
    | false => cases htask
    | true =>
      cases htask
      exact ⟨july_hasIsoCutoff, fun _ => le_refl _⟩

/-- A row that is too young for its record to be gone ends the walk. -/
theorem widgetPruned_walk (decidedAt : String) {appendedAt : String}
    (hyoung : ¬appendedAt < retentionCutoffIso widgetRuntime julyNowMs) :
    ∃ result ∈ walkLedger widgetRuntime (widgetPruned decidedAt appendedAt) {} julyWindows,
      result.ok = false ∧
        result.brk = some (.missingRecord 1 (nextRevisionId widgetHead.baseId 0)) := by
  have hrows : (widgetPruned decidedAt appendedAt).chainRows =
      [widgetRow decidedAt appendedAt] := rfl
  have hbreak : firstBreak widgetRuntime (widgetPruned decidedAt appendedAt) julyNowMs
      ledgerGenesisHash 1
      ((widgetPruned decidedAt appendedAt).chainRows.take (boundedLimit 100)) =
        some (.missingRecord 1 (nextRevisionId widgetHead.baseId 0)) := by
    have hrow : rowBreak widgetRuntime (widgetPruned decidedAt appendedAt) julyNowMs
        ledgerGenesisHash 1
        (widgetRow decidedAt appendedAt) =
          some (.missingRecord 1 (nextRevisionId widgetHead.baseId 0)) :=
      rowBreak_of_missing rfl rfl (nextLedgerRow_rowHash _ _ _ _) rfl hyoung
    rw [hrows, take_of_length_le (by decide : 1 ≤ boundedLimit 100), firstBreak, hrow,
      Option.some_or]
  obtain ⟨hok, hbrk, hnext, -⟩ := (Cursor.start _).verify_of_break 100 {} hbreak
  refine ⟨_, ?_, hok, hbrk⟩
  rw [walkLedger, walkFrom]
  simp only [julyWindows, hnext]
  exact mem_singleton_self _

/-- **A false alarm.** A record is stored just before the cutoff of a later prune and appended just
after it. Retention removes the record, but its ledger row is too young to excuse that. -/
theorem append_gap_false_alarm :
    ∃ pool' db, Interleaves answers
        (taskPool widgetRuntime asciiRuntime (widgetTasks "2026-01-15T23:59:59.900Z")) .empty
        (widgetTrace "2026-01-15T23:59:59.900Z" "2026-01-16T00:00:00.100Z") pool' db ∧
      (∀ i, ∃ value, pool' i = .ret value) ∧
      ∃ result ∈ walkLedger widgetRuntime db {} julyWindows, result.ok = false ∧
        result.brk = some (.missingRecord 1 "record:acme/widgets#7@c0ffee") := by
  have hcutoff : retentionCutoffIso widgetRuntime julyNowMs = "2026-01-16T00:00:00.000Z" := rfl
  have hid : nextRevisionId widgetHead.baseId 0 = "record:acme/widgets#7@c0ffee" := by decide
  have hexpired : "2026-01-15T23:59:59.900Z" < retentionCutoffIso widgetRuntime julyNowMs := by
    rw [hcutoff]
    decide
  have hyoung : ¬"2026-01-16T00:00:00.100Z" < retentionCutoffIso widgetRuntime julyNowMs := by
    rw [hcutoff]
    decide
  obtain ⟨pool', hrun, hended⟩ := widget_interleaves "2026-01-15T23:59:59.900Z"
    "2026-01-16T00:00:00.100Z" (fun _ _ _ _ h => h.1) (widgetPrune_answers _ _ hexpired)
  have hwalk := widgetPruned_walk "2026-01-15T23:59:59.900Z" hyoung
  rw [hid] at hwalk
  exact ⟨pool', _, hrun, hended, hwalk⟩

end LoopOver
