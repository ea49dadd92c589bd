import LoopOver.Ledger.Store

/-!
# Appending to the ledger

`appendDecisionLedger` of `src/review/decision-record.ts`. An attempt reads the tip, hashes the new
row on top of it and inserts the row under the next sequence number; a concurrent append that was
faster has taken that number, the insert fails and the attempt is repeated, a bounded number of
times.

* `appendDecisionLedger_behaves` says that an append keeps the chain, whatever other appends do in
  between.
* `append_concurrent` is the ledger under any interleaving of any number of appends.
-/

namespace LoopOver

open List Script
open LedgerDb

/-- The row that an attempt inserts on top of the tip it has read. -/
def nextLedgerRow (rt : LedgerRuntime) (tip : Option LedgerTip)
    (recordId recordDigest createdAt : String) :
    LedgerRow :=
  let seq := (tip.map LedgerTip.seq).getD 0 + 1
  let prevHash := (tip.map LedgerTip.rowHash).getD ledgerGenesisHash
  { seq := seq
    recordId := recordId
    recordDigest := recordDigest
    prevHash := prevHash
    rowHash := ledgerRowHash rt prevHash ⟨seq, recordId, recordDigest, createdAt⟩
    createdAt := createdAt }

theorem nextLedgerRow_rowHash (rt : LedgerRuntime) (recordId recordDigest createdAt : String) :
    ledgerRowHash rt ledgerGenesisHash
      (nextLedgerRow rt none recordId recordDigest createdAt).fields =
      (nextLedgerRow rt none recordId recordDigest createdAt).rowHash := rfl

/-- Append one chain row for a persisted record, in at most `attempts` attempts. -/
def appendDecisionLedger (rt : LedgerRuntime) (recordId recordDigest : String) :
    ℕ → LedgerScript Unit
  | 0 => pure ()
  | attempts + 1 => do
    let tip ← ofExcept (← query .readTip)
    let createdAt ← query .nowIso
    match ← query (.insertLedgerRow (nextLedgerRow rt tip recordId recordDigest createdAt)) with
    | .ok () => pure ()
    | .error error =>
      if attempts = 0 then ofExcept (.error error)
      else appendDecisionLedger rt recordId recordDigest attempts

/-! ## Appends keep the chain -/

/-- Appends agree that the ledger is a chain and that it only grows at its end. -/
def appendConduct (rt : LedgerRuntime) : Conduct LedgerReply LedgerDb :=
  .keeping answers (fun db => Chained rt db.ledger)
    (fun db db' => db.ledger <+: db'.ledger)
    (fun _ => prefix_rfl) fun _ _ _ => List.IsPrefix.trans

variable {rt : LedgerRuntime} {recordId recordDigest createdAt : String}

/-- The row on top of the tip continues the chain. -/
theorem chained_append_nextLedgerRow (recordId recordDigest createdAt : String) {db : LedgerDb}
    (h : Chained rt db.ledger) :
    (∀ r ∈ db.ledger, r.seq < (nextLedgerRow rt db.tip recordId recordDigest createdAt).seq) ∧
      Chained rt (db.ledger ++ [nextLedgerRow rt db.tip recordId recordDigest createdAt]) := by
  have hseq : (db.tip.map LedgerTip.seq).getD 0 = (db.ledger.length : ℤ) := by
    rw [tip]
    cases hlast : db.ledger.getLast? with
    | none =>
      rw [List.getLast?_eq_none_iff] at hlast
      simp [hlast]
    | some row =>
      rw [List.getLast?_eq_getElem?] at hlast
      have := h.seq_getElem hlast
      have hpos : 0 < db.ledger.length := by
        by_contra hzero
        simp [length_eq_zero_iff.1 (Nat.eq_zero_of_not_pos hzero)] at hlast
      simp only [Option.map_some, Option.getD_some]
      omega
  have hhash : (db.tip.map LedgerTip.rowHash).getD ledgerGenesisHash =
      lastHash ledgerGenesisHash db.ledger := by
    rw [lastHash_eq_getLast, tip]
    cases db.ledger.getLast? <;> rfl
  have hnext : (nextLedgerRow rt db.tip recordId recordDigest createdAt).seq =
      (db.ledger.length : ℤ) + 1 := by
    rw [← hseq]
    rfl
  refine ⟨fun r hr => ?_, chainedFrom_append.2 ⟨h, ⟨?_, ?_, ?_⟩, trivial⟩⟩
  · have := (h.seq_mem hr).2
    omega
  · omega
  · exact hhash
  · rw [← hhash]
    rfl

/-- A number that is free on a longer chain is the next one: nobody was faster. -/
theorem prefix_eq_of_free {rows rows' : List LedgerRow} (h : Chained rt rows')
    (hinitial : rows <+: rows') (hfree : ∀ r ∈ rows', r.seq ≠ (rows.length : ℤ) + 1) :
    rows = rows' := by
  refine hinitial.eq_of_length (le_antisymm hinitial.length_le ?_)
  by_contra hlonger
  obtain ⟨row, hrow, hseq⟩ := h.exists_seq (Nat.lt_of_not_le hlonger)
  exact hfree row hrow (by omega)

/-- A row made on top of an earlier tip that still finds its number free extends the chain. -/
theorem insertLedgerRow_next {db₀ db : LedgerDb} (hchain₀ : Chained rt db₀.ledger)
    (hchain : Chained rt db.ledger) (hinitial : db₀.ledger <+: db.ledger)
    (hfree : ∀ r ∈ db.ledger,
      r.seq ≠ (nextLedgerRow rt db₀.tip recordId recordDigest createdAt).seq) :
    Chained rt
      (db.insertLedgerRow (nextLedgerRow rt db₀.tip recordId recordDigest createdAt)).ledger ∧
      db.ledger <+:
        (db.insertLedgerRow (nextLedgerRow rt db₀.tip recordId recordDigest createdAt)).ledger := by
  obtain ⟨hlast, hnext⟩ := chained_append_nextLedgerRow recordId recordDigest createdAt hchain₀
  have hseq : (nextLedgerRow rt db₀.tip recordId recordDigest createdAt).seq =
      (db₀.ledger.length : ℤ) + 1 := by
    have := hnext.seq_getElem List.getElem?_concat_length
    omega
  have hsame : db₀.ledger = db.ledger := prefix_eq_of_free hchain hinitial (by rwa [hseq] at hfree)
  have hinsert : (db.insertLedgerRow
      (nextLedgerRow rt db₀.tip recordId recordDigest createdAt)).ledger =
      db.ledger ++ [nextLedgerRow rt db₀.tip recordId recordDigest createdAt] := by
    rw [hsame] at hlast
    exact insertBySeq_eq_append hlast
  rw [hinsert, ← hsame]
  exact ⟨hnext, prefix_append _ _⟩

/-- An append keeps the chain, whatever the other appends do between its steps. -/
theorem appendDecisionLedger_behaves (attempts : ℕ) (db : LedgerDb) :
    (appendDecisionLedger rt recordId recordDigest attempts).Behaves (appendConduct rt)
      (fun _ _ _ => True) () db := by
  induction attempts generalizing db with
  | zero => exact behaves_pure fun _ _ _ => trivial
  | succ attempts ih =>
    rw [appendDecisionLedger]
    refine behaves_keeping_ask_bind fun db₀ _ hchain₁ reply db₁ hread => ?_
    obtain ⟨rfl, htip⟩ := hread
    refine ⟨hchain₁, prefix_rfl, ?_⟩
    refine behaves_ofExcept_bind (fun _ _ _ _ _ => trivial) fun tip hreply => ?_
    obtain rfl := htip tip hreply
    refine behaves_keeping_ask_bind fun db₂ hrely₁ hchain₂ createdAt db₃ hnow => ?_
    obtain rfl : db₃ = db₂ := hnow
    refine ⟨hchain₂, prefix_rfl, ?_⟩
    refine behaves_keeping_ask_bind fun db₄ hrely₂ hchain₄ inserted db₅ hinsert => ?_
    -- the row was made on top of the tip of `db₁`, and it goes into `db₄`
    cases inserted with
    | error error =>
      obtain rfl : db₅ = db₄ := hinsert
      refine ⟨hchain₄, prefix_rfl, ?_⟩
      dsimp only
      split
      · exact behaves_ofExcept fun _ _ _ => trivial
      · exact ih db₅
    | ok _ =>
      obtain ⟨hfree, rfl⟩ := hinsert
      have hledger := insertLedgerRow_next hchain₁ hchain₄ (hrely₁.trans hrely₂) hfree
      refine ⟨hledger.1, hledger.2, behaves_pure fun _ _ _ => trivial⟩

/-! ## What each append adds -/

/-- The rows that the inserts among the events have added. -/
def acceptedRows (events : List LedgerEvent) : List LedgerRow :=
  events.filterMap fun
    | ⟨.insertLedgerRow row, .ok ()⟩ => some row
    | _ => none

theorem acceptedRows_append (front back : List LedgerEvent) :
    acceptedRows (front ++ back) = acceptedRows front ++ acceptedRows back :=
  filterMap_append

/-- One statement adds to the ledger what it was accepted with. -/
theorem LedgerDb.answers_ledger {db db' : LedgerDb} {e : LedgerEvent}
    (h : answers db e.call e.reply db') :
    db'.ledger.Perm (db.ledger ++ acceptedRows [e]) := by
  obtain ⟨call, reply⟩ := e
  cases call with
  | nowIso =>
    obtain rfl : db' = db := h
    simp [acceptedRows]
  | readTip =>
    obtain ⟨rfl, -⟩ := h
    simp [acceptedRows]
  | insertLedgerRow row =>
    cases reply with
    | ok _ =>
      obtain ⟨hfree, rfl⟩ := h
      exact insertBySeq_perm hfree
    | error error =>
      obtain rfl : db' = db := h
      simp [acceptedRows]
  | countRevisions repoFullName pullNumber headSha =>
    obtain ⟨rfl, -⟩ := h
    simp [acceptedRows]
  | insertRecord row =>
    cases reply with
    | ok _ =>
      obtain ⟨hnew, rfl⟩ := h
      simp [acceptedRows, insertRecord]
    | error error =>
      obtain rfl : db' = db := h
      simp [acceptedRows]
  | deleteExpired cutoff batchSize =>
    cases reply with
    | ok n =>
      obtain ⟨ids, -, -, rfl⟩ := h
      simp [acceptedRows, deleteRecords]
    | error error =>
      obtain rfl : db' = db := h
      simp [acceptedRows]

/-- The ledger holds what it held, and the rows that were accepted. -/
theorem LedgerDb.evolves_ledger {db db' : LedgerDb} {events : List LedgerEvent}
    (h : Evolves answers db events db') :
    db'.ledger.Perm (db.ledger ++ acceptedRows events) := by
  induction events generalizing db with
  | nil =>
    obtain rfl : db' = db := h
    simp [acceptedRows]
  | cons e events ih =>
    obtain ⟨db₁, hanswer, hrest⟩ := h
    have hsplit : acceptedRows (e :: events) = acceptedRows [e] ++ acceptedRows events :=
      acceptedRows_append [e] events
    rw [hsplit, ← append_assoc]
    exact (ih hrest).trans ((answers_ledger hanswer).append_right _)

/-- The row is one of an append of this record. -/
structure LedgerRow.IsOf (row : LedgerRow) (recordId recordDigest : String) : Prop where
  recordId_eq : row.recordId = recordId
  recordDigest_eq : row.recordDigest = recordDigest

/-- What an append with the given result adds: one row for its record, or nothing when it threw. -/
def AppendAdds (recordId recordDigest : String) (rows : List LedgerRow) :
    Except HostError Unit → Prop
  | .ok _ => ∃ row : LedgerRow, rows = [row] ∧ row.IsOf recordId recordDigest
  | .error _ => rows = []

/-- An append that returns has added one row, and one that throws has added none. -/
theorem acceptedRows_of_ends {attempts : ℕ} (hpos : 0 < attempts) {t : List LedgerEvent}
    {r : Except HostError Unit} {s' : Unit}
    (h : (appendDecisionLedger rt recordId recordDigest attempts).Ends () t r s') :
    AppendAdds recordId recordDigest (acceptedRows t) r := by
  induction attempts generalizing t with
  | zero => exact absurd hpos (lt_irrefl 0)
  | succ attempts ih =>
    rw [appendDecisionLedger] at h
    obtain ⟨tipReply, t₁, rfl, h₁⟩ := ends_ask_bind.1 h
    rcases ends_ofExcept_bind.1 h₁ with ⟨error, -, rfl, rfl, -⟩ | ⟨tip, -, h₂⟩
    · rfl
    · obtain ⟨createdAt, t₂, rfl, h₃⟩ := ends_ask_bind.1 h₂
      obtain ⟨inserted, t₃, rfl, h₄⟩ := ends_ask_bind.1 h₃
      cases inserted with
      | ok _ =>
        obtain ⟨rfl, rfl, -⟩ := ends_pure.1 h₄
        exact ⟨nextLedgerRow rt tip recordId recordDigest createdAt, rfl, rfl, rfl⟩
      | error error =>
        rcases ends_ite.1 h₄ with ⟨-, h₅⟩ | ⟨hmore, h₅⟩
        · obtain ⟨rfl, rfl, -⟩ := ends_ofExcept.1 h₅
          rfl
        · have hrest := ih (Nat.pos_of_ne_zero hmore) h₅
          exact hrest

/-! ## Concurrent appends -/

/-- A call of `appendDecisionLedger`. -/
structure AppendCall where
  recordId : String
  recordDigest : String
  attempts : ℕ := 3
  attempts_pos : 0 < attempts := by decide

/-- The calls as programs that run at the same time. -/
def appendPool (rt : LedgerRuntime) {ι : Type} (calls : ι → AppendCall) :
    ι → Prog LedgerReply (Except HostError Unit × Unit) := fun i =>
  appendDecisionLedger rt (calls i).recordId (calls i).recordDigest (calls i).attempts ()

/-- **The ledger under concurrent appends.** From an intact ledger, after any steps of any number of
appends in any order, the ledger is intact and extends the one before by the rows that were
accepted; an append that has returned added one of them, for its record, and one that has thrown
added none. -/
theorem append_concurrent (rt : LedgerRuntime) {ι : Type} [DecidableEq ι] (calls : ι → AppendCall)
    {db db' : LedgerDb} {trace : List (ι × LedgerEvent)}
    {pool' : ι → Prog LedgerReply (Except HostError Unit × Unit)} (hchain : Chained rt db.ledger)
    (hrun : Interleaves answers (appendPool rt calls) db trace pool' db') :
    Chained rt db'.ledger ∧ db.ledger <+: db'.ledger ∧
      db'.ledger.Perm (db.ledger ++ acceptedRows (trace.map Prod.snd)) ∧
      ∀ i r, pool' i = .ret (r, ()) →
        AppendAdds (calls i).recordId (calls i).recordDigest
          (acceptedRows (ownEvents i trace)) r := by
  have hpool : ∀ i, (appendPool rt calls i).Behaves (appendConduct rt) (fun _ _ => True) db :=
    fun i => appendDecisionLedger_behaves (calls i).attempts db
  have hrun' : Interleaves (appendConduct rt).answers (appendPool rt calls) db trace pool' db' :=
    hrun
  obtain ⟨hchain', hinitial, -⟩ := hrun'.behaves hchain hpool
  refine ⟨hchain', hinitial, evolves_ledger hrun.evolves, fun i r hended => ?_⟩
  exact acceptedRows_of_ends (calls i).attempts_pos (hrun.runs hended)

/-- Two appends at the same time. -/
def raceCalls : Bool → AppendCall
  | false => { recordId := sampleFirst.recordId, recordDigest := sampleFirst.recordDigest }
  | true => { recordId := sampleSecond.recordId, recordDigest := sampleSecond.recordDigest }

def raceFirst : LedgerRow :=
  nextLedgerRow sampleRuntime none sampleFirst.recordId sampleFirst.recordDigest
    sampleFirst.createdAt

def raceLost : LedgerRow :=
  nextLedgerRow sampleRuntime none sampleSecond.recordId sampleSecond.recordDigest
    sampleLost.createdAt

def raceSecond : LedgerRow :=
  nextLedgerRow sampleRuntime (some ⟨1, raceFirst.rowHash⟩) sampleSecond.recordId
    sampleSecond.recordDigest sampleSecond.createdAt

/-- Both read the empty ledger; the slower one is rejected and succeeds at its second attempt. -/
def raceTrace : List (Bool × LedgerEvent) :=
  [(false, ⟨.readTip, .ok none⟩), (true, ⟨.readTip, .ok none⟩),
    (false, ⟨.nowIso, sampleFirst.createdAt⟩), (true, ⟨.nowIso, sampleLost.createdAt⟩),
    (false, ⟨.insertLedgerRow raceFirst, .ok ()⟩),
    (true, ⟨.insertLedgerRow raceLost,
      .error { message := "UNIQUE constraint failed: decision_ledger.seq" }⟩),
    (true, ⟨.readTip, .ok (some ⟨1, raceFirst.rowHash⟩)⟩),
      (true, ⟨.nowIso, sampleSecond.createdAt⟩),
    (true, ⟨.insertLedgerRow raceSecond, .ok ()⟩)]

theorem race_interleaves :
    ∃ pool', Interleaves answers (appendPool sampleRuntime raceCalls) .empty raceTrace
        pool' ((empty.insertLedgerRow raceFirst).insertLedgerRow raceSecond) ∧
      ∀ i, ∃ value, pool' i = .ret value := by
  have htip : ∀ {db : LedgerDb} {tip : Option LedgerTip}, tip = db.tip →
      answers db .readTip (.ok tip) db :=
    fun h => ⟨rfl, fun _ hreply => (Except.ok.inj hreply).symm.trans h⟩
  refine Interleaves.exists_step false rfl (htip rfl) ?_
  refine Interleaves.exists_step true rfl (htip rfl) ?_
  refine Interleaves.exists_step false rfl rfl ?_
  refine Interleaves.exists_step true rfl rfl ?_
  refine Interleaves.exists_step false rfl ⟨by simp [empty], rfl⟩ ?_
  refine Interleaves.exists_step true rfl rfl ?_
  refine Interleaves.exists_step true rfl (htip rfl) ?_
  refine Interleaves.exists_step true rfl rfl ?_
  refine Interleaves.exists_step true rfl ⟨by decide, rfl⟩ ?_
  refine ⟨_, .done _ _, fun i => ?_⟩
  cases i with
  | false => exact ⟨_, rfl⟩
  | true => exact ⟨_, rfl⟩

theorem append_concurrent_race :
    ∃ db' : LedgerDb, (∃ pool', Interleaves answers (appendPool sampleRuntime raceCalls)
        .empty raceTrace pool' db') ∧
      db'.ledger.length = 2 ∧ Chained sampleRuntime db'.ledger := by
  obtain ⟨pool', hrun, -⟩ := race_interleaves
  have hempty : Chained sampleRuntime empty.ledger := trivial
  refine ⟨_, ⟨pool', hrun⟩, by decide, ?_⟩
  exact (append_concurrent sampleRuntime raceCalls hempty hrun).1

end LoopOver
