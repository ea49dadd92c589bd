import LoopOver.Ledger.Verify
import Mathlib.Algebra.GroupWithZero.Nat

/-!
# Walking through the ledger

A walk verifies the ledger window by window, each window resuming from the row at which the one
before it stopped. `Cursor db front back afterSeq` is a point of the walk: `front` are the rows
behind it and `back` those ahead.

* `Cursor.verify_of_break` and `Cursor.verify_of_passed` say what the window at a cursor computes,
  in terms of a pass over its rows.
* `Walk` is the results of a walk, window by window, and `walkLedger_walk` says that `walkLedger`
  gives them; a fact about every walk is proved by induction on it.
* **`paged_verification`**: a walk finds what one pass over all rows finds.
-/

namespace LoopOver

open List

/-! ## Cursors -/

/-- The rows that a walk goes through: those with a positive number. -/
def LedgerDb.chainRows (db : LedgerDb) : List LedgerRow := db.ledger.filter fun row => 0 < row.seq

/-- `afterSeq` stands between `front` and `back`. -/
structure Cursor (db : LedgerDb) (front back : List LedgerRow) (afterSeq : ℤ) : Prop where
  rows_eq : db.chainRows = front ++ back
  afterSeq_eq : afterSeq = (front.getLast?.map LedgerRow.seq).getD 0

theorem LedgerDb.eq_of_seq_eq {db : LedgerDb} {a b : LedgerRow} (ha : a ∈ db.ledger)
    (hb : b ∈ db.ledger) (h : a.seq = b.seq) : a = b := by
  obtain ⟨i, hi, rfl⟩ := mem_iff_getElem.1 ha
  obtain ⟨j, hj, rfl⟩ := mem_iff_getElem.1 hb
  have hsorted := pairwise_iff_getElem.1 db.ledger_sorted
  rcases lt_trichotomy i j with hij | rfl | hij
  · have := hsorted i j hi hj hij
    omega
  · rfl
  · have := hsorted j i hj hi hij
    omega

theorem boundedLimit_pos (limit : ℤ) : 0 < boundedLimit limit := by
  unfold boundedLimit
  omega

variable {row : LedgerRow} {brk : LedgerBreak}

namespace Cursor

variable {rt : LedgerRuntime} {db : LedgerDb} {waivers : LedgerWaivers} {nowMs : ℤ}
  {front back : List LedgerRow} {afterSeq limit : ℤ}

/-- The start of the ledger. -/
theorem start (db : LedgerDb) : Cursor db [] db.chainRows 0 := ⟨rfl, rfl⟩

theorem mem_ledger (c : Cursor db front back afterSeq) (h : row ∈ front ++ back) :
    row ∈ db.ledger ∧ 0 < row.seq := by
  rw [← c.rows_eq, LedgerDb.chainRows, mem_filter] at h
  simpa using h

theorem sorted (c : Cursor db front back afterSeq) :
    (front ++ back).Pairwise fun a b => a.seq < b.seq := by
  rw [← c.rows_eq]
  exact db.ledger_sorted.filter _

theorem afterSeq_nonneg (c : Cursor db front back afterSeq) : 0 ≤ afterSeq := by
  rw [c.afterSeq_eq]
  cases hlast : front.getLast? with
  | none => simp
  | some last =>
    have hmem : last ∈ front ++ back := mem_append_left _ (mem_of_getLast? hlast)
    have := (c.mem_ledger hmem).2
    simp only [Option.map_some, Option.getD_some]
    omega

/-- The rows behind the cursor have numbers up to it. -/
theorem seq_le (c : Cursor db front back afterSeq) (h : row ∈ front) :
    row.seq ≤ afterSeq := by
  rcases eq_nil_or_concat front with rfl | ⟨init, last, rfl⟩
  · cases h
  · have hlast : afterSeq = last.seq := by
      rw [c.afterSeq_eq]
      simp
    rw [concat_eq_append] at h
    rcases mem_append.1 h with hinit | hrow
    · have hpairs := (pairwise_append.1 c.sorted).1
      rw [concat_eq_append] at hpairs
      have := (pairwise_append.1 hpairs).2.2 row hinit last (by simp)
      omega
    · obtain rfl := mem_singleton.1 hrow
      omega

/-- The rows ahead of the cursor have greater numbers. -/
theorem lt_seq (c : Cursor db front back afterSeq) (h : row ∈ back) :
    afterSeq < row.seq := by
  rw [c.afterSeq_eq]
  cases hlast : front.getLast? with
  | none => simpa using (c.mem_ledger (mem_append_right _ h)).2
  | some last =>
    have := (pairwise_append.1 c.sorted).2.2 last (mem_of_getLast? hlast) row h
    simpa using this

/-- The window at a cursor reads the rows ahead of it. -/
theorem windowRows_eq (c : Cursor db front back afterSeq) :
    db.windowRows afterSeq limit = back.take (boundedLimit limit) := by
  have hahead : (db.ledger.filter fun row => afterSeq < row.seq) = back := by
    have hpositive : (db.ledger.filter fun row => afterSeq < row.seq) =
        db.chainRows.filter fun row => afterSeq < row.seq := by
      rw [LedgerDb.chainRows, filter_filter]
      refine filter_congr fun row _ => ?_
      have := c.afterSeq_nonneg
      rw [Bool.eq_iff_iff]
      simp only [decide_eq_true_eq, Bool.and_eq_true]
      omega
    have hfront : (front.filter fun row => afterSeq < row.seq) = [] := by
      refine filter_eq_nil_iff.2 fun row hrow => ?_
      have := c.seq_le hrow
      simp only [decide_eq_true_eq]
      omega
    have hback : (back.filter fun row => afterSeq < row.seq) = back :=
      filter_eq_self.2 fun row hrow => by simpa using c.lt_seq hrow
    rw [hpositive, c.rows_eq, filter_append, hfront, hback, nil_append]
  rw [LedgerDb.windowRows, hahead]

/-- A window resumes from the last row behind the cursor. -/
theorem priorRow_eq (c : Cursor db front back afterSeq) :
    db.priorRow afterSeq = front.getLast? := by
  unfold LedgerDb.priorRow
  cases hlast : front.getLast? with
  | none =>
    have hzero : afterSeq = 0 := by rw [c.afterSeq_eq, hlast]; rfl
    rw [if_neg (by omega)]
  | some last =>
    have hseq : afterSeq = last.seq := by rw [c.afterSeq_eq, hlast]; rfl
    obtain ⟨hmem, hpos⟩ :=
      c.mem_ledger (mem_append_left back (mem_of_getLast? hlast))
    rw [if_pos (by omega)]
    cases hfind : db.ledger.find? fun row => row.seq == afterSeq with
    | none =>
      have := List.find?_eq_none.1 hfind last hmem
      simp [hseq] at this
    | some row =>
      have hrow : row.seq = afterSeq := by simpa using List.find?_some hfind
      rw [LedgerDb.eq_of_seq_eq (mem_of_find?_eq_some hfind) hmem (by omega)]

theorem startScan_eq (c : Cursor db front back afterSeq) :
    startScan afterSeq (db.priorRow afterSeq) =
      { prevHash := lastHash ledgerGenesisHash front
        expectedSeq := seqAfter 1 front
        lastVerifiedCreatedAt := lastCreatedAt none front } := by
  rw [c.priorRow_eq, lastHash_eq_getLast, seqAfter_eq_getLast, lastCreatedAt_eq_getLast, startScan,
    c.afterSeq_eq]
  cases front.getLast? <;> simp

/-- The cursor after a window with rows. -/
theorem next (c : Cursor db front back afterSeq) {n : ℕ} {last : LedgerRow}
    (hlast : (back.take n).getLast? = some last) :
    Cursor db (front ++ back.take n) (back.drop n) last.seq := by
  refine ⟨?_, ?_⟩
  · rw [append_assoc, take_append_drop, c.rows_eq]
  · rw [List.getLast?_append, hlast]
    rfl

/-! ## A window of the walk -/

/-- The verification of the window at a cursor. -/
theorem verify_eq (c : Cursor db front back afterSeq) :
    verifyDecisionLedger rt db waivers nowMs afterSeq limit =
      match scanRows rt db waivers nowMs
          { prevHash := lastHash ledgerGenesisHash front
            expectedSeq := seqAfter 1 front
            lastVerifiedCreatedAt := lastCreatedAt none front }
          (back.take (boundedLimit limit)) with
      | (some brk, scan) => verificationOf db waivers scan none 0 (some brk)
      | (none, scan) => passedResult rt db waivers nowMs scan
          (nextCursor (back.take (boundedLimit limit)) limit) := by
  have hprior : ¬(afterSeq > 0 ∧ db.priorRow afterSeq = none) := by
    rintro ⟨hpos, hnone⟩
    rw [c.priorRow_eq] at hnone
    have hzero : afterSeq = 0 := by rw [c.afterSeq_eq, hnone]; rfl
    omega
  rewrite [verifyDecisionLedger, if_neg hprior, c.startScan_eq, c.windowRows_eq]
  rfl

/-- A break ends the window and the walk. -/
theorem verify_of_break (limit : ℤ) (waivers : LedgerWaivers) (c : Cursor db front back afterSeq)
    (h : firstBreak rt db nowMs (lastHash ledgerGenesisHash front) (seqAfter 1 front)
      (back.take (boundedLimit limit)) = some brk) :
    (verifyDecisionLedger rt db waivers nowMs afterSeq limit).ok = false ∧
      (verifyDecisionLedger rt db waivers nowMs afterSeq limit).brk = some brk ∧
      (verifyDecisionLedger rt db waivers nowMs afterSeq limit).nextAfterSeq = none ∧
      (verifyDecisionLedger rt db waivers nowMs afterSeq limit).checked =
        passedRows rt db nowMs (lastHash ledgerGenesisHash front) (seqAfter 1 front)
          (back.take (boundedLimit limit)) := by
  have hscan := scanRows_eq rt db waivers nowMs
    { prevHash := lastHash ledgerGenesisHash front
      expectedSeq := seqAfter 1 front
      lastVerifiedCreatedAt := lastCreatedAt none front } (back.take (boundedLimit limit))
  rw [c.verify_eq]
  generalize scanRows rt db waivers nowMs
    { prevHash := lastHash ledgerGenesisHash front
      expectedSeq := seqAfter 1 front
      lastVerifiedCreatedAt := lastCreatedAt none front } (back.take (boundedLimit limit)) =
        out at hscan
  obtain ⟨found, scan⟩ := out
  obtain ⟨hfound, hchecked⟩ := hscan
  simp only at hfound hchecked
  rw [h] at hfound
  subst hfound
  exact ⟨rfl, rfl, rfl, by simpa [verificationOf] using hchecked⟩

/-- What the loop leaves behind after the rows of a window that are no breaks. -/
structure Passed (rt : LedgerRuntime) (db : LedgerDb) (waivers : LedgerWaivers)
    (front window : List LedgerRow) (scan : LedgerScan) : Prop where
  checked : scan.checked = window.length
  expectedSeq : scan.expectedSeq = seqAfter 1 (front ++ window)
  lastVerified : scan.lastVerifiedCreatedAt = lastCreatedAt none (front ++ window)
  content : scan.firstContentMismatch = window.findSome? (contentBreak rt db waivers)

theorem lastCreatedAt_append {last : Option String} :
    lastCreatedAt last (front ++ back) = lastCreatedAt (lastCreatedAt last front) back := by
  induction front generalizing last with
  | nil => rfl
  | cons row front ih => exact ih

theorem verify_of_passed (limit : ℤ) (waivers : LedgerWaivers) (c : Cursor db front back afterSeq)
    (h : firstBreak rt db nowMs (lastHash ledgerGenesisHash front) (seqAfter 1 front)
      (back.take (boundedLimit limit)) = none) :
    ∃ scan, verifyDecisionLedger rt db waivers nowMs afterSeq limit =
        passedResult rt db waivers nowMs scan (nextCursor (back.take (boundedLimit limit)) limit) ∧
      Passed rt db waivers front (back.take (boundedLimit limit)) scan := by
  have hscan := scanRows_eq rt db waivers nowMs
    { prevHash := lastHash ledgerGenesisHash front
      expectedSeq := seqAfter 1 front
      lastVerifiedCreatedAt := lastCreatedAt none front } (back.take (boundedLimit limit))
  have hvars := scanRows_vars rt db waivers
    { prevHash := lastHash ledgerGenesisHash front
      expectedSeq := seqAfter 1 front
      lastVerifiedCreatedAt := lastCreatedAt none front } h
  rw [c.verify_eq]
  generalize scanRows rt db waivers nowMs
    { prevHash := lastHash ledgerGenesisHash front
      expectedSeq := seqAfter 1 front
      lastVerifiedCreatedAt := lastCreatedAt none front } (back.take (boundedLimit limit)) = out
    at hscan hvars
  obtain ⟨found, scan⟩ := out
  obtain ⟨hfound, hchecked⟩ := hscan
  obtain ⟨hseq, hlast, hcontent⟩ := hvars
  simp only at hfound hchecked hseq hlast hcontent
  rw [h] at hfound
  subst hfound
  refine ⟨scan, rfl, ?_, ?_, ?_, ?_⟩
  · rw [hchecked, passedRows_eq_length h, Nat.zero_add]
  · rw [hseq, seqAfter_append]
  · rw [hlast, lastCreatedAt_append]
  · rw [hcontent, Option.none_or]

/-- A window without a cursor for the next one has read all rows ahead. -/
theorem take_eq_of_nextCursor (h : nextCursor (back.take (boundedLimit limit)) limit = none) :
    back.take (boundedLimit limit) = back := by
  have hpos := boundedLimit_pos limit
  unfold nextCursor at h
  split at h
  · rename_i hlength
    rw [Option.map_eq_none_iff, List.getLast?_eq_none_iff] at h
    rw [h, length_nil] at hlength
    omega
  · rename_i hlength
    rw [length_take] at hlength
    refine take_of_length_le ?_
    omega

end Cursor

/-! ## The results of a walk -/

variable {expectedSeq : ℤ} {lastVerified : String}

section PassedResult

variable (rt : LedgerRuntime) (db : LedgerDb) (waivers : LedgerWaivers) (nowMs : ℤ)
  (scan : LedgerScan)
  (next : Option ℤ)

theorem passedResult_nextAfterSeq :
    (passedResult rt db waivers nowMs scan next).nextAfterSeq = next := by
  unfold passedResult
  split
  · dsimp only
    split <;> rfl
  · rfl

theorem passedResult_checked :
    (passedResult rt db waivers nowMs scan next).checked = scan.checked := by
  unfold passedResult
  split
  · dsimp only
    split <;> rfl
  · rfl

theorem tailScan_eq_none :
    tailScan rt db waivers nowMs expectedSeq lastVerified = none ↔
      reportedOrphans rt db waivers nowMs lastVerified = [] := by
  rw [tailScan, Option.map_eq_none_iff, argmax_eq_none]

/-- A window whose rows have all passed is fine when their contents are, and at the end of the chain
no orphan is reported. -/
theorem passedResult_ok :
    (passedResult rt db waivers nowMs scan next).ok = true ↔
      scan.firstContentMismatch = none ∧ (next = none → ∀ lastVerified,
        scan.lastVerifiedCreatedAt = some lastVerified →
          reportedOrphans rt db waivers nowMs lastVerified = []) := by
  have hreported : (verificationOf db waivers scan next 0 scan.firstContentMismatch).ok = true ↔
      scan.firstContentMismatch = none := Option.isNone_iff_eq_none
  unfold passedResult
  cases next with
  | some next => simpa using hreported
  | none =>
    cases hlast : scan.lastVerifiedCreatedAt with
    | none => simpa using hreported
    | some lastVerified =>
      dsimp only
      cases htail : tailScan rt db waivers nowMs scan.expectedSeq lastVerified with
      | none =>
        have hnone := (tailScan_eq_none rt db waivers nowMs).1 htail
        simpa [hnone] using hreported
      | some brk =>
        have hsome : reportedOrphans rt db waivers nowMs lastVerified ≠ [] := by
          rw [Ne, ← tailScan_eq_none rt db waivers nowMs, htail]
          exact Option.some_ne_none brk
        simp [verificationOf, hsome]

end PassedResult

/-- The results of a walk on which `front` is behind and `back` ahead of the `i`-th window. -/
inductive Walk (rt : LedgerRuntime) (db : LedgerDb) (waivers : LedgerWaivers)
    (windows : ℕ → LedgerWindow) :
    List LedgerRow → List LedgerRow → ℕ → List LedgerVerification → Prop
  /-- A break among the rows of the window. -/
  | stop {front back : List LedgerRow} {i : ℕ} {brk : LedgerBreak} {result : LedgerVerification}
      (hbreak : firstBreak rt db (windows i).nowMs (lastHash ledgerGenesisHash front)
        (seqAfter 1 front) (back.take (boundedLimit (windows i).limit)) = some brk)
      (hok : result.ok = false) (hbrk : result.brk = some brk) (hnext : result.nextAfterSeq = none)
      (hchecked : result.checked = passedRows rt db (windows i).nowMs
        (lastHash ledgerGenesisHash front) (seqAfter 1 front)
        (back.take (boundedLimit (windows i).limit))) :
      Walk rt db waivers windows front back i [result]
  /-- The end of the chain. -/
  | last {front back : List LedgerRow} {i : ℕ} {scan : LedgerScan}
      (hpass : firstBreak rt db (windows i).nowMs (lastHash ledgerGenesisHash front)
        (seqAfter 1 front) back = none)
      (hscan : Cursor.Passed rt db waivers front back scan) :
      Walk rt db waivers windows front back i
        [passedResult rt db waivers (windows i).nowMs scan none]
  /-- A full window, and the walk from its last row on. -/
  | more {front window back : List LedgerRow} {i : ℕ} {scan : LedgerScan}
      {results : List LedgerVerification} (next : ℤ)
      (hpass : firstBreak rt db (windows i).nowMs (lastHash ledgerGenesisHash front)
        (seqAfter 1 front) window = none)
      (hscan : Cursor.Passed rt db waivers front window scan)
      (hrest : Walk rt db waivers windows (front ++ window) back (i + 1) results) :
      Walk rt db waivers windows front (window ++ back) i
        (passedResult rt db waivers (windows i).nowMs scan (some next) :: results)

section Walk

variable {rt : LedgerRuntime} {db : LedgerDb} {waivers : LedgerWaivers}
  {windows : ℕ → LedgerWindow} {front back : List LedgerRow} {afterSeq : ℤ} {i fuel : ℕ}
  {results : List LedgerVerification}

/-- A walk with more fuel than rows ahead goes to its end. -/
theorem Cursor.walkFrom_walk (c : Cursor db front back afterSeq) (hfuel : back.length < fuel) :
    Walk rt db waivers windows front back i (walkFrom rt db waivers windows fuel i afterSeq) := by
  induction fuel generalizing front back afterSeq i with
  | zero => omega
  | succ fuel ih =>
    rw [walkFrom]
    cases hbreak : firstBreak rt db (windows i).nowMs (lastHash ledgerGenesisHash front)
        (seqAfter 1 front) (back.take (boundedLimit (windows i).limit)) with
    | some brk =>
      obtain ⟨hok, hbrk, hnext, hchecked⟩ := c.verify_of_break _ waivers hbreak
      simp only [hnext]
      exact Walk.stop hbreak hok hbrk hnext hchecked
    | none =>
      obtain ⟨scan, hresult, hscan⟩ := c.verify_of_passed _ waivers hbreak
      rw [hresult, passedResult_nextAfterSeq]
      cases hcursor : nextCursor (back.take (boundedLimit (windows i).limit)) (windows i).limit with
      | none =>
        have hall := Cursor.take_eq_of_nextCursor hcursor
        rw [hall] at hbreak hscan
        exact Walk.last hbreak hscan
      | some next =>
        have hlast : ∃ last, (back.take (boundedLimit (windows i).limit)).getLast? = some last ∧
            last.seq = next := by
          unfold nextCursor at hcursor
          split at hcursor
          · simpa using hcursor
          · cases hcursor
        obtain ⟨last, hlast, rfl⟩ := hlast
        have hshorter : (back.drop (boundedLimit (windows i).limit)).length < fuel := by
          have := boundedLimit_pos (windows i).limit
          have hne : back ≠ [] := by
            rintro rfl
            simp at hlast
          have := length_pos_iff.2 hne
          rw [length_drop]
          omega
        have hrest := ih (c.next hlast) hshorter (i := i + 1)
        have hmore := Walk.more last.seq hbreak hscan hrest
        rwa [take_append_drop] at hmore

theorem walkLedger_walk (rt : LedgerRuntime) (db : LedgerDb) (waivers : LedgerWaivers)
    (windows : ℕ → LedgerWindow) :
    Walk rt db waivers windows [] db.chainRows 0 (walkLedger rt db waivers windows) := by
  refine (Cursor.start db).walkFrom_walk ?_
  have hle : db.chainRows.length ≤ db.ledger.length := length_filter_le _ _
  omega

/-- The last result of a walk has no cursor: the walk went to its end. -/
theorem Walk.ends (h : Walk rt db waivers windows front back i results) :
    ∃ last, results.getLast? = some last ∧ last.nextAfterSeq = none := by
  induction h with
  | stop _ _ _ hnext _ => exact ⟨_, rfl, hnext⟩
  | last _ _ => exact ⟨_, rfl, passedResult_nextAfterSeq _ _ _ _ _ _⟩
  | more _ _ _ _ ih =>
    obtain ⟨last, hlast, hnext⟩ := ih
    refine ⟨last, ?_, hnext⟩
    rw [List.getLast?_cons, hlast]
    rfl

end Walk

/-! ## Walks without a finding -/

variable {rows : List LedgerRow} {prevHash : String}

theorem chainedFrom_of_firstBreak {rt : LedgerRuntime} {db : LedgerDb} {nowMs : ℤ}
    (h : firstBreak rt db nowMs prevHash expectedSeq rows = none) :
    ChainedFrom rt prevHash expectedSeq rows := by
  induction rows generalizing prevHash expectedSeq with
  | nil => trivial
  | cons row rows ih =>
    rw [firstBreak, Option.or_eq_none_iff, rowBreak_eq_none] at h
    obtain ⟨⟨hseq, hprev, hhash, -⟩, hrest⟩ := h
    rw [hseq] at hrest
    exact ⟨⟨hseq, hprev, hhash.symm⟩, ih hrest⟩

theorem seqAfter_of_chainedFrom {rt : LedgerRuntime} {seq : ℤ}
    (h : ChainedFrom rt prevHash seq rows) :
    seqAfter seq rows = seq + rows.length := by
  induction rows generalizing prevHash seq with
  | nil => simp [seqAfter]
  | cons row rows ih =>
    obtain ⟨⟨hseq, -, -⟩, hrest⟩ := h
    rw [seqAfter, hseq, ih hrest, length_cons]
    omega

section Findings

variable {rt : LedgerRuntime} {db : LedgerDb} {waivers : LedgerWaivers}
  {windows : ℕ → LedgerWindow} {front back : List LedgerRow} {i : ℕ}
  {results : List LedgerVerification}

/-- **What a walk without a finding establishes**: the rows ahead continue the chain, their contents
match, and at the end of the chain some window reports no orphan. -/
theorem Walk.of_ok (h : Walk rt db waivers windows front back i results)
    (hok : ∀ result ∈ results, result.ok = true) :
    ChainedFrom rt (lastHash ledgerGenesisHash front) (seqAfter 1 front) back ∧
      (∀ row ∈ back, contentBreak rt db waivers row = none) ∧
      ∃ j, ∀ tip, lastCreatedAt none (front ++ back) = some tip →
        reportedOrphans rt db waivers (windows j).nowMs tip = [] := by
  induction h with
  | @stop front back i brk result hbreak hnot hbrk hnext hchecked =>
    have := hok result (mem_singleton_self result)
    rw [hnot] at this
    cases this
  | @last front back i scan hpass hscan =>
    obtain ⟨hcontent, htail⟩ :=
      (passedResult_ok rt db waivers _ scan none).1 (hok _ (mem_singleton_self _))
    rw [hscan.content, List.findSome?_eq_none_iff] at hcontent
    refine ⟨chainedFrom_of_firstBreak hpass, hcontent, i, fun tip htip => ?_⟩
    exact htail rfl tip (hscan.lastVerified.trans htip)
  | @more front window back i scan results next hpass hscan hrest ih =>
    obtain ⟨hfirst, hresults⟩ := forall_mem_cons.1 hok
    obtain ⟨hcontent, -⟩ := (passedResult_ok rt db waivers _ scan (some next)).1 hfirst
    rw [hscan.content, List.findSome?_eq_none_iff] at hcontent
    obtain ⟨hchain, hcontents, j, htail⟩ := ih hresults
    have hwindow := chainedFrom_of_firstBreak hpass
    rw [lastHash_append, seqAfter_append, seqAfter_of_chainedFrom hwindow] at hchain
    refine ⟨chainedFrom_append.2 ⟨hwindow, hchain⟩, ?_, j, ?_⟩
    · exact forall_mem_append.2 ⟨hcontent, hcontents⟩
    · rwa [append_assoc] at htail

theorem firstBreak_of_chainedFrom {nowMs : ℤ}
    (hchain : ChainedFrom rt prevHash expectedSeq rows)
    (hpruned : ∀ row ∈ rows, db.findRecord row.recordId = none →
      row.createdAt < retentionCutoffIso rt nowMs) :
    firstBreak rt db nowMs prevHash expectedSeq rows = none := by
  induction rows generalizing prevHash expectedSeq with
  | nil => rfl
  | cons row rows ih =>
    obtain ⟨⟨hseq, hprev, hhash⟩, hrest⟩ := hchain
    obtain ⟨hrow, hrows⟩ := forall_mem_cons.1 hpruned
    rw [firstBreak, rowBreak_eq_none.2 ⟨hseq, hprev, hhash.symm, hrow⟩, Option.none_or, hseq]
    exact ih hrest hrows

theorem reportedOrphans_of_no_due {nowMs : ℤ}
    (h : dueOrphans rt db nowMs = []) : reportedOrphans rt db waivers nowMs lastVerified = [] := by
  unfold reportedOrphans
  rw [h]
  split
  · rfl
  · split <;> rfl

/-- **A walk over an intact chain has no finding**, when every missing record is past its retention,
the contents match, and there are no orphans. -/
theorem Walk.all_ok (h : Walk rt db waivers windows front back i results)
    (hchain : ChainedFrom rt (lastHash ledgerGenesisHash front) (seqAfter 1 front) back)
    (hpruned : ∀ j, ∀ row ∈ back, db.findRecord row.recordId = none →
      row.createdAt < retentionCutoffIso rt (windows j).nowMs)
    (hcontent : ∀ row ∈ back, contentBreak rt db waivers row = none)
    (horphans : ∀ j, dueOrphans rt db (windows j).nowMs = []) :
    ∀ result ∈ results, result.ok = true := by
  induction h with
  | @stop front back i brk result hbreak hnot hbrk hnext hchecked =>
    have hcut := take_append_drop (boundedLimit (windows i).limit) back
    rw [← hcut, chainedFrom_append] at hchain
    have hnone := firstBreak_of_chainedFrom hchain.1 fun row hrow =>
      hpruned i row (mem_of_mem_take hrow)
    rw [hnone] at hbreak
    cases hbreak
  | @last front back i scan hpass hscan =>
    intro result hresult
    obtain rfl := mem_singleton.1 hresult
    refine (passedResult_ok rt db waivers _ scan none).2 ⟨?_, fun _ tip _ => ?_⟩
    · rw [hscan.content, List.findSome?_eq_none_iff]
      exact hcontent
    · exact reportedOrphans_of_no_due (horphans i)
  | @more front window back i scan results next hpass hscan hrest ih =>
    obtain ⟨hwindow, hafter⟩ := chainedFrom_append.1 hchain
    rw [← seqAfter_of_chainedFrom hwindow, ← lastHash_append, ← seqAfter_append] at hafter
    obtain ⟨hcontentWindow, hcontentBack⟩ := forall_mem_append.1 hcontent
    refine forall_mem_cons.2 ⟨?_, ih hafter ?_ hcontentBack⟩
    · refine (passedResult_ok rt db waivers _ scan (some next)).2 ⟨?_, nofun⟩
      rw [hscan.content, List.findSome?_eq_none_iff]
      exact hcontentWindow
    · exact fun j row hrow => hpruned j row (mem_append_right _ hrow)

end Findings

/-! ## A walk finds what one pass finds -/

/-- The structural break that a result reports. -/
def LedgerVerification.structuralBreak (result : LedgerVerification) : Option LedgerBreak :=
  result.brk.filter LedgerBreak.isStructural

/-- The first structural break that a walk reports. -/
def walkBreak (results : List LedgerVerification) : Option LedgerBreak :=
  results.findSome? LedgerVerification.structuralBreak

/-- The rows that a walk verifies. -/
def walkChecked (results : List LedgerVerification) : ℕ :=
  (results.map LedgerVerification.checked).sum

section Paged

variable {rt : LedgerRuntime} {db : LedgerDb} {waivers : LedgerWaivers} {nowMs : ℤ}
  {windows : ℕ → LedgerWindow} {front back : List LedgerRow} {i : ℕ}
  {results : List LedgerVerification}

theorem contentBreak_not_structural
    (h : contentBreak rt db waivers row = some brk) : brk.isStructural = false := by
  unfold contentBreak at h
  split at h
  · cases h
  · split at h
    · cases h
    · cases h
      rfl

theorem tailScan_not_structural
    (h : tailScan rt db waivers nowMs expectedSeq lastVerified = some brk) :
    brk.isStructural = false := by
  obtain ⟨orphan, -, rfl⟩ := Option.map_eq_some_iff.1 h
  split <;> rfl

theorem findSome_contentBreak_not_structural (rows : List LedgerRow) :
    (rows.findSome? (contentBreak rt db waivers)).filter LedgerBreak.isStructural = none := by
  refine Option.filter_eq_none_iff.2 fun brk hbrk => ?_
  obtain ⟨row, -, hrow⟩ := exists_of_findSome?_eq_some hbrk
  simpa using contentBreak_not_structural hrow

/-- A window whose rows have all passed reports no structural break. -/
theorem passedResult_structuralBreak {scan : LedgerScan}
    (h : scan.firstContentMismatch.filter LedgerBreak.isStructural = none) (nowMs : ℤ)
    (next : Option ℤ) : (passedResult rt db waivers nowMs scan next).structuralBreak = none := by
  unfold passedResult
  split
  · dsimp only
    split
    · rename_i brk hbrk
      simp [LedgerVerification.structuralBreak, verificationOf, tailScan_not_structural hbrk]
    · exact h
  · exact h

theorem Cursor.Passed.structuralBreak {scan : LedgerScan} (h : Passed rt db waivers front back scan)
    (nowMs : ℤ) (next : Option ℤ) :
    (passedResult rt db waivers nowMs scan next).structuralBreak = none := by
  refine passedResult_structuralBreak ?_ nowMs next
  rw [h.content]
  exact findSome_contentBreak_not_structural back

/-- The clocks agree on which records retention may have removed. -/
def AgreeOnPruned (rt : LedgerRuntime) (db : LedgerDb) (s t : ℤ) : Prop :=
  ∀ row ∈ db.ledger, db.findRecord row.recordId = none →
    (row.createdAt < retentionCutoffIso rt s ↔ row.createdAt < retentionCutoffIso rt t)

theorem AgreeOnPruned.firstBreak_eq {s t : ℤ} (h : AgreeOnPruned rt db s t) (prevHash : String)
    (expectedSeq : ℤ) (hrows : ∀ row ∈ rows, row ∈ db.ledger) :
    firstBreak rt db s prevHash expectedSeq rows = firstBreak rt db t prevHash expectedSeq rows ∧
      passedRows rt db s prevHash expectedSeq rows =
        passedRows rt db t prevHash expectedSeq rows := by
  induction rows generalizing prevHash expectedSeq with
  | nil => exact ⟨rfl, rfl⟩
  | cons row rows ih =>
    obtain ⟨hmem, hrest⟩ := forall_mem_cons.1 hrows
    obtain ⟨hfirst, hcount⟩ := ih row.rowHash (row.seq + 1) hrest
    have hrow : rowBreak rt db s prevHash expectedSeq row =
        rowBreak rt db t prevHash expectedSeq row := by
      have hpruned : (db.findRecord row.recordId = none ∧
          ¬row.createdAt < retentionCutoffIso rt s) ↔
          (db.findRecord row.recordId = none ∧ ¬row.createdAt < retentionCutoffIso rt t) :=
        and_congr_right fun hmissing => not_congr (h row hmem hmissing)
      simp only [rowBreak, hpruned]
    rw [firstBreak, firstBreak, passedRows, passedRows, hrow, hfirst, hcount]
    exact ⟨rfl, rfl⟩

/-- A walk reports the structural break of a pass over the rows ahead, and counts its rows. -/
theorem Walk.eq_pass (h : Walk rt db waivers windows front back i results)
    (hback : ∀ row ∈ back, row ∈ db.ledger)
    (hclock : ∀ j, AgreeOnPruned rt db (windows j).nowMs nowMs) :
    walkBreak results =
      (firstBreak rt db nowMs (lastHash ledgerGenesisHash front) (seqAfter 1 front)
        back).filter LedgerBreak.isStructural ∧
      walkChecked results =
        passedRows rt db nowMs (lastHash ledgerGenesisHash front) (seqAfter 1 front) back := by
  induction h with
  | @stop front back i brk result hbreak hok hbrk hnext hchecked =>
    have htake : ∀ row ∈ back.take (boundedLimit (windows i).limit), row ∈ db.ledger :=
      fun row hrow => hback row (mem_of_mem_take hrow)
    obtain ⟨hfirst, hcount⟩ :=
      (hclock i).firstBreak_eq (lastHash ledgerGenesisHash front) (seqAfter 1 front) htake
    rw [hfirst] at hbreak
    rw [hcount] at hchecked
    have hcut := take_append_drop (boundedLimit (windows i).limit) back
    refine ⟨?_, ?_⟩
    · rw [← hcut, firstBreak_append, hbreak]
      simp [walkBreak, LedgerVerification.structuralBreak, hbrk]
    · rw [← hcut, passedRows_append_of_some hbreak]
      simp [walkChecked, hchecked]
  | @last front back i scan hpass hscan =>
    rw [((hclock i).firstBreak_eq _ _ hback).1] at hpass
    refine ⟨?_, ?_⟩
    · simp [walkBreak, hscan.structuralBreak, hpass]
    · simp [walkChecked, passedResult_checked, hscan.checked, passedRows_eq_length hpass]
  | @more front window back i scan results next hpass hscan hrest ih =>
    obtain ⟨hwindow, hback⟩ := forall_mem_append.1 hback
    rw [((hclock i).firstBreak_eq _ _ hwindow).1] at hpass
    obtain ⟨hbreak, hchecked⟩ := ih hback
    rw [lastHash_append, seqAfter_append] at hbreak hchecked
    refine ⟨?_, ?_⟩
    · rw [firstBreak_append, hpass, Option.none_or, ← hbreak]
      simp [walkBreak, hscan.structuralBreak]
    · rw [passedRows_append_of_none hpass, ← hchecked]
      simp [walkChecked, passedResult_checked, hscan.checked]

/-- One call that covers the whole ledger makes a pass over all rows. -/
theorem verify_covering (rt : LedgerRuntime) (db : LedgerDb) (waivers : LedgerWaivers)
    (nowMs limit : ℤ) (hcover : (db.ledger.length : ℤ) ≤ limit) (hbound : limit ≤ 1000) :
    (verifyDecisionLedger rt db waivers nowMs 0 limit).structuralBreak =
        (firstBreak rt db nowMs ledgerGenesisHash 1 db.chainRows).filter LedgerBreak.isStructural ∧
      (verifyDecisionLedger rt db waivers nowMs 0 limit).checked =
        passedRows rt db nowMs ledgerGenesisHash 1 db.chainRows := by
  have hall : db.chainRows.take (boundedLimit limit) = db.chainRows := by
    have hle : db.chainRows.length ≤ db.ledger.length := length_filter_le _ _
    refine take_of_length_le ?_
    unfold boundedLimit
    omega
  cases hbreak : firstBreak rt db nowMs ledgerGenesisHash 1 db.chainRows with
  | some brk =>
    obtain ⟨-, hbrk, -, hchecked⟩ :=
      (Cursor.start db).verify_of_break limit waivers (by rw [hall]; exact hbreak)
    rw [hall] at hchecked
    exact ⟨by simp [LedgerVerification.structuralBreak, hbrk], hchecked⟩
  | none =>
    obtain ⟨scan, hresult, hscan⟩ :=
      (Cursor.start db).verify_of_passed limit waivers (by rw [hall]; exact hbreak)
    rw [hall] at hscan
    rw [hresult]
    refine ⟨?_, ?_⟩
    · rw [hscan.structuralBreak]
      rfl
    · rw [passedResult_checked, hscan.checked, passedRows_eq_length hbreak]

end Paged

/-- **Paged verification equals one pass**, for every content of the tables and all window limits:
the walk ends, and it finds the same first structural break and verifies the same number of rows as
one call whose limit covers the ledger. The windows run at times of their own, as long as no missing
record passes the retention cutoff between them. -/
theorem paged_verification (rt : LedgerRuntime) (db : LedgerDb) (waivers : LedgerWaivers)
    (windows : ℕ → LedgerWindow) (nowMs limit : ℤ)
    (hclock : ∀ i, AgreeOnPruned rt db (windows i).nowMs nowMs)
    (hcover : (db.ledger.length : ℤ) ≤ limit) (hbound : limit ≤ 1000) :
    (∃ last, (walkLedger rt db waivers windows).getLast? = some last ∧ last.nextAfterSeq = none) ∧
      walkBreak (walkLedger rt db waivers windows) =
        (verifyDecisionLedger rt db waivers nowMs 0 limit).structuralBreak ∧
      walkChecked (walkLedger rt db waivers windows) =
        (verifyDecisionLedger rt db waivers nowMs 0 limit).checked := by
  have hwalk := walkLedger_walk rt db waivers windows
  have hrows : ∀ row ∈ db.chainRows, row ∈ db.ledger := fun row hrow => (mem_filter.1 hrow).1
  obtain ⟨hbreak, hchecked⟩ := hwalk.eq_pass hrows hclock
  obtain ⟨honceBreak, honceChecked⟩ := verify_covering rt db waivers nowMs limit hcover hbound
  refine ⟨hwalk.ends, ?_, ?_⟩
  · rw [hbreak, honceBreak]
    rfl
  · rw [hchecked, honceChecked]
    rfl

/-- Two rows, with a number missing between them. -/
def gapDb : LedgerDb where
  ledger := [sampleFirst, { sampleSecond with seq := 3 }]
  records := [sampleMergeRecord]
  ledger_sorted := by decide
  records_nodup := by decide

/-- Windows of one row, all at the same time. -/
def singleRowWindows : ℕ → LedgerWindow := fun _ => ⟨1, sampleNowMs⟩

theorem gapDb_firstBreak :
    firstBreak sampleRuntime gapDb sampleNowMs ledgerGenesisHash 1 gapDb.chainRows =
      some (.sequenceGap 3 2) := by
  have hrecord : gapDb.findRecord sampleFirst.recordId = some sampleMergeRecord := by decide
  have hfirst : rowBreak sampleRuntime gapDb sampleNowMs ledgerGenesisHash 1 sampleFirst = none :=
    rowBreak_eq_none.2 ⟨rfl, rfl, sampleFirst_rowHash, by simp [hrecord]⟩
  have hrows : gapDb.chainRows = [sampleFirst, { sampleSecond with seq := 3 }] := rfl
  rw [hrows, firstBreak, hfirst]
  rfl

theorem paged_verification_gap :
    walkBreak (walkLedger sampleRuntime gapDb {} singleRowWindows) = some (.sequenceGap 3 2) ∧
      walkChecked (walkLedger sampleRuntime gapDb {} singleRowWindows) =
        (verifyDecisionLedger sampleRuntime gapDb {} sampleNowMs 0 2).checked := by
  obtain ⟨-, hbreak, hchecked⟩ := paged_verification sampleRuntime gapDb {} singleRowWindows
    sampleNowMs 2 (fun _ _ _ _ => Iff.rfl) (by decide) (by decide)
  have honce := (verify_covering sampleRuntime gapDb {} sampleNowMs 2 (by decide) (by decide)).1
  rw [gapDb_firstBreak] at honce
  exact ⟨hbreak.trans honce, hchecked⟩

end LoopOver
