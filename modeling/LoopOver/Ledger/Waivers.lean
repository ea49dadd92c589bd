import LoopOver.Ledger.Paging

/-!
# What a waiver excuses

An operator may declare that some rows have lost their content (`LedgerContentWaiver`) and that some
records were never chained (`LedgerUnchainedWaiver`). Each declaration is bounded, and the
verification reports it.

* `scanRows_forgetContent`: the loop does the same under all content waivers, up to the counters of
  content mismatches.
* `exists_reported_of_not_covered` and `exists_reported_of_count`: an orphan that the waiver does
  not cover, or one orphan too many, is reported.
* **`waivers_excuse_only_named`** puts them together.
-/

namespace LoopOver

/-! ## Content waivers -/

/-- The variables of the loop without what it says about contents. -/
def LedgerScan.forgetContent (scan : LedgerScan) : LedgerScan :=
  { scan with
    contentMismatches := 0
    waivedContentMismatches := 0
    firstContentMismatch := none }

/-- A result without what it says about contents. -/
def LedgerVerification.forgetContent (result : LedgerVerification) : LedgerVerification :=
  { result with
    contentMismatches := 0
    waivedContentMismatches := 0
    contentWaiver := none }

section Content

variable {rt : LedgerRuntime} {db : LedgerDb} {nowMs : ℤ}

/-- The loop body does the same under all content waivers, up to what it says about contents. -/
theorem checkRow_forgetContent (rt : LedgerRuntime) (db : LedgerDb) (nowMs : ℤ)
    (waivers : LedgerWaivers) (scan : LedgerScan) (row : LedgerRow) :
    (checkRow rt db waivers nowMs scan row).map LedgerScan.forgetContent =
      (checkRow rt db {} nowMs scan.forgetContent row).map LedgerScan.forgetContent := by
  unfold checkRow
  by_cases hseq : row.seq ≠ scan.expectedSeq
  · rw [if_pos hseq, if_pos (show row.seq ≠ scan.forgetContent.expectedSeq from hseq)]
    rfl
  rw [if_neg hseq, if_neg (show ¬row.seq ≠ scan.forgetContent.expectedSeq from hseq)]
  by_cases hprev : row.prevHash ≠ scan.prevHash
  · rw [if_pos hprev, if_pos (show row.prevHash ≠ scan.forgetContent.prevHash from hprev)]
  rw [if_neg hprev, if_neg (show ¬row.prevHash ≠ scan.forgetContent.prevHash from hprev)]
  by_cases hhash : ledgerRowHash rt scan.prevHash row.fields ≠ row.rowHash
  · rw [if_pos hhash,
      if_pos (show ledgerRowHash rt scan.forgetContent.prevHash row.fields ≠ _ from hhash)]
  rw [if_neg hhash,
    if_neg (show ¬ledgerRowHash rt scan.forgetContent.prevHash row.fields ≠ _ from hhash)]
  cases db.findRecord row.recordId with
  | none =>
    dsimp only
    split <;> rfl
  | some record =>
    dsimp only
    split
    · rfl
    · split <;> split <;> rfl

/-- So does the loop. -/
theorem scanRows_forgetContent (rt : LedgerRuntime) (db : LedgerDb) (nowMs : ℤ)
    (waivers : LedgerWaivers) (scan scan' : LedgerScan)
    (h : scan.forgetContent = scan'.forgetContent) (rows : List LedgerRow) :
    (scanRows rt db waivers nowMs scan rows).1 = (scanRows rt db {} nowMs scan' rows).1 ∧
      (scanRows rt db waivers nowMs scan rows).2.forgetContent =
        (scanRows rt db {} nowMs scan' rows).2.forgetContent := by
  induction rows generalizing scan scan' with
  | nil => exact ⟨rfl, h⟩
  | cons row rows ih =>
    have hrow := checkRow_forgetContent rt db nowMs waivers scan row
    have hrow' := checkRow_forgetContent rt db nowMs {} scan' row
    rw [h, ← hrow'] at hrow
    rw [scanRows, scanRows]
    cases hnext : checkRow rt db waivers nowMs scan row with
    | error brk =>
      cases hnext' : checkRow rt db {} nowMs scan' row with
      | error brk' =>
        rw [hnext, hnext'] at hrow
        cases hrow
        exact ⟨rfl, h⟩
      | ok next' =>
        rw [hnext, hnext'] at hrow
        cases hrow
    | ok next =>
      cases hnext' : checkRow rt db {} nowMs scan' row with
      | error brk' =>
        rw [hnext, hnext'] at hrow
        cases hrow
      | ok next' =>
        rw [hnext, hnext'] at hrow
        exact ih next next' (Except.ok.inj hrow)

/-- **No content waiver changes the outcome of a structural break.** -/
theorem verify_content_of_structural {waivers : LedgerWaivers} {afterSeq limit : ℤ}
    (h : (verifyDecisionLedger rt db waivers nowMs afterSeq limit).structuralBreak ≠ none)
    (content : Option LedgerContentWaiver) :
    (verifyDecisionLedger rt db { waivers with content } nowMs afterSeq limit).forgetContent =
      (verifyDecisionLedger rt db waivers nowMs afterSeq limit).forgetContent := by
  have hbreak := scanRows_forgetContent rt db nowMs waivers
    (startScan afterSeq (db.priorRow afterSeq)) _ rfl (db.windowRows afterSeq limit)
  have hbreak' := scanRows_forgetContent rt db nowMs { waivers with content }
    (startScan afterSeq (db.priorRow afterSeq)) _ rfl (db.windowRows afterSeq limit)
  rw [← hbreak.1, ← hbreak.2] at hbreak'
  unfold verifyDecisionLedger at h ⊢
  dsimp only at h ⊢
  split
  · rfl
  rename_i hprior
  rw [if_neg hprior] at h
  rcases hout : scanRows rt db waivers nowMs (startScan afterSeq (db.priorRow afterSeq))
    (db.windowRows afterSeq limit) with ⟨_ | brk, scan⟩
  · -- all rows pass, and then no structural break is reported
    obtain ⟨hfirst, -⟩ :=
      scanRows_eq rt db waivers nowMs (startScan afterSeq (db.priorRow afterSeq))
      (db.windowRows afterSeq limit)
    rw [hout] at hfirst h
    have hvars := scanRows_vars rt db waivers _ hfirst.symm
    rw [hout] at hvars
    refine absurd (passedResult_structuralBreak ?_ _ _) h
    rw [hvars.2.2]
    exact findSome_contentBreak_not_structural _
  · rcases hout' : scanRows rt db { waivers with content } nowMs
      (startScan afterSeq (db.priorRow afterSeq)) (db.windowRows afterSeq limit) with ⟨found, scan'⟩
    rw [hout, hout'] at hbreak'
    obtain ⟨rfl, hscan⟩ := hbreak'
    have hchecked := congrArg LedgerScan.checked hscan
    have hpruned := congrArg LedgerScan.prunedRecords hscan
    simp only [LedgerScan.forgetContent] at hchecked hpruned
    simp [verificationOf, LedgerVerification.forgetContent, hchecked, hpruned]

end Content

/-! ## Unchained waivers -/

/-- The creation time lies in the window of the waiver. -/
def LedgerUnchainedWaiver.inWindow (waiver : LedgerUnchainedWaiver) (record : DecisionRecordRow) :
    Bool :=
  waiver.fromIso ≤ record.createdAt && record.createdAt ≤ waiver.toIso

/-- What an unchained waiver does not excuse, after a verified row created at `tip`: an orphan newer
than that row, an orphan outside of the window, or more orphans in the window than declared. -/
def LedgerUnchainedWaiver.Exceeded (waiver : LedgerUnchainedWaiver) (rt : LedgerRuntime)
    (db : LedgerDb) (nowMs : ℤ) (tip : String) : Prop :=
  (∃ record ∈ dueOrphans rt db nowMs, tip < record.createdAt ∨ waiver.inWindow record = false) ∨
    waiver.maxRecords < ((dueOrphans rt db nowMs).filter waiver.inWindow).length

section Unchained

variable {rt : LedgerRuntime} {db : LedgerDb} {waivers : LedgerWaivers} {nowMs : ℤ}
  {waiver : LedgerUnchainedWaiver} {tip : String}

theorem LedgerUnchainedWaiver.covers_eq_false {record : DecisionRecordRow} :
    waiver.covers tip record = false ↔ tip < record.createdAt ∨ waiver.inWindow record = false := by
  unfold covers inWindow
  rw [Bool.and_eq_false_iff, decide_eq_false_iff_not, not_le, or_comm]

theorem mem_reportedOrphans (h : waivers.unchained = some waiver) {record : DecisionRecordRow}
    (hdue : record ∈ dueOrphans rt db nowMs) (hcovers : waiver.covers tip record = false) :
    record ∈ reportedOrphans rt db waivers nowMs tip := by
  unfold reportedOrphans
  rw [h]
  dsimp only
  split
  · exact List.mem_filter.2 ⟨hdue, by simp [hcovers]⟩
  · exact hdue

/-- More orphans in the window than declared: either the waiver does not apply, or one of them is
newer than the verified row. -/
theorem reportedOrphans_of_count (h : waivers.unchained = some waiver)
    (hcount : waiver.maxRecords < ((dueOrphans rt db nowMs).filter waiver.inWindow).length) :
    reportedOrphans rt db waivers nowMs tip ≠ [] := by
  by_cases hcovers : ∃ record ∈ dueOrphans rt db nowMs,
      waiver.inWindow record = true ∧ waiver.covers tip record = false
  · obtain ⟨record, hdue, -, hnot⟩ := hcovers
    exact List.ne_nil_of_mem (mem_reportedOrphans h hdue hnot)
  · have hsame : (dueOrphans rt db nowMs).filter (waiver.covers tip) =
        (dueOrphans rt db nowMs).filter waiver.inWindow := by
      refine List.filter_congr fun record hdue => ?_
      cases hin : waiver.inWindow record with
      | false => exact LedgerUnchainedWaiver.covers_eq_false.2 (Or.inr hin)
      | true =>
        have hnot := mt (fun hnot => ⟨record, hdue, hin, hnot⟩) hcovers
        simpa using hnot
    have hwaived : waivedUnchained rt db waivers nowMs tip = 0 := by
      unfold waivedUnchained
      rw [h]
      dsimp only
      rw [hsame, if_neg (by omega)]
    have hreported : reportedOrphans rt db waivers nowMs tip = dueOrphans rt db nowMs := by
      unfold reportedOrphans
      rw [h]
      dsimp only
      rw [hwaived, if_neg (by omega)]
    rw [hreported]
    rintro hnil
    rw [hnil] at hcount
    simp at hcount

theorem LedgerUnchainedWaiver.Exceeded.reported (h : waivers.unchained = some waiver)
    (hexceeded : waiver.Exceeded rt db nowMs tip) :
    reportedOrphans rt db waivers nowMs tip ≠ [] := by
  rcases hexceeded with ⟨record, hdue, hnot⟩ | hcount
  · exact List.ne_nil_of_mem
      (mem_reportedOrphans h hdue (LedgerUnchainedWaiver.covers_eq_false.2 hnot))
  · exact reportedOrphans_of_count h hcount

variable {afterSeq limit : ℤ}

/-- The creation time of the row up to which a call verifies, once all its rows have passed. -/
def LedgerDb.verifiedTip (db : LedgerDb) (afterSeq limit : ℤ) : Option String :=
  lastCreatedAt ((db.priorRow afterSeq).map LedgerRow.createdAt) (db.windowRows afterSeq limit)

/-- The call reads up to the end of the chain. -/
def LedgerDb.ReachesEnd (db : LedgerDb) (afterSeq limit : ℤ) : Prop :=
  nextCursor (db.windowRows afterSeq limit) limit = none

/-- A call to the end of the chain fails on a reported orphan. -/
theorem verify_not_ok_of_reported (hend : db.ReachesEnd afterSeq limit)
    (htip : db.verifiedTip afterSeq limit = some tip)
    (h : reportedOrphans rt db waivers nowMs tip ≠ []) :
    (verifyDecisionLedger rt db waivers nowMs afterSeq limit).ok = false := by
  unfold verifyDecisionLedger
  dsimp only
  split
  · rfl
  rcases hout : scanRows rt db waivers nowMs (startScan afterSeq (db.priorRow afterSeq))
    (db.windowRows afterSeq limit) with ⟨_ | brk, scan⟩
  · obtain ⟨hfirst, -⟩ :=
      scanRows_eq rt db waivers nowMs (startScan afterSeq (db.priorRow afterSeq))
      (db.windowRows afterSeq limit)
    rw [hout] at hfirst
    obtain ⟨-, hlast, -⟩ := scanRows_vars rt db waivers _ hfirst.symm
    rw [hout] at hlast
    have hverified : scan.lastVerifiedCreatedAt = some tip := hlast.trans htip
    rw [← Bool.not_eq_true, passedResult_ok]
    exact fun hok => h (hok.2 hend tip hverified)
  · rfl

theorem scanRows_unchained (unchained : Option LedgerUnchainedWaiver) (scan : LedgerScan)
    (rows : List LedgerRow) :
    scanRows rt db { waivers with unchained } nowMs scan rows =
      scanRows rt db waivers nowMs scan rows := by
  induction rows generalizing scan with
  | nil => rfl
  | cons row rows ih =>
    have hrow : checkRow rt db { waivers with unchained } nowMs scan row =
        checkRow rt db waivers nowMs scan row := rfl
    rw [scanRows, scanRows, hrow]
    cases checkRow rt db waivers nowMs scan row with
    | error brk => rfl
    | ok next => exact ih next

/-- Where a call looks for no orphans, an unchained waiver changes nothing. -/
theorem verify_without_unchained
    (h : ¬db.ReachesEnd afterSeq limit ∨ db.verifiedTip afterSeq limit = none) :
    verifyDecisionLedger rt db { waivers with unchained := none } nowMs afterSeq limit =
      { verifyDecisionLedger rt db waivers nowMs afterSeq limit with unchainedWaiver := none } := by
  unfold verifyDecisionLedger
  dsimp only
  split
  · rfl
  rw [scanRows_unchained]
  rcases hout : scanRows rt db waivers nowMs (startScan afterSeq (db.priorRow afterSeq))
    (db.windowRows afterSeq limit) with ⟨_ | brk, scan⟩
  · obtain ⟨hfirst, -⟩ :=
      scanRows_eq rt db waivers nowMs (startScan afterSeq (db.priorRow afterSeq))
      (db.windowRows afterSeq limit)
    rw [hout] at hfirst
    obtain ⟨-, hlast, -⟩ := scanRows_vars rt db waivers _ hfirst.symm
    rw [hout] at hlast
    have hverified : scan.lastVerifiedCreatedAt = db.verifiedTip afterSeq limit := hlast
    dsimp only
    unfold passedResult
    rcases h with hnext | hnone
    · obtain ⟨next, hnext⟩ := Option.ne_none_iff_exists'.1 hnext
      rw [hnext]
      rfl
    · rw [hverified, hnone]
      cases nextCursor (db.windowRows afterSeq limit) limit <;> rfl
  · rfl

end Unchained

/-! ## What waivers excuse -/

/-- **Waivers excuse only what they name.** No content waiver changes the outcome of a structural
break. A call that reaches the end of the chain past a verified row fails on an orphan newer than
that row, on an orphan outside of the declared window, and on more orphans in the window than
declared. Any other call looks for no orphans, and an unchained waiver changes nothing there. -/
theorem waivers_excuse_only_named (rt : LedgerRuntime) (db : LedgerDb) (waivers : LedgerWaivers)
    (nowMs afterSeq limit : ℤ) :
    (∀ content : Option LedgerContentWaiver,
      (verifyDecisionLedger rt db waivers nowMs afterSeq limit).structuralBreak ≠ none →
      (verifyDecisionLedger rt db { waivers with content } nowMs afterSeq limit).forgetContent =
        (verifyDecisionLedger rt db waivers nowMs afterSeq limit).forgetContent) ∧
    (∀ waiver tip, waivers.unchained = some waiver → db.ReachesEnd afterSeq limit →
      db.verifiedTip afterSeq limit = some tip → waiver.Exceeded rt db nowMs tip →
      (verifyDecisionLedger rt db waivers nowMs afterSeq limit).ok = false) ∧
    (¬db.ReachesEnd afterSeq limit ∨ db.verifiedTip afterSeq limit = none →
      verifyDecisionLedger rt db { waivers with unchained := none } nowMs afterSeq limit =
        { verifyDecisionLedger rt db waivers nowMs afterSeq limit with unchainedWaiver := none }) :=
  ⟨fun content h => verify_content_of_structural h content,
    fun _ _ hwaiver hend htip h => verify_not_ok_of_reported hend htip (h.reported hwaiver),
    verify_without_unchained⟩

/-- A declaration for the end of the year before the sample ledger. -/
def decemberWaivers : LedgerWaivers where
  unchained := some
    { fromIso := "2025-12-01T00:00:00.000Z"
      toIso := "2025-12-31T00:00:00.000Z"
      maxRecords := 1
      reason := "append outage" }

/-- An orphan, and no ledger rows. -/
def orphanDb : LedgerDb where
  ledger := []
  records := [sampleMergeRecord]
  ledger_sorted := no_rows_sorted
  records_nodup := sampleMergeRecord_nodup

/-- The first row and its record, and an orphan that is newer. -/
def tailDb : LedgerDb where
  ledger := [sampleFirst]
  records := [sampleMergeRecord, sampleCloseRecord]
  ledger_sorted := by decide
  records_nodup := sampleRecords_nodup

theorem waivers_excuse_only_named_tail :
    (verifyDecisionLedger sampleRuntime tailDb decemberWaivers sampleNowMs 0 500).ok = false := by
  refine (waivers_excuse_only_named sampleRuntime tailDb decemberWaivers sampleNowMs 0 500).2.1 _
    sampleFirst.createdAt rfl rfl rfl (Or.inl ⟨sampleCloseRecord, ?_, Or.inl ?_⟩)
  · decide
  · decide

theorem tailDb_firstBreak :
    firstBreak sampleRuntime tailDb sampleNowMs ledgerGenesisHash 1 [sampleFirst] = none := by
  have hrecord : tailDb.findRecord sampleFirst.recordId = some sampleMergeRecord := by decide
  have hfirst : rowBreak sampleRuntime tailDb sampleNowMs ledgerGenesisHash 1 sampleFirst = none :=
    rowBreak_eq_none.2 ⟨rfl, rfl, sampleFirst_rowHash, by simp [hrecord]⟩
  rw [firstBreak, hfirst]
  rfl

/-- Without ledger rows there is no verified row to look from, and a call that stops before the end
of the chain leaves the orphans to the call that reaches it: both pass over an orphan that is due
and that the waiver does not name. -/
theorem orphans_unseen :
    (sampleMergeRecord ∈ dueOrphans sampleRuntime orphanDb sampleNowMs ∧
      (∀ waiver ∈ decemberWaivers.unchained, waiver.inWindow sampleMergeRecord = false) ∧
      (verifyDecisionLedger sampleRuntime orphanDb decemberWaivers sampleNowMs 0 500).ok = true) ∧
    sampleCloseRecord ∈ dueOrphans sampleRuntime tailDb sampleNowMs ∧
      sampleFirst.createdAt < sampleCloseRecord.createdAt ∧
      (verifyDecisionLedger sampleRuntime tailDb decemberWaivers sampleNowMs 0 1).ok = true := by
  refine ⟨⟨by decide, by decide, by decide⟩, by decide, by decide, ?_⟩
  have hrecord : tailDb.findRecord sampleFirst.recordId = some sampleMergeRecord := by decide
  obtain ⟨scan, hresult, hscan⟩ :=
    (Cursor.start tailDb).verify_of_passed 1 decemberWaivers tailDb_firstBreak
  have hcontent : scan.firstContentMismatch = none := by
    have hmatch : contentBreak sampleRuntime tailDb decemberWaivers sampleFirst = none := by
      simp only [contentBreak, hrecord, sampleMerge_contentMatches, Bool.true_or, if_true]
    rw [hscan.content]
    change [sampleFirst].findSome? _ = none
    rw [List.findSome?_cons, hmatch]
    rfl
  rw [hresult, passedResult_ok]
  exact ⟨hcontent, fun hnone => by cases hnone⟩

end LoopOver
