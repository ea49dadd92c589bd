import LoopOver.Ledger.Store
import Mathlib.Data.List.MinMax

/-!
# Verifying the ledger

`verifyDecisionLedger` of `src/review/decision-record.ts`: one window of the ledger, from a sequence
number on. Each row is checked against its predecessor and its own hash, and its record against the
digest that the row commits to; at the end of the chain, records that no row vouches for are looked
for. A caller walks through the ledger window by window (`walkLedger`).

* `checkRow` is the loop body, `scanRows` the loop, `tailScan` the reconciliation at the end.
* `firstBreak` is what a pass over some rows finds, without the counters, and `firstBreak_append`
  cuts a pass in two.
* `scanRows_eq` and `scanRows_vars` say what the loop leaves behind, in terms of such a pass.
-/

namespace LoopOver

/-! ## Data -/

/-- A break of the chain, with its class. -/
inductive LedgerBreak
  | sequenceGap (atSeq expectedSeq : ℤ)
  | predecessorMismatch (atSeq : ℤ)
  | rowHashMismatch (atSeq : ℤ)
  | shortTail (atSeq : ℤ)
  | contentMismatch (atSeq : ℤ) (recordId : String)
  | missingRecord (atSeq : ℤ) (recordId : String)
  | unchainedRecord (atSeq : ℤ) (recordId : String)
  deriving DecidableEq

/-- A break between the rows of the ledger themselves. -/
def LedgerBreak.isStructural : LedgerBreak → Bool
  | sequenceGap _ _ | predecessorMismatch _ | rowHashMismatch _ => true
  | _ => false

/-- A declared, bounded exclusion from the content check. -/
structure LedgerContentWaiver where
  fromSeq : ℤ
  toSeq : ℤ
  reason : String

/-- A declared, bounded and counted exclusion of records that were never chained. -/
structure LedgerUnchainedWaiver where
  fromIso : String
  toIso : String
  maxRecords : ℕ
  reason : String

/-- The waivers in force, as parsed from the environment. -/
structure LedgerWaivers where
  content : Option LedgerContentWaiver := none
  unchained : Option LedgerUnchainedWaiver := none

structure LedgerVerification where
  ok : Bool
  checked : ℕ
  nextAfterSeq : Option ℤ
  tipSeq : ℤ
  tipHash : String
  totalCount : ℕ
  prunedRecords : ℕ
  contentMismatches : ℕ
  waivedContentMismatches : ℕ
  contentWaiver : Option LedgerContentWaiver
  waivedUnchainedRecords : ℕ
  unchainedWaiver : Option LedgerUnchainedWaiver
  brk : Option LedgerBreak

/-! ## The clock -/

def msPerDay : ℤ := 24 * 60 * 60 * 1000

/-- The window of `decision_records` in `RETENTION_POLICY`, in days. -/
def decisionRecordsRetentionDays : ℤ := 180

/-- The cutoff of the retention of `decision_records`. -/
def retentionCutoffIso (rt : LedgerRuntime) (nowMs : ℤ) : String :=
  rt.toISOString (nowMs - decisionRecordsRetentionDays * msPerDay)

/-- `LEDGER_APPEND_GRACE_MS`. -/
def ledgerAppendGraceMs : ℤ := 5 * 60 * 1000

/-- Records up to here are due for the reconciliation. -/
def graceCutoffIso (rt : LedgerRuntime) (nowMs : ℤ) : String :=
  rt.toISOString (nowMs - ledgerAppendGraceMs)

/-! ## The loop over the rows -/

/-- The variables of the loop. -/
structure LedgerScan where
  prevHash : String
  expectedSeq : ℤ
  lastVerifiedCreatedAt : Option String
  checked : ℕ := 0
  prunedRecords : ℕ := 0
  contentMismatches : ℕ := 0
  waivedContentMismatches : ℕ := 0
  firstContentMismatch : Option LedgerBreak := none

def LedgerDb.findRecord (db : LedgerDb) (id : String) : Option DecisionRecordRow :=
  db.records.find? fun row => row.id == id

/-- `contentDigest(JSON.parse(recordJson))`; text that does not parse has no digest. -/
def recomputedContentDigest (rt : LedgerRuntime) (recordJson : String) : Option String :=
  (rt.jsonParse recordJson).map (contentDigest rt)

section Verify

variable (rt : LedgerRuntime) (db : LedgerDb) (waivers : LedgerWaivers) (nowMs : ℤ)

/-- Whether the stored record still has the content that the row commits to. -/
def contentMatches (row : LedgerRow) (record : DecisionRecordRow) : Bool :=
  recomputedContentDigest rt record.recordJson == some row.recordDigest

def isContentWaived (row : LedgerRow) : Bool :=
  waivers.content.any fun waiver => waiver.fromSeq ≤ row.seq && row.seq ≤ waiver.toSeq

/-- The loop body: a break that ends the scan, or the variables for the next row. -/
def checkRow (scan : LedgerScan) (row : LedgerRow) : Except LedgerBreak LedgerScan :=
  if row.seq ≠ scan.expectedSeq then .error (.sequenceGap row.seq scan.expectedSeq)
  else if row.prevHash ≠ scan.prevHash then .error (.predecessorMismatch row.seq)
  else if ledgerRowHash rt scan.prevHash row.fields ≠ row.rowHash then
    .error (.rowHashMismatch row.seq)
  else
    let next := { scan with
      prevHash := row.rowHash
      lastVerifiedCreatedAt := some row.createdAt
      expectedSeq := row.seq + 1
      checked := scan.checked + 1 }
    match db.findRecord row.recordId with
    | none =>
      if row.createdAt < retentionCutoffIso rt nowMs then
        .ok { next with prunedRecords := scan.prunedRecords + 1 }
      else .error (.missingRecord row.seq row.recordId)
    | some record =>
      if contentMatches rt row record then .ok next
      else if isContentWaived waivers row then
        .ok { next with waivedContentMismatches := scan.waivedContentMismatches + 1 }
      else
        .ok { next with
          contentMismatches := scan.contentMismatches + 1
          firstContentMismatch :=
            scan.firstContentMismatch.or (some (.contentMismatch row.seq row.recordId)) }

/-- The loop; a break leaves the variables as they were before its row. -/
def scanRows : LedgerScan → List LedgerRow → Option LedgerBreak × LedgerScan
  | scan, [] => (none, scan)
  | scan, row :: rows =>
    match checkRow rt db waivers nowMs scan row with
    | .error brk => (some brk, scan)
    | .ok next => scanRows next rows

/-! ## The reconciliation at the end of the chain -/

/-- No ledger row vouches for the record. -/
def LedgerDb.isOrphan (record : DecisionRecordRow) : Bool :=
  !db.ledger.any fun row => row.recordId == record.id

/-- The orphans that are old enough to be due. -/
def dueOrphans : List DecisionRecordRow :=
  db.records.filter fun record =>
    record.createdAt ≤ graceCutoffIso rt nowMs && db.isOrphan record

/-- The orphans that a waiver can cover: within its window, and not newer than the verified tip. -/
def LedgerUnchainedWaiver.covers (waiver : LedgerUnchainedWaiver) (lastVerified : String)
    (record : DecisionRecordRow) : Bool :=
  waiver.fromIso ≤ record.createdAt && record.createdAt ≤ waiver.toIso &&
    record.createdAt ≤ lastVerified

/-- The orphans a waiver excuses; above its declared maximum it excuses none. -/
def waivedUnchained (lastVerified : String) : ℕ :=
  match waivers.unchained with
  | none => 0
  | some waiver =>
    let covered := ((dueOrphans rt db nowMs).filter (waiver.covers lastVerified)).length
    if covered ≤ waiver.maxRecords then covered else 0

/-- The orphans that are reported. -/
def reportedOrphans (lastVerified : String) : List DecisionRecordRow :=
  match waivers.unchained with
  | none => dueOrphans rt db nowMs
  | some waiver =>
    if 0 < waivedUnchained rt db waivers nowMs lastVerified then
      (dueOrphans rt db nowMs).filter fun record => !waiver.covers lastVerified record
    else dueOrphans rt db nowMs

/-- The newest reported orphan decides the class of the break. -/
def tailScan (expectedSeq : ℤ) (lastVerified : String) : Option LedgerBreak :=
  ((reportedOrphans rt db waivers nowMs lastVerified).argmax DecisionRecordRow.createdAt).map
    fun orphan =>
      if lastVerified < orphan.createdAt then .shortTail (expectedSeq - 1)
      else .unchainedRecord (expectedSeq - 1) orphan.id

/-! ## The verification of a window -/

/-- `Math.max(1, Math.min(1000, limit))`. -/
def boundedLimit (limit : ℤ) : ℕ := (max 1 (min 1000 limit)).toNat

/-- What every result reports, whatever was found. -/
def verificationOf (scan : LedgerScan) (nextAfterSeq : Option ℤ) (waivedUnchainedRecords : ℕ)
    (brk : Option LedgerBreak) : LedgerVerification where
  ok := brk.isNone
  checked := scan.checked
  nextAfterSeq := nextAfterSeq
  tipSeq := (db.tip.map LedgerTip.seq).getD 0
  tipHash := (db.tip.map LedgerTip.rowHash).getD ledgerGenesisHash
  totalCount := db.ledger.length
  prunedRecords := scan.prunedRecords
  contentMismatches := scan.contentMismatches
  waivedContentMismatches := scan.waivedContentMismatches
  contentWaiver := waivers.content
  waivedUnchainedRecords := waivedUnchainedRecords
  unchainedWaiver := waivers.unchained
  brk := brk

/-- The row that a window resumes from. -/
def LedgerDb.priorRow (afterSeq : ℤ) : Option LedgerRow :=
  if afterSeq > 0 then db.ledger.find? fun row => row.seq == afterSeq else none

/-- The variables of the loop at the start of a window. -/
def startScan (afterSeq : ℤ) (prior : Option LedgerRow) : LedgerScan where
  prevHash := (prior.map LedgerRow.rowHash).getD ledgerGenesisHash
  expectedSeq := afterSeq + 1
  lastVerifiedCreatedAt := prior.map LedgerRow.createdAt

/-- The rows of a window. -/
def LedgerDb.windowRows (afterSeq limit : ℤ) : List LedgerRow :=
  (db.ledger.filter fun row => afterSeq < row.seq).take (boundedLimit limit)

/-- The cursor of the next window; there is one when this window was full. -/
def nextCursor (rows : List LedgerRow) (limit : ℤ) : Option ℤ :=
  if rows.length = boundedLimit limit then rows.getLast?.map LedgerRow.seq else none

/-- The result of a window whose rows have all passed. -/
def passedResult (scan : LedgerScan) (nextAfterSeq : Option ℤ) : LedgerVerification :=
  let reported := verificationOf db waivers scan nextAfterSeq 0 scan.firstContentMismatch
  match nextAfterSeq, scan.lastVerifiedCreatedAt with
  | none, some lastVerified =>
    let waived := waivedUnchained rt db waivers nowMs lastVerified
    match tailScan rt db waivers nowMs scan.expectedSeq lastVerified with
    | some brk => verificationOf db waivers scan none waived (some brk)
    | none => { reported with waivedUnchainedRecords := waived }
  | _, _ => reported

/-- Verify a window of the chain. -/
def verifyDecisionLedger (afterSeq limit : ℤ) : LedgerVerification :=
  let prior := db.priorRow afterSeq
  let start := startScan afterSeq prior
  if afterSeq > 0 ∧ prior = none then
    verificationOf db waivers start none 0 (some (.sequenceGap afterSeq afterSeq))
  else
    let rows := db.windowRows afterSeq limit
    match scanRows rt db waivers nowMs start rows with
    | (some brk, scan) => verificationOf db waivers scan none 0 (some brk)
    | (none, scan) => passedResult rt db waivers nowMs scan (nextCursor rows limit)

/-- The limit and the time of one window of a walk. -/
structure LedgerWindow where
  limit : ℤ
  nowMs : ℤ

/-- A walk from a cursor on, through `nextAfterSeq`. -/
def walkFrom (windows : ℕ → LedgerWindow) : ℕ → ℕ → ℤ → List LedgerVerification
  | 0, _, _ => []
  | fuel + 1, i, afterSeq =>
    let result :=
      verifyDecisionLedger rt db waivers (windows i).nowMs afterSeq (windows i).limit
    match result.nextAfterSeq with
    | none => [result]
    | some next => result :: walkFrom windows fuel (i + 1) next

/-- The walk from the start of the ledger. Every window but the last moves on by a row at least. -/
def walkLedger (windows : ℕ → LedgerWindow) : List LedgerVerification :=
  walkFrom rt db waivers windows (db.ledger.length + 1) 0 0

end Verify

/-! ## What a pass over some rows finds -/

section Pass

variable (rt : LedgerRuntime) (db : LedgerDb) (nowMs : ℤ)

/-- The break that a row is, after the given hash and under the given number. -/
def rowBreak (prevHash : String) (expectedSeq : ℤ) (row : LedgerRow) : Option LedgerBreak :=
  if row.seq ≠ expectedSeq then some (.sequenceGap row.seq expectedSeq)
  else if row.prevHash ≠ prevHash then some (.predecessorMismatch row.seq)
  else if ledgerRowHash rt prevHash row.fields ≠ row.rowHash then some (.rowHashMismatch row.seq)
  else if db.findRecord row.recordId = none ∧ ¬row.createdAt < retentionCutoffIso rt nowMs then
    some (.missingRecord row.seq row.recordId)
  else none

/-- The first break of a pass over the rows. -/
def firstBreak : String → ℤ → List LedgerRow → Option LedgerBreak
  | _, _, [] => none
  | prevHash, expectedSeq, row :: rows =>
    (rowBreak rt db nowMs prevHash expectedSeq row).or (firstBreak row.rowHash (row.seq + 1) rows)

/-- The rows that a pass verifies before its first break. -/
def passedRows : String → ℤ → List LedgerRow → ℕ
  | _, _, [] => 0
  | prevHash, expectedSeq, row :: rows =>
    match rowBreak rt db nowMs prevHash expectedSeq row with
    | some _ => 0
    | none => passedRows row.rowHash (row.seq + 1) rows + 1

/-- The number expected after the rows. -/
def seqAfter : ℤ → List LedgerRow → ℤ
  | expectedSeq, [] => expectedSeq
  | _, row :: rows => seqAfter (row.seq + 1) rows

/-- The creation time of the last row. -/
def lastCreatedAt : Option String → List LedgerRow → Option String
  | last, [] => last
  | _, row :: rows => lastCreatedAt (some row.createdAt) rows

variable {rt db nowMs} {prevHash : String} {expectedSeq : ℤ} {front back rows : List LedgerRow}

theorem rowBreak_eq_none {row : LedgerRow} :
    rowBreak rt db nowMs prevHash expectedSeq row = none ↔
      row.seq = expectedSeq ∧ row.prevHash = prevHash ∧
        ledgerRowHash rt prevHash row.fields = row.rowHash ∧
        (db.findRecord row.recordId = none → row.createdAt < retentionCutoffIso rt nowMs) := by
  unfold rowBreak
  split_ifs <;> simp_all

theorem rowBreak_of_missing {row : LedgerRow} (hseq : row.seq = expectedSeq)
    (hprev : row.prevHash = prevHash) (hhash : ledgerRowHash rt prevHash row.fields = row.rowHash)
    (hmissing : db.findRecord row.recordId = none)
    (hyoung : ¬row.createdAt < retentionCutoffIso rt nowMs) :
    rowBreak rt db nowMs prevHash expectedSeq row = some (.missingRecord row.seq row.recordId) := by
  unfold rowBreak
  rw [if_neg (not_not_intro hseq), if_neg (not_not_intro hprev), if_neg (not_not_intro hhash),
    if_pos ⟨hmissing, hyoung⟩]

theorem seqAfter_append :
    seqAfter expectedSeq (front ++ back) = seqAfter (seqAfter expectedSeq front) back := by
  induction front generalizing expectedSeq with
  | nil => rfl
  | cons row front ih => exact ih

theorem seqAfter_eq_getLast :
    seqAfter expectedSeq rows = (rows.getLast?.map fun row => row.seq + 1).getD expectedSeq := by
  induction rows generalizing expectedSeq with
  | nil => rfl
  | cons row rows ih =>
    rw [seqAfter, ih, List.getLast?_cons]
    cases rows.getLast? <;> rfl

theorem lastCreatedAt_eq_getLast {last : Option String} :
    lastCreatedAt last rows = (rows.getLast?.map LedgerRow.createdAt).or last := by
  induction rows generalizing last with
  | nil => rfl
  | cons row rows ih =>
    rw [lastCreatedAt, ih, List.getLast?_cons]
    cases rows.getLast? <;> rfl

/-- A pass can be cut in two. -/
theorem firstBreak_append :
    firstBreak rt db nowMs prevHash expectedSeq (front ++ back) =
      (firstBreak rt db nowMs prevHash expectedSeq front).or
        (firstBreak rt db nowMs (lastHash prevHash front) (seqAfter expectedSeq front) back) := by
  induction front generalizing prevHash expectedSeq with
  | nil => rfl
  | cons row front ih =>
    rw [List.cons_append, firstBreak, firstBreak, ih]
    cases rowBreak rt db nowMs prevHash expectedSeq row <;> rfl

theorem passedRows_eq_length (h : firstBreak rt db nowMs prevHash expectedSeq rows = none) :
    passedRows rt db nowMs prevHash expectedSeq rows = rows.length := by
  induction rows generalizing prevHash expectedSeq with
  | nil => rfl
  | cons row rows ih =>
    rw [firstBreak, Option.or_eq_none_iff] at h
    rw [passedRows, h.1]
    simp [ih h.2]

theorem passedRows_append_of_some {brk : LedgerBreak}
    (h : firstBreak rt db nowMs prevHash expectedSeq front = some brk) :
    passedRows rt db nowMs prevHash expectedSeq (front ++ back) =
      passedRows rt db nowMs prevHash expectedSeq front := by
  induction front generalizing prevHash expectedSeq with
  | nil => cases h
  | cons row front ih =>
    rw [List.cons_append, passedRows, passedRows]
    rw [firstBreak] at h
    cases hrow : rowBreak rt db nowMs prevHash expectedSeq row with
    | some _ => rfl
    | none =>
      rw [hrow] at h
      simp only
      rw [ih h]

theorem passedRows_append_of_none (h : firstBreak rt db nowMs prevHash expectedSeq front = none) :
    passedRows rt db nowMs prevHash expectedSeq (front ++ back) = front.length +
      passedRows rt db nowMs (lastHash prevHash front) (seqAfter expectedSeq front) back := by
  induction front generalizing prevHash expectedSeq with
  | nil => simp [lastHash, seqAfter]
  | cons row front ih =>
    rw [firstBreak, Option.or_eq_none_iff] at h
    rw [List.cons_append, passedRows, h.1]
    simp only [ih h.2, List.length_cons, lastHash, seqAfter]
    omega

variable {waivers : LedgerWaivers}

variable (rt db waivers) in
/-- The content mismatch that a row is reported for. -/
def contentBreak (row : LedgerRow) : Option LedgerBreak :=
  match db.findRecord row.recordId with
  | none => none
  | some record =>
    if contentMatches rt row record || isContentWaived waivers row then none
    else some (.contentMismatch row.seq row.recordId)

/-- What the loop body does to the variables, for a row that is no break. -/
structure LedgerScan.Steps (rt : LedgerRuntime) (db : LedgerDb) (waivers : LedgerWaivers)
    (scan next : LedgerScan) (row : LedgerRow) : Prop where
  prevHash : next.prevHash = row.rowHash
  expectedSeq : next.expectedSeq = row.seq + 1
  lastVerified : next.lastVerifiedCreatedAt = some row.createdAt
  checked : next.checked = scan.checked + 1
  content : next.firstContentMismatch = scan.firstContentMismatch.or
    (contentBreak rt db waivers row)

theorem checkRow_spec (rt : LedgerRuntime) (db : LedgerDb) (waivers : LedgerWaivers) (nowMs : ℤ)
    (scan : LedgerScan) (row : LedgerRow) :
    (∃ brk, checkRow rt db waivers nowMs scan row = .error brk ∧
      rowBreak rt db nowMs scan.prevHash scan.expectedSeq row = some brk) ∨
    ∃ next, checkRow rt db waivers nowMs scan row = .ok next ∧
      rowBreak rt db nowMs scan.prevHash scan.expectedSeq row = none ∧
      scan.Steps rt db waivers next row := by
  unfold checkRow rowBreak
  by_cases hseq : row.seq ≠ scan.expectedSeq
  · exact Or.inl ⟨_, if_pos hseq, if_pos hseq⟩
  by_cases hprev : row.prevHash ≠ scan.prevHash
  · rw [if_neg hseq, if_neg hseq]
    exact Or.inl ⟨_, if_pos hprev, if_pos hprev⟩
  by_cases hhash : ledgerRowHash rt scan.prevHash row.fields ≠ row.rowHash
  · rw [if_neg hseq, if_neg hseq, if_neg hprev, if_neg hprev]
    exact Or.inl ⟨_, if_pos hhash, if_pos hhash⟩
  simp only [if_neg hseq, if_neg hprev, if_neg hhash]
  cases hrecord : db.findRecord row.recordId with
  | none =>
    by_cases hpruned : row.createdAt < retentionCutoffIso rt nowMs
    · refine Or.inr ⟨_, if_pos hpruned, if_neg (by simp [hpruned]), rfl, rfl, rfl, rfl, ?_⟩
      simp [contentBreak, hrecord]
    · exact Or.inl ⟨_, if_neg hpruned, if_pos ⟨rfl, hpruned⟩⟩
  | some record =>
    refine Or.inr ?_
    by_cases hmatch : contentMatches rt row record = true
    · refine ⟨_, if_pos hmatch, if_neg (by simp), rfl, rfl, rfl, rfl, ?_⟩
      simp [contentBreak, hrecord, hmatch]
    by_cases hwaived : isContentWaived waivers row = true
    · refine ⟨_, (if_neg hmatch).trans (if_pos hwaived), if_neg (by simp), rfl, rfl, rfl, rfl, ?_⟩
      simp [contentBreak, hrecord, hwaived]
    · refine ⟨_, (if_neg hmatch).trans (if_neg hwaived), if_neg (by simp), rfl, rfl, rfl, rfl, ?_⟩
      simp [contentBreak, hrecord, hmatch, hwaived]

/-- The loop finds the first break and counts the rows before it. -/
theorem scanRows_eq (rt : LedgerRuntime) (db : LedgerDb) (waivers : LedgerWaivers) (nowMs : ℤ)
    (scan : LedgerScan) (rows : List LedgerRow) :
    (scanRows rt db waivers nowMs scan rows).1 =
        firstBreak rt db nowMs scan.prevHash scan.expectedSeq rows ∧
      (scanRows rt db waivers nowMs scan rows).2.checked =
        scan.checked + passedRows rt db nowMs scan.prevHash scan.expectedSeq rows := by
  induction rows generalizing scan with
  | nil => exact ⟨rfl, rfl⟩
  | cons row rows ih =>
    rcases checkRow_spec rt db waivers nowMs scan row with ⟨brk, hcheck, hbrk⟩ |
      ⟨next, hcheck, hbrk, hnext⟩
    · simp [scanRows, firstBreak, passedRows, hcheck, hbrk]
    · obtain ⟨hfirst, hcount⟩ := ih next
      rw [hnext.prevHash, hnext.expectedSeq] at hfirst hcount
      simp only [scanRows, firstBreak, passedRows, hcheck, hbrk, Option.none_or]
      refine ⟨hfirst, ?_⟩
      rw [hcount, hnext.checked]
      omega

/-- The variables after rows that are no breaks. -/
theorem scanRows_vars (rt : LedgerRuntime) (db : LedgerDb) (waivers : LedgerWaivers) {nowMs : ℤ}
    (scan : LedgerScan) {rows : List LedgerRow}
    (h : firstBreak rt db nowMs scan.prevHash scan.expectedSeq rows = none) :
    (scanRows rt db waivers nowMs scan rows).2.expectedSeq = seqAfter scan.expectedSeq rows ∧
      (scanRows rt db waivers nowMs scan rows).2.lastVerifiedCreatedAt =
        lastCreatedAt scan.lastVerifiedCreatedAt rows ∧
      (scanRows rt db waivers nowMs scan rows).2.firstContentMismatch =
        scan.firstContentMismatch.or (rows.findSome? (contentBreak rt db waivers)) := by
  induction rows generalizing scan with
  | nil => simp [scanRows, seqAfter, lastCreatedAt]
  | cons row rows ih =>
    rw [firstBreak, Option.or_eq_none_iff] at h
    rcases checkRow_spec rt db waivers nowMs scan row with ⟨brk, hcheck, hbrk⟩ |
      ⟨next, hcheck, hbrk, hnext⟩
    · rw [hbrk] at h
      cases h.1
    · have hrest : firstBreak rt db nowMs next.prevHash next.expectedSeq rows = none := by
        rw [hnext.prevHash, hnext.expectedSeq]
        exact h.2
      obtain ⟨hseq, hlast, hcontent⟩ := ih next hrest
      simp only [scanRows, hcheck, hseq, hlast, hcontent, hnext.expectedSeq, hnext.lastVerified,
        hnext.content, seqAfter, lastCreatedAt, List.findSome?_cons, Option.or_assoc, true_and]
      cases contentBreak rt db waivers row <;> rfl

end Pass

theorem sampleMerge_contentMatches :
    contentMatches sampleRuntime sampleFirst sampleMergeRecord = true := by
  have hparse : sampleRuntime.jsonParse sampleMergeRecord.recordJson = some sampleMerge :=
    sampleMerge_parse
  simp only [contentMatches, recomputedContentDigest, hparse, Option.map_some, sampleMerge_digest,
    beq_self_eq_true]

end LoopOver
