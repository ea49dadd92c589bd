import LoopOver.Contract.Digest
import LoopOver.Executor.Failure
import LoopOver.Foundations.Conduct

/-!
# The decision ledger and the decision records

The two tables behind `src/review/decision-record.ts`. `decision_records` holds one row for every
verdict, and `decision_ledger` one row for every record, chained by hashes: a row commits to its own
fields and to the hash of the row before it.

* `LedgerDb` is the pair of tables, with their primary keys.
* `Chained` is an intact ledger: sequence numbers `1..n`, each row linked to its predecessor and
  hashed over its own fields.
* `LedgerDb.Answers` is what each SQL statement does.
-/

namespace LoopOver

open List

/-- What the ledger uses of its platform. -/
structure LedgerRuntime where
  /-- SHA-256 of the UTF-8 text, in lower-case hex. -/
  sha256Hex : String → String
  /-- `JSON.parse`; `none` is a thrown `SyntaxError`. -/
  jsonParse : String → Option Json
  /-- `new Date(ms).toISOString()`. -/
  toISOString : ℤ → String

/-! ## Rows -/

structure LedgerRow where
  seq : ℤ
  recordId : String
  recordDigest : String
  prevHash : String
  rowHash : String
  createdAt : String
  deriving DecidableEq

/-- The fields that the hash of a row covers. -/
structure LedgerRowFields where
  seq : ℤ
  recordId : String
  recordDigest : String
  createdAt : String

def LedgerRow.fields (row : LedgerRow) : LedgerRowFields :=
  ⟨row.seq, row.recordId, row.recordDigest, row.createdAt⟩

def LedgerRowFields.toJson (fields : LedgerRowFields) : Json :=
  .object [("seq", .number (toString fields.seq)), ("recordId", .string fields.recordId),
    ("recordDigest", .string fields.recordDigest), ("createdAt", .string fields.createdAt)]

/-- Genesis predecessor: the first row of the chain links to 64 zero nibbles. -/
def ledgerGenesisHash : String := String.ofList (List.replicate 64 '0')

/-- The one definition that append and verify share. -/
def ledgerRowHash (rt : LedgerRuntime) (prevHash : String) (fields : LedgerRowFields) : String :=
  rt.sha256Hex (prevHash ++ canonicalJson fields.toJson)

/-- The digest of a value under the canonical serialization. -/
def contentDigest (rt : LedgerRuntime) (value : Json) : String :=
  rt.sha256Hex (canonicalJson value)

/-- A stored verdict. -/
structure DecisionRecordRow where
  id : String
  repoFullName : String
  pullNumber : ℤ
  headSha : String
  action : String
  reasonCode : String
  recordDigest : String
  recordJson : String
  createdAt : String
  reevaluationReason : Option String := none
  supersedesRecordId : Option String := none
  reevaluationActor : Option String := none
  findingsCount : Option ℤ := none
  holdCause : Option String := none
  deriving DecidableEq

/-! ## The hash of a row determines its fields -/

theorem LedgerRowFields.canonicalJson_toJson (fields : LedgerRowFields) :
    canonicalJson fields.toJson =
      "\x7b" ++ ("\"createdAt\"" ++ (":" ++ (jsonString fields.createdAt ++ ("," ++
        ("\"recordDigest\"" ++ (":" ++ (jsonString fields.recordDigest ++ ("," ++
          ("\"recordId\"" ++ (":" ++ (jsonString fields.recordId ++ ("," ++
            ("\"seq\"" ++ (":" ++ (toString fields.seq ++ "\x7d"))))))))))))))) := by
  have horder : ¬keyLe "recordDigest" "createdAt" ∧ ¬keyLe "recordId" "createdAt" ∧
      ¬keyLe "recordId" "recordDigest" ∧ ¬keyLe "seq" "createdAt" ∧ ¬keyLe "seq" "recordDigest" ∧
      ¬keyLe "seq" "recordId" := by decide
  have hkeys : jsonString "createdAt" = "\"createdAt\"" ∧
      jsonString "recordDigest" = "\"recordDigest\"" ∧ jsonString "recordId" = "\"recordId\"" ∧
      jsonString "seq" = "\"seq\"" := by decide
  simp [toJson, canonicalJson, canonicalFields, List.insertionSort, List.orderedInsert, horder,
    hkeys, String.intercalate_cons_cons, String.append_assoc]

theorem LedgerRowFields.toJson_inj {a b : LedgerRowFields}
    (h : canonicalJson a.toJson = canonicalJson b.toJson) : a = b := by
  rw [canonicalJson_toJson, canonicalJson_toJson] at h
  simp only [String.append_right_inj] at h
  obtain ⟨hcreated, h⟩ := jsonString_append_inj h
  simp only [String.append_right_inj] at h
  obtain ⟨hdigest, h⟩ := jsonString_append_inj h
  simp only [String.append_right_inj] at h
  obtain ⟨hid, h⟩ := jsonString_append_inj h
  simp only [String.append_right_inj, String.append_left_inj] at h
  have hseq := intText_inj h
  cases a
  cases b
  simp_all

/-- Under an injective hash, two rows after the same predecessor with one hash are the same. -/
theorem ledgerRowHash_inj {rt : LedgerRuntime} (hsha : Function.Injective rt.sha256Hex)
    {prevHash : String} {a b : LedgerRowFields}
    (h : ledgerRowHash rt prevHash a = ledgerRowHash rt prevHash b) : a = b :=
  LedgerRowFields.toJson_inj ((String.append_right_inj _).1 (hsha h))

/-! ## Chains -/

/-- The rows follow each other from a predecessor's hash and a sequence number on. -/
def ChainedFrom (rt : LedgerRuntime) : String → ℤ → List LedgerRow → Prop
  | _, _, [] => True
  | prevHash, seq, row :: rows =>
    (row.seq = seq ∧ row.prevHash = prevHash ∧ row.rowHash = ledgerRowHash rt prevHash row.fields) ∧
      ChainedFrom rt row.rowHash (seq + 1) rows

/-- An intact ledger. -/
def Chained (rt : LedgerRuntime) (rows : List LedgerRow) : Prop :=
  ChainedFrom rt ledgerGenesisHash 1 rows

instance (rt : LedgerRuntime) : ∀ prevHash seq rows, Decidable (ChainedFrom rt prevHash seq rows)
  | _, _, [] => isTrue trivial
  | _, seq, row :: rows =>
    have : Decidable (ChainedFrom rt row.rowHash (seq + 1) rows) :=
      instDecidableChainedFrom rt row.rowHash (seq + 1) rows
    inferInstanceAs (Decidable (_ ∧ _))

/-- The hash that the next row links to. -/
def lastHash : String → List LedgerRow → String
  | prevHash, [] => prevHash
  | _, row :: rows => lastHash row.rowHash rows

variable {row : LedgerRow}

section Chained

variable {rt : LedgerRuntime} {prevHash : String} {seq : ℤ} {rows front back : List LedgerRow}

theorem lastHash_append :
    lastHash prevHash (front ++ back) = lastHash (lastHash prevHash front) back := by
  induction front generalizing prevHash with
  | nil => rfl
  | cons row front ih => exact ih

theorem lastHash_eq_getLast :
    lastHash prevHash rows = (rows.getLast?.map LedgerRow.rowHash).getD prevHash := by
  induction rows generalizing prevHash with
  | nil => rfl
  | cons row rows ih =>
    rw [lastHash, ih, List.getLast?_cons]
    cases rows.getLast? <;> rfl

theorem chainedFrom_append :
    ChainedFrom rt prevHash seq (front ++ back) ↔
      ChainedFrom rt prevHash seq front ∧
        ChainedFrom rt (lastHash prevHash front) (seq + front.length) back := by
  induction front generalizing prevHash seq with
  | nil => simp [ChainedFrom, lastHash]
  | cons row front ih =>
    have hseq : seq + 1 + (front.length : ℤ) = seq + ((row :: front).length : ℤ) := by
      simp only [length_cons]
      omega
    simp only [cons_append, ChainedFrom, ih, lastHash, hseq, and_assoc]

/-- The sequence numbers of a chain count up from the first. -/
theorem ChainedFrom.seq_getElem (h : ChainedFrom rt prevHash seq rows) {i : ℕ}
    (hrow : rows[i]? = some row) : row.seq = seq + i := by
  induction rows generalizing prevHash seq i with
  | nil => simp at hrow
  | cons first rows ih =>
    obtain ⟨⟨hseq, -, -⟩, hrest⟩ := h
    cases i with
    | zero =>
      simp only [List.getElem?_cons_zero, Option.some.injEq] at hrow
      subst hrow
      simpa using hseq
    | succ i =>
      rw [List.getElem?_cons_succ] at hrow
      have := ih hrest hrow
      omega

theorem ChainedFrom.seq_mem (h : ChainedFrom rt prevHash seq rows)
    (hrow : row ∈ rows) : seq ≤ row.seq ∧ row.seq < seq + rows.length := by
  obtain ⟨i, hi, rfl⟩ := mem_iff_getElem.1 hrow
  have := h.seq_getElem (List.getElem?_eq_getElem hi)
  omega

/-- A chain has a row for every number up to its length. -/
theorem ChainedFrom.exists_seq (h : ChainedFrom rt prevHash seq rows) {i : ℕ}
    (hi : i < rows.length) :
    ∃ row ∈ rows, row.seq = seq + i :=
  ⟨rows[i], getElem_mem hi, h.seq_getElem (List.getElem?_eq_getElem hi)⟩

theorem ChainedFrom.pairwise (h : ChainedFrom rt prevHash seq rows) :
    rows.Pairwise fun a b => a.seq < b.seq := by
  induction rows generalizing prevHash seq with
  | nil => exact List.Pairwise.nil
  | cons first rows ih =>
    obtain ⟨⟨hseq, -, -⟩, hrest⟩ := h
    refine List.Pairwise.cons (fun row hrow => ?_) (ih hrest)
    have := (hrest.seq_mem hrow).1
    omega

end Chained

/-! ## The tables -/

/-- The two tables. The primary key of the ledger is `seq`, and its rows stand in the order of the
key; the primary key of the records is `id`. -/
@[ext] structure LedgerDb where
  ledger : List LedgerRow
  records : List DecisionRecordRow
  ledger_sorted : ledger.Pairwise fun a b => a.seq < b.seq
  records_nodup : (records.map DecisionRecordRow.id).Nodup

/-- What `SELECT seq, row_hash … ORDER BY seq DESC LIMIT 1` returns. -/
structure LedgerTip where
  seq : ℤ
  rowHash : String

namespace LedgerDb

/-- Both tables empty. -/
def empty : LedgerDb := ⟨[], [], List.Pairwise.nil, nodup_nil⟩

def tip (db : LedgerDb) : Option LedgerTip :=
  db.ledger.getLast?.map fun row => ⟨row.seq, row.rowHash⟩

/-- A row at its place in the order of the key. -/
def insertBySeq (row : LedgerRow) (rows : List LedgerRow) : List LedgerRow :=
  rows.filter (fun r => r.seq < row.seq) ++ row :: rows.filter fun r => row.seq < r.seq

variable {rows : List LedgerRow}

theorem insertBySeq_sorted (row : LedgerRow) (h : rows.Pairwise fun a b => a.seq < b.seq) :
    (insertBySeq row rows).Pairwise fun a b => a.seq < b.seq := by
  refine pairwise_append.2 ⟨h.filter _, List.Pairwise.cons ?_ (h.filter _), ?_⟩
  · intro r hr
    simpa using (mem_filter.1 hr).2
  · intro a ha b hb
    have ha' : a.seq < row.seq := by simpa using (mem_filter.1 ha).2
    rcases mem_cons.1 hb with rfl | hb
    · exact ha'
    · have hb' : row.seq < b.seq := by simpa using (mem_filter.1 hb).2
      omega

theorem insertBySeq_perm
    (hnew : ∀ r ∈ rows, r.seq ≠ row.seq) : (insertBySeq row rows).Perm (rows ++ [row]) := by
  have hrest : rows.filter (fun r => row.seq < r.seq) =
      rows.filter fun r => !decide (r.seq < row.seq) := by
    refine filter_congr fun r hr => ?_
    have := hnew r hr
    by_cases hlt : r.seq < row.seq
    · simp [hlt]
      omega
    · simp [hlt]
      omega
  rw [insertBySeq, hrest]
  refine (perm_middle.trans ?_).trans (perm_append_singleton row rows).symm
  exact List.Perm.cons row (filter_append_perm _ rows)

theorem insertBySeq_eq_append
    (h : ∀ r ∈ rows, r.seq < row.seq) : insertBySeq row rows = rows ++ [row] := by
  have hfront : rows.filter (fun r => r.seq < row.seq) = rows :=
    filter_eq_self.2 fun r hr => by simpa using h r hr
  have hback : rows.filter (fun r => row.seq < r.seq) = [] := by
    refine filter_eq_nil_iff.2 fun r hr => ?_
    have := h r hr
    simp only [decide_eq_true_eq]
    omega
  rw [insertBySeq, hfront, hback]

def insertLedgerRow (db : LedgerDb) (row : LedgerRow) : LedgerDb :=
  { db with
    ledger := insertBySeq row db.ledger
    ledger_sorted := insertBySeq_sorted row db.ledger_sorted }

def insertRecord (db : LedgerDb) (row : DecisionRecordRow)
    (hnew : row.id ∉ db.records.map DecisionRecordRow.id) : LedgerDb :=
  { db with
    records := db.records ++ [row]
    records_nodup := by
      rw [map_append, nodup_append]
      refine ⟨db.records_nodup, nodup_singleton _, ?_⟩
      intro a ha b hb
      simp only [map_cons, map_nil, mem_singleton] at hb
      rintro rfl
      exact hnew (hb ▸ ha) }

/-- The records without those of the given ids. -/
def deleteRecords (db : LedgerDb) (ids : List String) : LedgerDb :=
  { db with
    records := db.records.filter fun row => !ids.contains row.id
    records_nodup := db.records_nodup.sublist (filter_sublist.map _) }

end LedgerDb

/-! ## Statements -/

/-- The clock and the SQL statements, each of them atomic. -/
inductive LedgerCall
  | nowIso
  /-- `SELECT seq, row_hash … ORDER BY seq DESC LIMIT 1`. -/
  | readTip
  | insertLedgerRow (row : LedgerRow)
  /-- `SELECT COUNT(*) …` of the records of one head. -/
  | countRevisions (repoFullName : String) (pullNumber : ℤ) (headSha : String)
  | insertRecord (row : DecisionRecordRow)
  /-- `DELETE …` of at most `batchSize` of the oldest records created before the cutoff. -/
  | deleteExpired (cutoff : String) (batchSize : ℕ)

/-- What a statement may return; an error is thrown. -/
abbrev LedgerReply : LedgerCall → Type
  | .nowIso => String
  | .readTip => Except HostError (Option LedgerTip)
  | .insertLedgerRow _ => Except HostError Unit
  | .countRevisions _ _ _ => Except HostError ℕ
  | .insertRecord _ => Except HostError Unit
  | .deleteExpired _ _ => Except HostError ℕ

abbrev LedgerScript := Script LedgerReply Unit HostError

abbrev LedgerEvent := Event LedgerReply

/-- Run a statement. -/
abbrev query (call : LedgerCall) : LedgerScript (LedgerReply call) := Script.ask call

namespace LedgerDb

/-- The stored revisions of one head. -/
def revisions (db : LedgerDb) (repoFullName : String) (pullNumber : ℤ) (headSha : String) :
    List DecisionRecordRow :=
  db.records.filter fun row =>
    row.repoFullName == repoFullName && row.pullNumber == pullNumber && row.headSha == headSha

/-- The ids are those of a batch of the oldest expired records. -/
structure IsExpiredBatch (db : LedgerDb) (cutoff : String) (batchSize : ℕ) (ids : List String) :
    Prop where
  nodup : ids.Nodup
  expired : ∀ id ∈ ids, ∃ row ∈ db.records, row.id = id ∧ row.createdAt < cutoff
  bounded : ids.length ≤ batchSize
  full : ids.length < batchSize → ∀ row ∈ db.records, row.createdAt < cutoff → row.id ∈ ids
  oldest : ∀ gone ∈ db.records, gone.id ∈ ids → ∀ row ∈ db.records, row.createdAt < cutoff →
    row.id ∉ ids → gone.createdAt ≤ row.createdAt

/-- What each statement does. An insert goes through only when its key is new, and a statement that
fails leaves the tables as they are. -/
def answers : Answers LedgerReply LedgerDb
  | db, .nowIso, _, db' => db' = db
  | db, .readTip, reply, db' => db' = db ∧ ∀ tip, reply = .ok tip → tip = db.tip
  | db, .insertLedgerRow row, .ok (), db' =>
    (∀ r ∈ db.ledger, r.seq ≠ row.seq) ∧ db' = db.insertLedgerRow row
  | db, .insertLedgerRow _, .error _, db' => db' = db
  | db, .countRevisions repoFullName pullNumber headSha, reply, db' =>
    db' = db ∧ ∀ n, reply = .ok n → n = (db.revisions repoFullName pullNumber headSha).length
  | db, .insertRecord row, .ok (), db' =>
    ∃ hnew : row.id ∉ db.records.map DecisionRecordRow.id, db' = db.insertRecord row hnew
  | db, .insertRecord _, .error _, db' => db' = db
  | db, .deleteExpired cutoff batchSize, .ok n, db' =>
    ∃ ids, db.IsExpiredBatch cutoff batchSize ids ∧ n = ids.length ∧ db' = db.deleteRecords ids
  | db, .deleteExpired _ _, .error _, db' => db' = db

end LedgerDb

/-! ## A small ledger

Two rows with their real hashes, for concrete runs. -/

def sampleMerge : Json := .object [("action", .string "merge"), ("pullNumber", .number "7")]

def sampleClose : Json := .object [("action", .string "close"), ("pullNumber", .number "8")]

def sampleFirst : LedgerRow where
  seq := 1
  recordId := "record:acme/widgets#7@c0ffee"
  recordDigest := "8aba5e6226edf3e744a68348de35589faec5a382dce65250f05953ef263c9efc"
  prevHash := ledgerGenesisHash
  rowHash := "dae519d54417dff6b94daa8a575b9581cc155193a0b188d40907796289dcb398"
  createdAt := "2026-03-01T12:00:00.000Z"

def sampleSecond : LedgerRow where
  seq := 2
  recordId := "record:acme/widgets#8@decade"
  recordDigest := "87d588fb808728c6d72407b77cc90a8fed3a6d3ced57f752e43ac038b42399cb"
  prevHash := "dae519d54417dff6b94daa8a575b9581cc155193a0b188d40907796289dcb398"
  rowHash := "893bb8227163d0c3ae6bfc5084a4a79b2e476758264cc099b22c1ff36ac60ae4"
  createdAt := "2026-03-01T12:05:00.000Z"

/-- The row that an append of the second record proposes when it misses the first row. -/
def sampleLost : LedgerRow where
  seq := 1
  recordId := "record:acme/widgets#8@decade"
  recordDigest := "87d588fb808728c6d72407b77cc90a8fed3a6d3ced57f752e43ac038b42399cb"
  prevHash := ledgerGenesisHash
  rowHash := "4e16c50f9556770eaea15bc3e5fc1dcf291544caf268f96d02f83929f4bac55d"
  createdAt := "2026-03-01T12:00:00.001Z"

/-- The record of the first row. -/
def sampleMergeRecord : DecisionRecordRow where
  id := sampleFirst.recordId
  repoFullName := "acme/widgets"
  pullNumber := 7
  headSha := "c0ffee"
  action := "merge"
  reasonCode := "success"
  recordDigest := sampleFirst.recordDigest
  recordJson := canonicalJson sampleMerge
  createdAt := "2026-03-01T12:00:00.000Z"

/-- The record of the second row. -/
def sampleCloseRecord : DecisionRecordRow where
  id := sampleSecond.recordId
  repoFullName := "acme/widgets"
  pullNumber := 8
  headSha := "decade"
  action := "close"
  reasonCode := "success"
  recordDigest := sampleSecond.recordDigest
  recordJson := canonicalJson sampleClose
  createdAt := "2026-03-01T12:05:00.000Z"

theorem sampleRecords_nodup :
    ([sampleMergeRecord, sampleCloseRecord].map DecisionRecordRow.id).Nodup := by decide

theorem sampleMergeRecord_nodup : ([sampleMergeRecord].map DecisionRecordRow.id).Nodup := by decide

theorem no_rows_sorted : ([] : List LedgerRow).Pairwise fun a b => a.seq < b.seq :=
  List.Pairwise.nil

/-- The text whose hash the row carries. -/
def LedgerRow.preimage (row : LedgerRow) : String := row.prevHash ++ canonicalJson row.fields.toJson

/-- The texts that the concrete runs hash, with their SHA-256. -/
def sampleHashes : List (String × String) :=
  [(sampleFirst.preimage, sampleFirst.rowHash), (sampleSecond.preimage, sampleSecond.rowHash),
    (canonicalJson sampleMerge, sampleFirst.recordDigest),
    (canonicalJson sampleClose, sampleSecond.recordDigest),
    (sampleLost.preimage, sampleLost.rowHash)]

/-- The value of a text in a table of hashes. A text outside the table gets a value that is no
hash. -/
def tableHash : List (String × String) → String → String
  | [], text => "x" ++ text
  | (key, value) :: table, text => if key = text then value else tableHash table text

variable {table : List (String × String)}

theorem tableHash_self {key value : String} :
    tableHash ((key, value) :: table) key = value := if_pos rfl

theorem tableHash_of_ne {key value text : String} (h : key ≠ text) :
    tableHash ((key, value) :: table) text = tableHash table text := if_neg h

/-- A platform for the concrete runs. Its clock stands at 13:00 of the day, and is asked for 12:55
and for the day 180 days earlier. -/
def sampleRuntime : LedgerRuntime where
  sha256Hex := tableHash sampleHashes
  jsonParse text :=
    if text = canonicalJson sampleMerge then some sampleMerge
    else if text = canonicalJson sampleClose then some sampleClose
    else none
  toISOString ms :=
    if ms < 1772369700000 then "2025-09-02T13:00:00.000Z"
    else if ms < 1772370000000 then "2026-03-01T12:55:00.000Z"
    else "2026-03-01T13:00:00.000Z"

/-- 13:00 of the day, in milliseconds. -/
def sampleNowMs : ℤ := 1772370000000

theorem sampleRuntime_sha256Hex (text : String) :
    sampleRuntime.sha256Hex text = tableHash sampleHashes text := rfl

theorem ledgerRowHash_eq_preimage (rt : LedgerRuntime) (row : LedgerRow) :
    ledgerRowHash rt row.prevHash row.fields = rt.sha256Hex row.preimage := rfl

theorem sampleFirst_rowHash :
    ledgerRowHash sampleRuntime sampleFirst.prevHash sampleFirst.fields = sampleFirst.rowHash := by
  rw [ledgerRowHash_eq_preimage, sampleRuntime_sha256Hex, sampleHashes, tableHash_self]

theorem ne_of_head_ne {s t : String} {c d : Char} (hs : s.toList.head? = some c)
    (ht : t.toList.head? = some d) (h : c ≠ d) : s ≠ t := by
  rintro rfl
  rw [hs] at ht
  exact h (Option.some.inj ht)

theorem LedgerRow.head_preimage {c : Char} (h : row.prevHash.toList.head? = some c) :
    row.preimage.toList.head? = some c := by
  rw [preimage, String.toList_append, List.head?_append, h]
  rfl

theorem sampleFirst_head : sampleFirst.preimage.toList.head? = some '0' :=
  LedgerRow.head_preimage (by decide)

theorem sampleSecond_head : sampleSecond.preimage.toList.head? = some 'd' :=
  LedgerRow.head_preimage (by decide)

theorem sampleMerge_head : (canonicalJson sampleMerge).toList.head? = some '\x7b' := by decide

theorem sampleSecond_rowHash :
    ledgerRowHash sampleRuntime sampleSecond.prevHash sampleSecond.fields =
      sampleSecond.rowHash := by
  rw [ledgerRowHash_eq_preimage, sampleRuntime_sha256Hex, sampleHashes,
    tableHash_of_ne (ne_of_head_ne sampleFirst_head sampleSecond_head (by decide)), tableHash_self]

theorem sampleMerge_digest :
    contentDigest sampleRuntime sampleMerge = sampleFirst.recordDigest := by
  rw [contentDigest, sampleRuntime_sha256Hex, sampleHashes,
    tableHash_of_ne (ne_of_head_ne sampleFirst_head sampleMerge_head (by decide)),
    tableHash_of_ne (ne_of_head_ne sampleSecond_head sampleMerge_head (by decide)), tableHash_self]

theorem sampleMerge_parse :
    sampleRuntime.jsonParse (canonicalJson sampleMerge) = some sampleMerge := by
  simp only [sampleRuntime, if_true]

theorem sample_chained : Chained sampleRuntime [sampleFirst, sampleSecond] :=
  ⟨⟨rfl, rfl, sampleFirst_rowHash.symm⟩, ⟨rfl, rfl, sampleSecond_rowHash.symm⟩, trivial⟩

end LoopOver
