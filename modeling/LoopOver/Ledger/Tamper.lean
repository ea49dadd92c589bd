import LoopOver.Ledger.Paging

/-!
# Tampering with the ledger

Someone with access to the tables changes a row of the ledger, deletes rows, or rewrites a record.
Under an injective hash and without waivers, a walk through the ledger shows it.

* `Tampering` lists the changes.
* `chained_of_ok`, `contentBreak_of_ok` and `no_orphan_of_ok` are what a walk without a finding
  says.
* **`tampering_detected`**: after each of these changes a walk has a finding.

Two changes are not among them (`wiped_ledger_unnoticed`): an empty ledger gives the reconciliation
no row to look from, and no window reads a last row that is moved to a number up to zero.
-/

namespace LoopOver

open List

/-! ## Changes -/

/-- One field of the row is changed. -/
inductive FieldChange (row : LedgerRow) : LedgerRow → Prop
  | seq (value : ℤ) (hne : value ≠ row.seq) : FieldChange row { row with seq := value }
  | recordId (value : String) (hne : value ≠ row.recordId) :
      FieldChange row { row with recordId := value }
  | recordDigest (value : String) (hne : value ≠ row.recordDigest) :
      FieldChange row { row with recordDigest := value }
  | prevHash (value : String) (hne : value ≠ row.prevHash) :
      FieldChange row { row with prevHash := value }
  | rowHash (value : String) (hne : value ≠ row.rowHash) :
      FieldChange row { row with rowHash := value }
  | createdAt (value : String) (hne : value ≠ row.createdAt) :
      FieldChange row { row with createdAt := value }

/-- The records with one `record_json` rewritten. -/
def rewriteRecordJson (id recordJson : String) (records : List DecisionRecordRow) :
    List DecisionRecordRow :=
  records.map fun record => if record.id = id then { record with recordJson } else record

/-- The tables before and after the tampering, for a walk with the given windows. -/
inductive Tampering (rt : LedgerRuntime) (windows : ℕ → LedgerWindow) (db db' : LedgerDb) : Prop
  /-- One field of one row is changed. The rows stand in the order of their numbers again, and the
  number of the last one stays positive. -/
  | changeField (front back : List LedgerRow) (row row' : LedgerRow)
      (hrows : db.ledger = front ++ row :: back) (hfield : FieldChange row row')
      (hlast : back = [] → 0 < row'.seq) (hrows' : db'.ledger.Perm (front ++ row' :: back))
  /-- A row before the last is deleted. -/
  | deleteRow (front back : List LedgerRow) (row : LedgerRow) (hback : back ≠ [])
      (hrows : db.ledger = front ++ row :: back) (hrows' : db'.ledger = front ++ back)
  /-- The text of a record that a row vouches for is replaced by one that does not parse, or that
  has other contents. -/
  | rewriteRecord (row : LedgerRow) (record : DecisionRecordRow) (recordJson : String)
      (hrow : row ∈ db.ledger) (hrecord : db.findRecord row.recordId = some record)
      (hmatch : contentMatches rt row record = true)
      (hcontent : (rt.jsonParse recordJson).map canonicalJson ≠
        (rt.jsonParse record.recordJson).map canonicalJson)
      (hrows' : db'.ledger = db.ledger)
      (hrecords' : db'.records = rewriteRecordJson row.recordId recordJson db.records)
  /-- The last rows are deleted, but not all. The record of one of them is stored, it is past the
  grace period, and no other row vouches for it. -/
  | truncate (front back : List LedgerRow) (row : LedgerRow) (record : DecisionRecordRow)
      (hfront : front ≠ []) (hrows : db.ledger = front ++ back) (hrow : row ∈ back)
      (hrecord : record ∈ db.records) (hid : record.id = row.recordId)
      (hdue : ∀ i, record.createdAt ≤ graceCutoffIso rt (windows i).nowMs)
      (hother : ∀ r ∈ front, r.recordId ≠ row.recordId)
      (hrows' : db'.ledger = front) (hrecords' : db'.records = db.records)

/-! ## What a walk without a finding says -/

variable {record : DecisionRecordRow}

section Ok

variable {rt : LedgerRuntime} {db : LedgerDb} {windows : ℕ → LedgerWindow}

/-- Every window of the walk is fine. -/
def WalksOk (rt : LedgerRuntime) (db : LedgerDb) (windows : ℕ → LedgerWindow) : Prop :=
  ∀ result ∈ walkLedger rt db {} windows, result.ok = true

theorem LedgerDb.chainRows_eq (h : ∀ row ∈ db.ledger, 0 < row.seq) : db.chainRows = db.ledger :=
  filter_eq_self.2 fun row hrow => by simpa using h row hrow

theorem chained_chainRows_of_ok (h : WalksOk rt db windows) : Chained rt db.chainRows :=
  ((walkLedger_walk rt db {} windows).of_ok h).1

theorem chained_of_ok (h : WalksOk rt db windows) (hpos : ∀ row ∈ db.ledger, 0 < row.seq) :
    Chained rt db.ledger :=
  LedgerDb.chainRows_eq hpos ▸ chained_chainRows_of_ok h

theorem contentBreak_of_ok (h : WalksOk rt db windows) {row : LedgerRow} (hrow : row ∈ db.ledger)
    (hpos : 0 < row.seq) : contentBreak rt db {} row = none :=
  ((walkLedger_walk rt db {} windows).of_ok h).2.1 row
    (mem_filter.2 ⟨hrow, by simpa using hpos⟩)

/-- Past a row, every record that is due has a row that vouches for it. -/
theorem no_orphan_of_ok (h : WalksOk rt db windows) (hpos : ∀ row ∈ db.ledger, 0 < row.seq)
    (hne : db.ledger ≠ []) (hrecord : record ∈ db.records)
    (hdue : ∀ i, record.createdAt ≤ graceCutoffIso rt (windows i).nowMs) :
    db.isOrphan record = false := by
  obtain ⟨-, -, j, htail⟩ := (walkLedger_walk rt db {} windows).of_ok h
  rw [LedgerDb.chainRows_eq hpos, nil_append, lastCreatedAt_eq_getLast] at htail
  have hreported :=
    htail (db.ledger.getLast hne).createdAt (by rw [List.getLast?_eq_some_getLast hne]; rfl)
  by_contra horphan
  have hmem : record ∈ dueOrphans rt db (windows j).nowMs :=
    mem_filter.2 ⟨hrecord, by simpa [hdue j] using horphan⟩
  rw [show reportedOrphans rt db {} (windows j).nowMs _ =
    dueOrphans rt db (windows j).nowMs from rfl]
    at hreported
  rw [hreported] at hmem
  cases hmem

end Ok

/-! ## Each change is noticed -/

section Detect

variable {rt : LedgerRuntime} {windows : ℕ → LedgerWindow} {db db' : LedgerDb}
  {front back : List LedgerRow} {row row' : LedgerRow}

/-- A row that keeps its number but not all of the rest breaks the chain at its place. -/
theorem FieldChange.not_chained (hsha : Function.Injective rt.sha256Hex)
    (hfield : FieldChange row row') (hseq : row'.seq = row.seq)
    (hchain : Chained rt (front ++ row :: back)) (hchain' : Chained rt (front ++ row' :: back)) :
    False := by
  obtain ⟨⟨-, hprev, hhash⟩, -⟩ := (chainedFrom_append.1 hchain).2
  obtain ⟨⟨-, hprev', hhash'⟩, -⟩ := (chainedFrom_append.1 hchain').2
  have hfields : row'.rowHash = row.rowHash → row'.fields = row.fields := fun hsame =>
    ledgerRowHash_inj hsha (hhash'.symm.trans (hsame.trans hhash))
  cases hfield with
  | seq value hne => exact hne hseq
  | recordId value hne => exact hne (congrArg LedgerRowFields.recordId (hfields rfl))
  | recordDigest value hne => exact hne (congrArg LedgerRowFields.recordDigest (hfields rfl))
  | prevHash value hne => exact hne (hprev'.trans hprev.symm)
  | rowHash value hne => exact hne (hhash'.trans hhash.symm)
  | createdAt value hne => exact hne (congrArg LedgerRowFields.createdAt (hfields rfl))

variable {rows : List LedgerRow}

theorem Chained.seq_pos (hchain : Chained rt rows) :
    ∀ r ∈ rows, 0 < r.seq := by
  intro r hr
  have := hchain.seq_mem hr
  omega

/-- A chain without one of the rows before its last has a gap in its numbers. -/
theorem not_chained_of_gap (hchain : Chained rt (front ++ row :: back)) (hback : back ≠ [])
    (hperm : rows.Perm (front ++ back)) : ¬Chained rt rows := by
  intro hchain'
  have hsorted : (front ++ back).Pairwise fun a b => a.seq < b.seq :=
    hchain.pairwise.sublist (List.Sublist.append_left (sublist_cons_self row back) front)
  obtain rfl : rows = front ++ back :=
    hperm.eq_of_pairwise (fun a b _ _ hab hba => by omega) hchain'.pairwise hsorted
  obtain ⟨next, rest, rfl⟩ := exists_cons_of_ne_nil hback
  -- the row after the gap has both numbers
  obtain ⟨-, ⟨hseq, -, -⟩, -⟩ := (chainedFrom_append.1 hchain).2
  obtain ⟨⟨hseq', -, -⟩, -⟩ := (chainedFrom_append.1 hchain').2
  omega

/-- No window reads a row that is moved to a number up to zero. -/
theorem chainRows_of_moved (hchain : Chained rt (front ++ row :: back)) (hmoved : ¬0 < row'.seq)
    (hrows' : db'.ledger.Perm (front ++ row' :: back)) : db'.chainRows.Perm (front ++ back) := by
  have hkept : (front ++ row' :: back).filter (fun r => 0 < r.seq) = front ++ back := by
    rw [filter_append, filter_cons_of_neg (by simpa using hmoved), ← filter_append]
    refine filter_eq_self.2 fun r hr => decide_eq_true (hchain.seq_pos r ?_)
    exact (List.Sublist.append_left (sublist_cons_self row back) front).subset hr
  exact hkept ▸ hrows'.filter _

/-- A chain has a row for the number of the row that was changed, so that row has kept it. -/
theorem seq_eq_of_chained (hchain : Chained rt (front ++ row :: back))
    (hperm : rows.Perm (front ++ row' :: back)) (hchain' : Chained rt rows) :
    row'.seq = row.seq := by
  have hrow := hchain.seq_mem (mem_append_right front (mem_cons_self))
  have hlength : rows.length = (front ++ row :: back).length := by
    rw [hperm.length_eq]
    simp
  obtain ⟨r, hr, hseq⟩ := hchain'.exists_seq (i := (row.seq - 1).toNat) (by omega)
  have hseq' : r.seq = row.seq := by omega
  have hpairs := pairwise_append.1 hchain.pairwise
  rcases mem_append.1 (hperm.mem_iff.1 hr) with hfront | htail
  · have := hpairs.2.2 r hfront row mem_cons_self
    omega
  · rcases mem_cons.1 htail with rfl | hback
    · exact hseq'
    · have := (pairwise_cons.1 hpairs.2.1).1 r hback
      omega

theorem changeField_detected (hsha : Function.Injective rt.sha256Hex)
    (hchain : Chained rt db.ledger) (hrows : db.ledger = front ++ row :: back)
    (hfield : FieldChange row row') (hlast : back = [] → 0 < row'.seq)
    (hrows' : db'.ledger.Perm (front ++ row' :: back)) :
    ¬WalksOk rt db' windows := by
  intro hok
  rw [hrows] at hchain
  by_cases hmoved : 0 < row'.seq
  swap
  · exact not_chained_of_gap hchain (mt hlast hmoved) (chainRows_of_moved hchain hmoved hrows')
      (chained_chainRows_of_ok hok)
  have hpos := hchain.seq_pos
  have hpos' : ∀ r ∈ db'.ledger, 0 < r.seq := by
    intro r hr
    rcases mem_append.1 (hrows'.mem_iff.1 hr) with hfront | htail
    · exact hpos r (mem_append_left _ hfront)
    · rcases mem_cons.1 htail with rfl | hback
      · exact hmoved
      · exact hpos r (mem_append_right _ (mem_cons_of_mem _ hback))
  have hchain' := chained_of_ok hok hpos'
  have hseq := seq_eq_of_chained hchain hrows' hchain'
  -- with its number kept, the row stands at its old place
  have hplace : db'.ledger = front ++ row' :: back := by
    have hsorted : (front ++ row' :: back).Pairwise fun a b => a.seq < b.seq := by
      have hpairs := hchain.pairwise
      rw [pairwise_append, pairwise_cons] at hpairs ⊢
      obtain ⟨hf, ⟨hrow, hb⟩, hfb⟩ := hpairs
      refine ⟨hf, ⟨fun r hr => hseq ▸ hrow r hr, hb⟩, fun a ha b hb => ?_⟩
      rcases mem_cons.1 hb with rfl | hb
      · exact hseq ▸ hfb a ha row mem_cons_self
      · exact hfb a ha b (mem_cons_of_mem _ hb)
    exact hrows'.eq_of_pairwise (fun a b _ _ hab hba => by omega) db'.ledger_sorted hsorted
  rw [hplace] at hchain'
  exact hfield.not_chained hsha hseq hchain hchain'

theorem deleteRow_detected (hchain : Chained rt db.ledger) (hback : back ≠ [])
    (hrows : db.ledger = front ++ row :: back) (hrows' : db'.ledger = front ++ back) :
    ¬WalksOk rt db' windows := by
  intro hok
  rw [hrows] at hchain
  have hpos : ∀ r ∈ db'.ledger, 0 < r.seq := by
    intro r hr
    rw [hrows'] at hr
    exact hchain.seq_pos r
      ((List.Sublist.append_left (sublist_cons_self row back) front).subset hr)
  exact not_chained_of_gap hchain hback (hrows' ▸ List.Perm.refl _) (chained_of_ok hok hpos)

theorem findRecord_rewrite {id recordJson : String}
    (hrecords' : db'.records = rewriteRecordJson id recordJson db.records)
    (h : db.findRecord id = some record) : db'.findRecord id = some { record with recordJson } := by
  have hid : record.id = id := by simpa using List.find?_some h
  have hkeep : ((fun r : DecisionRecordRow => r.id == id) ∘ fun r : DecisionRecordRow =>
      if r.id = id then { r with recordJson } else r) = fun r => r.id == id := by
    funext r
    simp only [Function.comp_apply]
    split <;> rfl
  rw [LedgerDb.findRecord] at h
  rw [LedgerDb.findRecord, hrecords', rewriteRecordJson, List.find?_map, hkeep, h, Option.map_some,
    if_pos hid]

theorem rewriteRecord_detected (hsha : Function.Injective rt.sha256Hex)
    (hchain : Chained rt db.ledger) {recordJson : String}
    (hrow : row ∈ db.ledger) (hrecord : db.findRecord row.recordId = some record)
    (hmatch : contentMatches rt row record = true)
    (hcontent : (rt.jsonParse recordJson).map canonicalJson ≠
      (rt.jsonParse record.recordJson).map canonicalJson)
    (hrows' : db'.ledger = db.ledger)
    (hrecords' : db'.records = rewriteRecordJson row.recordId recordJson db.records) :
    ¬WalksOk rt db' windows := by
  intro hok
  have hbreak := contentBreak_of_ok hok (hrows' ▸ hrow) (hchain.seq_pos row hrow)
  have hmatch' : contentMatches rt row { record with recordJson } = true := by
    by_contra hnot
    simp [contentBreak, findRecord_rewrite hrecords' hrecord, hnot, isContentWaived] at hbreak
  -- both texts have the digest of the row, so they have the same canonical form
  have hdigest : (rt.jsonParse recordJson).map (contentDigest rt) =
      (rt.jsonParse record.recordJson).map (contentDigest rt) := by
    have hold : (rt.jsonParse record.recordJson).map (contentDigest rt) =
        some row.recordDigest := by
      simpa [contentMatches, recomputedContentDigest] using hmatch
    have hnew : (rt.jsonParse recordJson).map (contentDigest rt) = some row.recordDigest := by
      simpa [contentMatches, recomputedContentDigest] using hmatch'
    rw [hnew, hold]
  have hcomp : contentDigest rt = rt.sha256Hex ∘ canonicalJson := rfl
  rw [hcomp, ← Option.map_map, ← Option.map_map] at hdigest
  exact hcontent (Option.map_injective hsha hdigest)

theorem truncate_detected (hchain : Chained rt db.ledger)
    (hfront : front ≠ []) (hrows : db.ledger = front ++ back)
    (hrecord : record ∈ db.records) (hid : record.id = row.recordId)
    (hdue : ∀ i, record.createdAt ≤ graceCutoffIso rt (windows i).nowMs)
    (hother : ∀ r ∈ front, r.recordId ≠ row.recordId) (hrows' : db'.ledger = front)
    (hrecords' : db'.records = db.records) : ¬WalksOk rt db' windows := by
  intro hok
  have hpos : ∀ r ∈ db'.ledger, 0 < r.seq := by
    intro r hr
    exact hchain.seq_pos r (hrows ▸ mem_append_left back (hrows' ▸ hr))
  have horphan := no_orphan_of_ok hok hpos (hrows' ▸ hfront) (hrecords' ▸ hrecord) hdue
  simp only [LedgerDb.isOrphan, Bool.not_eq_false', any_eq_true, beq_iff_eq] at horphan
  obtain ⟨r, hr, hvouches⟩ := horphan
  exact hother r (hrows' ▸ hr) (hvouches.trans hid)

end Detect

/-- **Tampering with an intact ledger is noticed**, under an injective hash and without waivers: a
walk through the windows has a finding. -/
theorem tampering_detected (rt : LedgerRuntime) (windows : ℕ → LedgerWindow) {db db' : LedgerDb}
    (hsha : Function.Injective rt.sha256Hex) (hchain : Chained rt db.ledger)
    (h : Tampering rt windows db db') :
    ∃ result ∈ walkLedger rt db' {} windows, result.ok = false := by
  have hnot : ¬WalksOk rt db' windows := by
    cases h with
    | changeField front back row row' hrows hfield hlast hrows' =>
      exact changeField_detected hsha hchain hrows hfield hlast hrows'
    | deleteRow front back row hback hrows hrows' =>
      exact deleteRow_detected hchain hback hrows hrows'
    | rewriteRecord row record recordJson hrow hrecord hmatch hcontent hrows' hrecords' =>
      exact rewriteRecord_detected hsha hchain hrow hrecord hmatch hcontent hrows' hrecords'
    | truncate front back row record hfront hrows hrow hrecord hid hdue hother hrows' hrecords' =>
      exact truncate_detected hchain hfront hrows hrecord hid hdue hother hrows' hrecords'
  simpa [WalksOk] using hnot

/-! ## A sample ledger -/

theorem tableHash_cases (table : List (String × String)) (text : String) :
    tableHash table text ∈ table.map Prod.snd ∨ tableHash table text = "x" ++ text := by
  induction table with
  | nil => exact Or.inr rfl
  | cons entry table ih =>
    rw [tableHash, map_cons]
    split
    · exact Or.inl mem_cons_self
    · exact ih.imp_left (mem_cons_of_mem _)

/-- A table of different hashes, none of which starts with an `x`, gives an injective hash. -/
theorem tableHash_injective (table : List (String × String)) (hnodup : (table.map Prod.snd).Nodup)
    (hhead : ∀ value ∈ table.map Prod.snd, value.toList.head? ≠ some 'x') :
    Function.Injective (tableHash table) := by
  have hoff : ∀ value ∈ table.map Prod.snd, ∀ text, value ≠ "x" ++ text := by
    rintro value hvalue text rfl
    exact hhead _ hvalue (by rw [String.toList_append]; rfl)
  clear hhead
  induction table with
  | nil => exact fun _ _ h => (String.append_right_inj "x").1 h
  | cons entry table ih =>
    obtain ⟨hnew, hnodup⟩ := nodup_cons.1 hnodup
    obtain ⟨hentry, hoff⟩ := forall_mem_cons.1 hoff
    have hother : ∀ text, tableHash table text ≠ entry.2 := by
      intro text h
      rcases tableHash_cases table text with hmem | hx
      · exact hnew (h ▸ hmem)
      · exact hentry text (h.symm.trans hx)
    intro a b h
    rw [tableHash, tableHash] at h
    split_ifs at h with ha hb hb
    · exact ha.symm.trans hb
    · exact absurd h.symm (hother b)
    · exact absurd h (hother a)
    · exact ih hnodup hoff h

theorem sampleRuntime_injective : Function.Injective sampleRuntime.sha256Hex :=
  tableHash_injective sampleHashes (by decide +kernel) (by decide +kernel)

/-- The two sample rows with their records. -/
def sampleDb : LedgerDb where
  ledger := [sampleFirst, sampleSecond]
  records := [sampleMergeRecord, sampleCloseRecord]
  ledger_sorted := by decide
  records_nodup := sampleRecords_nodup

/-- The first row is gone. -/
def beheadedDb : LedgerDb := { sampleDb with ledger := [sampleSecond], ledger_sorted := by decide }

theorem tampering_detected_beheaded :
    ∃ result ∈ walkLedger sampleRuntime beheadedDb {} singleRowWindows, result.ok = false := by
  have hdelete : Tampering sampleRuntime singleRowWindows sampleDb beheadedDb :=
    .deleteRow [] [sampleSecond] sampleFirst (by decide) rfl rfl
  exact tampering_detected sampleRuntime singleRowWindows sampleRuntime_injective
    sample_chained hdelete

/-- All rows are gone. -/
def wipedDb : LedgerDb := { sampleDb with ledger := [], ledger_sorted := no_rows_sorted }

/-- The last row has the number 0. -/
def demotedDb : LedgerDb :=
  { sampleDb with
    ledger := [{ sampleSecond with seq := 0 }, sampleFirst], ledger_sorted := by decide }

/-- The reconciliation starts from a verified row: when the whole ledger is deleted, no window has a
finding, although the records are stored and due. Nor has one when the last row is moved to zero. -/
theorem wiped_ledger_unnoticed :
    (Function.Injective sampleRuntime.sha256Hex ∧ Chained sampleRuntime sampleDb.ledger ∧
      ∀ record ∈ sampleDb.records, record.createdAt ≤ graceCutoffIso sampleRuntime sampleNowMs) ∧
      (wipedDb.records = sampleDb.records ∧ wipedDb.ledger = [] ∧
        ∀ result ∈ walkLedger sampleRuntime wipedDb {} singleRowWindows, result.ok = true) ∧
      demotedDb.records = sampleDb.records ∧
        (∃ row, FieldChange sampleSecond row ∧ demotedDb.ledger.Perm [sampleFirst, row]) ∧
        ∀ result ∈ walkLedger sampleRuntime demotedDb {} singleRowWindows, result.ok = true :=
  ⟨⟨sampleRuntime_injective, sample_chained, by decide⟩, ⟨rfl, rfl, by decide⟩, rfl,
    ⟨_, .seq 0 (by decide), List.Perm.swap _ _ _⟩, by decide +kernel⟩

end LoopOver
