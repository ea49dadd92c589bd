import LoopOver.Portfolio.Store
import Mathlib.Data.List.MinMax

/-!
# Invariants of the portfolio store

* `Moves` lists what an operation may do to a row, and `Stepped` says that it does one of these to
  every row, in its place, and adds at most one row at the end.
* `Claims` is what a claim does: queued rows become the caller's, and each of them is returned once.
* `StoreHolds` is what every sequence of operations keeps.
* **`store_invariants`**: all of this for the operations in any order, from the empty store.
-/

namespace LoopOver.Portfolio

open List

/-! ## What an operation does to a row -/

/-- What one operation may do to a row. -/
inductive Moves (now : ℕ) (row : PortfolioQueueDbRow) : PortfolioQueueDbRow → Prop
  | stays : Moves now row row
  | reactivated (priority : ℚ) (hstatus : row.status ≠ .inProgress) :
      Moves now row (reactivate priority row)
  | claimed (hstatus : row.status = .queued) : Moves now row (claimRow now row)
  | finished (hstatus : row.status ≠ .done) : Moves now row (finishRow row)
  | released (hstatus : row.status = .inProgress) : Moves now row (releaseRow row)
  | reopened (hstatus : row.status = .done) : Moves now row (reopenRow row)

/-- A row that has never been claimed. -/
structure Fresh (now : ℕ) (rows : Rows) (row : PortfolioQueueDbRow) : Prop where
  status : row.status = .queued
  leasedAt : row.leasedAt = none
  attempts : row.attemptsCount = 0
  failures : row.consecutiveFailures = 0
  reenqueues : row.reenqueueCount = 0
  key : row.toQueueKey ∉ rows.map fun old => old.toQueueKey
  accepted : AcceptedKey row.toQueueKey
  rowid : row.rowid = nextRowid rows
  enqueuedAt : row.enqueuedAt = now

/-- What an operation does to the table. -/
structure Stepped (now : ℕ) (rows rows' : Rows) : Prop where
  exists_kept : ∃ kept added, rows' = kept ++ added ∧ List.Forall₂ (Moves now) rows kept ∧
    added.length ≤ 1 ∧
    ∀ row ∈ added, Fresh now rows row

/-- The rows of the returned entries become the caller's, who is told each of them once; they were
queued, and the other rows stay as they are. -/
structure Claims (now : ℕ) (rows rows' : Rows) (returned : List QueueEntry) : Prop where
  nodup : (returned.map QueueEntry.toQueueKey).Nodup
  rows_eq : rows' = rows.map fun row =>
    if row.toQueueKey ∈ returned.map QueueEntry.toQueueKey then claimRow now row else row
  of_queued : ∀ entry ∈ returned, ∃ row ∈ rows, row.status = .queued ∧
    entry = rowToEntry (claimRow now row)

section Steps

variable {now : ℕ} {rows rows' rows'' : Rows} {row : PortfolioQueueDbRow}
  {returned returned' : List QueueEntry}

theorem Moves.key_eq {row' : PortfolioQueueDbRow} (h : Moves now row row') :
    row'.toQueueKey = row.toQueueKey ∧ row'.enqueuedAt = row.enqueuedAt ∧
      row'.rowid = row.rowid := by
  cases h <;> exact ⟨rfl, rfl, rfl⟩

variable {R : PortfolioQueueDbRow → PortfolioQueueDbRow → Prop}

theorem forall₂_map_eq {κ : Type} {f : PortfolioQueueDbRow → κ}
    (h : List.Forall₂ R rows rows') (hf : ∀ row row', R row row' → f row' = f row) :
    rows'.map f = rows.map f := by
  induction h with
  | nil => rfl
  | cons hrow _ ih => rw [map_cons, map_cons, ih, hf _ _ hrow]

theorem forall₂_exists_left (h : List.Forall₂ R rows rows')
    {row' : PortfolioQueueDbRow} (hrow' : row' ∈ rows') : ∃ row ∈ rows, R row row' := by
  induction h with
  | nil => exact absurd hrow' not_mem_nil
  | cons hrow _ ih =>
    rcases mem_cons.1 hrow' with rfl | hmem
    · exact ⟨_, mem_cons_self, hrow⟩
    · obtain ⟨row, hmem, hR⟩ := ih hmem
      exact ⟨row, mem_cons_of_mem _ hmem, hR⟩

theorem stepped_refl (now : ℕ) (rows : Rows) : Stepped now rows rows :=
  ⟨rows, [], (append_nil rows).symm, forall₂_same.2 fun _ _ => .stays, Nat.zero_le 1,
    fun _ h => absurd h not_mem_nil⟩

theorem Stepped.of_forall₂ (h : List.Forall₂ (Moves now) rows rows') : Stepped now rows rows' :=
  ⟨rows', [], (append_nil rows').symm, h, Nat.zero_le 1, fun _ h => absurd h not_mem_nil⟩

/-- A statement about one item moves its row or none. -/
theorem stepped_transition {allowed : QueueStatus → Bool}
    {change : PortfolioQueueDbRow → PortfolioQueueDbRow}
    (hchange : ∀ row, allowed row.status = true → Moves now row (change row)) (key : QueueKey)
    (rows : Rows) :
    Stepped now rows (transition allowed change key rows).2 := by
  apply Stepped.of_forall₂
  apply (Table.forall₂_updateWhere _ _ rows).imp
  rintro row row' (⟨hp, rfl⟩ | ⟨_, rfl⟩)
  · exact hchange row (Bool.and_eq_true_iff.1 hp).2
  · exact .stays

theorem stepped_onItem {statement : QueueKey → Rows → Option PortfolioQueueDbRow × Rows}
    (h : ∀ key, Stepped now rows (statement key rows).2) (target : QueueTarget) :
    Stepped now rows (onItem statement target rows).2 := by
  unfold onItem
  cases normalizeKey target with
  | error e => exact stepped_refl now rows
  | ok key => exact h key

theorem stepped_enqueue (item : EnqueueItem) (now : ℕ) (rows : Rows) :
    Stepped now rows (enqueue item now rows).2 := by
  unfold enqueue
  split
  · exact stepped_refl now rows
  · exact stepped_refl now rows
  · next key priority hkey hpriority =>
    show Stepped now rows (enqueueStatement key priority now rows)
    unfold enqueueStatement
    split
    · apply Stepped.of_forall₂
      apply (Table.forall₂_updateWhere _ _ rows).imp
      rintro row row' (⟨hp, rfl⟩ | ⟨_, rfl⟩)
      · exact .reactivated priority (by simpa using (Bool.and_eq_true_iff.1 hp).2)
      · exact .stays
    · next hnew =>
      refine ⟨rows, _, rfl, forall₂_same.2 fun _ _ => .stays, Nat.le_refl 1, fun row hrow => ?_⟩
      obtain rfl := mem_singleton.1 hrow
      refine ⟨rfl, rfl, rfl, rfl, rfl, ?_, acceptedKey_of_normalizeKey hkey, rfl, rfl⟩
      intro hmem
      obtain ⟨old, hold, heq⟩ := mem_map.1 hmem
      exact hnew (any_eq_true.2 ⟨old, hold, beq_iff_eq.2 heq⟩)

/-! ### Claims -/

theorem claims_nil (now : ℕ) (rows : Rows) : Claims now rows rows [] := by
  refine ⟨nodup_nil, ?_, fun entry hentry => absurd hentry not_mem_nil⟩
  simp

/-- A row whose key was returned was queued. -/
theorem Claims.queued (h : Claims now rows rows' returned)
    (hkeys : (rows.map fun row => row.toQueueKey).Nodup) (hrow : row ∈ rows)
    (hmem : row.toQueueKey ∈ returned.map QueueEntry.toQueueKey) : row.status = .queued := by
  obtain ⟨entry, hentry, hkey⟩ := mem_map.1 hmem
  obtain ⟨old, hold, hqueued, rfl⟩ := h.of_queued entry hentry
  obtain rfl := Table.eq_of_key hkeys hold hrow hkey
  exact hqueued

theorem Claims.stepped (h : Claims now rows rows' returned)
    (hkeys : (rows.map fun row => row.toQueueKey).Nodup) : Stepped now rows rows' := by
  apply Stepped.of_forall₂
  rw [h.rows_eq, forall₂_map_right_iff, forall₂_same]
  intro row hrow
  split
  · next hmem => exact .claimed (h.queued hkeys hrow hmem)
  · exact .stays

theorem Claims.keys_eq (h : Claims now rows rows' returned) :
    rows'.map (fun row => row.toQueueKey) = rows.map fun row => row.toQueueKey := by
  rw [h.rows_eq, map_map]
  apply map_congr_left
  intro row _
  show (ite _ _ _ : PortfolioQueueDbRow).toQueueKey = row.toQueueKey
  split <;> rfl

/-- A claim after a claim takes other rows. -/
theorem Claims.trans (h : Claims now rows rows' returned) (h' : Claims now rows' rows'' returned')
    (hkeys : (rows.map fun row => row.toQueueKey).Nodup) :
    Claims now rows rows'' (returned ++ returned') := by
  have hkeys' : (rows'.map fun row => row.toQueueKey).Nodup := h.keys_eq.symm ▸ hkeys
  -- what the first claim took is in progress, and the second one takes what is queued
  have hother : ∀ row ∈ rows, row.toQueueKey ∈ returned.map QueueEntry.toQueueKey →
      row.toQueueKey ∉ returned'.map QueueEntry.toQueueKey := by
    intro row hrow hmem hmem'
    have hclaimed : claimRow now row ∈ rows' := by
      rw [h.rows_eq]
      exact mem_map.2 ⟨row, hrow, if_pos hmem⟩
    have hqueued := h'.queued hkeys' hclaimed hmem'
    cases hqueued
  refine ⟨?_, ?_, ?_⟩
  · rw [map_append]
    refine h.nodup.append h'.nodup fun key hmem hmem' => ?_
    obtain ⟨entry, hentry, rfl⟩ := mem_map.1 hmem
    obtain ⟨row, hrow, _, rfl⟩ := h.of_queued entry hentry
    exact hother row hrow hmem hmem'
  · rw [h'.rows_eq, h.rows_eq, map_map]
    apply map_congr_left
    intro row hrow
    simp only [Function.comp_apply, map_append, mem_append]
    by_cases hmem : row.toQueueKey ∈ returned.map QueueEntry.toQueueKey
    · have hnot : (claimRow now row).toQueueKey ∉ returned'.map QueueEntry.toQueueKey :=
        hother row hrow hmem
      rw [if_pos hmem, if_neg hnot, if_pos (Or.inl hmem)]
    · simp only [hmem, if_false, false_or]
  · intro entry hentry
    rcases mem_append.1 hentry with hentry | hentry
    · exact h.of_queued entry hentry
    · obtain ⟨row', hrow', hqueued, rfl⟩ := h'.of_queued entry hentry
      rw [h.rows_eq] at hrow'
      obtain ⟨row, hrow, rfl⟩ := mem_map.1 hrow'
      split at hqueued
      · cases hqueued
      · next hnot =>
        rw [if_neg hnot]
        exact ⟨row, hrow, hqueued, rfl⟩

/-- An update that claims one queued row, or none. -/
theorem claims_update {p : PortfolioQueueDbRow → Bool}
    (hkeys : (rows.map fun row => row.toQueueKey).Nodup)
    (hqueued : ∀ row ∈ rows, p row = true → row.status = .queued)
    (hone : ∀ row ∈ rows, ∀ other ∈ rows, p row = true → p other = true → row = other) :
    Claims now rows (Table.updateReturning p (claimRow now) rows).2
      ((Table.updateReturning p (claimRow now) rows).1.map rowToEntry).toList := by
  cases hfound : (Table.updateReturning p (claimRow now) rows).1 with
  | none =>
    have hnone := Table.updateReturning_eq_none hfound
    have hsame : (Table.updateReturning p (claimRow now) rows).2 = rows := by
      show rows.map _ = rows
      conv_rhs => rw [← map_id rows]
      apply map_congr_left
      intro row hrow
      rw [hnone row hrow]
      rfl
    rw [hsame]
    exact claims_nil now rows
  | some found =>
    obtain ⟨row, hrow, hp, rfl⟩ := Table.updateReturning_eq_some hfound
    refine ⟨nodup_singleton _, ?_, fun entry hentry => ?_⟩
    · apply map_congr_left
      intro other hother
      simp only [Option.map_some, Option.toList_some, map_singleton, mem_singleton]
      cases hp' : p other with
      | true =>
        obtain rfl := hone row hrow other hother hp hp'
        rw [if_pos rfl]
        exact (if_pos rfl).symm
      | false =>
        have hne : other.toQueueKey ≠ row.toQueueKey := by
          intro heq
          rw [Table.eq_of_key hkeys hother hrow heq, hp] at hp'
          cases hp'
        exact (if_neg hne).symm
    · obtain rfl := mem_singleton.1 hentry
      exact ⟨row, hrow, hqueued row hrow hp, rfl⟩

theorem claims_claimTarget (now : ℕ) (hkeys : (rows.map fun row => row.toQueueKey).Nodup)
    (key : QueueKey) :
    Claims now rows (claimTargetStatement now key rows).2
      ((claimTargetStatement now key rows).1.map rowToEntry).toList := by
  apply claims_update hkeys
  · intro row _ hp
    exact beq_iff_eq.1 (Bool.and_eq_true_iff.1 hp).2
  · intro row hrow other hother hp hp'
    have hkey : row.toQueueKey = key := beq_iff_eq.1 (Bool.and_eq_true_iff.1 hp).1
    have hkey' : other.toQueueKey = key := beq_iff_eq.1 (Bool.and_eq_true_iff.1 hp').1
    exact Table.eq_of_key hkeys hrow hother (hkey.trans hkey'.symm)

/-- The loop of a batch claims. -/
theorem claims_claimTargets {targets : List QueueTarget}
    (hkeys : (rows.map fun row => row.toQueueKey).Nodup)
    (hresult : claimTargets now targets rows = (.ok returned, rows')) :
    Claims now rows rows' returned := by
  induction targets generalizing rows returned with
  | nil =>
    obtain ⟨hreturned, rfl⟩ := Prod.mk.inj hresult
    obtain rfl := Except.ok.inj hreturned
    exact claims_nil now rows
  | cons target rest ih =>
    rw [claimTargets] at hresult
    cases hkey : normalizeKey target with
    | error e =>
      rw [hkey] at hresult
      cases hresult
    | ok key =>
      rw [hkey] at hresult
      have hfirst := claims_claimTarget now hkeys key
      cases hrest : claimTargets now rest (claimTargetStatement now key rows).2 with
      | mk claimed final =>
        simp only [hrest] at hresult
        obtain ⟨hreturned, rfl⟩ := Prod.mk.inj hresult
        cases claimed with
        | error e => cases hreturned
        | ok claimed =>
          obtain rfl := Except.ok.inj hreturned
          have hkeys' := hfirst.keys_eq.symm ▸ hkeys
          have htrans := hfirst.trans (ih hkeys' hrest) hkeys
          rwa [Option.toList_map] at htrans

theorem batchClaim_cases (selectFn : Option Selector) (now : ℕ) (rows : Rows) :
    ((batchClaim selectFn now rows).2 = rows ∧ ∃ e, (batchClaim selectFn now rows).1 = .error e) ∨
      ∃ targets returned, claimTargets now targets rows =
        (.ok returned, (batchClaim selectFn now rows).2) ∧
        (batchClaim selectFn now rows).1 = .ok returned := by
  unfold batchClaim
  split
  · exact Or.inl ⟨rfl, _, rfl⟩
  · split
    · exact Or.inl ⟨rfl, _, rfl⟩
    · exact Or.inl ⟨rfl, _, rfl⟩
    · next targets _ =>
      split
      · exact Or.inl ⟨rfl, _, rfl⟩
      · next returned rows' hresult => exact Or.inr ⟨targets, returned, hresult, rfl⟩

theorem claims_dequeue (hkeys : (rows.map fun row => row.toQueueKey).Nodup)
    (hrowids : (rows.map PortfolioQueueDbRow.rowid).Nodup) :
    Claims now rows (dequeueStatement now rows).2
      ((dequeueStatement now rows).1.map rowToEntry).toList := by
  unfold dequeueStatement
  cases htop : Table.firstBy queueOrder (fun row => row.status == .queued) rows with
  | none => exact claims_nil now rows
  | some top =>
    obtain ⟨hmem, hqueued⟩ := Table.firstBy_mem htop
    apply claims_update hkeys
    · intro row hrow hp
      obtain rfl := Table.eq_of_key hrowids hrow hmem (beq_iff_eq.1 hp)
      exact beq_iff_eq.1 hqueued
    · intro row hrow other hother hp hp'
      exact Table.eq_of_key hrowids hrow hother ((beq_iff_eq.1 hp).trans (beq_iff_eq.1 hp').symm)

/-- **What an operation does to the table.** -/
theorem apply_stepped (hkeys : (rows.map fun row => row.toQueueKey).Nodup)
    (hrowids : (rows.map PortfolioQueueDbRow.rowid).Nodup) (op : QueueOp) :
    Stepped now rows (op.apply now rows).2 := by
  cases op with
  | enqueue item => exact stepped_enqueue item now rows
  | dequeueNext => exact (claims_dequeue hkeys hrowids).stepped hkeys
  | batchClaim selectFn =>
    obtain ⟨hsame, _⟩ | ⟨targets, returned, hresult, _⟩ := batchClaim_cases selectFn now rows
    · show Stepped now rows (batchClaim selectFn now rows).2
      rw [hsame]
      exact stepped_refl now rows
    · exact (claims_claimTargets hkeys hresult).stepped hkeys
  | markDone target =>
    exact stepped_onItem (stepped_transition (fun row hp => .finished (bne_iff_ne.1 hp)) · rows)
      target
  | markFailed target =>
    exact stepped_onItem (stepped_transition (fun row hp => .released (beq_iff_eq.1 hp)) · rows)
      target
  | reclaimStuckItem target =>
    exact stepped_onItem (stepped_transition (fun row hp => .released (beq_iff_eq.1 hp)) · rows)
      target
  | requeueItem target =>
    exact stepped_onItem (stepped_transition (fun row hp => .reopened (beq_iff_eq.1 hp)) · rows)
      target

end Steps

/-! ## What every sequence of operations keeps -/

/-- A lease exactly while the item is in progress, and counters that add up. -/
structure RowHolds (row : PortfolioQueueDbRow) : Prop where
  leased_iff : row.leasedAt ≠ none ↔ row.status = .inProgress
  failures_le : row.consecutiveFailures ≤ row.reenqueueCount
  reenqueues_le : row.reenqueueCount ≤ row.attemptsCount
  reenqueues_lt : row.status = .inProgress → row.reenqueueCount < row.attemptsCount

structure StoreHolds (rows : Rows) : Prop where
  row : ∀ row ∈ rows, RowHolds row
  keys : (rows.map fun row => row.toQueueKey).Nodup
  rowids : (rows.map PortfolioQueueDbRow.rowid).Nodup
  accepted : ∀ row ∈ rows, AcceptedKey row.toQueueKey

/-- What never changes about a row: which item it is, when it came in, and its place. -/
def rank (row : PortfolioQueueDbRow) : QueueKey × ℕ × ℕ :=
  (row.toQueueKey, row.enqueuedAt, row.rowid)

section Invariant

variable {now : ℕ} {rows rows' : Rows} {row row' : PortfolioQueueDbRow}

theorem Moves.rowHolds (h : Moves now row row') (hrow : RowHolds row) : RowHolds row' := by
  obtain ⟨hleased, hfailures, hreenqueues, hless⟩ := hrow
  cases h with
  | stays => exact ⟨hleased, hfailures, hreenqueues, hless⟩
  | reactivated priority hstatus =>
    -- a row that is not in progress has no lease, and keeps none
    have hnone : row.leasedAt = none := by
      by_contra hsome
      exact hstatus (hleased.1 hsome)
    exact ⟨by simp [reactivate, hnone], hfailures, hreenqueues,
      fun h => absurd h (by simp [reactivate])⟩
  | claimed hstatus =>
    refine ⟨by simp [claimRow], hfailures, ?_, fun _ => ?_⟩
    · exact hreenqueues.trans (Nat.le_succ _)
    · exact Nat.lt_succ_of_le hreenqueues
  | finished hstatus =>
    exact ⟨by simp [finishRow], Nat.zero_le _, hreenqueues, fun h => absurd h (by simp [finishRow])⟩
  | released hstatus =>
    refine ⟨by simp [releaseRow], Nat.succ_le_succ hfailures, ?_,
      fun h => absurd h (by simp [releaseRow])⟩
    exact hless hstatus
  | reopened hstatus =>
    exact ⟨by simp [reopenRow], hfailures, hreenqueues, fun h => absurd h (by simp [reopenRow])⟩

theorem Fresh.rowHolds (h : Fresh now rows row) : RowHolds row := by
  refine ⟨?_, ?_, ?_, ?_⟩
  · simp [h.leasedAt, h.status]
  · simp [h.failures]
  · simp [h.reenqueues]
  · simp [h.status]

theorem rowid_lt_nextRowid (hrow : row ∈ rows) : row.rowid < nextRowid rows :=
  Nat.lt_succ_of_le (le_max_of_le' 0 (mem_map_of_mem hrow) le_rfl)

/-- What is distinct stays distinct when one new value comes behind. -/
theorem nodup_append_of_new {κ : Type} {values added : List κ} (h : values.Nodup)
    (hlength : added.length ≤ 1) (hnew : ∀ value ∈ added, value ∉ values) :
    (values ++ added).Nodup := by
  refine h.append ?_ fun value hvalue hadded => hnew value hadded hvalue
  cases added with
  | nil => exact nodup_nil
  | cons value rest =>
    obtain rfl : rest = [] := length_eq_zero_iff.1 (by simpa using hlength)
    exact nodup_singleton value

theorem Stepped.holds (h : Stepped now rows rows') (hrows : StoreHolds rows) :
    StoreHolds rows' := by
  obtain ⟨kept, added, rfl, hkept, hlength, hadded⟩ := h.exists_kept
  have hkeys :=
    forall₂_map_eq (f := fun row => row.toQueueKey) hkept fun _ _ hmoves => hmoves.key_eq.1
  have hrowids :=
    forall₂_map_eq (f := PortfolioQueueDbRow.rowid) hkept fun _ _ hmoves => hmoves.key_eq.2.2
  refine ⟨fun row hrow => ?_, ?_, ?_, fun row hrow => ?_⟩
  · rcases mem_append.1 hrow with hrow | hrow
    · obtain ⟨old, hold, hmoves⟩ := forall₂_exists_left hkept hrow
      exact hmoves.rowHolds (hrows.row old hold)
    · exact (hadded row hrow).rowHolds
  · rw [map_append, hkeys]
    apply nodup_append_of_new hrows.keys (by rwa [length_map])
    intro key hkey
    obtain ⟨row, hrow, rfl⟩ := mem_map.1 hkey
    exact (hadded row hrow).key
  · rw [map_append, hrowids]
    apply nodup_append_of_new hrows.rowids (by rwa [length_map])
    intro id hid hmem
    obtain ⟨row, hrow, rfl⟩ := mem_map.1 hid
    obtain ⟨old, hold, heq⟩ := mem_map.1 hmem
    have hless := rowid_lt_nextRowid hold
    rw [heq, (hadded row hrow).rowid] at hless
    exact Nat.lt_irrefl _ hless
  · rcases mem_append.1 hrow with hrow | hrow
    · obtain ⟨old, hold, hmoves⟩ := forall₂_exists_left hkept hrow
      rw [hmoves.key_eq.1]
      exact hrows.accepted old hold
    · exact (hadded row hrow).accepted

/-- The rows that were there keep their places. -/
theorem Stepped.rank_isPrefix (h : Stepped now rows rows') : rows.map rank <+: rows'.map rank := by
  obtain ⟨kept, added, rfl, hkept, _, _⟩ := h.exists_kept
  have hrank : kept.map rank = rows.map rank := by
    apply forall₂_map_eq hkept
    intro old new hmoves
    obtain ⟨hkey, henqueued, hrowid⟩ := hmoves.key_eq
    rw [rank, rank, hkey, henqueued, hrowid]
  rw [map_append, hrank]
  exact prefix_append _ _

theorem storeAfter_concat (history : List (ℕ × QueueOp)) (now : ℕ) (op : QueueOp) :
    storeAfter (history ++ [(now, op)]) = (op.apply now (storeAfter history)).2 := by
  simp [storeAfter]

theorem storeAfter_holds (history : List (ℕ × QueueOp)) : StoreHolds (storeAfter history) := by
  induction history using List.reverseRecOn with
  | nil => exact ⟨by simp [storeAfter], nodup_nil, nodup_nil, by simp [storeAfter]⟩
  | append_singleton history op ih =>
    obtain ⟨now, op⟩ := op
    rw [storeAfter_concat]
    exact (apply_stepped ih.keys ih.rowids op).holds ih

theorem storeAfter_rank (history later : List (ℕ × QueueOp)) :
    (storeAfter history).map rank <+: (storeAfter (history ++ later)).map rank := by
  induction later using List.reverseRecOn with
  | nil => exact (append_nil history).symm ▸ prefix_rfl
  | append_singleton later op ih =>
    obtain ⟨now, op⟩ := op
    have hholds := storeAfter_holds (history ++ later)
    rw [← append_assoc, storeAfter_concat]
    exact ih.trans (apply_stepped hholds.keys hholds.rowids op).rank_isPrefix

end Invariant

def QueueOp.IsClaim : QueueOp → Prop
  | .dequeueNext | .batchClaim _ => True
  | _ => False

/-- **The store keeps its invariants**: for the operations in any order, at any times, with any
selectors. -/
theorem store_invariants (history later : List (ℕ × QueueOp)) (now : ℕ) (op : QueueOp) :
    StoreHolds (storeAfter history) ∧
      (storeAfter history).map rank <+: (storeAfter (history ++ later)).map rank ∧
      (∀ returned, op.IsClaim → (op.apply now (storeAfter history)).1 = .ok returned →
        Claims now (storeAfter history) (op.apply now (storeAfter history)).2 returned) ∧
      ∀ selectFn e, (batchClaim selectFn now (storeAfter history)).1 = .error e →
        (batchClaim selectFn now (storeAfter history)).2 = storeAfter history := by
  have hholds := storeAfter_holds history
  refine ⟨hholds, storeAfter_rank history later, fun returned hclaim hreply => ?_,
    fun selectFn e herror => ?_⟩
  · cases op with
    | dequeueNext =>
      obtain rfl := Except.ok.inj hreply
      exact claims_dequeue hholds.keys hholds.rowids
    | batchClaim selectFn =>
      obtain ⟨_, e, herror⟩ | ⟨targets, returned', hresult, hok⟩ :=
        batchClaim_cases selectFn now (storeAfter history)
      · rw [QueueOp.apply, herror] at hreply
        cases hreply
      · rw [QueueOp.apply, hok] at hreply
        obtain rfl := Except.ok.inj hreply
        exact claims_claimTargets hholds.keys hresult
    | _ => exact hclaim.elim
  · obtain ⟨hsame, _⟩ | ⟨targets, returned, _, hok⟩ :=
      batchClaim_cases selectFn now (storeAfter history)
    · exact hsame
    · rw [hok] at herror
      cases herror

end LoopOver.Portfolio
