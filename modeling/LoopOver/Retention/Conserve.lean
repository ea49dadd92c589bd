import LoopOver.Retention.Prune

/-!
# The prune keeps the counts

A batch folds and deletes the rows of one slice, so that the rollup and the live rows of every cell
and account count the same before and after it, wherever the slice is cut. The other tables have no
part in the counts, but for the durable audit events, which are not pruned.

* `Pruned db db'` is what every step, rule and run keeps: the counts, and no table grows.
* `ruleStep_pruned` and `ruleStep_shrinks` are the step lemmas, for the counts and for the end of
  the loops.
* **`retention_conserves`**: any number of runs, with any options, end and keep the counts.
-/

variable (toISOString : ℤ → String)

namespace LoopOver

open List Rollup

/-- The rows in a table of the policy. -/
def RetentionDb.rowCount (db : RetentionDb) (table : String) : ℕ :=
  if table = "orb_signals" then (orbSignalsTable.stamps db).length
  else if table = "orb_pr_outcomes" then (orbPrOutcomesTable.stamps db).length
  else (db.logs table).rows.length

/-- `db'` counts what `db` counts, and no table has more rows. -/
structure Pruned (db db' : RetentionDb) : Prop where
  signalCount_eq : ∀ cell, db'.signalCount cell = db.signalCount cell
  outcomeCount_eq : ∀ account, db'.outcomeCount account = db.outcomeCount account
  rowCount_le : ∀ table, db'.rowCount table ≤ db.rowCount table

namespace Pruned

theorem refl (db : RetentionDb) : Pruned db db := ⟨fun _ => rfl, fun _ => rfl, fun _ => le_rfl⟩

theorem trans {db db' db'' : RetentionDb} (h : Pruned db db') (h' : Pruned db' db'') :
    Pruned db db'' where
  signalCount_eq cell := (h'.signalCount_eq cell).trans (h.signalCount_eq cell)
  outcomeCount_eq account := (h'.outcomeCount_eq account).trans (h.outcomeCount_eq account)
  rowCount_le table := (h'.rowCount_le table).trans (h.rowCount_le table)

end Pruned

/-! ## One batch -/

section Batches

variable (db : RetentionDb) (p : String → Bool)

theorem orbSignals_pruned : Pruned db (orbSignalsTable.foldAndDelete p db) where
  signalCount_eq cell :=
    fold_delete_conserves (fun signal : OrbSignal => some signal.cell) (fun _ => 1)
    db.orbSignalRollups (fun signal => p signal.receivedAt) db.orbSignals cell
  outcomeCount_eq _ := rfl
  rowCount_le table := by
    unfold RetentionDb.rowCount
    split
    · simp only [orbSignalsTable, length_map]
      exact length_filter_le _ _
    · exact le_rfl

theorem orbPrOutcomes_pruned : Pruned db (orbPrOutcomesTable.foldAndDelete p db) where
  signalCount_eq _ := rfl
  outcomeCount_eq account := fold_delete_conserves db.countedAccount OrbPrOutcome.totals
    db.orbOutcomeRollups (fun outcome => p outcome.occurredAt) db.orbPrOutcomes account
  rowCount_le table := by
    unfold RetentionDb.rowCount
    split
    · exact le_rfl
    · split
      · simp only [orbPrOutcomesTable, length_map]
        exact length_filter_le _ _
      · exact le_rfl

variable {db} {table cutoff : String} {batchSize : ℕ}

theorem mem_deleteBatch_of_not_expired {log : LogTable} {row : LogRow} (hrow : row ∈ log.rows)
    (hkept : isExpired table cutoff row = false) :
    row ∈ (log.deleteBatch table cutoff batchSize).rows := by
  refine mem_filter.2 ⟨hrow, ?_⟩
  rw [Bool.not_eq_true', ← Bool.not_eq_true]
  intro hkey
  -- a selected row with the same key is the row itself, and it would be expired
  obtain ⟨other, hother, hpk⟩ := mem_map.1 (contains_iff_mem.1 hkey)
  have hselected := mem_of_mem_take hother
  rw [mem_mergeSort, mem_filter] at hselected
  obtain rfl := inj_on_of_nodup_map log.pk_nodup hselected.1 hrow hpk
  rw [hkept] at hselected
  exact Bool.false_ne_true hselected.2

theorem deleteBatch_sublist (log : LogTable) :
    (log.deleteBatch table cutoff batchSize).rows.Sublist log.rows := filter_sublist

/-- Pruning the audit events keeps those that say a surface was published. -/
theorem publishedSurface_deleteBatch (log : LogTable) (outcome : OrbPrOutcome) :
    publishedSurface (log.deleteBatch "audit_events" cutoff batchSize).rows outcome =
      publishedSurface log.rows outcome := by
  rw [Bool.eq_iff_iff, publishedSurface, publishedSurface, any_eq_true, any_eq_true]
  constructor
  · rintro ⟨event, hevent, hpublished⟩
    exact ⟨event, (deleteBatch_sublist log).subset hevent, hpublished⟩
  · rintro ⟨event, hevent, hpublished⟩
    refine ⟨event, mem_deleteBatch_of_not_expired hevent ?_, hpublished⟩
    rw [Bool.and_eq_true, beq_iff_eq] at hpublished
    simp [isExpired, durableAuditEventTypes, hpublished.1]

/-- A batch on a log table changes no count. -/
theorem logs_pruned (db : RetentionDb) (table cutoff : String) (batchSize : ℕ) :
    Pruned db { db with
      logs := Function.update db.logs table ((db.logs table).deleteBatch table cutoff batchSize) }
        where
  signalCount_eq _ := rfl
  outcomeCount_eq account := by
    have hcounted : ∀ outcome, RetentionDb.countedAccount
        { db with
          logs :=
            Function.update db.logs table ((db.logs table).deleteBatch table cutoff batchSize) }
        outcome = db.countedAccount outcome := by
      intro outcome
      unfold RetentionDb.countedAccount
      by_cases haudit : table = "audit_events"
      · subst haudit
        simp only [Function.update_self, publishedSurface_deleteBatch]
      · simp only [Function.update_of_ne (Ne.symm haudit)]
    rw [RetentionDb.outcomeCount, RetentionDb.outcomeCount, funext hcounted]
  rowCount_le t := by
    unfold RetentionDb.rowCount
    split
    · exact le_rfl
    · split
      · exact le_rfl
      · by_cases ht : t = table
        · subst ht
          simp only [Function.update_self]
          exact (deleteBatch_sublist _).length_le
        · simp only [Function.update_of_ne ht]
          exact le_rfl

end Batches

/-! ## The loops -/

section Loops

variable {table cutoff : String} {batchSize : ℕ} {cap : JsNumber} {state : RetentionDb × ℕ}

theorem ruleStep_pruned : Pruned state.1 (ruleStep table cutoff batchSize cap state).1.1 := by
  unfold ruleStep
  split
  · exact orbSignals_pruned _ _
  · split
    · exact orbPrOutcomes_pruned _ _
    · exact logs_pruned _ _ _ _

/-- A slice that does not end the loop has deleted something. -/
theorem sliceStep_shrinks {sliced : SlicedTable}
    (h : (sliced.sliceStep cutoff batchSize cap state).2 = false) :
    (sliced.stamps (sliced.sliceStep cutoff batchSize cap state).1.1).length <
      (sliced.stamps state.1).length := by
  unfold SlicedTable.sliceStep at h ⊢
  dsimp only at h ⊢
  rw [Bool.or_eq_false_iff, Bool.or_eq_false_iff, beq_eq_false_iff_ne] at h
  have hchanges := h.1.2
  omega

/-- So has a batch, when it is not empty. -/
theorem batchStep_shrinks (hbatch : 1 ≤ batchSize)
    (h : (batchStep table cutoff batchSize cap state).2 = false) :
    ((batchStep table cutoff batchSize cap state).1.1.logs table).rows.length <
      (state.1.logs table).rows.length := by
  unfold batchStep at h ⊢
  simp only [Bool.or_eq_false_iff, decide_eq_false_iff_not, Function.update_self] at h ⊢
  have hchanges := h.1
  omega

theorem ruleStep_shrinks (hbatch : 1 ≤ batchSize)
    (h : (ruleStep table cutoff batchSize cap state).2 = false) :
    (ruleStep table cutoff batchSize cap state).1.1.rowCount table < state.1.rowCount table := by
  unfold ruleStep at h ⊢
  unfold RetentionDb.rowCount
  by_cases hsignals : table = "orb_signals"
  · simp only [if_pos hsignals] at h ⊢
    exact sliceStep_shrinks h
  · by_cases houtcomes : table = "orb_pr_outcomes"
    · simp only [if_neg hsignals, if_pos houtcomes] at h ⊢
      exact sliceStep_shrinks h
    · simp only [if_neg hsignals, if_neg houtcomes] at h ⊢
      exact batchStep_shrinks hbatch h

end Loops

/-! ## Rules and runs -/

section Runs

variable {fuel : ℕ} {rule : RetentionRule} {policy : List RetentionRule} {db : RetentionDb}

/-- A rule on safe identifiers ends, and keeps the counts. -/
theorem pruneRule_pruned (options : PruneOptions)
    (hsafe : isSafeIdentifier rule.table = true ∧ isSafeIdentifier rule.column = true)
    (hfuel : db.rowCount rule.table < fuel) :
    ∃ db' result, pruneRule toISOString fuel options rule db = .ok (db', result) ∧
      Pruned db db' := by
  unfold pruneRule
  dsimp only
  rw [if_neg (by simp [hsafe.1, hsafe.2])]
  split
  · exact ⟨db, _, rfl, .refl db⟩
  · obtain ⟨⟨db', deleted⟩, hrun⟩ := Loop.exists_run_eq
      (ruleStep rule.table (cutoffIso toISOString rule.days options.nowMs) options.batchSize
        options.maxPerTable) (fun state => state.1.rowCount rule.table)
      (fun _ h => ruleStep_shrinks options.batchSize_pos h) (s := (db, 0)) hfuel
    rw [hrun]
    refine ⟨db', _, rfl, ?_⟩
    exact Loop.run_invariant (P := fun state => Pruned db state.1)
      (fun _ h => h.trans ruleStep_pruned) hrun (.refl db)

theorem pruneRules_pruned (options : PruneOptions) (hsafe : ∀ rule ∈ policy,
      isSafeIdentifier rule.table = true ∧ isSafeIdentifier rule.column = true)
    (hfuel : ∀ rule ∈ policy, db.rowCount rule.table < fuel) :
    ∃ db' results, pruneRules toISOString fuel options policy db = .ok (db', results) ∧
      Pruned db db' := by
  induction policy generalizing db with
  | nil => exact ⟨db, [], rfl, .refl db⟩
  | cons rule policy ih =>
    obtain ⟨db₁, result, hrule, hpruned⟩ := pruneRule_pruned toISOString options
      (hsafe rule mem_cons_self) (hfuel rule mem_cons_self)
    obtain ⟨db₂, results, hrules, hpruned'⟩ := ih (fun r hr => hsafe r (mem_cons_of_mem _ hr))
      fun r hr => (hpruned.rowCount_le r.table).trans_lt (hfuel r (mem_cons_of_mem _ hr))
    refine ⟨db₂, result :: results, ?_, hpruned.trans hpruned'⟩
    rw [pruneRules, hrule]
    dsimp only [bind, Except.bind]
    rw [hrules]
    rfl

theorem retentionPolicy_safe : ∀ rule ∈ retentionPolicy,
    isSafeIdentifier rule.table = true ∧ isSafeIdentifier rule.column = true := by
  decide +kernel

theorem pruneRuns_pruned (runs : List PruneOptions)
    (hfuel : ∀ rule ∈ retentionPolicy, db.rowCount rule.table < fuel) :
    ∃ db', pruneRuns toISOString fuel runs db = .ok db' ∧ Pruned db db' := by
  induction runs generalizing db with
  | nil => exact ⟨db, rfl, .refl db⟩
  | cons options runs ih =>
    obtain ⟨db₁, results, hrun, hpruned⟩ := pruneRules_pruned toISOString options
      retentionPolicy_safe hfuel
    obtain ⟨db₂, hruns, hpruned'⟩ :=
      ih fun r hr => (hpruned.rowCount_le r.table).trans_lt (hfuel r hr)
    refine ⟨db₂, ?_, hpruned.trans hpruned'⟩
    rw [pruneRuns, pruneExpiredRecords, hrun]
    exact hruns

theorem exists_fuel (policy : List RetentionRule) (db : RetentionDb) :
    ∃ enough, ∀ rule ∈ policy, db.rowCount rule.table < enough := by
  induction policy with
  | nil => exact ⟨0, fun _ h => absurd h not_mem_nil⟩
  | cons rule policy ih =>
    obtain ⟨enough, henough⟩ := ih
    refine ⟨enough + db.rowCount rule.table + 1, fun r hr => ?_⟩
    rcases mem_cons.1 hr with rfl | hr
    · omega
    · have := henough r hr
      omega

end Runs

/-- **The prune keeps the counts.** Any number of runs at any times, with any batch size and any
cap, end, and leave the rollup and the live rows of every cell and of every account with the same
sum. -/
theorem retention_conserves (toISOString : ℤ → String) (runs : List PruneOptions)
    (db : RetentionDb) :
    ∃ enough, ∀ fuel ≥ enough, ∃ db', pruneRuns toISOString fuel runs db = .ok db' ∧
      (∀ cell, db'.signalCount cell = db.signalCount cell) ∧
      ∀ account, db'.outcomeCount account = db.outcomeCount account := by
  obtain ⟨enough, henough⟩ := exists_fuel retentionPolicy db
  refine ⟨enough, fun fuel hfuel => ?_⟩
  obtain ⟨db', hruns, hpruned⟩ := pruneRuns_pruned toISOString runs
    fun rule hrule => (henough rule hrule).trans_le hfuel
  exact ⟨db', hruns, hpruned.signalCount_eq, hpruned.outcomeCount_eq⟩

end LoopOver
