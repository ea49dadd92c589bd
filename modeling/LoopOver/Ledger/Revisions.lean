import LoopOver.Ledger.Persist

/-!
# The revisions of a head

A head that is evaluated again gets a further record. Its id carries the number of the revision,
which `persistDecisionRecord` computes from the records that are stored at the time.

* `History` is a series of calls and of prunes, each with the tables to itself.
* `RevisionsComplete` is the invariant: the stored revisions are those that were persisted.
* **`revisions_fresh`**: as long as retention deletes no revision of a head, each of its evaluations
  is stored under a new id and names the one before.
* `revision_collides`: once retention has deleted the first of three revisions, the next one gets
  the id of the third.
-/

namespace LoopOver

open List Script
open LedgerDb

/-! ## Revision ids -/

theorem nextRevisionId_inj {baseId : String} {m n : ℕ}
    (h : nextRevisionId baseId m = nextRevisionId baseId n) : m = n := by
  have hrev : ∀ k : ℕ, baseId ≠ baseId ++ ":rev" ++ toString k := by
    intro k hk
    have hlength := congrArg String.length hk
    have hcolon : (":rev" : String).length = 4 := by decide
    rw [String.length_append, String.length_append, hcolon] at hlength
    omega
  unfold nextRevisionId at h
  split_ifs at h with hm hn hn
  · omega
  · exact absurd h (hrev _)
  · exact absurd h.symm (hrev _)
  · have htext : toString (m + 1) = toString (n + 1) := (String.append_right_inj _).1 h
    have := natText_inj htext
    omega

/-- A re-evaluation supersedes the revision before it, unless the caller names another record. -/
theorem resolveReevaluation_declared (text : Runtime) (n : ℕ) (baseId target : String)
    (context : ReevaluationContext) (hnone : context.supersedesRecordId = none) :
    ∃ reevaluated, resolveReevaluation text n baseId (some context) target = .ok reevaluated ∧
      reevaluated.map ResolvedReevaluation.supersedesRecordId =
        ((List.range n).map (nextRevisionId baseId)).getLast? := by
  unfold resolveReevaluation
  cases n with
  | zero => exact ⟨none, rfl, rfl⟩
  | succ n =>
    rw [if_neg (Nat.succ_ne_zero n)]
    refine ⟨_, rfl, ?_⟩
    rw [range_succ, map_append, map_singleton, List.getLast?_concat, hnone]
    simp only [Option.map_some, Option.getD_none, Option.some.injEq, nextRevisionId]
    cases n with
    | zero => rfl
    | succ n => rw [if_neg (by omega), if_neg (by omega)]

/-! ## Histories of one head -/

/-- A step of a history in which the calls have the tables to themselves. -/
inductive HistoryStep
  | persist (call : PersistCall) (outcome : PersistOutcome)
  | prune (nowMs : ℤ)

/-- A step, with the tables before and after. -/
structure Transition where
  before : LedgerDb
  step : HistoryStep
  after : LedgerDb

/-- The step is a run of the script. -/
def Transition.Valid (rt : LedgerRuntime) (text : Runtime) (t : Transition) : Prop :=
  match t.step with
  | .persist call outcome =>
    (persistDecisionRecord rt text call).Performs serves () t.before
      (.ok outcome) () t.after
  | .prune nowMs =>
    ∃ r, (pruneDecisionRecords rt nowMs).Performs serves () t.before r () t.after

/-- The steps follow each other from one state of the tables to another. -/
def History (rt : LedgerRuntime) (text : Runtime) : LedgerDb → List Transition → LedgerDb → Prop
  | db, [], db' => db' = db
  | db, t :: steps, db' => t.before = db ∧ t.Valid rt text ∧ History rt text t.after steps db'

/-- The ids that the calls returned. -/
def persistedIds (steps : List Transition) : List String :=
  steps.filterMap fun t =>
    match t.step with
    | .persist _ (.persisted id) => some id
    | _ => none

/-- The call re-evaluates the head, says why, and names no record of its own to supersede. -/
structure PersistCall.Reevaluates (call : PersistCall) (head : RecordHead) : Prop where
  head_eq : call.head = head
  declared : ∃ context, call.reevaluation = some context ∧ context.supersedesRecordId = none

variable {db db' : LedgerDb} {ids : List String} {r : Except HostError ℕ} {call : PersistCall}

section OneHead

variable {rt : LedgerRuntime} {text : Runtime} {head : RecordHead}

/-- Retention only removes records. -/
theorem prune_sublist {cutoff : String} {batchSize maxPerTable fuel deleted : ℕ}
    (h : (pruneBatches cutoff batchSize maxPerTable fuel deleted).Performs serves ()
      db r () db') :
    db'.records.Sublist db.records := by
  induction fuel generalizing db deleted with
  | zero =>
    obtain ⟨-, -, rfl⟩ := performs_pure.1 h
    exact List.Sublist.refl _
  | succ fuel ih =>
    rw [pruneBatches] at h
    obtain ⟨reply, db₁, ⟨hdelete, -⟩, h₁⟩ := performs_ask_bind.1 h
    have hbatch : db₁.records.Sublist db.records := by
      cases reply with
      | ok changes =>
        obtain ⟨ids, -, -, rfl⟩ := hdelete
        exact filter_sublist
      | error error =>
        obtain rfl : db₁ = db := hdelete
        exact List.Sublist.refl _
    rcases performs_ofExcept_bind.1 h₁ with ⟨-, -, -, -, rfl⟩ | ⟨changes, -, h₂⟩
    · exact hbatch
    split at h₂
    · obtain ⟨-, -, rfl⟩ := performs_pure.1 h₂
      exact hbatch
    · exact (ih h₂).trans hbatch

/-- The stored revisions of a head are those that were persisted, and the later ids are free. -/
structure RevisionsComplete (head : RecordHead) (ids : List String) (db : LedgerDb) : Prop where
  ids_eq : ids = (List.range ids.length).map (nextRevisionId head.baseId)
  count : (db.revisionsOf head).length = ids.length
  free : ∀ n, ids.length ≤ n →
    nextRevisionId head.baseId n ∉ db.records.map DecisionRecordRow.id

/-- The step stores a revision under a new id, and names the given record as the one it
supersedes. -/
def Transition.StoresRevision (t : Transition) (outcome : PersistOutcome)
    (previous : Option String) :
    Prop :=
  ∃ row : DecisionRecordRow, outcome = .persisted row.id ∧
    row.id ∉ t.before.records.map DecisionRecordRow.id ∧
    t.after.records = t.before.records ++ [row] ∧ row.supersedesRecordId = previous

theorem revisionsOf_append {n : ℕ} {reevaluated : Option ResolvedReevaluation}
    (hhead : call.head = head) (h : db'.records = db.records ++ [call.row n reevaluated]) :
    (db'.revisionsOf head).length = (db.revisionsOf head).length + 1 := by
  subst hhead
  simp [revisionsOf, revisions, h, PersistCall.row, PersistCall.head, filter_append]

/-- A re-evaluation after a complete series stores the next revision. -/
theorem RevisionsComplete.persist {t : Transition} {outcome : PersistOutcome}
    (hinv : RevisionsComplete head ids t.before) (hstep : t.step = .persist call outcome)
    (hvalid : t.Valid rt text) (hcall : call.Reevaluates head) :
    t.StoresRevision outcome ids.getLast? ∧
      ∃ id, outcome = .persisted id ∧ RevisionsComplete head (ids ++ [id]) t.after := by
  obtain ⟨context, hcontext, hnone⟩ := hcall.declared
  have hhead := hcall.head_eq
  rw [Transition.Valid, hstep] at hvalid
  obtain ⟨reevaluated, hresolve, hsupersedes⟩ :=
    resolveReevaluation_declared text ids.length head.baseId head.target context hnone
  rw [← hcontext, ← hhead] at hresolve
  have hfree := hinv.free ids.length (le_refl _)
  rw [← hhead] at hfree
  obtain ⟨-, houtcome, hrecords⟩ | ⟨htaken, -⟩ :=
    persist_performs hvalid (hhead ▸ hinv.count) hresolve
  · have hout := Except.ok.inj houtcome
    refine ⟨⟨call.row ids.length reevaluated, hout, hfree, hrecords, ?_⟩, _, hout, ?_⟩
    · rw [hinv.ids_eq]
      exact hsupersedes
    · constructor
      · rw [length_append, length_singleton, range_succ, map_append, ← hinv.ids_eq, hhead]
        rfl
      · rw [revisionsOf_append hhead hrecords, hinv.count, length_append, length_singleton]
      · intro n hn
        rw [length_append, length_singleton] at hn
        rw [hrecords, map_append, mem_append, map_singleton, mem_singleton]
        rintro (hold | hnew)
        · exact hinv.free n (by omega) hold
        · have := nextRevisionId_inj (hnew.trans (congrArg (nextRevisionId · _)
            (congrArg RecordHead.baseId hhead)))
          omega
  · exact absurd htaken hfree

/-- A prune that keeps the revisions of the head keeps the series complete. -/
theorem RevisionsComplete.prune {t : Transition} {nowMs : ℤ}
    (hinv : RevisionsComplete head ids t.before) (hstep : t.step = .prune nowMs)
    (hvalid : t.Valid rt text) (hkept : t.after.revisionsOf head = t.before.revisionsOf head) :
    RevisionsComplete head ids t.after := by
  rw [Transition.Valid, hstep] at hvalid
  obtain ⟨r, hprune⟩ := hvalid
  have hsublist := (prune_sublist hprune).map DecisionRecordRow.id
  exact ⟨hinv.ids_eq, hkept ▸ hinv.count, fun n hn hmem => hinv.free n hn (hsublist.subset hmem)⟩

theorem history_append {front back : List Transition} :
    History rt text db (front ++ back) db' ↔
      ∃ db₁, History rt text db front db₁ ∧ History rt text db₁ back db' := by
  induction front generalizing db with
  | nil => simp [History]
  | cons t front ih =>
    simp only [cons_append, History, ih]
    constructor
    · rintro ⟨hbefore, hvalid, db₁, hfront, hback⟩
      exact ⟨db₁, ⟨hbefore, hvalid, hfront⟩, hback⟩
    · rintro ⟨db₁, ⟨hbefore, hvalid, hfront⟩, hback⟩
      exact ⟨hbefore, hvalid, db₁, hfront, hback⟩

/-- A history that keeps the revisions of the head keeps their series complete. -/
theorem RevisionsComplete.history {steps : List Transition}
    (hinv : RevisionsComplete head ids db) (hrun : History rt text db steps db')
    (hcalls : ∀ t ∈ steps, ∀ call outcome, t.step = .persist call outcome → call.Reevaluates head)
    (hkept : ∀ t ∈ steps, ∀ nowMs, t.step = .prune nowMs →
      t.after.revisionsOf head = t.before.revisionsOf head) :
    RevisionsComplete head (ids ++ persistedIds steps) db' := by
  induction steps generalizing db ids with
  | nil =>
    obtain rfl : db' = db := hrun
    simpa [persistedIds] using hinv
  | cons t steps ih =>
    obtain ⟨rfl, hvalid, hrest⟩ := hrun
    obtain ⟨hcall, hcalls⟩ := forall_mem_cons.1 hcalls
    obtain ⟨hkeep, hkept⟩ := forall_mem_cons.1 hkept
    cases hstep : t.step with
    | persist call outcome =>
      obtain ⟨-, id, rfl, hinv'⟩ := hinv.persist hstep hvalid (hcall call outcome hstep)
      have hids : ids ++ persistedIds (t :: steps) = ids ++ [id] ++ persistedIds steps := by
        simp [persistedIds, hstep]
      rw [hids]
      exact ih hinv' hrest hcalls hkept
    | prune nowMs =>
      have hids : persistedIds (t :: steps) = persistedIds steps := by
        simp [persistedIds, hstep]
      rw [hids]
      exact ih (hinv.prune hstep hvalid (hkeep nowMs hstep)) hrest hcalls hkept

/-- **Revision ids stay fresh while retention keeps the revisions of the head.** In every history of
declared re-evaluations of a head and of prunes that delete none of its revisions, each call stores
a new row under an id that no stored record has, and the row names the revision before it. -/
theorem revisions_fresh (rt : LedgerRuntime) (text : Runtime) (head : RecordHead)
    {db db' : LedgerDb}
    {steps : List Transition} (hrun : History rt text db steps db')
    (hnone : db.revisionsOf head = [])
    (hids : ∀ n, nextRevisionId head.baseId n ∉ db.records.map DecisionRecordRow.id)
    (hcalls : ∀ t ∈ steps, ∀ call outcome, t.step = .persist call outcome → call.Reevaluates head)
    (hkept : ∀ t ∈ steps, ∀ nowMs, t.step = .prune nowMs →
      t.after.revisionsOf head = t.before.revisionsOf head)
    {front back : List Transition} {t : Transition} {call : PersistCall} {outcome : PersistOutcome}
    (hsplit : steps = front ++ t :: back) (hstep : t.step = .persist call outcome) :
    t.StoresRevision outcome (persistedIds front).getLast? := by
  subst hsplit
  obtain ⟨hcallsFront, hcallsBack⟩ := forall_mem_append.1 hcalls
  obtain ⟨hkeptFront, -⟩ := forall_mem_append.1 hkept
  obtain ⟨db₁, hfront, rfl, hvalid, -⟩ := history_append.1 hrun
  have hstart : RevisionsComplete head [] db := ⟨rfl, by simp [hnone], fun n _ => hids n⟩
  have hinv := hstart.history hfront hcallsFront hkeptFront
  rw [nil_append] at hinv
  exact (hinv.persist hstep hvalid (hcallsBack t mem_cons_self call outcome hstep)).1

end OneHead

/-! ## A revision that is not stored -/

/-- After a complete series, a re-evaluation can run, and stores the next revision. -/
theorem RevisionsComplete.exists_persist (rt : LedgerRuntime) (text : Runtime) {head : RecordHead}
    {db : LedgerDb} (hinv : RevisionsComplete head ids db) (hcall : call.Reevaluates head) :
    ∃ db' reevaluated,
      (Transition.mk db (.persist call (.persisted (nextRevisionId head.baseId ids.length)))
        db').Valid
        rt text ∧
      RevisionsComplete head (ids ++ [nextRevisionId head.baseId ids.length]) db' ∧
      db'.records = db.records ++ [call.row ids.length reevaluated] := by
  obtain ⟨context, hcontext, hnone⟩ := hcall.declared
  have hhead := hcall.head_eq
  obtain ⟨reevaluated, hresolve, -⟩ :=
    resolveReevaluation_declared text ids.length head.baseId head.target context hnone
  rw [← hcontext, ← hhead] at hresolve
  obtain ⟨r, _, db', hrun⟩ :=
    exists_performs serves_total (persistDecisionRecord rt text call) () db
  have hfree := hinv.free ids.length (le_refl _)
  obtain ⟨-, rfl, hrecords⟩ | ⟨htaken, -⟩ := persist_performs hrun (hhead ▸ hinv.count) hresolve
  · rw [hhead] at hrun
    refine ⟨db', reevaluated, hrun, ?_, hrecords⟩
    obtain ⟨-, id, hid, hinv'⟩ := RevisionsComplete.persist
      (t := ⟨db, .persist call (.persisted (nextRevisionId head.baseId ids.length)), db'⟩)
      hinv rfl hrun hcall
    cases hid
    exact hinv'
  · rw [hhead] at htaken
    exact absurd htaken hfree

/-- A prune of fewer records than a batch deletes all that are expired. -/
theorem prune_records {rt : LedgerRuntime} {nowMs : ℤ}
    (h : (pruneDecisionRecords rt nowMs).Performs serves () db r () db')
    (hfew : db.records.length < pruneBatchSize) :
    db'.records = db.records.filter fun row =>
      !decide (row.createdAt < retentionCutoffIso rt nowMs) := by
  rw [pruneDecisionRecords, pruneBatches] at h
  obtain ⟨reply, db₁, ⟨hdelete, hfailed⟩, h₁⟩ := performs_ask_bind.1 h
  cases reply with
  | error error => exact (hfailed ⟨error, rfl⟩).elim
  | ok changes =>
    obtain ⟨ids, hbatch, rfl, rfl⟩ := hdelete
    have hids : ids.length ≤ db.records.length := by
      have hsubset : ids ⊆ db.records.map DecisionRecordRow.id := fun id hid => by
        obtain ⟨row, hrow, rfl, -⟩ := hbatch.expired id hid
        exact mem_map_of_mem hrow
      simpa using (subperm_of_subset hbatch.nodup hsubset).length_le
    rcases performs_ofExcept_bind.1 h₁ with ⟨error, herror, -⟩ | ⟨changes, hchanges, h₂⟩
    · cases herror
    obtain rfl := Except.ok.inj hchanges
    rw [if_pos (Or.inl (by omega))] at h₂
    obtain ⟨-, -, rfl⟩ := performs_pure.1 h₂
    -- the batch is not full, so it holds every expired record
    refine filter_congr fun row hrow => ?_
    have hexpired : row.id ∈ ids ↔ row.createdAt < retentionCutoffIso rt nowMs := by
      constructor
      · intro hid
        obtain ⟨gone, hgone, heq, hold⟩ := hbatch.expired row.id hid
        rwa [inj_on_of_nodup_map db.records_nodup hgone hrow heq] at hold
      · exact hbatch.full (by omega) row hrow
    simp [hexpired]

theorem widgetCall_row_createdAt (decidedAt : String) (n : ℕ)
    (reevaluated : Option ResolvedReevaluation) :
    ((widgetCall decidedAt).row n reevaluated).createdAt = decidedAt := rfl

theorem widgetCall_reevaluates (decidedAt : String) :
    (widgetCall decidedAt).Reevaluates widgetHead :=
  ⟨rfl, _, rfl, rfl⟩

theorem widgetHead_complete : RevisionsComplete widgetHead [] empty :=
  ⟨rfl, rfl, fun _ _ => not_mem_nil⟩

/-- The steps of a history in which a revision is not stored: three evaluations of a head, a prune
that deletes the first record, and an evaluation that gets the id of the third and fails. -/
def collidingSteps : List HistoryStep :=
  [.persist (widgetCall "2026-01-01T00:00:00.000Z") (.persisted "record:acme/widgets#7@c0ffee"),
    .persist (widgetCall "2026-02-01T00:00:00.000Z")
      (.persisted "record:acme/widgets#7@c0ffee:rev2"),
    .persist (widgetCall "2026-03-01T00:00:00.000Z")
      (.persisted "record:acme/widgets#7@c0ffee:rev3"),
    .prune julyNowMs, .persist (widgetCall "2026-07-15T00:00:00.000Z") .failed]

/-- The prune of July takes the one record that is older than its cutoff. -/
theorem july_prune {old : DecisionRecordRow} {kept : List DecisionRecordRow}
    (h : (pruneDecisionRecords widgetRuntime julyNowMs).Performs serves () db r () db')
    (hrecords : db.records = old :: kept) (hfew : kept.length < 999)
    (hold : old.createdAt < "2026-01-16T00:00:00.000Z")
    (hkept : ∀ row ∈ kept, ¬row.createdAt < "2026-01-16T00:00:00.000Z") : db'.records = kept := by
  have hcutoff : retentionCutoffIso widgetRuntime julyNowMs = "2026-01-16T00:00:00.000Z" := rfl
  have hbatch : db.records.length < pruneBatchSize := by
    rw [hrecords]
    exact Nat.succ_lt_succ hfew
  rw [prune_records h hbatch, hrecords, hcutoff, filter_cons_of_neg (by simp [hold])]
  exact filter_eq_self.2 fun row hrow => by simp [hkept row hrow]

/-- With the first revision gone, the next evaluation gets the id of the third, and nothing is
stored. -/
theorem july_collides {e₂ e₃ : Option ResolvedReevaluation} {db : LedgerDb}
    (hrecords : db.records = [(widgetCall "2026-02-01T00:00:00.000Z").row 1 e₂,
      (widgetCall "2026-03-01T00:00:00.000Z").row 2 e₃]) :
    (Transition.mk db (.persist (widgetCall "2026-07-15T00:00:00.000Z") .failed) db).Valid
      widgetRuntime asciiRuntime := by
  obtain ⟨r, _, db', hrun⟩ := exists_performs serves_total
    (persistDecisionRecord widgetRuntime asciiRuntime (widgetCall "2026-07-15T00:00:00.000Z")) () db
  obtain ⟨reevaluated, hresolve, -⟩ := resolveReevaluation_declared asciiRuntime 2 widgetHead.baseId
    widgetHead.target { reason := .scheduledRecheck } rfl
  have hcount : (db.revisionsOf widgetHead).length = 2 := by
    have hall : db.revisionsOf widgetHead = db.records := by
      refine filter_eq_self.2 fun row hrow => ?_
      rw [hrecords] at hrow
      rcases mem_pair.1 hrow with rfl | rfl <;> simp [PersistCall.row, widgetCall,
        widgetRecord, widgetHead, PersistCall.head]
    rw [hall, hrecords]
    rfl
  have htaken : nextRevisionId widgetHead.baseId 2 ∈ db.records.map DecisionRecordRow.id := by
    rw [hrecords]
    exact mem_cons_of_mem _ mem_cons_self
  obtain ⟨hfree, -⟩ | ⟨-, rfl, rfl⟩ := persist_performs hrun hcount hresolve
  · exact absurd htaken hfree
  · exact hrun

theorem revision_collides :
    ∃ steps db, History widgetRuntime asciiRuntime empty steps db ∧
      steps.map Transition.step = collidingSteps ∧
      ∀ call outcome, HistoryStep.persist call outcome ∈ collidingSteps →
        call.Reevaluates widgetHead := by
  have hids : nextRevisionId widgetHead.baseId 0 = "record:acme/widgets#7@c0ffee" ∧
      nextRevisionId widgetHead.baseId 1 = "record:acme/widgets#7@c0ffee:rev2" ∧
      nextRevisionId widgetHead.baseId 2 = "record:acme/widgets#7@c0ffee:rev3" := by decide
  obtain ⟨db₁, e₁, hvalid₁, hinv₁, hrecords₁⟩ := widgetHead_complete.exists_persist widgetRuntime
    asciiRuntime (widgetCall_reevaluates "2026-01-01T00:00:00.000Z")
  obtain ⟨db₂, e₂, hvalid₂, hinv₂, hrecords₂⟩ := hinv₁.exists_persist widgetRuntime
    asciiRuntime (widgetCall_reevaluates "2026-02-01T00:00:00.000Z")
  obtain ⟨db₃, e₃, hvalid₃, -, hrecords₃⟩ := hinv₂.exists_persist widgetRuntime
    asciiRuntime (widgetCall_reevaluates "2026-03-01T00:00:00.000Z")
  rw [hrecords₂, hrecords₁] at hrecords₃
  obtain ⟨r, _, db₄, hprune⟩ :=
    exists_performs serves_total (pruneDecisionRecords widgetRuntime julyNowMs) () db₃
  have hfailed := july_collides <| july_prune hprune hrecords₃ (by decide : 2 < 999)
    (by decide : ("2026-01-01T00:00:00.000Z" : String) < "2026-01-16T00:00:00.000Z") (by
      simp only [forall_mem_cons, widgetCall_row_createdAt]
      exact ⟨by decide, by decide, forall_mem_nil _⟩)
  refine ⟨[⟨_, _, db₁⟩, ⟨_, _, db₂⟩, ⟨_, _, db₃⟩, ⟨db₃, .prune julyNowMs, db₄⟩, ⟨db₄, _, db₄⟩], db₄,
    ⟨rfl, hvalid₁, rfl, hvalid₂, rfl, hvalid₃, rfl, ⟨r, hprune⟩, rfl, hfailed, rfl⟩, ?_, ?_⟩
  · obtain ⟨hzero, hone, htwo⟩ := hids
    simp only [map_cons, map_nil, length_nil, length_cons, length_append,
      Nat.zero_add, Nat.reduceAdd, hzero, hone, htwo, collidingSteps]
  · intro call outcome hmem
    simp only [collidingSteps, mem_cons, not_mem_nil, HistoryStep.persist.injEq, reduceCtorEq,
      or_false, false_or] at hmem
    rcases hmem with ⟨rfl, -⟩ | ⟨rfl, -⟩ | ⟨rfl, -⟩ | ⟨rfl, -⟩ <;> exact widgetCall_reevaluates _

/-- A record of another pull request, older than the cutoff. -/
def otherRow : DecisionRecordRow :=
  { (widgetCall "2026-01-01T00:00:00.000Z").row 0 none with
    id := "record:acme/widgets#6@f00d", pullNumber := 6, headSha := "f00d" }

def otherDb : LedgerDb :=
  { LedgerDb.empty with records := [otherRow], records_nodup := nodup_singleton _ }

theorem otherDb_complete : RevisionsComplete widgetHead [] otherDb := by
  refine ⟨rfl, by decide, fun n _ hmem => ?_⟩
  have hid : nextRevisionId widgetHead.baseId n = "record:acme/widgets#6@f00d" :=
    mem_singleton.1 hmem
  -- the ids of the head differ from the other one behind the number sign
  have hprefix : (nextRevisionId widgetHead.baseId n).toList.take 21 =
      "record:acme/widgets#7".toList := by
    unfold nextRevisionId
    split_ifs
    · decide
    · rw [String.toList_append, String.toList_append, append_assoc, take_append_of_le_length]
      all_goals decide
  rw [hid] at hprefix
  exact absurd hprefix (by decide)

/-- Between two evaluations of the head, a prune deletes the record of the other pull request. -/
theorem revisions_fresh_pruned :
    ∃ db₁ db₂ db₃, History widgetRuntime asciiRuntime otherDb
        [⟨otherDb, .persist (widgetCall "2026-02-01T00:00:00.000Z")
            (.persisted "record:acme/widgets#7@c0ffee"), db₁⟩, ⟨db₁, .prune julyNowMs, db₂⟩,
          ⟨db₂, .persist (widgetCall "2026-07-15T00:00:00.000Z")
            (.persisted "record:acme/widgets#7@c0ffee:rev2"), db₃⟩] db₃ ∧
      otherRow ∈ db₁.records ∧ otherRow ∉ db₂.records ∧
      (Transition.mk db₂ (.persist (widgetCall "2026-07-15T00:00:00.000Z")
          (.persisted "record:acme/widgets#7@c0ffee:rev2")) db₃).StoresRevision
        (.persisted "record:acme/widgets#7@c0ffee:rev2") (some "record:acme/widgets#7@c0ffee") := by
  have hids : nextRevisionId widgetHead.baseId 0 = "record:acme/widgets#7@c0ffee" ∧
      nextRevisionId widgetHead.baseId 1 = "record:acme/widgets#7@c0ffee:rev2" := by decide
  obtain ⟨db₁, e₁, hvalid₁, hinv₁, hrecords₁⟩ := otherDb_complete.exists_persist widgetRuntime
    asciiRuntime (widgetCall_reevaluates "2026-02-01T00:00:00.000Z")
  obtain ⟨r, _, db₂, hprune⟩ :=
    exists_performs serves_total (pruneDecisionRecords widgetRuntime julyNowMs) () db₁
  have hboth : db₁.records = [otherRow, (widgetCall "2026-02-01T00:00:00.000Z").row 0 e₁] :=
    hrecords₁
  have hkept : db₂.records = [(widgetCall "2026-02-01T00:00:00.000Z").row 0 e₁] := by
    refine july_prune hprune hboth (by decide : 1 < 999) (by decide) fun row hrow => ?_
    rw [mem_singleton.1 hrow, widgetCall_row_createdAt]
    decide
  have hsame : db₂.revisionsOf widgetHead = db₁.revisionsOf widgetHead := by
    rw [revisionsOf, revisionsOf, revisions, revisions, hkept,
      hboth, filter_cons_of_neg (a := otherRow) (by decide)]
  have hvalid₂ : (Transition.mk db₁ (.prune julyNowMs) db₂).Valid widgetRuntime asciiRuntime :=
    ⟨r, hprune⟩
  have hinv₂ := hinv₁.prune rfl hvalid₂ hsame
  obtain ⟨db₃, -, hvalid₃, -, -⟩ := hinv₂.exists_persist widgetRuntime asciiRuntime
    (widgetCall_reevaluates "2026-07-15T00:00:00.000Z")
  simp only [nil_append, length_singleton, length_nil, hids.1, hids.2] at hvalid₁ hvalid₃
  have hrun : History widgetRuntime asciiRuntime otherDb
      [⟨_, _, db₁⟩, ⟨db₁, .prune julyNowMs, db₂⟩, ⟨db₂, _, db₃⟩] db₃ :=
    ⟨rfl, hvalid₁, rfl, hvalid₂, rfl, hvalid₃, rfl⟩
  refine ⟨db₁, db₂, db₃, hrun, hboth ▸ mem_cons_self, ?_, ?_⟩
  · rw [hkept]
    intro hmem
    have hnumber := congrArg DecisionRecordRow.pullNumber (mem_singleton.1 hmem)
    exact absurd hnumber (by decide : (6 : ℤ) ≠ 7)
  · refine @revisions_fresh widgetRuntime asciiRuntime widgetHead otherDb db₃ _ hrun (by decide)
      (fun n => otherDb_complete.free n (Nat.zero_le n)) ?_ ?_ [_, _] [] _ _ _ rfl rfl
    · rintro t ht call outcome hstep
      simp only [mem_cons, not_mem_nil, or_false] at ht
      rcases ht with rfl | rfl | rfl <;> cases hstep <;> exact widgetCall_reevaluates _
    · rintro t ht nowMs hstep
      simp only [mem_cons, not_mem_nil, or_false] at ht
      rcases ht with rfl | rfl | rfl <;> cases hstep
      exact hsame

end LoopOver
