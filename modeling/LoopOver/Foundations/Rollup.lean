import Mathlib.Algebra.BigOperators.Group.List.Basic
import Mathlib.Data.List.Dedup

/-!
# Rollups

Rows that are about to be deleted are folded into a table of sums: the rows are grouped by a key,
and each group is added to what is stored under its key.

* `upsert` adds to the entry of a key, and `foldInto` does it for every group of a selection.
* `stored_foldInto`: the fold adds to every key the sum of its group.
* `fold_delete_conserves`: when the rows that are folded are the rows that are deleted, what is
  stored and what is live have the same sum as before, for every key.
-/

namespace LoopOver.Rollup

open List

variable {α κ M : Type*} [DecidableEq κ] [AddCommMonoid M]

/-- A table with a primary key: at most one entry for each. -/
abbrev Keyed (κ M : Type*) : Type _ := κ → Option M

/-- What is stored under a key. -/
def stored (table : Keyed κ M) (k : κ) : M := (table k).getD 0

/-- `INSERT … ON CONFLICT DO UPDATE SET n = n + excluded.n`. -/
def upsert (table : Keyed κ M) (k : κ) (m : M) : Keyed κ M :=
  Function.update table k (some (stored table k + m))

/-- The sum of the entries of a selection under a key. -/
def groupSum (selection : List (κ × M)) (k : κ) : M :=
  ((selection.filter fun entry => entry.1 = k).map Prod.snd).sum

/-- `INSERT … SELECT key, SUM(…) … GROUP BY key ON CONFLICT DO UPDATE`. -/
def foldInto (table : Keyed κ M) (selection : List (κ × M)) : Keyed κ M :=
  (selection.map Prod.fst).dedup.foldl (fun table k => upsert table k (groupSum selection k)) table

/-- The rows of a query that counts some of them, with their keys and weights. -/
def entries (key : α → Option κ) (weight : α → M) (rows : List α) : List (κ × M) :=
  rows.filterMap fun row => (key row).map fun k => (k, weight row)

/-- What the rows count for under a key. -/
def live (key : α → Option κ) (weight : α → M) (rows : List α) (k : κ) : M :=
  groupSum (entries key weight rows) k

theorem stored_upsert (table : Keyed κ M) (k k' : κ) (m : M) :
    stored (upsert table k m) k' = stored table k' + if k' = k then m else 0 := by
  unfold stored upsert
  by_cases h : k' = k
  · subst h
    simp [stored]
  · simp [h]

theorem groupSum_eq_zero {selection : List (κ × M)} {k : κ} (h : k ∉ selection.map Prod.fst) :
    groupSum selection k = 0 := by
  have hnone : (selection.filter fun entry => entry.1 = k) = [] := by
    refine filter_eq_nil_iff.2 fun entry hentry => ?_
    simp only [decide_eq_true_eq]
    rintro rfl
    exact h (mem_map_of_mem hentry)
  rw [groupSum, hnone, map_nil, sum_nil]

/-- Adding to each of several keys once. -/
theorem stored_foldl_upsert (sum : κ → M) {keys : List κ} (hnodup : keys.Nodup) (table : Keyed κ M)
    (k : κ) :
    stored (keys.foldl (fun table k => upsert table k (sum k)) table) k =
      stored table k + if k ∈ keys then sum k else 0 := by
  induction keys generalizing table with
  | nil => simp
  | cons key keys ih =>
    obtain ⟨hkey, hkeys⟩ := nodup_cons.1 hnodup
    rw [foldl_cons, ih hkeys, stored_upsert]
    by_cases h : k = key
    · subst h
      simp [hkey]
    · simp [h]

theorem stored_foldInto (table : Keyed κ M) (selection : List (κ × M)) (k : κ) :
    stored (foldInto table selection) k = stored table k + groupSum selection k := by
  rw [foldInto, stored_foldl_upsert _ (nodup_dedup _)]
  by_cases h : k ∈ selection.map Prod.fst
  · rw [if_pos (mem_dedup.2 h)]
  · rw [if_neg (mt mem_dedup.1 h), groupSum_eq_zero h]

theorem groupSum_append (selection selection' : List (κ × M)) (k : κ) :
    groupSum (selection ++ selection') k = groupSum selection k + groupSum selection' k := by
  rw [groupSum, filter_append, map_append, sum_append]
  rfl

/-- The rows of a slice and the others count for all of them. -/
theorem live_filter_add (key : α → Option κ) (weight : α → M) (p : α → Bool) (rows : List α)
    (k : κ) :
    live key weight (rows.filter p) k + live key weight (rows.filter fun row => !p row) k =
      live key weight rows k := by
  have hperm : (rows.filter p ++ rows.filter fun row => !p row).Perm rows :=
    filter_append_perm p rows
  have hentries := ((hperm.filterMap fun row => (key row).map fun k => (k, weight row)).filter
    fun entry => decide (entry.1 = k)).map Prod.snd
  rw [live, live, ← groupSum_append, entries, entries, ← filterMap_append]
  exact hentries.sum_eq

theorem fold_delete_conserves (key : α → Option κ) (weight : α → M) (table : Keyed κ M)
    (p : α → Bool) (rows : List α) (k : κ) :
    stored (foldInto table (entries key weight (rows.filter p))) k +
        live key weight (rows.filter fun row => !p row) k =
      stored table k + live key weight rows k := by
  rw [stored_foldInto, add_assoc]
  exact congrArg _ (live_filter_add key weight p rows k)

end LoopOver.Rollup
