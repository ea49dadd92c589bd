import Mathlib.Data.List.Perm.Subperm
import Mathlib.Data.List.Sort
import Mathlib.Order.Basic

/-!
# The first rows of an order

A query with `ORDER BY key DESC LIMIT n` may put rows with one key in any order, and which of them
it cuts off is left open with it. `Answers` is the relation between the rows and what may be read.

* `room_of_answer`: where two rows with one key are read, there is room for both behind the rows
  with greater keys.
* `exists_answer` is the converse, with an order that puts the two in front of the others with their
  key.
-/

namespace LoopOver.TopRows

open List

variable {ρ κ : Type*} [LinearOrder κ] {key : ρ → κ} {limit : ℕ}
  {rows ordered answer : List ρ} {a b : ρ}

/-- The rows in one of their orders. -/
structure Ordered (key : ρ → κ) (rows ordered : List ρ) : Prop where
  perm : ordered.Perm rows
  descending : ordered.Pairwise fun a b => key b ≤ key a

/-- `SELECT … ORDER BY key DESC LIMIT limit`. -/
def Answers (key : ρ → κ) (limit : ℕ) (rows answer : List ρ) : Prop :=
  ∃ ordered, Ordered key rows ordered ∧ answer = ordered.take limit

theorem Answers.subperm (h : Answers key limit rows answer) : answer.Subperm rows := by
  obtain ⟨ordered, hordered, rfl⟩ := h
  exact (take_sublist _ _).subperm.trans hordered.perm.subperm

/-- How many rows have a key greater than another. -/
def newer (key : ρ → κ) (k : κ) (rows : List ρ) : ℕ := rows.countP fun row => k < key row

theorem room_of_answer (h : Answers key limit rows answer) (hpair : [a, b].Sublist answer)
    (hkey : key a = key b) :
    newer key (key a) rows + 2 ≤ limit := by
  obtain ⟨ordered, ⟨hperm, hdescending⟩, rfl⟩ := h
  -- behind the two rows there is no greater key
  have hdrop : newer key (key a) (ordered.drop limit) = 0 := by
    rw [← take_append_drop limit ordered, pairwise_append] at hdescending
    refine countP_eq_zero.2 fun row hrow => ?_
    rw [decide_eq_true_eq, not_lt, hkey]
    exact hdescending.2.2 b (hpair.subset (by simp)) row hrow
  have hothers : 2 ≤ (ordered.take limit).countP fun row => ¬decide (key a < key row) = true := by
    refine le_trans ?_ (hpair.countP_le)
    simp [hkey]
  have hsplit :=
    length_eq_countP_add_countP (fun row => decide (key a < key row)) (l := ordered.take limit)
  have hlength : (ordered.take limit).length ≤ limit := length_take_le _ _
  have hnewer : newer key (key a) rows = newer key (key a) (ordered.take limit) := by
    rw [newer, ← hperm.countP_eq, ← take_append_drop limit ordered, countP_append, take_append_drop]
    exact Nat.add_eq_left.2 hdrop
  rw [hnewer, newer]
  omega

theorem exists_answer (hpair : [a, b].Subperm rows) (hkey : key a = key b)
    (hroom : newer key (key a) rows + 2 ≤ limit) :
    ∃ answer, Answers key limit rows answer ∧ [a, b].Sublist answer := by
  obtain ⟨pair, hperm, hsublist⟩ := hpair
  obtain ⟨rest, hrest⟩ := hsublist.exists_perm_append
  have hrows : (a :: b :: rest).Perm rows := (hperm.symm.append_right rest).trans hrest.symm
  let front := (rest.filter fun row => key a < key row).mergeSort fun x y => key y ≤ key x
  let back := (rest.filter fun row => !decide (key a < key row)).mergeSort fun x y => key y ≤ key x
  have hfront {row : ρ} (h : row ∈ front) : key a < key row := by
    simpa using (mem_filter.1 (mem_mergeSort.1 h)).2
  have hback {row : ρ} (h : row ∈ back) : key row ≤ key a := by
    simpa using (mem_filter.1 (mem_mergeSort.1 h)).2
  have hsorted (l : List ρ) : (l.mergeSort fun x y => decide (key y ≤ key x)).Pairwise fun x y =>
      key y ≤ key x := by
    refine (pairwise_mergeSort (fun x y z hxy hyz => ?_) (fun x y => ?_) l).imp fun h =>
      of_decide_eq_true h
    · rw [decide_eq_true_eq] at *
      exact hyz.trans hxy
    · rw [Bool.or_eq_true, decide_eq_true_eq, decide_eq_true_eq]
      exact le_total _ _
  refine ⟨(front ++ a :: b :: back).take limit, ⟨_, ⟨?_, ?_⟩, rfl⟩, ?_⟩
  · have hparts : (front ++ back).Perm rest :=
      ((mergeSort_perm _ _).append (mergeSort_perm _ _)).trans
        (filter_append_perm (fun row => decide (key a < key row)) rest)
    refine List.Perm.trans ?_ hrows
    refine perm_middle.trans (List.Perm.cons a (perm_middle.trans (List.Perm.cons b hparts)))
  · refine pairwise_append.2 ⟨hsorted _, ?_, fun x hx y hy => ?_⟩
    · refine pairwise_cons.2 ⟨fun y hy => ?_, pairwise_cons.2 ⟨fun y hy => ?_, hsorted _⟩⟩
      · rcases mem_cons.1 hy with rfl | hy
        · exact hkey.ge
        · exact hback hy
      · exact (hback hy).trans hkey.le
    · rcases mem_cons.1 hy with rfl | hy
      · exact (hfront hx).le
      · rcases mem_cons.1 hy with rfl | hy
        · exact hkey.ge.trans (hfront hx).le
        · exact (hback hy).trans (hfront hx).le
  · have hlength : front.length + 2 ≤ limit := by
      have hcount : front.length ≤ newer key (key a) rows := by
        rw [length_mergeSort, ← countP_eq_length_filter, newer, ← hrows.countP_eq]
        exact (((sublist_cons_self b rest).trans (sublist_cons_self a _))).countP_le
      omega
    obtain ⟨room, rfl⟩ := Nat.exists_eq_add_of_le hlength
    have htake : (front ++ a :: b :: back).take (front.length + 2 + room) = front ++
        a :: b :: back.take room := by
      rw [Nat.add_assoc, take_length_add_append, Nat.add_comm 2 room]
      rfl
    rw [htake]
    exact (List.Sublist.cons_cons a (List.Sublist.cons_cons b (nil_sublist _))).trans
      (sublist_append_right _ _)

end LoopOver.TopRows
