import Mathlib.Data.List.Sort

/-!
# Tables

A table is a list of rows, with a key that tells them apart. `updateWhere` and `deleteWhere` are the
two statements that change rows, and `firstBy` is a query with an order and a limit of one.

* `mem_updateWhere` and `mem_deleteWhere` say which rows a statement leaves, and `keys_updateWhere`
  that an update which keeps the key keeps the rows apart.
* `updateReturning` is an update that reads back a row that it changed.
* `firstBy_mem` says what a query found.
* `find?_key_updateWhere` and `find?_key_deleteWhere` say what is found under a key after a
  statement.
-/

namespace LoopOver.Table

open List

variable {ρ κ : Type*}

/-- `UPDATE … SET … WHERE …`. -/
def updateWhere (p : ρ → Bool) (f : ρ → ρ) (rows : List ρ) : List ρ :=
  rows.map fun row => if p row then f row else row

/-- `DELETE … WHERE …`. -/
def deleteWhere (p : ρ → Bool) (rows : List ρ) : List ρ := rows.filter fun row => !p row

/-- `UPDATE … SET … WHERE … RETURNING *`, of which one row is read. -/
def updateReturning (p : ρ → Bool) (f : ρ → ρ) (rows : List ρ) : Option ρ × List ρ :=
  (((rows.filter p).map f).head?, updateWhere p f rows)

/-- `SELECT … WHERE … ORDER BY … LIMIT 1`. -/
def firstBy (le : ρ → ρ → Prop) [DecidableRel le] (p : ρ → Bool) (rows : List ρ) : Option ρ :=
  ((rows.filter p).insertionSort le).head?

variable {p : ρ → Bool} {f : ρ → ρ} {rows : List ρ} {row : ρ}

theorem mem_updateWhere :
    row ∈ updateWhere p f rows ↔ ∃ old ∈ rows, row = if p old then f old else old := by
  rw [updateWhere, mem_map]
  constructor
  · rintro ⟨old, hold, rfl⟩
    exact ⟨old, hold, rfl⟩
  · rintro ⟨old, hold, rfl⟩
    exact ⟨old, hold, rfl⟩

theorem mem_updateWhere_of_mem (p : ρ → Bool) (f : ρ → ρ) (hrow : row ∈ rows) :
    (if p row then f row else row) ∈ updateWhere p f rows :=
  mem_updateWhere.2 ⟨row, hrow, rfl⟩

/-- Row by row, an update leaves a row alone or changes it. -/
theorem forall₂_updateWhere (p : ρ → Bool) (f : ρ → ρ) (rows : List ρ) :
    List.Forall₂ (fun row row' => (p row = true ∧ row' = f row) ∨ (p row = false ∧ row' = row)) rows
      (updateWhere p f rows) := by
  rw [updateWhere, forall₂_map_right_iff, forall₂_same]
  intro row _
  cases hp : p row with
  | true => exact Or.inl ⟨rfl, rfl⟩
  | false => exact Or.inr ⟨rfl, rfl⟩

theorem updateReturning_eq_some {row' : ρ} (h : (updateReturning p f rows).1 = some row') :
    ∃ row ∈ rows, p row = true ∧ row' = f row := by
  obtain ⟨row, hrow, rfl⟩ := mem_map.1 (mem_of_mem_head? h)
  exact ⟨row, (mem_filter.1 hrow).1, (mem_filter.1 hrow).2, rfl⟩

theorem updateReturning_eq_none (h : (updateReturning p f rows).1 = none) :
    ∀ row ∈ rows, p row = false := by
  intro row hrow
  simp only [updateReturning, List.head?_eq_none_iff, map_eq_nil_iff, filter_eq_nil_iff] at h
  simpa using h row hrow

@[simp] theorem mem_deleteWhere : row ∈ deleteWhere p rows ↔ row ∈ rows ∧ p row = false := by
  simp [deleteWhere]

variable {key : ρ → κ}

/-- An update that keeps the key keeps the keys of the table. -/
theorem keys_updateWhere (hkey : ∀ row, p row = true → key (f row) = key row) :
    (updateWhere p f rows).map key = rows.map key := by
  rw [updateWhere, map_map]
  apply map_congr_left
  intro row _
  show key (if p row then f row else row) = key row
  split_ifs with hp
  · exact hkey row hp
  · rfl

theorem keys_deleteWhere (key : ρ → κ) : ((deleteWhere p rows).map key).Sublist (rows.map key) :=
  (filter_sublist).map key

/-- A row with a key of its own may be added. -/
theorem nodup_keys_concat (hnodup : (rows.map key).Nodup) (hrow : key row ∉ rows.map key) :
    ((rows ++ [row]).map key).Nodup := by
  rw [map_append]
  apply nodup_append.2
  refine ⟨hnodup, nodup_singleton _, ?_⟩
  intro k hk other hother hsame
  obtain rfl := mem_singleton.1 hother
  exact hrow (hsame ▸ hk)

theorem firstBy_mem {le : ρ → ρ → Prop} [DecidableRel le] (hrow : firstBy le p rows = some row) :
    row ∈ rows ∧ p row = true := by
  have hmem := mem_of_mem_head? hrow
  rw [mem_insertionSort, mem_filter] at hmem
  exact hmem

/-- An update moves into a selection at most the rows that it changes. -/
theorem countP_updateWhere_le (p q : ρ → Bool) (f : ρ → ρ) (rows : List ρ) :
    (updateWhere p f rows).countP q ≤ rows.countP q + rows.countP p := by
  induction rows with
  | nil => exact Nat.le_refl _
  | cons row rows ih =>
    have hcons : updateWhere p f (row :: rows) =
        (if p row then f row else row) :: updateWhere p f rows := rfl
    rw [hcons, countP_cons, countP_cons, countP_cons]
    cases hp : p row with
    | true =>
      rw [if_pos rfl, if_pos rfl]
      split <;> omega
    | false =>
      rw [if_neg Bool.false_ne_true]
      omega

/-- An update that moves no row into a selection does not make it larger. -/
theorem countP_updateWhere_le_of {q : ρ → Bool}
    (hq : ∀ row, p row = true → q (f row) = true → q row = true) :
    (updateWhere p f rows).countP q ≤ rows.countP q := by
  rw [updateWhere, countP_map]
  apply countP_mono_left
  intro row _ hrow
  replace hrow : q (if p row then f row else row) = true := hrow
  split_ifs at hrow with hp
  · exact hq row hp hrow
  · exact hrow

/-- An update that moves no row in or out of a selection keeps its count. -/
theorem countP_updateWhere_eq {q : ρ → Bool} (hq : ∀ row ∈ rows, p row = true → q (f row) = q row) :
    (updateWhere p f rows).countP q = rows.countP q := by
  rw [updateWhere, countP_map]
  apply countP_congr
  intro row hrow
  show q (if p row then f row else row) = true ↔ q row = true
  split_ifs with hp
  · rw [hq row hrow hp]
  · rfl

theorem countP_key_le_one [DecidableEq κ] (hnodup : (rows.map key).Nodup) (k : κ) :
    rows.countP (fun row => key row == k) ≤ 1 := by
  have hcount := nodup_iff_count_le_one.1 hnodup k
  rwa [List.count, countP_map] at hcount

/-- Rows with one key are one row. -/
theorem eq_of_key (hnodup : (rows.map key).Nodup) {a b : ρ} (ha : a ∈ rows) (hb : b ∈ rows)
    (hkey : key a = key b) : a = b :=
  inj_on_of_nodup_map hnodup ha hb hkey

/-- An update that keeps the key changes what is found under one. -/
theorem find?_key_updateWhere [DecidableEq κ] (key : ρ → κ)
    (hkey : ∀ row, p row = true → key (f row) = key row) (k : κ) :
    (updateWhere p f rows).find? (fun row => key row == k) =
      (rows.find? fun row => key row == k).map fun row => if p row then f row else row := by
  have hsame : ((fun row => key row == k) ∘ fun row => if p row then f row else row) = fun row =>
      key row == k := by
    funext row
    show (key (if p row then f row else row) == k) = (key row == k)
    split_ifs with hp
    · rw [hkey row hp]
    · rfl
  rw [updateWhere, List.find?_map, hsame]

/-- What a deletion leaves under a key. -/
theorem find?_key_deleteWhere [DecidableEq κ] (key : ρ → κ) (hnodup : (rows.map key).Nodup)
    (k : κ) :
    (deleteWhere p rows).find? (fun row => key row == k) =
      (rows.find? fun row => key row == k).filter fun row => !p row := by
  have hfound : ∀ {rows : List ρ} {row : ρ}, rows.find? (fun row => key row == k) = some row →
      key row = k :=
    fun hrow => by simpa using List.find?_some hrow
  cases hleft : (deleteWhere p rows).find? fun row => key row == k with
  | some row =>
    obtain ⟨hrow, hp⟩ := mem_deleteWhere.1 (mem_of_find?_eq_some hleft)
    cases hright : rows.find? fun row => key row == k with
    | none => exact absurd (beq_iff_eq.2 (hfound hleft)) (List.find?_eq_none.1 hright row hrow)
    | some other =>
      obtain rfl := eq_of_key hnodup hrow (mem_of_find?_eq_some hright)
        ((hfound hleft).trans (hfound hright).symm)
      rw [Option.filter_some, hp, Bool.not_false, if_pos rfl]
  | none =>
    cases hright : rows.find? fun row => key row == k with
    | none => rfl
    | some row =>
      have hp : p row = true := by
        by_contra hnot
        exact List.find?_eq_none.1 hleft row
          (mem_deleteWhere.2 ⟨mem_of_find?_eq_some hright, Bool.not_eq_true _ ▸ hnot⟩)
          (beq_iff_eq.2 (hfound hright))
      rw [Option.filter_some, hp, Bool.not_true, if_neg Bool.false_ne_true]

end LoopOver.Table
