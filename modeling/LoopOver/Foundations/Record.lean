import Mathlib.Data.List.Nodup

/-!
# Records that remember their order

A record is a list of keys with values. Setting a key replaces its value in place, or puts the key
behind the others, as the objects and maps of a host do.

* `lookup_set` and `lookup_setAll` read a record after one assignment and after a list of them: the
  last one counts.
* `keys_set` says which keys there are, and in which order.
* `setAll_eq_self`: assigning the entries of a record to a beginning of it gives the record back.
-/

namespace LoopOver.Record

variable {κ α : Type*} {key other : κ} {value : α} {entries start record : List (κ × α)}

def keys (record : List (κ × α)) : List κ := record.map Prod.fst

@[simp] theorem keys_nil : keys ([] : List (κ × α)) = [] := rfl

@[simp] theorem keys_cons (entry : κ × α) (record : List (κ × α)) :
    keys (entry :: record) = entry.1 :: keys record := rfl

@[simp] theorem keys_append (front back : List (κ × α)) :
    keys (front ++ back) = keys front ++ keys back :=
  List.map_append

variable [DecidableEq κ]

def set (key : κ) (value : α) : List (κ × α) → List (κ × α)
  | [] => [(key, value)]
  | entry :: rest => if entry.1 = key then (key, value) :: rest else entry :: set key value rest

/-- The assignments one after the other. -/
def setAll (start entries : List (κ × α)) : List (κ × α) :=
  entries.foldl (fun record entry => set entry.1 entry.2 record) start

@[simp] theorem setAll_nil (start : List (κ × α)) : setAll start [] = start := rfl

@[simp] theorem setAll_cons (start : List (κ × α)) (entry : κ × α) (entries : List (κ × α)) :
    setAll start (entry :: entries) = setAll (set entry.1 entry.2 start) entries := rfl

/-! ## Reading -/

theorem lookup_cons_eq (entry : κ × α) (record : List (κ × α)) (other : κ) :
    (entry :: record).lookup other = if other = entry.1 then some entry.2
      else record.lookup other := by
  rw [List.lookup_cons]
  by_cases h : other = entry.1
  · rw [if_pos h, beq_iff_eq.2 h]
  · rw [if_neg h, beq_eq_false_iff_ne.2 h]

theorem lookup_set (key : κ) (value : α) (record : List (κ × α)) (other : κ) :
    (set key value record).lookup other = if other = key then some value
      else record.lookup other := by
  induction record with
  | nil => exact lookup_cons_eq (key, value) [] other
  | cons entry rest ih =>
    rw [set, lookup_cons_eq]
    by_cases hentry : entry.1 = key
    · rw [if_pos hentry, lookup_cons_eq, hentry]
      split_ifs <;> rfl
    · rw [if_neg hentry, lookup_cons_eq, ih]
      split_ifs with hother hkey
      · exact absurd (hother.symm.trans hkey) hentry
      all_goals rfl

theorem lookup_setAll (start entries : List (κ × α)) (other : κ) :
    (setAll start entries).lookup other = (entries.reverse.lookup other).or
      (start.lookup other) := by
  induction entries generalizing start with
  | nil => rfl
  | cons entry rest ih =>
    rw [setAll_cons, ih, lookup_set, List.reverse_cons, List.lookup_append, Option.or_assoc,
      lookup_cons_eq]
    congr 1
    split_ifs <;> rfl

theorem mem_of_lookup (h : record.lookup key = some value) : (key, value) ∈ record := by
  obtain ⟨front, back, rfl, -⟩ := List.lookup_eq_some_iff.1 h
  simp

theorem lookup_of_mem (hnodup : (keys record).Nodup) (h : (key, value) ∈ record) :
    record.lookup key = some value := by
  induction record with
  | nil => cases h
  | cons entry rest ih =>
    obtain ⟨hhead, htail⟩ := List.nodup_cons.1 hnodup
    rw [lookup_cons_eq]
    rcases List.mem_cons.1 h with rfl | hrest
    · exact if_pos rfl
    · have hkey : key ∈ rest.map Prod.fst := List.mem_map.2 ⟨_, hrest, rfl⟩
      rw [if_neg fun heq : key = entry.1 => hhead (heq ▸ hkey)]
      exact ih htail hrest

theorem keys_set (key : κ) (value : α) (record : List (κ × α)) :
    keys (set key value record) = if key ∈ keys record then keys record
      else keys record ++ [key] := by
  induction record with
  | nil => rfl
  | cons entry rest ih =>
    rw [set]
    by_cases hentry : entry.1 = key
    · simp [hentry]
    · rw [if_neg hentry, keys_cons, ih, keys_cons]
      by_cases hmem : key ∈ keys rest
      · simp [hmem]
      · simp [hmem, Ne.symm hentry]

theorem set_append_of_not_mem (h : key ∉ keys start) :
    set key value (start ++ record) = start ++ set key value record := by
  induction start with
  | nil => rfl
  | cons entry rest ih =>
    rw [keys_cons, List.mem_cons, not_or] at h
    rw [List.cons_append, set, if_neg (Ne.symm h.1), ih h.2, List.cons_append]

theorem keys_prefix_set (key : κ) (value : α) (record : List (κ × α)) :
    keys record <+: keys (set key value record) := by
  rw [keys_set]
  split
  · exact List.prefix_rfl
  · exact List.prefix_append _ _

theorem keys_prefix_setAll (start entries : List (κ × α)) :
    keys start <+: keys (setAll start entries) := by
  induction entries generalizing start with
  | nil => exact List.prefix_rfl
  | cons entry rest ih => exact (keys_prefix_set _ _ _).trans (ih _)

theorem nodup_keys_set (h : (keys record).Nodup) : (keys (set key value record)).Nodup := by
  rw [keys_set]
  split
  · exact h
  · next hnot => exact List.nodup_append.2 ⟨h, List.nodup_singleton _,
      by rintro a ha b hb rfl; simp_all⟩

theorem nodup_keys_setAll (h : (keys start).Nodup) : (keys (setAll start entries)).Nodup := by
  induction entries generalizing start with
  | nil => exact h
  | cons entry rest ih => exact ih (nodup_keys_set h)

theorem mem_set {entry : κ × α} (h : entry ∈ set key value record) :
    entry = (key, value) ∨ entry ∈ record := by
  induction record with
  | nil => exact Or.inl (List.mem_singleton.1 h)
  | cons first rest ih =>
    rw [set] at h
    split at h
    · exact (List.mem_cons.1 h).imp_right (List.mem_cons_of_mem _)
    · rcases List.mem_cons.1 h with rfl | hrest
      · exact Or.inr List.mem_cons_self
      · exact (ih hrest).imp_right (List.mem_cons_of_mem _)

theorem mem_setAll {entry : κ × α} (h : entry ∈ setAll start entries) :
    entry ∈ entries ∨ entry ∈ start := by
  induction entries generalizing start with
  | nil => exact Or.inr h
  | cons first rest ih =>
    rcases ih h with hrest | hstart
    · exact Or.inl (List.mem_cons_of_mem _ hrest)
    · rcases mem_set hstart with rfl | hold
      · exact Or.inl List.mem_cons_self
      · exact Or.inr hold

/-- Entries are put where their keys stand, as long as those are set in their order. -/
theorem setAll_append_eq (front start entries : List (κ × α))
    (hnodup : (keys (front ++ entries)).Nodup) (hstart : keys start <+: keys entries) :
    setAll (front ++ start) entries = front ++ entries := by
  induction entries generalizing front start with
  | nil =>
    obtain rfl : start = [] := List.map_eq_nil_iff.1 (List.prefix_nil.1 hstart)
    rfl
  | cons entry rest ih =>
    have hsnoc : front ++ entry :: rest = front ++ [entry] ++ rest := by simp
    have hfresh : entry.1 ∉ keys front := by
      intro hmem
      rw [keys_append, List.nodup_append] at hnodup
      exact hnodup.2.2 _ hmem _ List.mem_cons_self rfl
    have hset : ∃ start', set entry.1 entry.2 start = entry :: start' ∧
        keys start' <+: keys rest := by
      cases start with
      | nil => exact ⟨[], rfl, List.nil_prefix⟩
      | cons first start' =>
        obtain ⟨heq, htail⟩ := List.cons_prefix_cons.1 hstart
        exact ⟨start', by rw [set, if_pos heq], htail⟩
    obtain ⟨start', hset, htail⟩ := hset
    have happend : front ++ entry :: start' = front ++ [entry] ++ start' := by simp
    rw [setAll_cons, set_append_of_not_mem hfresh, hset, happend, hsnoc]
    exact ih (front ++ [entry]) start' (hsnoc ▸ hnodup) htail

theorem setAll_eq_self (hnodup : (keys record).Nodup) (hstart : keys start <+: keys record) :
    setAll start record = record :=
  setAll_append_eq [] start record hnodup hstart

end LoopOver.Record
