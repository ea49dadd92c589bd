import Mathlib.Data.List.DropRight
import Mathlib.Data.List.Nodup
import Mathlib.Data.List.Perm.Subperm

/-!
# Maps in the order of their last updates

A map that iterates over its keys in the order in which they were set, and from which a key is
deleted before it is set again, has the latest value of each key, in the order of these updates.

* `latest` is the map after a list of updates, and `mem_latest_iff` says what is in it.
* `MostRecent` says, in terms of the updates alone, that the keys of a list were updated last and
  that their values have a property; `length_le_rtakeWhile` finds them at the end of the map.
-/

namespace LoopOver.Recency

open List

variable {κ V : Type*} [DecidableEq κ] {P : V → Prop} {keys : List κ}
  {entries front back : List (κ × V)}
  {entry other : κ × V}

/-- Delete the key, and set it. -/
def rekey (map : List (κ × V)) (entry : κ × V) : List (κ × V) :=
  map.filter (·.1 ≠ entry.1) ++ [entry]

def latest (entries : List (κ × V)) : List (κ × V) := entries.foldl rekey []

/-- No other key was updated since these were, and their last values have the property. -/
structure MostRecent (P : V → Prop) (keys : List κ) (entries : List (κ × V)) : Prop where
  distinct : keys.Nodup
  last : ∀ key ∈ keys, ∃ front value back, entries = front ++ (key, value) :: back ∧ P value ∧
    ∀ later ∈ back, later.1 ≠ key ∧ later.1 ∈ keys

@[simp] theorem latest_nil : latest ([] : List (κ × V)) = [] := rfl

theorem latest_concat (entries : List (κ × V)) (entry : κ × V) :
    latest (entries ++ [entry]) = (latest entries).filter (·.1 ≠ entry.1) ++ [entry] := by
  rw [latest, foldl_append]
  rfl

/-- What later updates leave of a map, and what they add. -/
theorem latest_append (front back : List (κ × V)) :
    latest (front ++ back) = (latest front).filter (fun entry => ∀ later ∈ back,
      later.1 ≠ entry.1) ++ latest back := by
  induction back using List.reverseRecOn with
  | nil => simp
  | append_singleton back last ih =>
    rw [← append_assoc, latest_concat, ih, latest_concat, filter_append, filter_filter,
      append_assoc]
    congr 2
    funext entry
    rw [← Bool.decide_and, decide_eq_decide, forall_mem_append, forall_mem_singleton, and_comm]
    exact and_congr_right fun _ => ne_comm

/-- **What is in the map**: the last update of each key. -/
theorem mem_latest_iff :
    entry ∈ latest entries ↔
      ∃ front back, entries = front ++ entry :: back ∧ ∀ later ∈ back, later.1 ≠ entry.1 := by
  induction entries using List.reverseRecOn with
  | nil => simp
  | append_singleton entries last ih =>
    rw [latest_concat, mem_append, mem_filter, mem_singleton, ih]
    constructor
    · rintro (⟨⟨front, back, rfl, hback⟩, hne⟩ | rfl)
      · refine ⟨front, back ++ [last], by simp, ?_⟩
        rw [forall_mem_append, forall_mem_singleton]
        exact ⟨hback, (of_decide_eq_true hne).symm⟩
      · exact ⟨entries, [], rfl, fun _ hin => absurd hin not_mem_nil⟩
    · rintro ⟨front, back, heq, hback⟩
      rcases eq_nil_or_concat back with rfl | ⟨back, final, rfl⟩
      · exact Or.inr (singleton_inj.1 (append_inj' heq rfl).2).symm
      · have hsplit : entries ++ [last] = (front ++ entry :: back) ++ [final] := by simpa using heq
        obtain ⟨rfl, hlast⟩ := append_inj' hsplit rfl
        obtain rfl := singleton_inj.1 hlast
        rw [concat_eq_append, forall_mem_append, forall_mem_singleton] at hback
        exact Or.inl ⟨⟨front, back, rfl, hback.1⟩, decide_eq_true hback.2.symm⟩

/-- A key is in the map once. -/
theorem eq_of_mem_latest (hentry : entry ∈ latest entries) (hother : other ∈ latest entries)
    (hkey : entry.1 = other.1) : entry = other := by
  induction entries using List.reverseRecOn with
  | nil => exact absurd hentry not_mem_nil
  | append_singleton entries last ih =>
    rw [latest_concat, mem_append, mem_filter, mem_singleton] at hentry hother
    rcases hentry with ⟨hentry, hne⟩ | rfl <;> rcases hother with ⟨hother, hne'⟩ | rfl
    · exact ih hentry hother
    · exact absurd hkey (of_decide_eq_true hne)
    · exact absurd hkey.symm (of_decide_eq_true hne')
    · rfl

theorem rtakeWhile_append_of_pos {α : Type*} {p : α → Bool} {front back : List α}
    (h : ∀ a ∈ back, p a = true) :
    (front ++ back).rtakeWhile p = front.rtakeWhile p ++ back := by
  have hback : ∀ a ∈ back.reverse, p a = true := fun a ha => h a (mem_reverse.1 ha)
  rw [List.rtakeWhile, reverse_append, takeWhile_append_of_pos hback, reverse_append,
    reverse_reverse, List.rtakeWhile]

/-- **The most recent keys are at the end of the map.** -/
theorem length_le_rtakeWhile [DecidablePred P] (h : MostRecent P keys entries) :
    keys.length ≤ ((latest entries).rtakeWhile fun entry => P entry.2).length := by
  -- The updates since the first of the keys got its last value.
  obtain ⟨older, recent, hsplit, hrecent⟩ : ∃ older recent, older ++ recent = entries ∧
      recent = entries.rtakeWhile fun entry => entry.1 ∈ keys :=
    ⟨_, _, rdropWhile_append_rtakeWhile, rfl⟩
  have hkeys : ∀ entry ∈ recent, entry.1 ∈ keys := by
    intro entry hentry
    rw [hrecent] at hentry
    exact of_decide_eq_true
      (mem_rtakeWhile_imp (p := fun entry : κ × V => decide (entry.1 ∈ keys)) hentry)
  have hlast : ∀ key ∈ keys, ∃ value, (key, value) ∈ latest recent ∧ P value := by
    intro key hkey
    obtain ⟨front, value, back, hentries, hP, hback⟩ := h.last key hkey
    have htail : ∀ entry ∈ (key, value) :: back, decide (entry.1 ∈ keys) = true := by
      rw [forall_mem_cons]
      exact ⟨decide_eq_true hkey, fun later hlater => decide_eq_true (hback later hlater).2⟩
    rw [hentries, rtakeWhile_append_of_pos htail] at hrecent
    exact ⟨value, mem_latest_iff.2 ⟨_, back, hrecent, fun later hlater => (hback later hlater).1⟩,
      hP⟩
  have hall : ∀ entry ∈ latest recent, decide (P entry.2) = true := by
    intro entry hentry
    obtain ⟨front, back, hrecent, -⟩ := mem_latest_iff.1 hentry
    obtain ⟨value, hvalue, hP⟩ := hlast entry.1 (hkeys entry (hrecent ▸ by simp))
    rw [eq_of_mem_latest hentry hvalue rfl]
    exact decide_eq_true hP
  have hlength : keys.length ≤ (latest recent).length := by
    have hmap : ((latest recent).map Prod.fst).length = (latest recent).length := length_map _
    rw [← hmap]
    refine (subperm_of_subset h.distinct fun key hkey => ?_).length_le
    obtain ⟨value, hvalue, -⟩ := hlast key hkey
    exact mem_map_of_mem hvalue
  rw [← hsplit, latest_append, rtakeWhile_append_of_pos hall, length_append]
  omega

end LoopOver.Recency
