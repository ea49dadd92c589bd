import Mathlib.Data.List.Basic
import Mathlib.Data.List.Nodup
import Mathlib.Data.List.Perm.Subperm

/-!
# Round robin over an order that changes

One after the other is served from a list: the one behind the last, or the first where the last has
left or is at the end. Who is served may move back in the list, or leave it.

* `Serves` is the change of the list when someone is served: all others keep their order.
* `turnsLeft` bounds the wait of the first, and goes down with each turn (`turnsLeft_lt`).
* **`Rotation.first_mem`**: the first is served within as many turns as there are in the list.
-/

namespace LoopOver.RoundRobin

open List

variable {α : Type*} [DecidableEq α]

/-- Who is served after the last. -/
def successor (order : List α) (last : Option α) : Option α :=
  match last with
  | none => order.head?
  | some a => if a ∈ order then order[(order.idxOf a + 1) % order.length]? else order.head?

/-- All but the one who is served stay, in their order, and the one who is served is not before
those who were before. -/
structure Serves (order : List α) (served : α) (order' : List α) : Prop where
  nodup : order.Nodup
  nodup' : order'.Nodup
  subset : order' ⊆ order
  stays : ∀ a ∈ order, a ≠ served → a ∈ order'
  keeps : ∀ a b, a ≠ served → b ∈ order' → [a, b].Sublist order → [a, b].Sublist order'

/-- One after the other is served. -/
inductive Rotation : List α → Option α → List α → Prop
  | nil {order : List α} {last : Option α} : Rotation order last []
  | serve {order order' : List α} {last : Option α} {served : α} {picks : List α}
      (hpick : successor order last = some served) (hserves : Serves order served order')
      (hrest : Rotation order' (some served) picks) : Rotation order last (served :: picks)

/-- How many turns the first has to wait for at most. -/
def turnsLeft (order : List α) (last : Option α) : ℕ :=
  match last with
  | none => 1
  | some a => if a ∈ order then order.length - order.idxOf a else 1

section Order

variable {order order' front back : List α} {a b first served : α} {last : Option α}

omit [DecidableEq α] in
theorem mem_front_of_sublist (hnodup : (front ++ b :: back).Nodup)
    (h : [a, b].Sublist (front ++ b :: back)) :
    a ∈ front := by
  obtain ⟨hfront, hback, hdisjoint⟩ := nodup_append.1 hnodup
  obtain ⟨one, two, hsplit, hone, htwo⟩ := sublist_append_iff.1 h
  have hb : b ∉ front := fun hmem => hdisjoint b hmem b mem_cons_self rfl
  have hb' : b ∉ back := (nodup_cons.1 hback).1
  rcases one with _ | ⟨c, _ | ⟨d, one⟩⟩
  · -- Nothing before `b` is left for `a`.
    rw [nil_append] at hsplit
    rw [← hsplit] at htwo
    cases htwo with
    | cons _ htwo => exact absurd (htwo.subset (by simp)) hb'
    | cons_cons _ htwo => exact absurd (htwo.subset (by simp)) hb'
  · obtain ⟨rfl, -⟩ := cons_eq_cons.1 hsplit
    exact hone.subset mem_cons_self
  · obtain ⟨rfl, hrest⟩ := cons_eq_cons.1 hsplit
    obtain ⟨rfl, -⟩ := cons_eq_cons.1 hrest
    exact absurd (hone.subset (by simp)) hb

omit [DecidableEq α] in
theorem Serves.length_le (h : Serves order served order') : order'.length ≤ order.length :=
  (subperm_of_subset h.nodup' h.subset).length_le

/-- The one who is served does not get ahead of anyone. -/
theorem Serves.idxOf_le (h : Serves order served order') (hserved : served ∈ order)
    (hserved' : served ∈ order') :
    order.idxOf served ≤ order'.idxOf served := by
  have hindex : ∀ {front back : List α}, (front ++ served :: back).Nodup →
      (front ++ served :: back).idxOf served = front.length := by
    intro front back hnodup
    have hnot : served ∉ front :=
      fun hmem => (nodup_append.1 hnodup).2.2 served hmem served mem_cons_self rfl
    rw [idxOf_append_of_notMem hnot, idxOf_cons_self, Nat.add_zero]
  obtain ⟨front, back, rfl⟩ := append_of_mem hserved
  obtain ⟨front', back', rfl⟩ := append_of_mem hserved'
  rw [hindex h.nodup, hindex h.nodup']
  have hsubset : front ⊆ front' := by
    intro a ha
    have hne : a ≠ served := fun heq => (nodup_append.1 h.nodup).2.2 a ha served mem_cons_self heq
    have hbefore : [a, served].Sublist (front ++ served :: back) :=
      (singleton_sublist.2 ha).append (singleton_sublist.2 mem_cons_self)
    exact mem_front_of_sublist h.nodup' (h.keeps a served hne hserved' hbefore)
  exact (subperm_of_subset (nodup_append.1 h.nodup).1 hsubset).length_le

omit [DecidableEq α] in
/-- The first stays the first until it is served. -/
theorem Serves.head (h : Serves order served order') (hfirst : order.head? = some first)
    (hne : first ≠ served) :
    order'.head? = some first := by
  obtain ⟨rest, rfl⟩ := List.head?_eq_some_iff.1 hfirst
  have hmem := h.stays first mem_cons_self hne
  cases order' with
  | nil => cases hmem
  | cons head tail =>
    by_contra hdiffer
    have hhead : head ≠ first := fun heq => hdiffer (congrArg some heq)
    have hrest : head ∈ rest := mem_of_ne_of_mem hhead (h.subset mem_cons_self)
    have hbefore : [first, head].Sublist (first :: rest) :=
      (singleton_sublist.2 hrest).cons_cons first
    have hbefore' := h.keeps first head hne mem_cons_self hbefore
    exact not_mem_nil (@mem_front_of_sublist _ [] _ _ _ h.nodup' hbefore')

/-- Each turn that is not that of the first brings it nearer. -/
theorem turnsLeft_lt (h : Serves order served order') (hpick : successor order last = some served)
    (hfirst : order.head? = some first) (hne : first ≠ served) :
    turnsLeft order' (some served) < turnsLeft order last := by
  have hnot : order.head? ≠ some served := by
    rw [hfirst]
    exact fun heq => hne (Option.some.inj heq)
  cases last with
  | none => exact absurd hpick hnot
  | some a =>
    rw [successor] at hpick
    split_ifs at hpick with ha
    · have hindex : order.idxOf a < order.length := idxOf_lt_length_of_mem ha
      rcases Nat.lt_or_ge (order.idxOf a + 1) order.length with hinside | hend
      · rw [Nat.mod_eq_of_lt hinside, List.getElem?_eq_getElem hinside, Option.some_inj] at hpick
        have hserved : order.idxOf served = order.idxOf a + 1 :=
          hpick ▸ h.nodup.idxOf_getElem _ hinside
        have hmem : served ∈ order := hpick ▸ getElem_mem hinside
        rw [turnsLeft, turnsLeft, if_pos ha]
        split_ifs with hserved'
        · have hback := h.idxOf_le hmem hserved'
          have hlength := h.length_le
          omega
        · omega
      · have hlast : order.idxOf a + 1 = order.length := Nat.le_antisymm hindex hend
        rw [hlast, Nat.mod_self, ← List.head?_eq_getElem?] at hpick
        exact absurd hpick hnot
    · exact absurd hpick hnot

theorem turnsLeft_le_length (hfirst : order.head? = some first) (last : Option α) :
    turnsLeft order last ≤ order.length := by
  obtain ⟨rest, rfl⟩ := List.head?_eq_some_iff.1 hfirst
  cases last with
  | none => exact Nat.succ_le_succ (Nat.zero_le _)
  | some a =>
    rw [turnsLeft]
    split_ifs
    · exact Nat.sub_le _ _
    · exact Nat.succ_le_succ (Nat.zero_le _)

/-- **The first is served within as many turns as there are in the list.** -/
theorem Rotation.first_mem {picks : List α} (h : Rotation order last picks)
    (hfirst : order.head? = some first) (hlength : turnsLeft order last ≤ picks.length) :
    first ∈ picks := by
  induction h with
  | @nil order last =>
    have hpositive : 0 < turnsLeft order last := by
      obtain ⟨rest, rfl⟩ := List.head?_eq_some_iff.1 hfirst
      cases last with
      | none => exact Nat.one_pos
      | some a =>
        rw [turnsLeft]
        split_ifs with ha
        · exact Nat.sub_pos_of_lt (idxOf_lt_length_of_mem ha)
        · exact Nat.one_pos
    exact absurd hlength (Nat.not_le.2 hpositive)
  | @serve order order' last served picks hpick hserves _ ih =>
    by_cases hne : first = served
    · exact hne ▸ mem_cons_self
    · have hless := turnsLeft_lt hserves hpick hfirst hne
      rw [length_cons] at hlength
      exact mem_cons_of_mem _ (ih (hserves.head hfirst hne) (by omega))

theorem Rotation.take {picks : List α} (h : Rotation order last picks) (n : ℕ) :
    Rotation order last (picks.take n) := by
  induction h generalizing n with
  | nil =>
    rw [take_nil]
    exact .nil
  | serve hpick hserves _ ih =>
    cases n with
    | zero => exact .nil
    | succ n => exact .serve hpick hserves (ih n)

/-- Someone is next while the list is not empty. -/
theorem exists_successor (hne : order ≠ []) (last : Option α) :
    ∃ next, successor order last = some next ∧ next ∈ order := by
  have hhead : ∃ next, order.head? = some next ∧ next ∈ order :=
    ⟨order.head hne, List.head?_eq_some_head hne, head_mem hne⟩
  cases last with
  | none => exact hhead
  | some a =>
    rw [successor]
    split_ifs with ha
    · have hindex := Nat.mod_lt (order.idxOf a + 1) (length_pos_iff.2 hne)
      exact ⟨_, List.getElem?_eq_getElem hindex, getElem_mem hindex⟩
    · exact hhead

end Order

end LoopOver.RoundRobin
