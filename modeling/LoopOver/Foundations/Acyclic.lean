import Mathlib.Logic.Relation
import Mathlib.Data.List.Basic

/-!
# Relations without cycles

* `Acyclic r`: no element is reached from itself in one step of `r` or more.
* `acyclic_of_strict` has it from a transitive and irreflexive relation above `r`.
* `Acyclic.exists_last`: in a list that is not empty, some element is related to none of the list.
* `acyclic_of_groups`: a relation has no cycle when no group of elements leads back into itself.
-/

namespace LoopOver

open List

variable {α : Type} {r s : α → α → Prop}

/-- No element is reached from itself. -/
def Acyclic (r : α → α → Prop) : Prop := ∀ a, ¬Relation.TransGen r a a

theorem acyclic_of_strict (hle : ∀ a b, r a b → s a b) (htrans : ∀ a b c, s a b → s b c → s a c)
    (hirrefl : ∀ a, ¬s a a) : Acyclic r := by
  have hreach : ∀ a b, Relation.TransGen r a b → s a b := by
    intro a b h
    induction h with
    | single h => exact hle _ _ h
    | tail _ h ih => exact htrans _ _ _ ih (hle _ _ h)
  intro a h
  exact hirrefl a (hreach a a h)

variable {items : List α}

/-- Some element of the list reaches none of the list. -/
theorem Acyclic.exists_unreaching (h : Acyclic r) (hne : items ≠ []) :
    ∃ a ∈ items, ∀ b ∈ items, ¬Relation.TransGen r a b := by
  induction items with
  | nil => exact absurd rfl hne
  | cons x items ih =>
    by_cases hitems : items = []
    · subst hitems
      refine ⟨x, mem_cons_self, fun b hb => ?_⟩
      obtain rfl := mem_singleton.1 hb
      exact h b
    · obtain ⟨a, ha, hlast⟩ := ih hitems
      by_cases hreach : Relation.TransGen r a x
      · -- what `a` does not reach, `x` does not reach either
        refine ⟨x, mem_cons_self, fun b hb hxb => ?_⟩
        rcases mem_cons.1 hb with rfl | hb
        · exact h b hxb
        · exact hlast b hb (hreach.trans hxb)
      · refine ⟨a, mem_cons_of_mem _ ha, fun b hb hab => ?_⟩
        rcases mem_cons.1 hb with rfl | hb
        · exact hreach hab
        · exact hlast b hb hab

theorem Acyclic.exists_last (h : Acyclic r) (hne : items ≠ []) :
    ∃ a ∈ items, ∀ b ∈ items, ¬r a b := by
  obtain ⟨a, ha, hlast⟩ := h.exists_unreaching hne
  exact ⟨a, ha, fun b hb hab => hlast b hb (.single hab)⟩

/-- The group of a cycle is what its first element reaches and is reached from. -/
theorem acyclic_of_groups (hitems : ∀ a b, r a b → b ∈ items)
    (h : ∀ group ⊆ items, (∀ a ∈ group, (∃ b ∈ group, r a b) ∧ ∃ b ∈ group, r b a) → group = []) :
    Acyclic r := by
  classical
  intro x hx
  have hmem : ∀ a, Relation.TransGen r x a → a ∈ items := by
    intro a ha
    obtain ⟨b, -, hba⟩ := Relation.TransGen.tail'_iff.1 ha
    exact hitems b a hba
  let group := items.filter fun a => Relation.TransGen r x a ∧ Relation.TransGen r a x
  have hgroup : ∀ a, a ∈ group ↔ Relation.TransGen r x a ∧ Relation.TransGen r a x := by
    intro a
    simp only [group, mem_filter, decide_eq_true_eq, and_iff_right_iff_imp]
    exact fun ha => hmem a ha.1
  have hnil : group = [] := by
    refine h group (fun a ha => (mem_filter.1 ha).1) fun a ha => ?_
    obtain ⟨hxa, hax⟩ := (hgroup a).1 ha
    constructor
    · obtain ⟨b, hab, hbx⟩ := Relation.TransGen.head'_iff.1 hax
      exact ⟨b, (hgroup b).2 ⟨hxa.tail hab, Relation.TransGen.trans_right hbx hx⟩, hab⟩
    · obtain ⟨b, hxb, hba⟩ := Relation.TransGen.tail'_iff.1 hxa
      exact ⟨b, (hgroup b).2 ⟨Relation.TransGen.trans_left hx hxb, hax.head hba⟩, hba⟩
  have hself : x ∈ group := (hgroup x).2 ⟨hx, hx⟩
  rw [hnil] at hself
  exact not_mem_nil hself

end LoopOver
