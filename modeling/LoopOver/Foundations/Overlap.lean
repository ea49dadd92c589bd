import Mathlib.Algebra.Order.Field.Rat
import Mathlib.Data.Finset.Union
import Mathlib.Data.Set.Pairwise.Basic
import Mathlib.Algebra.BigOperators.Group.Finset.Basic
import Mathlib.Tactic.FieldSimp
import Mathlib.Tactic.Linarith

/-!
# Overlap of sets

The Jaccard index of two sets is the part of their elements that they share. When every element is
written as a set of tokens, the index of the tokens may differ from the index of the elements.

* `jaccard` has two empty sets alike.
* `Separable` tokens tell elements apart: different elements share none, and have equally many, at
  least one.
* **`jaccard_tokens_iff`**: over a set of elements, tokens have the index of the elements exactly if
  they are separable.
-/

namespace LoopOver.Overlap

variable {α β : Type*} [DecidableEq α] [DecidableEq β]

def jaccard (s t : Finset α) : ℚ := if s = ∅ ∧ t = ∅ then 1 else ((s ∩ t).card : ℚ) / (s ∪ t).card

/-- The tokens of different elements are different, and equally many. -/
structure Separable (tokens : α → Finset β) (elements : Finset α) : Prop where
  disjoint : ∀ a ∈ elements, ∀ b ∈ elements, a ≠ b → Disjoint (tokens a) (tokens b)
  alike : ∀ a ∈ elements, ∀ b ∈ elements, (tokens a).card = (tokens b).card
  nonempty : ∀ a ∈ elements, ∀ b ∈ elements, a ≠ b → (tokens a).Nonempty

theorem jaccard_self (s : Finset α) : jaccard s s = 1 := by
  rw [jaccard]
  split_ifs with hempty
  · rfl
  · have hne : s.Nonempty := Finset.nonempty_iff_ne_empty.2 fun h => hempty ⟨h, h⟩
    have hcard : (s.card : ℚ) ≠ 0 := Nat.cast_ne_zero.2 (Finset.card_ne_zero.2 hne)
    rw [Finset.inter_self, Finset.union_self, div_self hcard]

theorem jaccard_of_nonempty {s : Finset α} (hs : s.Nonempty) (t : Finset α) :
    jaccard s t = ((s ∩ t).card : ℚ) / (s ∪ t).card :=
  if_neg fun h => hs.ne_empty h.1

section Tokens

variable {tokens : α → Finset β} {elements s t : Finset α}

omit [DecidableEq α] in
theorem Separable.card_biUnion (h : Separable tokens elements) {a : α} (ha : a ∈ elements)
    (hs : s ⊆ elements) :
    (s.biUnion tokens).card = s.card * (tokens a).card := by
  rw [Finset.card_biUnion fun b hb c hc hne => h.disjoint b (hs hb) c (hs hc) hne,
    Finset.sum_congr rfl fun b hb => h.alike b (hs hb) a ha, Finset.sum_const]
  rfl

/-- Shared tokens are those of shared elements. -/
theorem Separable.biUnion_inter (h : Separable tokens elements) (hs : s ⊆ elements)
    (ht : t ⊆ elements) :
    s.biUnion tokens ∩ t.biUnion tokens = (s ∩ t).biUnion tokens := by
  ext token
  simp only [Finset.mem_inter, Finset.mem_biUnion]
  constructor
  · rintro ⟨⟨a, ha, htoken⟩, b, hb, htoken'⟩
    obtain rfl : a = b := by
      by_contra hne
      exact Finset.disjoint_left.1 (h.disjoint a (hs ha) b (ht hb) hne) htoken htoken'
    exact ⟨a, ⟨ha, hb⟩, htoken⟩
  · rintro ⟨a, ⟨ha, hb⟩, htoken⟩
    exact ⟨⟨a, ha, htoken⟩, a, hb, htoken⟩

theorem Separable.jaccard_biUnion (h : Separable tokens elements) (hs : s ⊆ elements)
    (ht : t ⊆ elements) (hne : s.Nonempty) (hne' : t.Nonempty) :
    jaccard (s.biUnion tokens) (t.biUnion tokens) = jaccard s t := by
  obtain ⟨a, ha⟩ := hne
  by_cases hequal : s = t
  · rw [hequal, jaccard_self, jaccard_self]
  · -- Two sets need a second element.
    have htoken : (tokens a).Nonempty := by
      obtain ⟨b, hb, hab⟩ : ∃ b ∈ elements, a ≠ b := by
        by_contra hall
        have honly : ∀ b ∈ elements, b = a := by
          intro b hb
          by_contra hne
          exact hall ⟨b, hb, Ne.symm hne⟩
        have hsingle : ∀ u : Finset α, u ⊆ elements → u.Nonempty → u = {a} := fun u hu hne =>
          Finset.eq_singleton_iff_nonempty_unique_mem.2 ⟨hne, fun b hb => honly b (hu hb)⟩
        exact hequal ((hsingle s hs ⟨a, ha⟩).trans (hsingle t ht hne').symm)
      exact h.nonempty a (hs ha) b hb hab
    have hcard : ((tokens a).card : ℚ) ≠ 0 := Nat.cast_ne_zero.2 (Finset.card_ne_zero.2 htoken)
    have hbiUnion : (s.biUnion tokens).Nonempty :=
      ⟨_, Finset.mem_biUnion.2 ⟨a, ha, htoken.choose_spec⟩⟩
    rw [jaccard_of_nonempty hbiUnion, jaccard_of_nonempty ⟨a, ha⟩, h.biUnion_inter hs ht,
      ← Finset.union_biUnion, h.card_biUnion (hs ha) (Finset.inter_subset_left.trans hs),
      h.card_biUnion (hs ha) (Finset.union_subset hs ht), Nat.cast_mul, Nat.cast_mul,
      mul_div_mul_right _ _ hcard]

/-- Two sets with the index of different elements, which each make half of both. -/
theorem disjoint_of_halves {x y : Finset β} (hxy : jaccard x y = 0) (hx : jaccard x (x ∪ y) = 1 / 2)
    (hy : jaccard y (x ∪ y) = 1 / 2) : Disjoint x y ∧ x.card = y.card ∧ x.Nonempty := by
  have hunion : (x ∪ y).Nonempty := by
    rw [Finset.nonempty_iff_ne_empty, ne_eq, Finset.union_eq_empty]
    rintro ⟨rfl, rfl⟩
    rw [jaccard_self] at hxy
    exact one_ne_zero hxy
  have hcard : ((x ∪ y).card : ℚ) ≠ 0 := Nat.cast_ne_zero.2 (Finset.card_ne_zero.2 hunion)
  have hhalf : ∀ z ⊆ x ∪ y, jaccard z (x ∪ y) = 1 / 2 → 2 * z.card = (x ∪ y).card := by
    intro z hz hindex
    have hnot : ¬(z = ∅ ∧ x ∪ y = ∅) := fun h => hunion.ne_empty h.2
    rw [jaccard, if_neg hnot, Finset.inter_eq_left.2 hz, Finset.union_eq_right.2 hz,
      div_eq_iff hcard] at hindex
    have hcast : (2 : ℚ) * z.card = (x ∪ y).card := by linarith
    exact_mod_cast hcast
  have hleft := hhalf x Finset.subset_union_left hx
  have hright := hhalf y Finset.subset_union_right hy
  refine ⟨?_, by omega, Finset.card_pos.1 (by have := Finset.card_pos.2 hunion; omega)⟩
  rw [Finset.disjoint_iff_inter_eq_empty, ← Finset.card_eq_zero]
  have hsum := Finset.card_union_add_card_inter x y
  omega

/-- **Tokens that have the index of the elements are separable**, and conversely. -/
theorem jaccard_tokens_iff :
    (∀ s t : Finset α, s ⊆ elements → t ⊆ elements → s.Nonempty → t.Nonempty →
      jaccard (s.biUnion tokens) (t.biUnion tokens) = jaccard s t) ↔ Separable tokens elements := by
  refine ⟨fun h => ?_, fun h s t hs ht hne hne' => h.jaccard_biUnion hs ht hne hne'⟩
  have hpair : ∀ a ∈ elements, ∀ b ∈ elements, a ≠ b →
      Disjoint (tokens a) (tokens b) ∧ (tokens a).card = (tokens b).card ∧ (tokens a).Nonempty := by
    intro a ha b hb hab
    have hsubset : ({a, b} : Finset α) ⊆ elements := by
      intro c hc
      rcases Finset.mem_insert.1 hc with rfl | hc
      · exact ha
      · exact Finset.mem_singleton.1 hc ▸ hb
    have hunion : ({a, b} : Finset α).biUnion tokens = tokens a ∪ tokens b := by
      rw [Finset.biUnion_insert, Finset.singleton_biUnion]
    have hhalf : ∀ c ∈ ({a, b} : Finset α), jaccard (tokens c) (tokens a ∪ tokens b) = 1 / 2 := by
      intro c hc
      have hsingle : ({c} : Finset α) ⊆ {a, b} := Finset.singleton_subset_iff.2 hc
      have hindex := h {c} {a, b} (hsingle.trans hsubset) hsubset (Finset.singleton_nonempty c)
        (Finset.insert_nonempty a {b})
      rw [Finset.singleton_biUnion, hunion, jaccard_of_nonempty (Finset.singleton_nonempty c),
        Finset.inter_eq_left.2 hsingle, Finset.union_eq_right.2 hsingle, Finset.card_singleton,
        Finset.card_pair hab] at hindex
      exact_mod_cast hindex
    have hzero : jaccard (tokens a) (tokens b) = 0 := by
      have hindex := h {a} {b} (Finset.singleton_subset_iff.2 ha) (Finset.singleton_subset_iff.2 hb)
        (Finset.singleton_nonempty a) (Finset.singleton_nonempty b)
      rw [Finset.singleton_biUnion, Finset.singleton_biUnion,
        jaccard_of_nonempty (Finset.singleton_nonempty a),
        Finset.disjoint_iff_inter_eq_empty.1 (Finset.disjoint_singleton.2 hab), Finset.card_empty,
        Nat.cast_zero, zero_div] at hindex
      exact hindex
    exact disjoint_of_halves hzero (hhalf a (Finset.mem_insert_self a {b}))
      (hhalf b (Finset.mem_insert_of_mem (Finset.mem_singleton_self b)))
  refine ⟨fun a ha b hb hab => (hpair a ha b hb hab).1, fun a ha b hb => ?_,
    fun a ha b hb hab => (hpair a ha b hb hab).2.2⟩
  by_cases hab : a = b
  · rw [hab]
  · exact (hpair a ha b hb hab).2.1

end Tokens

end LoopOver.Overlap
