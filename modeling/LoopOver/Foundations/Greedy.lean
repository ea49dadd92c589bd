import Mathlib.Data.List.Nodup

/-!
# Greedy selections

`fill room` goes through a list of items and takes each one for which there is room beside those
that it has taken. It keeps them on a stack, the last one on top, so that what is given back later
is popped.

* `suffix_fill` and `mem_fill`: what was taken stays, and nothing is taken that is no item.
* `fill_nodup`: nothing is taken twice.
* **`no_room_of_not_mem`**: if a later item is still there, an item that is not was refused, and all
  that it was refused for is there.
-/

namespace LoopOver.Greedy

open List

variable {α : Type*} {room : List α → α → Bool} {stack kept items front back : List α} {a b : α}

/-- Take the items for which there is room. -/
def fill (room : List α → α → Bool) : List α → List α → List α
  | stack, [] => stack
  | stack, a :: items => fill room (if room stack a then a :: stack else stack) items

@[simp] theorem fill_nil (room : List α → α → Bool) (stack : List α) : fill room stack [] = stack :=
  rfl

theorem fill_append (room : List α → α → Bool) (stack front back : List α) :
    fill room stack (front ++ back) = fill room (fill room stack front) back := by
  induction front generalizing stack with
  | nil => rfl
  | cons a front ih => simp only [cons_append, fill, ih]

theorem suffix_fill (room : List α → α → Bool) (stack items : List α) :
    stack <:+ fill room stack items := by
  induction items generalizing stack with
  | nil => exact suffix_rfl
  | cons a items ih =>
    refine List.IsSuffix.trans ?_ (ih _)
    split
    · exact suffix_cons a stack
    · exact suffix_rfl

theorem mem_fill (h : a ∈ fill room stack items) : a ∈ stack ∨ a ∈ items := by
  induction items generalizing stack with
  | nil => exact Or.inl h
  | cons b items ih =>
    rcases ih h with htaken | hitem
    · split at htaken
      · rcases mem_cons.1 htaken with rfl | hstack
        · exact Or.inr mem_cons_self
        · exact Or.inl hstack
      · exact Or.inl htaken
    · exact Or.inr (mem_cons_of_mem _ hitem)

theorem fill_nodup (hstack : stack.Nodup) (hitems : items.Nodup)
    (hdisjoint : ∀ a ∈ items, a ∉ stack) :
    (fill room stack items).Nodup := by
  induction items generalizing stack with
  | nil => exact hstack
  | cons a items ih =>
    obtain ⟨ha, hrest⟩ := nodup_cons.1 hitems
    rw [fill]
    split
    · refine ih (nodup_cons.2 ⟨hdisjoint a mem_cons_self, hstack⟩) hrest fun b hb hmem => ?_
      rcases mem_cons.1 hmem with rfl | hmem
      · exact ha hb
      · exact hdisjoint b (mem_cons_of_mem _ hb) hmem
    · exact ih hstack hrest fun b hb => hdisjoint b (mem_cons_of_mem _ hb)

/-- What a step keeps of the stack, the selection keeps. -/
theorem fill_invariant {P : List α → Prop}
    (hstep : ∀ stack, ∀ a ∈ items, P stack → room stack a = true → P (a :: stack))
    (hstack : P stack) : P (fill room stack items) := by
  induction items generalizing stack with
  | nil => exact hstack
  | cons a items ih =>
    refine ih (fun stack b hb => hstep stack b (mem_cons_of_mem _ hb)) ?_
    split
    · next hroom => exact hstep stack a mem_cons_self hstack hroom
    · exact hstack

/-- Where there is always room, everything is taken. -/
theorem fill_eq_of_room
    (hroom : ∀ front a back, items = front ++ a :: back → room (front.reverse ++ stack) a = true) :
    fill room stack items = items.reverse ++ stack := by
  induction items generalizing stack with
  | nil => rfl
  | cons a items ih =>
    have hfirst : room stack a = true := hroom [] a items rfl
    rw [fill, if_pos hfirst, ih]
    · simp
    · intro front b back hsplit
      have hlater := hroom (a :: front) b back (by rw [hsplit, cons_append])
      simpa using hlater

/-- **Why an item is missing**: of the items on top of which others were popped, one that is missing
below a later one found no room beside those that were taken before it, and they are all there. -/
theorem no_room_of_not_mem (hnodup : (front ++ a :: back).Nodup)
    (hkept : kept <:+ fill room [] (front ++ a :: back)) (hb : b ∈ back) (hmem : b ∈ kept)
    (ha : a ∉ kept) :
    room (fill room [] front) a = false ∧ fill room [] front <:+ kept := by
  have hb' : b ∉ fill room [] (front ++ [a]) := by
    intro hfound
    rcases mem_fill hfound with hnil | hitem
    · cases hnil
    · have hperm : (front ++ [a] ++ back).Nodup := by simpa using hnodup
      exact (disjoint_of_nodup_append hperm) hitem hb
  have hbefore : fill room [] (front ++ [a]) <:+ kept := by
    have hwhole : fill room [] (front ++ [a]) <:+ fill room [] (front ++ a :: back) := by
      rw [show front ++ a :: back = front ++ [a] ++ back by simp,
        fill_append room [] (front ++ [a])]
      exact suffix_fill room _ back
    rcases suffix_or_suffix_of_suffix hkept hwhole with hshort | hlong
    · exact absurd (hshort.subset hmem) hb'
    · exact hlong
  have htop : fill room [] (front ++ [a]) =
      if room (fill room [] front) a then a :: fill room [] front else fill room [] front := by
    rw [fill_append, fill, fill_nil]
  rw [htop] at hbefore
  cases hroom : room (fill room [] front) a with
  | true =>
    rw [hroom, if_pos rfl] at hbefore
    exact absurd (hbefore.subset mem_cons_self) ha
  | false =>
    rw [hroom, if_neg Bool.false_ne_true] at hbefore
    exact ⟨rfl, hbefore⟩

end LoopOver.Greedy
