import LoopOver.Foundations.Acyclic
import LoopOver.Review.MergeTrain

/-!
# Who waits for whom in the merge train

Every open pull request asks `shouldWaitForOlderSiblings` with the others as its siblings. The order
of two pull requests is that of their creation times where both are known, and that of their numbers
otherwise (`OpenedBefore`): for three of them it need not be transitive.

* `Inverted` is the one way in which it is not: two creation times go against the numbers, and a
  number between the two has no creation time.
* `Knot`: a group of pull requests that could all still merge, each of which overlaps with an older
  one of the group.
* **`merge_train_moves_iff`**: open pull requests wait for each other in a cycle exactly when some
  knot of them has an inverted triple.
* `merge_train_deadlock` is a cycle of three.
-/

namespace LoopOver

open List

variable {rt : Runtime}

/-! ## The question of one pull request -/

/-- The question whether `pr` waits, with the other open pull requests as siblings. -/
def trainInput (prs : List MergeTrainSibling) (nowMs : ℤ) (pr : MergeTrainSibling) :
    ShouldWaitForOlderSiblingsInput where
  thisPrNumber := pr.number
  thisPrCreatedAt := pr.createdAt
  thisPrLinkedIssues := pr.linkedIssues
  thisPrChangedFiles := pr.changedFiles
  siblings := prs.filter fun other => other.number != pr.number
  nowMs := nowMs

/-- The siblings that the decision waits for. -/
def MergeTrainDecision.queueAhead : MergeTrainDecision → List ℕ
  | .wait _ queueAhead => queueAhead
  | .go => []

theorem mem_queueAhead {input : ShouldWaitForOlderSiblingsInput} {number : ℕ} :
    number ∈ (shouldWaitForOlderSiblings rt input).queueAhead ↔
      ∃ sibling ∈ input.siblings, mergeTrainBlocks rt input sibling = true ∧
        sibling.number = number := by
  have hqueue : (shouldWaitForOlderSiblings rt input).queueAhead =
      ((input.siblings.filter (mergeTrainBlocks rt input)).insertionSort
        fun a b => a.number ≤ b.number).map MergeTrainSibling.number := by
    rw [shouldWaitForOlderSiblings]
    split
    · next h => rw [h]; rfl
    · rfl
  rw [hqueue]
  simp only [mem_map, mem_insertionSort, mem_filter]
  constructor
  · rintro ⟨sibling, ⟨hmem, hblocks⟩, hnumber⟩
    exact ⟨sibling, hmem, hblocks, hnumber⟩
  · rintro ⟨sibling, hmem, hblocks, hnumber⟩
    exact ⟨sibling, ⟨hmem, hblocks⟩, hnumber⟩

/-- `pr` waits for `sibling`. -/
def WaitsFor (rt : Runtime) (prs : List MergeTrainSibling) (nowMs : ℤ)
    (pr sibling : MergeTrainSibling) :
    Prop :=
  pr ∈ prs ∧ sibling ∈ prs ∧
    sibling.number ∈ (shouldWaitForOlderSiblings rt (trainInput prs nowMs pr)).queueAhead

/-- Nobody waits in a cycle, and so not everybody waits. -/
structure TrainMoves (rt : Runtime) (prs : List MergeTrainSibling) (nowMs : ℤ) : Prop where
  acyclic : Acyclic (WaitsFor rt prs nowMs)
  someone_goes : prs ≠ [] →
    ∃ pr ∈ prs, shouldWaitForOlderSiblings rt (trainInput prs nowMs pr) = .go

/-! ## The order of two pull requests -/

/-- What the order reads of a pull request: its number and its creation time. -/
abbrev Opening : Type := ℕ × Option String

def MergeTrainSibling.opening (pr : MergeTrainSibling) : Opening := (pr.number, pr.createdAt)

/-- Earlier by creation time, or by number where a time is unknown or the times are equal. -/
def OpenedBefore (rt : Runtime) (a b : Opening) : Prop :=
  match createdMs rt a.2, createdMs rt b.2 with
  | some s, some t => s < t ∨ s = t ∧ a.1 < b.1
  | _, _ => a.1 < b.1

theorem isOlder_iff (prs : List MergeTrainSibling) (nowMs : ℤ) {pr sibling : MergeTrainSibling} :
    isOlder rt (trainInput prs nowMs pr) sibling = true ↔
      OpenedBefore rt sibling.opening pr.opening := by
  unfold isOlder OpenedBefore trainInput MergeTrainSibling.opening
  dsimp only
  cases createdMs rt sibling.createdAt with
  | none => simp
  | some s =>
    cases createdMs rt pr.createdAt with
    | none => simp
    | some t =>
      by_cases h : s = t
      · simp [h]
      · simp [h]

/-- The creation times of `a` and `c` go against their numbers, and the number of `b` between theirs
has no creation time. -/
structure Inverted (rt : Runtime) (a b c : Opening) : Prop where
  lower : a.1 < b.1
  upper : b.1 < c.1
  unknown : createdMs rt b.2 = none
  against : ∃ s t, createdMs rt a.2 = some s ∧ createdMs rt c.2 = some t ∧ t < s

section Order

variable {a b c : Opening}

theorem openedBefore_of_unknown (h : createdMs rt a.2 = none ∨ createdMs rt b.2 = none) :
    OpenedBefore rt a b ↔ a.1 < b.1 := by
  unfold OpenedBefore
  rcases h with h | h
  · simp [h]
  · cases createdMs rt a.2 <;> simp [h]

theorem openedBefore_of_known {s t : ℤ} (ha : createdMs rt a.2 = some s)
    (hb : createdMs rt b.2 = some t) :
    OpenedBefore rt a b ↔ s < t ∨ s = t ∧ a.1 < b.1 := by
  simp [OpenedBefore, ha, hb]

theorem openedBefore_irrefl (a : Opening) : ¬OpenedBefore rt a a := by
  cases h : createdMs rt a.2 with
  | none => simp [openedBefore_of_unknown (Or.inl h)]
  | some s => simp [openedBefore_of_known h h]

/-- Pull requests that the number identifies have other numbers when their creation times differ. -/
theorem number_ne_of_createdMs (rt : Runtime) (hac : a.1 = c.1 → a = c)
    (h : createdMs rt a.2 ≠ createdMs rt c.2) : a.1 ≠ c.1 := by
  intro heq
  rw [hac heq] at h
  exact h rfl

/-- The order is transitive where nothing is inverted. -/
theorem openedBefore_trans (hab : OpenedBefore rt a b) (hbc : OpenedBefore rt b c)
    (hac : a.1 = c.1 → a = c) (h₁ : ¬Inverted rt a b c) (h₂ : ¬Inverted rt c a b)
    (h₃ : ¬Inverted rt b c a) : OpenedBefore rt a c := by
  cases ha : createdMs rt a.2 with
  | none =>
    rw [openedBefore_of_unknown (Or.inl ha)] at hab ⊢
    cases hb : createdMs rt b.2 with
    | none =>
      rw [openedBefore_of_unknown (Or.inl hb)] at hbc
      omega
    | some s =>
      cases hc : createdMs rt c.2 with
      | none =>
        rw [openedBefore_of_unknown (Or.inr hc)] at hbc
        omega
      | some t =>
        rw [openedBefore_of_known hb hc] at hbc
        by_contra hnot
        have hne : a.1 ≠ c.1 := number_ne_of_createdMs rt hac (by simp [ha, hc])
        rcases hbc with hlt | ⟨-, hlt⟩
        · exact h₂ ⟨by omega, hab, ha, t, s, hc, hb, hlt⟩
        · omega
  | some s =>
    cases hb : createdMs rt b.2 with
    | none =>
      rw [openedBefore_of_unknown (Or.inr hb)] at hab
      rw [openedBefore_of_unknown (Or.inl hb)] at hbc
      cases hc : createdMs rt c.2 with
      | none =>
        rw [openedBefore_of_unknown (Or.inr hc)]
        omega
      | some t =>
        rw [openedBefore_of_known ha hc]
        by_contra hnot
        have hlt : t < s := by omega
        exact h₁ ⟨hab, hbc, hb, s, t, ha, hc, hlt⟩
    | some t =>
      rw [openedBefore_of_known ha hb] at hab
      cases hc : createdMs rt c.2 with
      | none =>
        rw [openedBefore_of_unknown (Or.inr hc)] at hbc ⊢
        by_contra hnot
        have hne : a.1 ≠ c.1 := number_ne_of_createdMs rt hac (by simp [ha, hc])
        rcases hab with hlt | ⟨-, hlt⟩
        · exact h₃ ⟨hbc, by omega, hc, t, s, hb, ha, hlt⟩
        · omega
      | some u =>
        rw [openedBefore_of_known hb hc] at hbc
        rw [openedBefore_of_known ha hc]
        omega

end Order

/-! ## Cycles -/

/-- The pull request could still merge: it is neither conflicted nor held nor a draft, and not open
for too long. -/
def couldMerge (rt : Runtime) (nowMs : ℤ) (pr : MergeTrainSibling) : Bool :=
  pr.mergeableState != some "dirty" && !pr.heldForManualReview &&
    (!pr.isDraft && pr.mergeableState != some "draft") && withinMaxWait rt nowMs pr

/-- A group of pull requests that could all still merge, each of which overlaps with an older one of
the group. -/
structure Knot (rt : Runtime) (nowMs : ℤ) (group : List MergeTrainSibling) : Prop where
  couldMerge : ∀ pr ∈ group, couldMerge rt nowMs pr = true
  older : ∀ pr ∈ group, ∃ older ∈ group,
    overlaps rt pr.linkedIssues pr.changedFiles older = true ∧
      OpenedBefore rt older.opening pr.opening

section Cycles

variable {prs group : List MergeTrainSibling} {nowMs : ℤ} {pr sibling : MergeTrainSibling}

/-- The filters of the source, without the order in which it applies them. -/
theorem mergeTrainBlocks_iff : mergeTrainBlocks rt (trainInput prs nowMs pr) sibling = true ↔
    sibling.number ≠ pr.number ∧ couldMerge rt nowMs sibling = true ∧
      overlaps rt pr.linkedIssues pr.changedFiles sibling = true ∧
        OpenedBefore rt sibling.opening pr.opening := by
  rw [← isOlder_iff prs nowMs, mergeTrainBlocks, couldMerge]
  simp only [Bool.and_eq_true, bne_iff_ne, trainInput]
  tauto

/-- Among pull requests that the number identifies, `pr` waits for those that block it. -/
theorem waitsFor_iff (hnodup : (prs.map MergeTrainSibling.number).Nodup) :
    WaitsFor rt prs nowMs pr sibling ↔ (pr ∈ prs ∧ sibling ∈ prs) ∧
      couldMerge rt nowMs sibling = true ∧
        overlaps rt pr.linkedIssues pr.changedFiles sibling = true ∧
          OpenedBefore rt sibling.opening pr.opening := by
  constructor
  · rintro ⟨hpr, hsibling, hqueue⟩
    obtain ⟨found, hfound, hblocks, hnumber⟩ := mem_queueAhead.1 hqueue
    have hmem : found ∈ prs := (mem_filter.1 hfound).1
    obtain rfl := inj_on_of_nodup_map hnodup hmem hsibling hnumber
    exact ⟨⟨hpr, hsibling⟩, (mergeTrainBlocks_iff.1 hblocks).2⟩
  · rintro ⟨⟨hpr, hsibling⟩, hrest⟩
    have hother : sibling.number ≠ pr.number := by
      intro heq
      obtain rfl := inj_on_of_nodup_map hnodup hsibling hpr heq
      exact openedBefore_irrefl _ hrest.2.2
    refine ⟨hpr, hsibling, mem_queueAhead.2
      ⟨sibling, ?_, mergeTrainBlocks_iff.2 ⟨hother, hrest⟩, rfl⟩⟩
    exact mem_filter.2 ⟨hsibling, by simpa using hother⟩

/-- A knot without an inverted triple is empty: the order is transitive on it, and so one of its
pull requests is the oldest. -/
theorem Knot.eq_nil (h : Knot rt nowMs group)
    (hnumber : ∀ a ∈ group, ∀ b ∈ group, a.number = b.number → a = b)
    (hno : ∀ a ∈ group, ∀ b ∈ group, ∀ c ∈ group, ¬Inverted rt a.opening b.opening c.opening) :
    group = [] := by
  have hacyclic : Acyclic fun a b : MergeTrainSibling =>
      a ∈ group ∧ b ∈ group ∧ OpenedBefore rt b.opening a.opening := by
    refine acyclic_of_strict (fun a b hab => hab) ?_ ?_
    · rintro a b c ⟨ha, hb, hba⟩ ⟨-, hc, hcb⟩
      refine ⟨ha, hc, openedBefore_trans hcb hba ?_ (hno c hc b hb a ha) (hno a ha c hc b hb)
        (hno b hb a ha c hc)⟩
      intro heq
      rw [hnumber c hc a ha heq]
    · rintro a ⟨-, -, ha⟩
      exact openedBefore_irrefl _ ha
  by_contra hne
  obtain ⟨pr, hpr, hlast⟩ := hacyclic.exists_last hne
  obtain ⟨older, holder, -, hbefore⟩ := h.older pr hpr
  exact hlast older holder ⟨hpr, holder, hbefore⟩

/-- In a train without cycles there is no knot: each of its pull requests would wait for another. -/
theorem Knot.eq_nil_of_acyclic (h : Knot rt nowMs group)
    (hnodup : (prs.map MergeTrainSibling.number).Nodup) (hsub : group ⊆ prs)
    (hacyclic : Acyclic (WaitsFor rt prs nowMs)) : group = [] := by
  by_contra hne
  obtain ⟨pr, hpr, hlast⟩ := hacyclic.exists_last hne
  obtain ⟨older, holder, hoverlaps, hbefore⟩ := h.older pr hpr
  exact hlast older holder ((waitsFor_iff hnodup).2
    ⟨⟨hsub hpr, hsub holder⟩, h.couldMerge older holder, hoverlaps, hbefore⟩)

/-- Without a cycle somebody goes. -/
theorem trainMoves_of_acyclic (hnodup : (prs.map MergeTrainSibling.number).Nodup)
    (hacyclic : Acyclic (WaitsFor rt prs nowMs)) : TrainMoves rt prs nowMs := by
  refine ⟨hacyclic, fun hne => ?_⟩
  obtain ⟨pr, hpr, hlast⟩ := hacyclic.exists_last hne
  refine ⟨pr, hpr, (shouldWaitForOlderSiblings_eq_go_iff rt _).2 fun sibling hsibling => ?_⟩
  have hmem : sibling ∈ prs := (mem_filter.1 hsibling).1
  by_contra hblocks
  have hrest := (mergeTrainBlocks_iff.1 (Bool.not_eq_false _ ▸ hblocks)).2
  exact hlast sibling hmem ((waitsFor_iff hnodup).2 ⟨⟨hpr, hmem⟩, hrest⟩)

end Cycles

/-- **The train moves exactly when no knot of its pull requests is inverted.** -/
theorem merge_train_moves_iff (rt : Runtime) (prs : List MergeTrainSibling) (nowMs : ℤ)
    (hnodup : (prs.map MergeTrainSibling.number).Nodup) :
    TrainMoves rt prs nowMs ↔ ∀ group ⊆ prs, Knot rt nowMs group →
      ∀ a ∈ group, ∀ b ∈ group, ∀ c ∈ group, ¬Inverted rt a.opening b.opening c.opening := by
  constructor
  · intro h group hsub hknot a ha
    rw [hknot.eq_nil_of_acyclic hnodup hsub h.acyclic] at ha
    exact absurd ha not_mem_nil
  · intro h
    refine trainMoves_of_acyclic hnodup (acyclic_of_groups
      (fun a b hab => ((waitsFor_iff hnodup).1 hab).1.2) fun group hsub hgroup => ?_)
    have hknot : Knot rt nowMs group := by
      constructor
      · intro pr hpr
        obtain ⟨waiting, -, hwaits⟩ := (hgroup pr hpr).2
        exact ((waitsFor_iff hnodup).1 hwaits).2.1
      · intro pr hpr
        obtain ⟨older, holder, hwaits⟩ := (hgroup pr hpr).1
        exact ⟨older, holder, ((waitsFor_iff hnodup).1 hwaits).2.2⟩
    exact hknot.eq_nil (fun a ha b hb => inj_on_of_nodup_map hnodup (hsub ha) (hsub hb))
      (h group hsub hknot)

/-- An open pull request for the issue 1. -/
def contender (opening : Opening) : MergeTrainSibling where
  number := opening.1
  createdAt := opening.2
  linkedIssues := [1]

/-- Reads the hour of a time on the seventh of July. -/
def trainRuntime : Runtime :=
  { asciiRuntime with
    dateParse := fun text => if text = "2026-07-07T10:00:00.000Z" then some 1783418400000
      else if text = "2026-07-07T11:00:00.000Z" then some 1783422000000 else none }

/-- With a draft for the middle one, the three inverted pull requests are no knot. -/
theorem merge_train_moves_draft :
    TrainMoves trainRuntime [contender (1, some "2026-07-07T11:00:00.000Z"),
      { contender (2, none) with isDraft := true },
      contender (3, some "2026-07-07T10:00:00.000Z")] 1783425600000 := by
  refine (merge_train_moves_iff trainRuntime _ _ (by decide)).2 ?_
  rintro group hsub hknot a - b hb c - ⟨-, -, hunknown, -⟩
  -- the one without a creation time is the draft, and no draft is in a knot
  have hmerge := hknot.couldMerge b hb
  have hmem := hsub hb
  simp only [mem_cons, not_mem_nil, or_false] at hmem
  rcases hmem with rfl | rfl | rfl
  · exact absurd hunknown (by decide)
  · exact absurd hmerge (by decide)
  · exact absurd hunknown (by decide)

/-- The three pull requests of a cycle: the first has the later creation time, the third the earlier
one, and the second none. -/
def deadlocked : List MergeTrainSibling :=
  [(1, some "2026-07-07T11:00:00.000Z"), (2, none),
    (3, some "2026-07-07T10:00:00.000Z")].map contender

theorem merge_train_deadlock :
    (deadlocked.map MergeTrainSibling.number).Nodup ∧
      ¬Acyclic (WaitsFor trainRuntime deadlocked 1783425600000) ∧
      ∀ pr ∈ deadlocked, shouldWaitForOlderSiblings trainRuntime
        (trainInput deadlocked 1783425600000 pr) ≠ .go := by
  refine ⟨by decide, fun hacyclic => ?_, by decide⟩
  have hwaits : WaitsFor trainRuntime deadlocked 1783425600000
        (contender (1, some "2026-07-07T11:00:00.000Z"))
        (contender (3, some "2026-07-07T10:00:00.000Z")) ∧
      WaitsFor trainRuntime deadlocked 1783425600000
        (contender (3, some "2026-07-07T10:00:00.000Z")) (contender (2, none)) ∧
      WaitsFor trainRuntime deadlocked 1783425600000 (contender (2, none))
        (contender (1, some "2026-07-07T11:00:00.000Z")) := by
    unfold WaitsFor
    decide
  obtain ⟨hfirst, hthird, hsecond⟩ := hwaits
  exact hacyclic _ (((Relation.TransGen.single hfirst).tail hthird).tail hsecond)

end LoopOver
