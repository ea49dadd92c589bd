import LoopOver.Foundations.RoundRobin
import LoopOver.Queue.Rows
import Mathlib.Data.List.Dedup
import Mathlib.Data.List.Induction
import Mathlib.Data.List.MinMax
import Mathlib.Data.List.Sort
import Mathlib.Data.String.Basic
import Mathlib.Tactic.Linarith

/-!
# Whose backlog is claimed next

The backlog lane of the foreground queue goes round the repositories
(`src/selfhost/queue-fairness.ts`). The candidates are the repositories that pending rows name in
their keys, each with the age of its oldest row. They are sorted by this age, and the next is the
one behind the last one that was claimed.

* `backlogRepoCandidatesFromJobKeys` and `pickBacklogRepo` are the two functions; `backlogOrder` is
  the sorted list.
* `backlogOrder_serves`: a claim moves the claimed repository back, or takes it out, and keeps the
  order of the others.
* **`stalest_picked`**: the repository that is stalest at the start is picked within as many claims
  as there are repositories.

`localeCompare` is the one of the host, a consistent comparison. Repositories that are not told
apart by age and name come in the order of their first rows, since the sort is stable.
-/

namespace LoopOver.Queue

open List RoundRobin

/-! ## Claims -/

/-- The key of a pending row and its `created_at`. -/
abbrev BacklogRow : Type := Option String × ℚ

def repoOfRow (row : BacklogRow) : Option String := backlogRepoOfKey row.1

def rowAge (nowMs : ℚ) (row : BacklogRow) : ℚ := max 0 (nowMs - row.2)

/-- How the host compares names: consistently. -/
structure Collation where
  localeLe : String → String → Bool
  trans : ∀ a b c, localeLe a b = true → localeLe b c = true → localeLe a c = true
  total : ∀ a b, localeLe a b = true ∨ localeLe b a = true

variable (collation : Collation)

/-- The row is a repository's oldest. -/
structure OldestRow (rows : List BacklogRow) (repo : String) (row : BacklogRow) : Prop where
  mem : row ∈ rows
  named : repoOfRow row = some repo
  oldest : ∀ other ∈ rows, repoOfRow other = some repo → row.2 ≤ other.2

/-- The claims that go on from the `k`-th, each at its time, with no rows arriving: what is picked,
and what is left. -/
inductive BacklogClaims (clock : ℕ → ℚ) :
    ℕ → List BacklogRow → Option String → List String → List BacklogRow → Option String → Prop
  | nil {k : ℕ} {rows : List BacklogRow} {last : Option String} :
      BacklogClaims clock k rows last [] rows last
  | claim {k : ℕ} {rows left : List BacklogRow} {last last' : Option String} {repo : String}
      {picks : List String}
      {row : BacklogRow}
      (hpick : pickBacklogRepo collation.localeLe (backlogRepoCandidatesFromJobKeys rows (clock k))
        last = some repo)
      (hrow : OldestRow rows repo row)
        (hrest : BacklogClaims clock (k + 1) (rows.erase row) (some repo) picks left last') :
      BacklogClaims clock k rows last (repo :: picks) left last'

/-- The ages of rows are ordered alike at all claims. -/
def SteadyAges (clock : ℕ → ℚ) (rows : List BacklogRow) : Prop :=
  ∀ k, ∀ a ∈ rows, ∀ b ∈ rows, rowAge (clock k) a ≤ rowAge (clock k) b ↔
    rowAge (clock 0) a ≤ rowAge (clock 0) b

/-- The repository has the greatest age of an oldest pending row, and the first name of those that
have it. -/
def IsStalest (candidates : List BacklogRepoCandidate) (repo : String) : Prop :=
  ∃ stalest ∈ candidates, stalest.repo = repo ∧ ∀ other ∈ candidates, other.repo ≠ repo →
    other.oldestPendingAgeMs < stalest.oldestPendingAgeMs ∨
      (other.oldestPendingAgeMs = stalest.oldestPendingAgeMs ∧
        collation.localeLe other.repo repo = false)

/-! ## The candidates, by their names -/

/-- The repositories in the order of their first rows. -/
def backlogRepos (rows : List BacklogRow) : List String :=
  (rows.filterMap repoOfRow).reverse.dedup.reverse

def oldestAge (rows : List BacklogRow) (nowMs : ℚ) (repo : String) : ℚ :=
  ((rows.filter fun row => repoOfRow row = some repo).map (rowAge nowMs)).foldr max 0

section Candidates

variable {rows : List BacklogRow} {nowMs : ℚ} {repo a b : String} {row : BacklogRow}

theorem mem_backlogRepos : repo ∈ backlogRepos rows ↔ ∃ row ∈ rows, repoOfRow row = some repo := by
  rw [backlogRepos, mem_reverse, mem_dedup, mem_reverse, mem_filterMap]

theorem nodup_backlogRepos (rows : List BacklogRow) : (backlogRepos rows).Nodup :=
  nodup_reverse.2 (nodup_dedup _)

theorem backlogRepos_concat_none (h : repoOfRow row = none) :
    backlogRepos (rows ++ [row]) = backlogRepos rows := by
  rw [backlogRepos, filterMap_append, filterMap_cons_none h, filterMap_nil, append_nil]
  rfl

theorem backlogRepos_concat_some (h : repoOfRow row = some repo) :
    backlogRepos (rows ++ [row]) = if repo ∈ backlogRepos rows then backlogRepos rows
      else backlogRepos rows ++ [repo] := by
  rw [backlogRepos, filterMap_append, filterMap_cons_some h, filterMap_nil, reverse_append,
    reverse_singleton, singleton_append]
  have hmem : repo ∈ backlogRepos rows ↔ repo ∈ (rows.filterMap repoOfRow).reverse := by
    rw [backlogRepos, mem_reverse, mem_dedup]
  split_ifs with hrepo
  · rw [dedup_cons_of_mem (hmem.1 hrepo)]
    rfl
  · rw [dedup_cons_of_notMem (mt hmem.2 hrepo), reverse_cons]
    rfl

theorem rowAge_nonneg (nowMs : ℚ) (row : BacklogRow) : 0 ≤ rowAge nowMs row := le_max_left _ _

theorem rowAge_le_oldestAge (hrow : row ∈ rows) (hrepo : repoOfRow row = some repo) :
    rowAge nowMs row ≤ oldestAge rows nowMs repo := by
  rw [oldestAge]
  have hmem : rowAge nowMs row ∈ (rows.filter fun row => repoOfRow row = some repo).map
      (rowAge nowMs) :=
    mem_map_of_mem (mem_filter.2 ⟨hrow, decide_eq_true hrepo⟩)
  generalize (rows.filter fun row => repoOfRow row = some repo).map (rowAge nowMs) = ages at hmem
  induction ages with
  | nil => cases hmem
  | cons age ages ih =>
    rcases mem_cons.1 hmem with heq | hmem
    · exact heq ▸ le_max_left _ _
    · exact (ih hmem).trans (le_max_right _ _)

/-- The age is that of a row. -/
theorem exists_oldestAge (nowMs : ℚ) (hrepo : repo ∈ backlogRepos rows) :
    ∃ row ∈ rows, repoOfRow row = some repo ∧ oldestAge rows nowMs repo = rowAge nowMs row := by
  obtain ⟨some', hsome, hnamed⟩ := mem_backlogRepos.1 hrepo
  have hmax : ∀ ages : List ℚ, (∀ age ∈ ages, 0 ≤ age) → ages ≠ [] → ages.foldr max 0 ∈ ages := by
    intro ages
    induction ages with
    | nil => exact fun _ hne => absurd rfl hne
    | cons age ages ih =>
      intro hnonneg _
      rw [foldr_cons]
      rcases max_choice age (ages.foldr max 0) with hage | hrest
      · rw [hage]
        exact mem_cons_self
      · by_cases hnil : ages = []
        · subst hnil
          rw [foldr_nil, max_eq_left (hnonneg age mem_cons_self)]
          exact mem_cons_self
        · rw [hrest]
          exact mem_cons_of_mem _ (ih (fun x hx => hnonneg x (mem_cons_of_mem _ hx)) hnil)
  have hmem := hmax ((rows.filter fun row => repoOfRow row = some repo).map (rowAge nowMs)) ?_ ?_
  · obtain ⟨row, hrow, hage⟩ := mem_map.1 hmem
    obtain ⟨hrow, hrepo⟩ := mem_filter.1 hrow
    exact ⟨row, hrow, of_decide_eq_true hrepo, hage.symm⟩
  · intro age hage
    obtain ⟨row, -, rfl⟩ := mem_map.1 hage
    exact rowAge_nonneg nowMs row
  · exact ne_nil_of_mem (mem_map_of_mem (mem_filter.2 ⟨hsome, decide_eq_true hnamed⟩))

theorem oldestAge_concat (rows : List BacklogRow) (row : BacklogRow) (nowMs : ℚ) (repo : String) :
    oldestAge (rows ++ [row]) nowMs repo =
      if repoOfRow row = some repo then max (oldestAge rows nowMs repo) (rowAge nowMs row)
      else oldestAge rows nowMs repo := by
  have hfold : ∀ (ages : List ℚ) (age : ℚ), 0 ≤ age →
      (ages ++ [age]).foldr max 0 = max (ages.foldr max 0) age := by
    intro ages age hage
    induction ages with
    | nil => exact max_comm age 0
    | cons first ages ih => rw [cons_append, foldr_cons, foldr_cons, ih, max_assoc]
  rw [oldestAge, filter_append, map_append]
  split_ifs with hnamed
  · rw [filter_singleton, decide_eq_true hnamed]
    exact hfold _ _ (rowAge_nonneg nowMs row)
  · rw [filter_singleton, decide_eq_false hnamed]
    exact congrArg (List.foldr max 0) (append_nil _)

theorem oldestAge_of_not_mem (h : repo ∉ backlogRepos rows) : oldestAge rows nowMs repo = 0 := by
  have hfilter : (rows.filter fun row => repoOfRow row = some repo) = [] :=
    filter_eq_nil_iff.2 fun row hrow hnamed =>
      h (mem_backlogRepos.2 ⟨row, hrow, of_decide_eq_true hnamed⟩)
  rw [oldestAge, hfilter]
  rfl

/-- The candidates are the repositories, each with its oldest age. -/
theorem candidates_eq (rows : List BacklogRow) (nowMs : ℚ) :
    backlogRepoCandidatesFromJobKeys rows nowMs =
      (backlogRepos rows).map fun repo => ⟨repo, oldestAge rows nowMs repo⟩ := by
  induction rows using List.reverseRecOn with
  | nil => rfl
  | append_singleton rows row ih =>
    rw [backlogRepoCandidatesFromJobKeys] at ih ⊢
    rw [foldl_concat, ih]
    simp only [oldestAge_concat]
    cases hrepo : repoOfRow row with
    | none =>
      have hkey : backlogRepoOfKey row.1 = none := hrepo
      rw [backlogRepos_concat_none hrepo, hkey]
      simp only [reduceCtorEq, if_false]
    | some repo =>
      have hkey : backlogRepoOfKey row.1 = some repo := hrepo
      have hany : ((backlogRepos rows).map fun name =>
          (⟨name, oldestAge rows nowMs name⟩ : BacklogRepoCandidate)).any (·.repo = repo) = true ↔
            repo ∈ backlogRepos rows := by
        simp [any_map, Function.comp_def]
      rw [backlogRepos_concat_some hrepo, hkey]
      simp only [Option.some_inj]
      by_cases hmem : repo ∈ backlogRepos rows
      · rw [if_pos (hany.2 hmem), if_pos hmem, map_map]
        refine map_congr_left fun name _ => ?_
        by_cases hname : name = repo
        · subst hname
          simp [rowAge]
        · rw [if_neg (Ne.symm hname)]
          exact if_neg hname
      · rw [if_neg (mt hany.1 hmem), if_neg hmem, map_append, map_singleton, if_pos rfl,
          oldestAge_of_not_mem hmem, max_eq_right (rowAge_nonneg nowMs row)]
        congr 1
        refine map_congr_left fun name hname => ?_
        have hne : repo ≠ name := fun h => hmem (h ▸ hname)
        rw [if_neg hne]

end Candidates

/-! ## The order of the repositories -/

section Order

variable {rows rows' : List BacklogRow} {nowMs : ℚ} {a b repo : String} {row : BacklogRow}

/-- `sorted.map(candidate => candidate.repo)`. -/
def backlogOrder (rows : List BacklogRow) (nowMs : ℚ) : List String :=
  ((backlogRepoCandidatesFromJobKeys rows nowMs).insertionSort fun a b =>
    b.oldestPendingAgeMs < a.oldestPendingAgeMs ∨
      a.oldestPendingAgeMs = b.oldestPendingAgeMs ∧
        collation.localeLe a.repo b.repo = true).map (·.repo)

/-- Not after, by age and name. -/
def NotAfter (rows : List BacklogRow) (nowMs : ℚ) (a b : String) : Prop :=
  oldestAge rows nowMs b < oldestAge rows nowMs a ∨
    oldestAge rows nowMs a = oldestAge rows nowMs b ∧ collation.localeLe a b = true

instance (rows : List BacklogRow) (nowMs : ℚ) :
    DecidableRel (NotAfter collation rows nowMs) := fun _ _ =>
  inferInstanceAs (Decidable (_ ∨ _))

/-- A row of the first is in front of all rows of the second. -/
def EarlierIn (rows : List BacklogRow) (a b : String) : Prop :=
  ∃ front back, rows = front ++ back ∧ (∃ row ∈ front, repoOfRow row = some a) ∧
    ∀ row ∈ front, repoOfRow row ≠ some b

instance : IsTrans String (NotAfter collation rows nowMs) where
  trans a b c := by
    rintro (hab | ⟨hab, hname⟩) (hbc | ⟨hbc, hname'⟩)
    · exact Or.inl (hbc.trans hab)
    · exact Or.inl (hbc ▸ hab)
    · exact Or.inl (hab ▸ hbc)
    · exact Or.inr ⟨hab.trans hbc, collation.trans a b c hname hname'⟩

instance : Std.Total (NotAfter collation rows nowMs) where
  total a b := by
    rcases lt_trichotomy (oldestAge rows nowMs a) (oldestAge rows nowMs b) with hless |
      hsame | hmore
    · exact Or.inr (Or.inl hless)
    · rcases collation.total a b with hname | hname
      · exact Or.inl (Or.inr ⟨hsame, hname⟩)
      · exact Or.inr (Or.inr ⟨hsame.symm, hname⟩)
    · exact Or.inl (Or.inl hmore)

theorem backlogOrder_eq (rows : List BacklogRow) (nowMs : ℚ) :
    backlogOrder collation rows nowMs = (backlogRepos rows).insertionSort
      (NotAfter collation rows nowMs) := by
  have hsort := map_insertionSort (r := NotAfter collation rows nowMs)
    (s := fun a b : BacklogRepoCandidate => b.oldestPendingAgeMs < a.oldestPendingAgeMs ∨
      a.oldestPendingAgeMs = b.oldestPendingAgeMs ∧ collation.localeLe a.repo b.repo = true)
    (fun repo => ⟨repo, oldestAge rows nowMs repo⟩) (backlogRepos rows) fun _ _ _ _ => Iff.rfl
  rw [backlogOrder, candidates_eq, ← hsort, map_map]
  exact map_id _

theorem mem_backlogOrder : repo ∈ backlogOrder collation rows nowMs ↔ repo ∈ backlogRepos rows := by
  rw [backlogOrder_eq, mem_insertionSort]

theorem nodup_backlogOrder (rows : List BacklogRow) (nowMs : ℚ) :
    (backlogOrder collation rows nowMs).Nodup := by
  rw [backlogOrder_eq]
  exact (perm_insertionSort _ _).nodup_iff.2 (nodup_backlogRepos rows)

theorem successor_map (sorted : List BacklogRepoCandidate) (last : Option String) :
    let next := match last with
      | none => 0
      | some last => match sorted.findIdx? (·.repo = last) with
        | none => 0
        | some index => index + 1
    (sorted[next % sorted.length]?).map (·.repo) = successor (sorted.map (·.repo)) last := by
  have hmod : ∀ n, (sorted[n % sorted.length]?).map (·.repo) =
      (sorted.map (·.repo))[n % (sorted.map (·.repo)).length]? := by
    intro n
    rw [length_map, List.getElem?_map]
  have hfirst : (sorted[0 % sorted.length]?).map (·.repo) = (sorted.map (·.repo)).head? := by
    rw [hmod, Nat.zero_mod, List.head?_eq_getElem?]
  cases last with
  | none => exact hfirst
  | some last =>
    rw [successor]
    dsimp only
    cases hfound : sorted.findIdx? (·.repo = last) with
    | none =>
      have hnot : last ∉ sorted.map (·.repo) := by
        intro hmem
        obtain ⟨candidate, hcandidate, rfl⟩ := mem_map.1 hmem
        exact absurd (List.findIdx?_eq_none_iff.1 hfound candidate hcandidate) (by simp)
      rw [if_neg hnot]
      exact hfirst
    | some index =>
      obtain ⟨hindex, hfind⟩ := List.findIdx?_eq_some_iff_findIdx_eq.1 hfound
      have hmem : last ∈ sorted.map (·.repo) := by
        have hat := @List.findIdx_getElem _ (·.repo = last) sorted (hfind ▸ hindex)
        exact mem_map.2 ⟨_, getElem_mem _, of_decide_eq_true hat⟩
      have hidx : (sorted.map (·.repo)).idxOf last = index := by
        rw [← hfind, List.idxOf, findIdx_map]
        rfl
      rw [if_pos hmem, hidx]
      exact hmod _

/-- What is picked is the successor of the last in this order. -/
theorem pickBacklogRepo_eq (rows : List BacklogRow) (nowMs : ℚ) (last : Option String) :
    pickBacklogRepo collation.localeLe (backlogRepoCandidatesFromJobKeys rows nowMs) last =
      successor (backlogOrder collation rows nowMs) last := successor_map _ last

/-- No repository is both in front of and behind another. -/
theorem EarlierIn.asymm (hab : EarlierIn rows a b) : ¬EarlierIn rows b a := by
  obtain ⟨front, back, rfl, ⟨row, hrow, hnamed⟩, hnot⟩ := hab
  rintro ⟨front', back', hsplit, ⟨row', hrow', hnamed'⟩, hnot'⟩
  rcases append_eq_append_iff.1 hsplit with ⟨more, rfl, -⟩ | ⟨more, rfl, -⟩
  · exact hnot' row (mem_append_left _ hrow) hnamed
  · exact hnot row' (mem_append_left _ hrow') hnamed'

/-- Repositories come in the order of their first rows. -/
theorem earlierIn_of_sublist (h : [a, b].Sublist (backlogRepos rows)) : EarlierIn rows a b := by
  induction rows using List.reverseRecOn with
  | nil => cases h
  | append_singleton rows row ih =>
    have hmore : EarlierIn rows a b → EarlierIn (rows ++ [row]) a b := by
      rintro ⟨front, back, rfl, hfront⟩
      exact ⟨front, back ++ [row], append_assoc _ _ _, hfront⟩
    cases hrepo : repoOfRow row with
    | none =>
      rw [backlogRepos_concat_none hrepo] at h
      exact hmore (ih h)
    | some repo =>
      rw [backlogRepos_concat_some hrepo] at h
      split_ifs at h with hmem
      · exact hmore (ih h)
      · -- The pair is there already, or its second is new.
        have hnodup := nodup_backlogRepos (rows ++ [row])
        rw [backlogRepos_concat_some hrepo, if_neg hmem] at hnodup
        by_cases hb : b = repo
        · subst hb
          have ha : a ∈ backlogRepos rows := mem_front_of_sublist hnodup h
          obtain ⟨first, hfirst, hnamed⟩ := mem_backlogRepos.1 ha
          exact ⟨rows, [row], rfl, ⟨first, hfirst, hnamed⟩, fun other hother hother' =>
            hmem (mem_backlogRepos.2 ⟨other, hother, hother'⟩)⟩
        · refine hmore (ih ?_)
          obtain ⟨one, two, hsplit, hone, htwo⟩ := sublist_append_iff.1 h
          rcases sublist_singleton.1 htwo with rfl | rfl
          · rwa [hsplit, append_nil]
          · have hlast : [a, b].getLast? = some repo := by rw [hsplit, List.getLast?_concat]
            exact absurd (Option.some.inj hlast) hb

theorem not_sublist_swap {order : List String} (hnodup : order.Nodup) (h : [a, b].Sublist order) :
    ¬[b, a].Sublist order := by
  intro h'
  obtain ⟨front, back, rfl⟩ := append_of_mem (h.subset (by simp : b ∈ [a, b]))
  have ha := mem_front_of_sublist hnodup h
  have hsplit := hnodup
  obtain ⟨before, between, rfl⟩ := append_of_mem ha
  rw [append_assoc, cons_append] at hsplit h'
  have hb := mem_front_of_sublist hsplit h'
  exact (nodup_append.1 hsplit).2.2 b hb b (by simp) rfl

/-- One of two that are in a list is in front of the other. -/
theorem sublist_or_swap {order : List String} (ha : a ∈ order) (hb : b ∈ order) (hne : a ≠ b) :
    [a, b].Sublist order ∨ [b, a].Sublist order := by
  obtain ⟨front, back, rfl⟩ := append_of_mem ha
  rcases mem_append.1 hb with hb | hb
  · exact Or.inr ((singleton_sublist.2 hb).append (singleton_sublist.2 mem_cons_self))
  · have hback : b ∈ back := mem_of_ne_of_mem (Ne.symm hne) hb
    exact Or.inl (((singleton_sublist.2 hback).cons_cons a).trans (sublist_append_right front _))

/-- What is in front is older, or of the same age and not after by name, and then its first row is
in front. -/
theorem notAfter_of_sublist (h : [a, b].Sublist (backlogOrder collation rows nowMs)) :
    NotAfter collation rows nowMs a b ∧
      (NotAfter collation rows nowMs b a → EarlierIn rows a b) := by
  have hnodup := nodup_backlogOrder collation rows nowMs
  have hne : a ≠ b := by
    rintro rfl
    exact not_sublist_swap hnodup h h
  have hsorted := pairwise_insertionSort (NotAfter collation rows nowMs) (backlogRepos rows)
  rw [← backlogOrder_eq] at hsorted
  refine ⟨pairwise_pair.1 (hsorted.sublist h), fun hba => ?_⟩
  have hmem : ∀ c ∈ [a, b], c ∈ backlogRepos rows :=
    fun c hc => (mem_backlogOrder collation).1 (h.subset hc)
  rcases sublist_or_swap (hmem a (by simp)) (hmem b (by simp)) hne with hearlier | hlater
  · exact earlierIn_of_sublist hearlier
  · -- The sort is stable.
    have hstable := pair_sublist_insertionSort hba hlater
    rw [← backlogOrder_eq] at hstable
    exact absurd hstable (not_sublist_swap hnodup h)

theorem sublist_of_notAfter (ha : a ∈ backlogRepos rows) (hb : b ∈ backlogRepos rows) (hne : a ≠ b)
    (hab : NotAfter collation rows nowMs a b)
    (hearlier : NotAfter collation rows nowMs b a → EarlierIn rows a b) :
    [a, b].Sublist (backlogOrder collation rows nowMs) := by
  rcases sublist_or_swap ((mem_backlogOrder collation).2 ha) ((mem_backlogOrder collation).2 hb)
    hne with h | h
  · exact h
  · obtain ⟨hba, hlater⟩ := notAfter_of_sublist collation h
    exact absurd (hlater hab) (hearlier hba).asymm

/-- A clock that orders the ages of rows alike gives one order of the repositories. -/
theorem backlogOrder_congr {nowMs' : ℚ}
    (hages : ∀ a ∈ rows, ∀ b ∈ rows, rowAge nowMs a ≤ rowAge nowMs b ↔
      rowAge nowMs' a ≤ rowAge nowMs' b) :
    backlogOrder collation rows nowMs = backlogOrder collation rows nowMs' := by
  have hle : ∀ {now now' : ℚ}, (∀ a ∈ rows, ∀ b ∈ rows, rowAge now a ≤ rowAge now b →
      rowAge now' a ≤ rowAge now' b) →
      ∀ a ∈ backlogRepos rows, ∀ b ∈ backlogRepos rows,
        oldestAge rows now a ≤ oldestAge rows now b →
        oldestAge rows now' a ≤ oldestAge rows now' b := by
    intro now now' hrows a ha b hb hab
    obtain ⟨row, hrow, hnamed, hage⟩ := exists_oldestAge now' ha
    obtain ⟨other, hother, hnamed', hage'⟩ := exists_oldestAge now hb
    rw [hage]
    refine (hrows row hrow other hother ?_).trans (rowAge_le_oldestAge hother hnamed')
    exact (rowAge_le_oldestAge hrow hnamed).trans (hab.trans hage'.le)
  have hiff : ∀ a ∈ backlogRepos rows, ∀ b ∈ backlogRepos rows,
      oldestAge rows nowMs a ≤ oldestAge rows nowMs b ↔
        oldestAge rows nowMs' a ≤ oldestAge rows nowMs' b := by
    intro a ha b hb
    exact ⟨hle (fun a ha b hb => (hages a ha b hb).1) a ha b hb,
      hle (fun a ha b hb => (hages a ha b hb).2) a ha b hb⟩
  have hsort :=
    map_insertionSort (r := NotAfter collation rows nowMs) (s := NotAfter collation rows nowMs') id
    (backlogRepos rows) fun a ha b hb => by
      have hequal : oldestAge rows nowMs a = oldestAge rows nowMs b ↔
          oldestAge rows nowMs' a = oldestAge rows nowMs' b := by
        rw [le_antisymm_iff, le_antisymm_iff, hiff a ha b hb, hiff b hb a ha]
      have hless : oldestAge rows nowMs b < oldestAge rows nowMs a ↔
          oldestAge rows nowMs' b < oldestAge rows nowMs' a := by
        rw [← not_le, ← not_le, hiff a ha b hb]
      exact or_congr hless (and_congr_left' hequal)
  rwa [map_id, map_id, ← backlogOrder_eq, ← backlogOrder_eq] at hsort

/-- A claim takes a row of the claimed repository, which gets younger or is gone; the others keep
their order. -/
theorem backlogOrder_serves (nowMs : ℚ) (hrow : OldestRow rows repo row) :
    Serves (backlogOrder collation rows nowMs) repo
      (backlogOrder collation (rows.erase row) nowMs) := by
  have hkept : ∀ other ∈ rows, repoOfRow other ≠ some repo → other ∈ rows.erase row := by
    intro other hother hnamed
    refine (mem_erase_of_ne fun heq => hnamed ?_).2 hother
    exact heq ▸ hrow.named
  have hsubset : ∀ name ∈ backlogRepos (rows.erase row), name ∈ backlogRepos rows := by
    intro name hname
    obtain ⟨other, hother, hnamed⟩ := mem_backlogRepos.1 hname
    exact mem_backlogRepos.2 ⟨other, mem_of_mem_erase hother, hnamed⟩
  have hstays : ∀ name ∈ backlogRepos rows, name ≠ repo → name ∈ backlogRepos (rows.erase row) := by
    intro name hname hne
    obtain ⟨other, hother, hnamed⟩ := mem_backlogRepos.1 hname
    exact mem_backlogRepos.2 ⟨other, hkept other hother fun h =>
      hne (Option.some.inj (hnamed.symm.trans h)), hnamed⟩
  have hyounger : ∀ name ∈ backlogRepos (rows.erase row),
      oldestAge (rows.erase row) nowMs name ≤ oldestAge rows nowMs name := by
    intro name hname
    obtain ⟨other, hother, hnamed, hage⟩ := exists_oldestAge nowMs hname
    exact hage ▸ rowAge_le_oldestAge (mem_of_mem_erase hother) hnamed
  have hsame : ∀ name ∈ backlogRepos rows, name ≠ repo →
      oldestAge (rows.erase row) nowMs name = oldestAge rows nowMs name := by
    intro name hname hne
    refine le_antisymm (hyounger name (hstays name hname hne)) ?_
    obtain ⟨other, hother, hnamed, hage⟩ := exists_oldestAge nowMs hname
    have hmem := hkept other hother fun h => hne (Option.some.inj (hnamed.symm.trans h))
    exact hage ▸ rowAge_le_oldestAge hmem hnamed
  have hearlier : ∀ a b, a ≠ repo → EarlierIn rows a b → EarlierIn (rows.erase row) a b := by
    rintro a b hne ⟨front, back, hsplit, ⟨other, hother, hnamed⟩, hnot⟩
    have hdiffer : other ≠ row :=
      fun heq => hne (Option.some.inj (hnamed.symm.trans (heq ▸ hrow.named)))
    rw [hsplit, erase_append]
    split_ifs
    · exact ⟨front.erase row, back, rfl, ⟨other, (mem_erase_of_ne hdiffer).2 hother, hnamed⟩,
        fun row' hrow' => hnot row' (mem_of_mem_erase hrow')⟩
    · exact ⟨front, back.erase row, rfl, ⟨other, hother, hnamed⟩, hnot⟩
  refine ⟨nodup_backlogOrder collation rows nowMs, nodup_backlogOrder collation _ nowMs,
    fun name hname => ?_,
    fun name hname hne => ?_, fun a b ha hb hfront => ?_⟩
  · exact (mem_backlogOrder collation).2 (hsubset name ((mem_backlogOrder collation).1 hname))
  · exact (mem_backlogOrder collation).2 (hstays name ((mem_backlogOrder collation).1 hname) hne)
  · have hmem : a ∈ backlogRepos rows := (mem_backlogOrder collation).1 (hfront.subset (by simp))
    have hmem' := (mem_backlogOrder collation).1 hb
    have hne : a ≠ b := by
      rintro rfl
      exact not_sublist_swap (nodup_backlogOrder collation rows nowMs) hfront hfront
    obtain ⟨hbefore, htie⟩ := notAfter_of_sublist collation hfront
    have hage := hsame a hmem ha
    have hage' := hyounger b hmem'
    refine sublist_of_notAfter collation (hstays a hmem ha) hmem' hne ?_ fun hback =>
      hearlier a b ha (htie ?_)
    · rcases hbefore with hless | ⟨heq, hname⟩
      · exact Or.inl (hage ▸ hage'.trans_lt hless)
      · rcases hage'.lt_or_eq with hless | hequal
        · exact Or.inl (by rw [hage, heq]; exact hless)
        · exact Or.inr ⟨by rw [hage, hequal, heq], hname⟩
    · rcases hback with hless | ⟨heq, hname⟩
      · exact Or.inl (hage ▸ hless.trans_le hage')
      · rcases hage'.lt_or_eq with hless | hequal
        · refine Or.inl ?_
          rw [← hage, ← heq]
          exact hless
        · exact Or.inr ⟨by rw [← hequal, heq, hage], hname⟩

end Order

/-! ## The wait of the stalest -/

section Wait

variable {rows left : List BacklogRow} {clock : ℕ → ℚ} {k : ℕ} {last last' : Option String}
  {repo : String}
  {picks : List String} {row : BacklogRow}

/-- Any clock is steady where no row is from the future. -/
theorem steadyAges_of_past (hpast : ∀ k, ∀ row ∈ rows, row.2 ≤ clock k) :
    SteadyAges clock rows := by
  have hage : ∀ k, ∀ row ∈ rows, rowAge (clock k) row = clock k - row.2 := fun k row hrow =>
    max_eq_right (sub_nonneg.2 (hpast k row hrow))
  intro k a ha b hb
  rw [hage k a ha, hage k b hb, hage 0 a ha, hage 0 b hb, sub_le_sub_iff_left, sub_le_sub_iff_left]

/-- At any two claims the rows are in the order of one age. -/
theorem SteadyAges.order_eq (h : SteadyAges clock rows) {part : List BacklogRow}
    (hsubset : part ⊆ rows) (j k : ℕ) :
    backlogOrder collation part (clock j) = backlogOrder collation part (clock k) :=
  backlogOrder_congr collation fun a ha b hb =>
    (h j a (hsubset ha) b (hsubset hb)).trans (h k a (hsubset ha) b (hsubset hb)).symm

theorem BacklogClaims.rotation (h : BacklogClaims collation clock k rows last picks left last')
    {all : List BacklogRow} (hsteady : SteadyAges clock all) (hsubset : rows ⊆ all) :
    Rotation (backlogOrder collation rows (clock k)) last picks := by
  induction h with
  | nil => exact .nil
  | @claim k rows left last last' repo picks row hpick hrow hrest ih =>
    have hless : rows.erase row ⊆ all := List.Subset.trans erase_subset hsubset
    have hserves := backlogOrder_serves collation (clock k) hrow
    rw [pickBacklogRepo_eq] at hpick
    refine .serve hpick hserves ?_
    rw [hsteady.order_eq collation hless k (k + 1)]
    exact ih hless

/-- A row stays until its repository is picked. -/
theorem BacklogClaims.mem_left (h : BacklogClaims collation clock k rows last picks left last')
    (hrow : row ∈ rows) (hrepo : repoOfRow row = some repo) (hnot : repo ∉ picks) : row ∈ left := by
  induction h with
  | nil => exact hrow
  | @claim k rows left last last' next picks taken hpick htaken hrest ih =>
    have hne : repo ≠ next := ne_of_not_mem_cons hnot
    have hmore : repo ∉ picks := not_mem_of_not_mem_cons hnot
    have hdiffer : row ≠ taken := by
      rintro rfl
      exact hne (Option.some.inj (hrepo.symm.trans htaken.named))
    exact ih ((mem_erase_of_ne hdiffer).2 hrow) hmore

/-- The stalest repository is the first in the order. -/
theorem IsStalest.head {nowMs : ℚ}
    (h : IsStalest collation (backlogRepoCandidatesFromJobKeys rows nowMs) repo) :
    (backlogOrder collation rows nowMs).head? = some repo := by
  obtain ⟨stalest, hmem, rfl, hfirst⟩ := h
  rw [candidates_eq] at hmem
  obtain ⟨repo, hrepo, rfl⟩ := mem_map.1 hmem
  have horder : _ ∈ backlogOrder collation rows nowMs := (mem_backlogOrder collation).2 hrepo
  cases hlist : backlogOrder collation rows nowMs with
  | nil =>
    rw [hlist] at horder
    cases horder
  | cons head tail =>
    by_contra hdiffer
    have hne : head ≠ repo := fun heq => hdiffer (congrArg some heq)
    rw [hlist] at horder
    have hpair : [head, repo].Sublist (backlogOrder collation rows nowMs) := by
      rw [hlist]
      exact (singleton_sublist.2 (mem_of_ne_of_mem (Ne.symm hne) horder)).cons_cons head
    have hhead : head ∈ backlogRepos rows := (mem_backlogOrder collation).1 (hpair.subset (by simp))
    have hcandidate : (⟨head, oldestAge rows nowMs head⟩ : BacklogRepoCandidate) ∈
        backlogRepoCandidatesFromJobKeys rows nowMs := by
      rw [candidates_eq]
      exact mem_map_of_mem hhead
    obtain ⟨hbefore, -⟩ := notAfter_of_sublist collation hpair
    rcases hfirst _ hcandidate hne with hyounger | ⟨hage, hname⟩
    · rcases hbefore with hless | ⟨heq, -⟩
      · exact lt_asymm hyounger hless
      · exact hyounger.ne heq
    · rcases hbefore with hless | ⟨-, hname'⟩
      · exact hless.ne hage.symm
      · exact Bool.false_ne_true (hname.symm.trans hname')

theorem exists_oldestRow (hrepo : repo ∈ backlogRepos rows) : ∃ row, OldestRow rows repo row := by
  obtain ⟨first, hfirst, hnamed⟩ := mem_backlogRepos.1 hrepo
  have hne : (rows.filter fun row => repoOfRow row = some repo) ≠ [] :=
    ne_nil_of_mem (mem_filter.2 ⟨hfirst, decide_eq_true hnamed⟩)
  obtain ⟨row, hrow⟩ :=
    Option.ne_none_iff_exists'.1 (mt argmin_eq_none.1 hne : List.argmin Prod.snd _ ≠ none)
  obtain ⟨hmem, hrepo⟩ := mem_filter.1 (argmin_mem hrow)
  exact ⟨row, hmem, of_decide_eq_true hrepo, fun other hother hother' =>
    le_of_mem_argmin (mem_filter.2 ⟨hother, decide_eq_true hother'⟩) hrow⟩

/-- **The stalest repository is picked within as many claims as there are repositories**, and until
then there is something to claim. -/
theorem stalest_picked (hsteady : SteadyAges clock rows)
    (hstalest : IsStalest collation (backlogRepoCandidatesFromJobKeys rows (clock 0)) repo)
    (last : Option String) :
    ∀ picks left last', BacklogClaims collation clock 0 rows last picks left last' →
      ((backlogRepoCandidatesFromJobKeys rows (clock 0)).length ≤ picks.length →
        repo ∈ picks.take (backlogRepoCandidatesFromJobKeys rows (clock 0)).length) ∧
      (repo ∉ picks → ∃ next row, pickBacklogRepo collation.localeLe
        (backlogRepoCandidatesFromJobKeys left (clock picks.length)) last' = some next ∧
          OldestRow left next row) := by
  intro picks left last' hclaims
  have hfirst := hstalest.head
  have hlength : (backlogOrder collation rows (clock 0)).length =
      (backlogRepoCandidatesFromJobKeys rows (clock 0)).length := by
    rw [backlogOrder, length_map, length_insertionSort]
  constructor
  · intro henough
    refine ((hclaims.rotation collation hsteady (List.Subset.refl _)).take _).first_mem hfirst ?_
    rw [length_take, Nat.min_eq_left henough, ← hlength]
    exact turnsLeft_le_length hfirst last
  · intro hnot
    obtain ⟨row, hrow, hnamed⟩ :=
      mem_backlogRepos.1 ((mem_backlogOrder collation).1 (mem_of_mem_head? hfirst))
    have hleft := mem_backlogRepos.2 ⟨row, hclaims.mem_left collation hrow hnamed hnot, hnamed⟩
    obtain ⟨next, hnext, hmem⟩ := exists_successor
      (ne_nil_of_mem (show _ ∈ backlogOrder collation left (clock picks.length)
        from (mem_backlogOrder collation).2 hleft)) last'
    obtain ⟨oldest, holdest⟩ := exists_oldestRow ((mem_backlogOrder collation).1 hmem)
    exact ⟨next, oldest, by rw [pickBacklogRepo_eq, hnext], holdest⟩

/-! ### Two repositories -/

/-- Names compared by the codes of their characters. -/
def codeOrder : Collation where
  localeLe a b := a ≤ b
  trans a b c hab hbc := by
    rw [decide_eq_true_iff] at *
    exact hab.trans hbc
  total a b := by simpa using le_total a b

def twoBacklogs : List BacklogRow :=
  [(some "agent-regate-pr:a#1", 5), (some "agent-regate-pr:b#2", 7),
    (some "agent-regate-pr:b#3", 6)]

theorem backlogRepoOfKey_twoBacklogs : backlogRepoOfKey (some "agent-regate-pr:a#1") = some "a" ∧
    backlogRepoOfKey (some "agent-regate-pr:b#2") = some "b" ∧
      backlogRepoOfKey (some "agent-regate-pr:b#3") = some "b" := by
  decide

/-- A clock that moves on between the claims. -/
def nextTick (k : ℕ) : ℚ := 10 + k

theorem candidates_twoBacklogs :
    backlogRepoCandidatesFromJobKeys twoBacklogs (nextTick 0) = [⟨"a", 5⟩, ⟨"b", 4⟩] := by
  obtain ⟨ha, hb, hb'⟩ := backlogRepoOfKey_twoBacklogs
  simp [backlogRepoCandidatesFromJobKeys, twoBacklogs, ha, hb, hb', nextTick]
  norm_num

/-- The older row of the second repository goes first, as the first one was claimed last. -/
theorem claims_twoBacklogs : BacklogClaims codeOrder nextTick 0 twoBacklogs (some "a") ["b", "a"]
    [(some "agent-regate-pr:b#2", 7)] (some "a") := by
  obtain ⟨ha, hb, hb'⟩ := backlogRepoOfKey_twoBacklogs
  have hcandidates : backlogRepoCandidatesFromJobKeys
      [(some "agent-regate-pr:a#1", 5), (some "agent-regate-pr:b#2", 7)] (nextTick 1) =
        [⟨"a", 6⟩, ⟨"b", 4⟩] := by
    simp [backlogRepoCandidatesFromJobKeys, ha, hb, nextTick]
    norm_num
  have hfirst : twoBacklogs.erase (some "agent-regate-pr:b#3", 6) =
      [(some "agent-regate-pr:a#1", 5), (some "agent-regate-pr:b#2", 7)] := by decide +kernel
  have hrowB : OldestRow twoBacklogs "b" (some "agent-regate-pr:b#3", 6) := by
    refine ⟨by simp [twoBacklogs], hb', ?_⟩
    simp [twoBacklogs, repoOfRow, ha, hb, hb']
    norm_num
  have hrowA : OldestRow [(some "agent-regate-pr:a#1", 5), (some "agent-regate-pr:b#2", 7)] "a"
      (some "agent-regate-pr:a#1", 5) := ⟨by simp, ha, by simp [repoOfRow, ha, hb]⟩
  refine .claim ?_ hrowB ?_
  · rw [candidates_twoBacklogs]
    decide +kernel
  rw [hfirst]
  refine .claim ?_ hrowA ?_
  · rw [hcandidates]
    decide +kernel
  · exact .nil

theorem stalest_picked_twoBacklogs :
    "a" ∈ (["b", "a"] : List String).take
      (backlogRepoCandidatesFromJobKeys twoBacklogs (nextTick 0)).length := by
  have hsteady : SteadyAges nextTick twoBacklogs := by
    refine steadyAges_of_past fun k row hrow => ?_
    have hpast : ∀ row ∈ twoBacklogs, row.2 ≤ 10 := by decide +kernel
    exact (hpast row hrow).trans (le_add_of_nonneg_right (Nat.cast_nonneg k))
  have hstalest : IsStalest codeOrder
      (backlogRepoCandidatesFromJobKeys twoBacklogs (nextTick 0)) "a" := by
    rw [candidates_twoBacklogs]
    refine ⟨⟨"a", 5⟩, mem_cons_self, rfl, fun other hother hne => Or.inl ?_⟩
    rcases mem_cons.1 hother with rfl | hother
    · exact absurd rfl hne
    · rw [mem_singleton.1 hother]
      norm_num
  refine (stalest_picked codeOrder hsteady hstalest (some "a") _ _ _ claims_twoBacklogs).1 ?_
  rw [candidates_twoBacklogs]
  exact le_rfl

end Wait

end LoopOver.Queue
