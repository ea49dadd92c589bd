import LoopOver.Text
import Mathlib.Data.List.Nodup
import Mathlib.Data.Prod.Lex
import Mathlib.Order.Lattice

/-!
# The winner of a duplicate cluster

`packages/loopover-engine/src/duplicate-winner.ts`: of the open pull requests that link one issue,
the earliest claimant is spared. Every pull request is judged in a run of its own, against the
siblings it sees, and the two functions below have to agree across these runs.

* `prPrecedesSibling_iff`: with valid claim times the comparison is the lexicographic order of claim
  time and number, which is total.
* **`duplicate_election_agrees`**: with valid claim times every run elects the same pull request,
  from every point of view and for every order of the siblings; without them no run elects any.
-/

namespace LoopOver

open List

/-- What the election reads of a pull request. -/
structure DuplicateClaimMember where
  number : ℕ
  linkedIssueClaimedAt : Option String := none
  deriving DecidableEq, Repr

section Definitions

variable (rt : Runtime)

/-- The time of a claim; an absent, empty or invalid one has none. -/
def claimTimeMs (value : Option String) : Option ℤ := (truthy value).bind rt.dateParse

/-- `pr` comes before `sibling`, or is not behind it. -/
def prPrecedesSibling (pr sibling : DuplicateClaimMember) : Bool :=
  match claimTimeMs rt pr.linkedIssueClaimedAt, claimTimeMs rt sibling.linkedIssueClaimedAt with
  | some prClaim, some siblingClaim =>
    !decide (siblingClaim < prClaim) &&
      !(decide (siblingClaim = prClaim) && decide (sibling.number < pr.number))
  | _, _ => false

/-- `pr` precedes every open sibling. -/
def isDuplicateClusterWinnerByClaim (pr : DuplicateClaimMember)
    (openSiblings : List DuplicateClaimMember) : Bool :=
  openSiblings.all (prPrecedesSibling rt pr)

/-- The number of the winner, when there is one. -/
def resolveDuplicateClusterWinnerNumber (pr : DuplicateClaimMember)
    (openSiblings : List DuplicateClaimMember) : Option ℕ :=
  if isDuplicateClusterWinnerByClaim rt pr openSiblings then some pr.number
  else
    (openSiblings.find? fun sibling => isDuplicateClusterWinnerByClaim rt sibling
      (pr :: openSiblings.filter fun other => other.number != sibling.number)).map
        DuplicateClaimMember.number

end Definitions

/-! ## The order of the claims -/

section Order

variable {rt : Runtime} {a b c : DuplicateClaimMember}

/-- What the comparison orders by: the claim time, and then the number. -/
def DuplicateClaimMember.rank (rt : Runtime) (member : DuplicateClaimMember) : Option (ℤ ×ₗ ℕ) :=
  (claimTimeMs rt member.linkedIssueClaimedAt).map fun claim => toLex (claim, member.number)

theorem prPrecedesSibling_iff {k l : ℤ ×ₗ ℕ} (ha : a.rank rt = some k) (hb : b.rank rt = some l) :
    prPrecedesSibling rt a b = true ↔ k ≤ l := by
  obtain ⟨s, hs, rfl⟩ := Option.map_eq_some_iff.1 ha
  obtain ⟨t, ht, rfl⟩ := Option.map_eq_some_iff.1 hb
  rw [Prod.Lex.toLex_le_toLex, prPrecedesSibling, hs, ht]
  simp only [Bool.and_eq_true, Bool.not_eq_true', decide_eq_false_iff_not, Bool.and_eq_false_imp,
    decide_eq_true_eq]
  omega

theorem prPrecedesSibling_ranked (h : prPrecedesSibling rt a b = true) :
    (a.rank rt).isSome ∧ (b.rank rt).isSome := by
  unfold prPrecedesSibling at h
  split at h
  · next s t hs ht => simp [DuplicateClaimMember.rank, hs, ht]
  · cases h

theorem prPrecedesSibling_trans (hab : prPrecedesSibling rt a b = true)
    (hbc : prPrecedesSibling rt b c = true) : prPrecedesSibling rt a c = true := by
  obtain ⟨k, hk⟩ := Option.isSome_iff_exists.1 (prPrecedesSibling_ranked hab).1
  obtain ⟨l, hl⟩ := Option.isSome_iff_exists.1 (prPrecedesSibling_ranked hbc).1
  obtain ⟨m, hm⟩ := Option.isSome_iff_exists.1 (prPrecedesSibling_ranked hbc).2
  rw [prPrecedesSibling_iff hk hl] at hab
  rw [prPrecedesSibling_iff hl hm] at hbc
  exact (prPrecedesSibling_iff hk hm).2 (hab.trans hbc)

theorem prPrecedesSibling_total (ha : (a.rank rt).isSome) (hb : (b.rank rt).isSome) :
    prPrecedesSibling rt a b = true ∨ prPrecedesSibling rt b a = true := by
  obtain ⟨k, hk⟩ := Option.isSome_iff_exists.1 ha
  obtain ⟨l, hl⟩ := Option.isSome_iff_exists.1 hb
  rw [prPrecedesSibling_iff hk hl, prPrecedesSibling_iff hl hk]
  exact le_total k l

/-- Two pull requests that precede each other have one number. -/
theorem number_eq_of_precede (hab : prPrecedesSibling rt a b = true)
    (hba : prPrecedesSibling rt b a = true) : a.number = b.number := by
  obtain ⟨k, hk⟩ := Option.isSome_iff_exists.1 (prPrecedesSibling_ranked hab).1
  obtain ⟨l, hl⟩ := Option.isSome_iff_exists.1 (prPrecedesSibling_ranked hba).1
  rw [prPrecedesSibling_iff hk hl] at hab
  rw [prPrecedesSibling_iff hl hk] at hba
  obtain ⟨s, -, hs⟩ := Option.map_eq_some_iff.1 hk
  obtain ⟨t, -, ht⟩ := Option.map_eq_some_iff.1 hl
  have hranks : toLex (s, a.number) = toLex (t, b.number) := by
    rw [hs, ht]
    exact le_antisymm hab hba
  exact congrArg (fun rank => (ofLex rank).2) hranks

/-- Some member precedes all, when all have a claim time. -/
theorem exists_first {members : List DuplicateClaimMember} (hne : members ≠ [])
    (hranked : ∀ m ∈ members, (m.rank rt).isSome) :
    ∃ first ∈ members, ∀ m ∈ members, prPrecedesSibling rt first m = true := by
  induction members with
  | nil => exact absurd rfl hne
  | cons x members ih =>
    have hx := hranked x mem_cons_self
    have hself : prPrecedesSibling rt x x = true := (prPrecedesSibling_total hx hx).elim id id
    by_cases hmembers : members = []
    · subst hmembers
      refine ⟨x, mem_cons_self, fun m hm => ?_⟩
      obtain rfl := mem_singleton.1 hm
      exact hself
    · obtain ⟨first, hfirst, hleast⟩ := ih hmembers fun m hm => hranked m (mem_cons_of_mem _ hm)
      rcases prPrecedesSibling_total (hranked first (mem_cons_of_mem _ hfirst)) hx with hle | hle
      · refine ⟨first, mem_cons_of_mem _ hfirst, fun m hm => ?_⟩
        rcases mem_cons.1 hm with rfl | hm
        · exact hle
        · exact hleast m hm
      · refine ⟨x, mem_cons_self, fun m hm => ?_⟩
        rcases mem_cons.1 hm with rfl | hm
        · exact hself
        · exact prPrecedesSibling_trans hle (hleast m hm)

end Order

/-! ## The runs of a cluster -/

/-- The other members, in any order. -/
def IsSiblingsOf (members : List DuplicateClaimMember) (pr : DuplicateClaimMember)
    (siblings : List DuplicateClaimMember) : Prop :=
  siblings.Perm (members.filter fun other => other.number != pr.number)

section Election

variable {rt : Runtime} {members siblings : List DuplicateClaimMember}
  {pr sibling : DuplicateClaimMember}

theorem IsSiblingsOf.mem_iff (h : IsSiblingsOf members pr siblings) {m : DuplicateClaimMember} :
    m ∈ siblings ↔ m ∈ members ∧ m.number ≠ pr.number := by
  rw [List.Perm.mem_iff h, mem_filter, bne_iff_ne]

/-- The siblings of a sibling: `pr`, and the others without it. -/
theorem IsSiblingsOf.of_sibling (hnodup : (members.map DuplicateClaimMember.number).Nodup)
    (hpr : pr ∈ members) (h : IsSiblingsOf members pr siblings) (hsibling : sibling ∈ siblings) :
    IsSiblingsOf members sibling
      (pr :: siblings.filter fun other => other.number != sibling.number) := by
  have hmembers : members.Nodup := List.Nodup.of_map _ hnodup
  have hsiblings : siblings.Nodup := (List.Perm.nodup_iff h).2 (hmembers.filter _)
  obtain ⟨-, hother⟩ := h.mem_iff.1 hsibling
  refine (perm_ext_iff_of_nodup ?_ (hmembers.filter _)).2 fun m => ?_
  · refine nodup_cons.2 ⟨fun hmem => ?_, hsiblings.filter _⟩
    exact (h.mem_iff.1 (mem_filter.1 hmem).1).2 rfl
  · simp only [mem_cons, mem_filter, bne_iff_ne, h.mem_iff]
    constructor
    · rintro (rfl | ⟨⟨hm, -⟩, hne⟩)
      · exact ⟨hpr, fun heq => hother heq.symm⟩
      · exact ⟨hm, hne⟩
    · rintro ⟨hm, hne⟩
      by_cases hnumber : m.number = pr.number
      · exact Or.inl (inj_on_of_nodup_map hnodup hm hpr hnumber)
      · exact Or.inr ⟨⟨hm, hnumber⟩, hne⟩

theorem isWinner_iff (h : IsSiblingsOf members pr siblings) :
    isDuplicateClusterWinnerByClaim rt pr siblings = true ↔
      ∀ m ∈ members, m.number ≠ pr.number → prPrecedesSibling rt pr m = true := by
  rw [isDuplicateClusterWinnerByClaim, all_eq_true]
  constructor
  · intro hall m hm hne
    exact hall m (h.mem_iff.2 ⟨hm, hne⟩)
  · intro hall m hm
    obtain ⟨hmember, hne⟩ := h.mem_iff.1 hm
    exact hall m hmember hne

variable {first : DuplicateClaimMember}

/-- With valid claim times the runs elect the first claimant. -/
theorem isWinner_iff_first (hnodup : (members.map DuplicateClaimMember.number).Nodup)
    (hfirst : first ∈ members) (hleast : ∀ m ∈ members, prPrecedesSibling rt first m = true)
    (hpr : pr ∈ members) (h : IsSiblingsOf members pr siblings) :
    isDuplicateClusterWinnerByClaim rt pr siblings = true ↔ pr = first := by
  rw [isWinner_iff h]
  constructor
  · intro hall
    by_contra hne
    have hnumber : first.number ≠ pr.number := fun heq =>
      hne (inj_on_of_nodup_map hnodup hpr hfirst heq.symm)
    exact hnumber (number_eq_of_precede (hleast pr hpr) (hall first hfirst hnumber))
  · rintro rfl m hm -
    exact hleast m hm

theorem resolve_eq_first (hnodup : (members.map DuplicateClaimMember.number).Nodup)
    (hfirst : first ∈ members) (hleast : ∀ m ∈ members, prPrecedesSibling rt first m = true)
    (hpr : pr ∈ members) (h : IsSiblingsOf members pr siblings) :
    resolveDuplicateClusterWinnerNumber rt pr siblings = some first.number := by
  rw [resolveDuplicateClusterWinnerNumber]
  by_cases hwinner : pr = first
  · rw [if_pos ((isWinner_iff_first hnodup hfirst hleast hpr h).2 hwinner), hwinner]
  · rw [if_neg fun hwon => hwinner ((isWinner_iff_first hnodup hfirst hleast hpr h).1 hwon)]
    -- the search over the siblings stops at the first claimant and nowhere else
    have helected : ∀ sibling ∈ siblings, isDuplicateClusterWinnerByClaim rt sibling
        (pr :: siblings.filter fun other => other.number != sibling.number) = true ↔
          sibling = first := by
      intro sibling hsibling
      exact isWinner_iff_first hnodup hfirst hleast (h.mem_iff.1 hsibling).1
        (h.of_sibling hnodup hpr hsibling)
    have hmem : first ∈ siblings := h.mem_iff.2 ⟨hfirst, fun heq =>
      hwinner (inj_on_of_nodup_map hnodup hpr hfirst heq.symm)⟩
    cases hfind : siblings.find? fun sibling => isDuplicateClusterWinnerByClaim rt sibling
        (pr :: siblings.filter fun other => other.number != sibling.number) with
    | none =>
      have hnone := List.find?_eq_none.1 hfind first hmem
      exact absurd ((helected first hmem).2 rfl) hnone
    | some found =>
      have hwon := List.find?_some hfind
      have hfound := (helected found (mem_of_find?_eq_some hfind)).1 hwon
      rw [hfound, Option.map_some]

/-- A member without a valid claim time keeps every other run from electing. -/
theorem isWinner_eq_false (hnodup : (members.map DuplicateClaimMember.number).Nodup)
    (htwo : 2 ≤ members.length) {sparse : DuplicateClaimMember} (hsparse : sparse ∈ members)
    (hclaim : claimTimeMs rt sparse.linkedIssueClaimedAt = none) (hpr : pr ∈ members)
    (h : IsSiblingsOf members pr siblings) :
    isDuplicateClusterWinnerByClaim rt pr siblings = false := by
  by_contra hwon
  rw [Bool.not_eq_false, isWinner_iff h] at hwon
  have hrank : sparse.rank rt = none := by rw [DuplicateClaimMember.rank, hclaim, Option.map_none]
  by_cases hself : sparse.number = pr.number
  · -- `pr` is that member, and there is another one
    obtain rfl := inj_on_of_nodup_map hnodup hsparse hpr hself
    obtain ⟨other, hother, hne⟩ : ∃ other ∈ members, other ≠ sparse := by
      by_contra hall
      push Not at hall
      have hrepeat := eq_replicate_of_mem hall
      have hmembers : members.Nodup := List.Nodup.of_map _ hnodup
      rw [hrepeat, nodup_replicate] at hmembers
      omega
    have hnumber : other.number ≠ sparse.number := fun heq =>
      hne (inj_on_of_nodup_map hnodup hother hsparse heq)
    have hranked := (prPrecedesSibling_ranked (hwon other hother hnumber)).1
    rw [hrank] at hranked
    cases hranked
  · have hranked := (prPrecedesSibling_ranked (hwon sparse hsparse hself)).2
    rw [hrank] at hranked
    cases hranked

end Election

/-- **The runs of a cluster agree.** With valid claim times exactly one member is elected, and every
run names it; when a claim time is missing or invalid in a cluster of two or more, no run elects or
names anybody. -/
theorem duplicate_election_agrees (rt : Runtime) (members : List DuplicateClaimMember)
    (hnodup : (members.map DuplicateClaimMember.number).Nodup) :
    (members ≠ [] → (∀ m ∈ members, (claimTimeMs rt m.linkedIssueClaimedAt).isSome) →
      ∃ winner ∈ members, ∀ pr ∈ members, ∀ siblings, IsSiblingsOf members pr siblings →
        (isDuplicateClusterWinnerByClaim rt pr siblings = true ↔ pr = winner) ∧
          resolveDuplicateClusterWinnerNumber rt pr siblings = some winner.number) ∧
    (2 ≤ members.length → (∃ m ∈ members, claimTimeMs rt m.linkedIssueClaimedAt = none) →
      ∀ pr ∈ members, ∀ siblings, IsSiblingsOf members pr siblings →
        isDuplicateClusterWinnerByClaim rt pr siblings = false ∧
          resolveDuplicateClusterWinnerNumber rt pr siblings = none) := by
  constructor
  · intro hne hvalid
    obtain ⟨winner, hwinner, hleast⟩ := exists_first hne fun m hm => by
      rw [DuplicateClaimMember.rank, Option.isSome_map]
      exact hvalid m hm
    refine ⟨winner, hwinner, fun pr hpr siblings h => ⟨?_, ?_⟩⟩
    · exact isWinner_iff_first hnodup hwinner hleast hpr h
    · exact resolve_eq_first hnodup hwinner hleast hpr h
  · rintro htwo ⟨sparse, hsparse, hclaim⟩ pr hpr siblings h
    have hlost := isWinner_eq_false hnodup htwo hsparse hclaim hpr h
    refine ⟨hlost, ?_⟩
    rw [resolveDuplicateClusterWinnerNumber, if_neg (by simp [hlost]), Option.map_eq_none_iff,
      List.find?_eq_none]
    intro sibling hsibling
    rw [isWinner_eq_false hnodup htwo hsparse hclaim (h.mem_iff.1 hsibling).1
      (h.of_sibling hnodup hpr hsibling)]
    exact Bool.false_ne_true

/-- Reads the three claim times of the examples. -/
def claimRuntime : Runtime :=
  { asciiRuntime with
    dateParse := fun text => if text = "2026-06-29T10:00:00.000Z" then some 1782727200000
      else if text = "2026-07-01T00:00:00.000Z" then some 1782864000000
      else if text = "2026-07-20T09:00:00.000Z" then some 1784538000000 else none }

/-- The later number has the earlier claim, and wins in both runs. -/
theorem duplicate_election_agrees_two :
    let members : List DuplicateClaimMember :=
      [⟨21, some "2026-07-20T09:00:00.000Z"⟩, ⟨22, some "2026-07-01T00:00:00.000Z"⟩]
    ∃ winner ∈ members, ∀ pr ∈ members, ∀ siblings, IsSiblingsOf members pr siblings →
      (isDuplicateClusterWinnerByClaim claimRuntime pr siblings = true ↔ pr = winner) ∧
        resolveDuplicateClusterWinnerNumber claimRuntime pr siblings = some winner.number :=
  (duplicate_election_agrees claimRuntime
    [⟨21, some "2026-07-20T09:00:00.000Z"⟩, ⟨22, some "2026-07-01T00:00:00.000Z"⟩] (by decide)).1
    (cons_ne_nil _ _) (by decide)

end LoopOver
