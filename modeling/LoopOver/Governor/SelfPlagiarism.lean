import LoopOver.Governor.Calculators
import Mathlib.Order.Lex

/-!
# Near duplicates of one miner

When several submissions of a miner are near duplicates of each other, each is checked against all
the others (`packages/loopover-engine/src/governor/self-plagiarism.ts`).

* `selfPlagiarismCheck_allowed_iff` says when one check allows its candidate: it precedes every near
  duplicate among the others.
* `NearDuplicateCluster` is a set of submissions that are near duplicates of each other.
* **`near_duplicates_spare_one`**: at most one of them is allowed, with distinct times the earliest
  is, and with a time missing none.
-/

namespace LoopOver

open List

variable (rt : Runtime)

/-! ## Similarity -/

/-- The similarity of two fingerprints does not depend on their order. -/
theorem fingerprintSimilarity_comm (left right : String) :
    fingerprintSimilarity rt left right = fingerprintSimilarity rt right left := by
  have hshared : ∀ a b : List String, a.Nodup → b.Nodup →
      (a.filter (· ∈ b)).length = (b.filter (· ∈ a)).length := by
    intro a b ha hb
    refine ((perm_ext_iff_of_nodup (ha.filter _) (hb.filter _)).2 fun token => ?_).length_eq
    simp only [mem_filter, decide_eq_true_eq]
    exact and_comm
  unfold fingerprintSimilarity
  dsimp only
  set setLeft := tokenSet rt ((normalizeFingerprint rt left).getD "")
  set setRight := tokenSet rt ((normalizeFingerprint rt right).getD "")
  by_cases hleft : setLeft.length = 0 <;> by_cases hright : setRight.length = 0
  · simp [hleft, hright]
  · simp [hleft, hright]
  · simp [hleft, hright]
  · simp only [hleft, hright, and_self, or_self, if_false]
    rw [hshared setLeft setRight (nodup_dedup _) (nodup_dedup _), add_comm (setLeft.length : ℚ)]

/-- Both have a fingerprint, and these are similar enough. -/
def NearDuplicate (config : SelfPlagiarismConfig) (a b : OwnSubmissionRecord) : Prop :=
  ∃ printA printB, normalizeFingerprint rt a.fingerprint = some printA ∧
    normalizeFingerprint rt b.fingerprint = some printB ∧
    normalizeThreshold config.similarityThreshold ≤ fingerprintSimilarity rt printA printB

variable {rt} {a b : OwnSubmissionRecord}

theorem NearDuplicate.symm {config : SelfPlagiarismConfig}
    (h : NearDuplicate rt config a b) : NearDuplicate rt config b a := by
  obtain ⟨printA, printB, ha, hb, hsimilar⟩ := h
  exact ⟨printB, printA, hb, ha, by rwa [fingerprintSimilarity_comm]⟩

/-! ## The order of submissions -/

/-- No two submissions precede each other. -/
theorem submissionPrecedesSibling_asymm
    (hab : submissionPrecedesSibling rt a b = true) : submissionPrecedesSibling rt b a = false := by
  unfold submissionPrecedesSibling at hab ⊢
  dsimp only at hab ⊢
  split at hab
  · cases hab
  · split at hab
    · next hlt => rw [if_pos hlt]
    · next hge hle =>
      rw [if_neg hle, if_neg hge]
      split at hab
      · cases hab
      · split at hab
        · next hlt => rw [if_pos hlt]
        · next hge' hle' =>
          rw [if_neg hle', if_neg hge']
          split at hab
          · cases hab
          · next hrepos =>
            rw [if_neg (mt Or.symm hrepos)]
            exact decide_eq_false (lt_asymm (of_decide_eq_true hab))

theorem submissionPrecedesSibling_of_times {s t : ℤ}
    (ha : submissionTimeMs rt a.submittedAt = some s)
    (hb : submissionTimeMs rt b.submittedAt = some t) (hne : s ≠ t) :
    submissionPrecedesSibling rt a b = true ↔ s < t := by
  unfold submissionPrecedesSibling
  dsimp only
  rw [ha, hb, Option.getD_some, Option.getD_some]
  by_cases hlt : s < t
  · rw [if_neg (lt_asymm hlt), if_pos hlt]
    exact iff_of_true rfl hlt
  · rw [if_pos (lt_of_le_of_ne (not_lt.1 hlt) (Ne.symm hne))]
    exact iff_of_false (by decide) hlt

/-! ## One check -/

section Check

variable {config : SelfPlagiarismConfig} {candidate : OwnSubmissionRecord}
  {recent : List OwnSubmissionRecord}

/-- The entries that a check compares the candidate with are the near duplicates among the recent
ones. -/
theorem mem_similar_iff {print : String}
    (hprint : normalizeFingerprint rt candidate.fingerprint = some print)
    (prior : OwnSubmissionRecord) :
    prior ∈ (recent.filterMap fun prior => (normalizeFingerprint rt prior.fingerprint).bind
      fun priorPrint =>
        if normalizeThreshold config.similarityThreshold ≤
          fingerprintSimilarity rt print priorPrint then
          some (prior, fingerprintSimilarity rt print priorPrint) else none).map Prod.fst ↔
      prior ∈ recent ∧ NearDuplicate rt config candidate prior := by
  simp only [mem_map, mem_filterMap, Option.bind_eq_some_iff, Option.ite_none_right_eq_some,
    Option.some.injEq]
  constructor
  · rintro ⟨entry, ⟨found, hfound, other, hother, hsimilar, rfl⟩, rfl⟩
    exact ⟨hfound, print, other, hprint, hother, hsimilar⟩
  · rintro ⟨hfound, printA, other, ha, hother, hsimilar⟩
    obtain rfl : print = printA := Option.some.inj (hprint.symm.trans ha)
    exact ⟨_, ⟨prior, hfound, other, hother, hsimilar, rfl⟩, rfl⟩

/-- A check allows a candidate that has a fingerprint and a time, and precedes all its near
duplicates, which have times too. -/
theorem selfPlagiarismCheck_allowed_iff :
    (selfPlagiarismCheck rt candidate recent config).allowed = true ↔
      normalizeFingerprint rt candidate.fingerprint ≠ none ∧
      submissionTimeMs rt candidate.submittedAt ≠ none ∧
      ∀ prior ∈ recent, NearDuplicate rt config candidate prior →
        submissionTimeMs rt prior.submittedAt ≠ none ∧
          submissionPrecedesSibling rt candidate prior = true := by
  unfold selfPlagiarismCheck
  dsimp only
  cases hprint : normalizeFingerprint rt candidate.fingerprint with
  | none => simp
  | some print =>
    simp only [← and_imp, ← mem_similar_iff hprint]
    generalize (recent.filterMap _).map Prod.fst = near
    split
    · next htime => simp [htime]
    · next htime =>
      have htimed : submissionTimeMs rt candidate.submittedAt ≠ none := htime
      simp only [ne_eq, reduceCtorEq, not_false_eq_true, htimed, true_and]
      split
      · next hnone => simp [hnone]
      · split
        · next huntimed =>
          obtain ⟨prior, hprior, hmissing⟩ := any_eq_true.1 huntimed
          exact iff_of_false (by decide) fun hall =>
            (hall prior hprior).1 (of_decide_eq_true hmissing)
        · next hall =>
          have hpriors : ∀ prior ∈ near, submissionTimeMs rt prior.submittedAt ≠ none := by
            simpa using hall
          split
          · next hwins =>
            exact iff_of_true rfl fun prior hprior =>
              ⟨hpriors prior hprior, all_eq_true.1 hwins prior hprior⟩
          · next hloses =>
            refine iff_of_false ?_ fun hall =>
              hloses (all_eq_true.2 fun prior hprior => (hall prior hprior).2)
            split <;> exact Bool.false_ne_true

end Check

/-! ## A cluster -/

/-- Submissions with fingerprints that are near duplicates of each other. -/
structure NearDuplicateCluster (rt : Runtime) (config : SelfPlagiarismConfig)
    (submissions : List OwnSubmissionRecord) : Prop where
  fingerprinted : ∀ submission ∈ submissions, normalizeFingerprint rt submission.fingerprint ≠ none
  near : submissions.Pairwise (NearDuplicate rt config)

/-- The check of one submission against all the others. -/
def allowedAmong (rt : Runtime) (config : SelfPlagiarismConfig)
    (submissions : List OwnSubmissionRecord) (i : Fin submissions.length) : Prop :=
  (selfPlagiarismCheck rt submissions[i] (submissions.eraseIdx i) config).allowed = true

/-- What the checks of a cluster make of it. -/
structure SparesOne (rt : Runtime) (config : SelfPlagiarismConfig)
    (submissions : List OwnSubmissionRecord) :
    Prop where
  unique : ∀ i j, allowedAmong rt config submissions i →
    allowedAmong rt config submissions j → i = j
  earliest : ∀ time : Fin submissions.length → ℤ, Function.Injective time →
    (∀ i, submissionTimeMs rt submissions[i].submittedAt = some (time i)) →
    ∀ i, allowedAmong rt config submissions i ↔ ∀ j, j ≠ i → time i < time j
  untimed : ∀ k : Fin submissions.length, submissionTimeMs rt submissions[k].submittedAt = none →
    ∀ i, ¬allowedAmong rt config submissions i

section Cluster

variable {config : SelfPlagiarismConfig} {submissions : List OwnSubmissionRecord}

theorem NearDuplicateCluster.near_of_ne (h : NearDuplicateCluster rt config submissions)
    {i j : Fin submissions.length} (hne : i ≠ j) :
    NearDuplicate rt config submissions[i] submissions[j] := by
  rcases lt_or_gt_of_ne hne with hlt | hgt
  · exact pairwise_iff_getElem.1 h.near i j i.2 j.2 hlt
  · exact (pairwise_iff_getElem.1 h.near j i j.2 i.2 hgt).symm

/-- A member of a cluster is allowed when it has a time and precedes all the others, which have
times too. -/
theorem NearDuplicateCluster.allowed_iff (h : NearDuplicateCluster rt config submissions)
    (i : Fin submissions.length) :
    allowedAmong rt config submissions i ↔ submissionTimeMs rt submissions[i].submittedAt ≠ none ∧
      ∀ j, j ≠ i → submissionTimeMs rt submissions[j].submittedAt ≠ none ∧
        submissionPrecedesSibling rt submissions[i] submissions[j] = true := by
  rw [allowedAmong, selfPlagiarismCheck_allowed_iff]
  have hfingerprint := h.fingerprinted submissions[i] (getElem_mem i.2)
  constructor
  · rintro ⟨-, htime, hall⟩
    refine ⟨htime, fun j hne => hall submissions[j] ?_ (h.near_of_ne (Ne.symm hne))⟩
    exact mem_eraseIdx_iff_getElem.2 ⟨j, j.2, fun heq => hne (Fin.ext heq), rfl⟩
  · rintro ⟨htime, hall⟩
    refine ⟨hfingerprint, htime, fun prior hprior _ => ?_⟩
    obtain ⟨j, hj, hne, rfl⟩ := mem_eraseIdx_iff_getElem.1 hprior
    exact hall ⟨j, hj⟩ fun heq => hne (congrArg Fin.val heq)

/-- **At most one of several near duplicates is allowed:** with distinct times the earliest, and
none when a time is missing. -/
theorem near_duplicates_spare_one (h : NearDuplicateCluster rt config submissions) :
    SparesOne rt config submissions := by
  refine ⟨fun i j hi hj => ?_, fun time hinjective htimes i => ?_, fun k hk i hi => ?_⟩
  · by_contra hne
    have hij := (((h.allowed_iff i).1 hi).2 j (Ne.symm hne)).2
    have hji := (((h.allowed_iff j).1 hj).2 i hne).2
    rw [submissionPrecedesSibling_asymm hij] at hji
    cases hji
  · have hprecedes : ∀ j, j ≠ i →
        (submissionPrecedesSibling rt submissions[i] submissions[j] = true ↔ time i < time j) :=
          fun j hne =>
      submissionPrecedesSibling_of_times (htimes i) (htimes j) fun heq => hne (hinjective heq).symm
    have htimed : ∀ j : Fin submissions.length,
        submissionTimeMs rt submissions[j].submittedAt ≠ none := by
      intro j
      rw [htimes j]
      exact Option.some_ne_none _
    rw [h.allowed_iff]
    constructor
    · rintro ⟨-, hall⟩ j hne
      exact (hprecedes j hne).1 (hall j hne).2
    · exact fun hall => ⟨htimed i, fun j hne => ⟨htimed j, (hprecedes j hne).2 (hall j hne)⟩⟩
  · obtain ⟨htime, hall⟩ := (h.allowed_iff i).1 hi
    by_cases hsame : k = i
    · rw [hsame] at hk
      exact htime hk
    · exact (hall k hsame).1 hk

end Cluster

/-- Two pull requests of one miner that touch the same file. -/
def samePatchTwice : List OwnSubmissionRecord :=
  [⟨"acme/widgets", "src/a.ts", some "2026-07-07T11:00:00.000Z", some 8, none⟩,
    ⟨"acme/gadgets", "src/a.ts", some "2026-07-07T10:00:00.000Z", some 9, none⟩]

/-- Reads the two times. -/
def patchRuntime : Runtime :=
  { asciiRuntime with
    dateParse := fun text => if text = "2026-07-07T10:00:00.000Z" then some 1783418400000
      else if text = "2026-07-07T11:00:00.000Z" then some 1783422000000 else none }

theorem near_duplicates_spare_one_twice :
    SparesOne patchRuntime defaultSelfPlagiarismConfig samePatchTwice := by
  refine near_duplicates_spare_one ⟨?_, pairwise_pair.2 ⟨"src/a.ts", "src/a.ts", ?_, ?_, ?_⟩⟩
  · decide
  · decide
  · decide
  · decide +kernel

end LoopOver
