import LoopOver.Duplicates.Winner
import LoopOver.Gate.Policy
import Mathlib.Data.String.Basic

/-!
# The duplicate finding of an advisory

`buildPullRequestAdvisory` of `src/rules/advisory.ts` collects the findings on a pull request. With
the winner election on, the winner of a cluster of duplicates gets no duplicate finding. The caller
resolves the pull request's own claim time from the ledger of claims, for the contested issues only
(`resolveScopedLinkedIssueClaimedAt` of `src/queue/duplicate-detection.ts`), while the siblings are
compared by their stored column.

* `noDuplicate_linkedIssueFindings` says when a run makes no duplicate finding.
* **`advisories_spare_one_iff`**: exactly one pull request of a cluster goes without a duplicate
  finding precisely when its claims are `OneAhead`.
* `advisories_spare_none` is a cluster of two where nobody does.
-/

variable (repo : Option AdvisoryRepository)

namespace LoopOver

open List

/-! ## What the advisory reads -/

/-- What the advisory reads of a stored pull request. -/
structure AdvisoryPullRequest where
  number : ℕ
  state : String := "open"
  authorLogin : Option String := none
  authorAssociation : Option String := none
  labels : List String := []
  linkedIssues : List ℕ := []
  linkedIssueClaimedAt : Option String := none
  /-- `some none` is a stored `null`: no body was read yet. -/
  bodyObservedAt : Option (Option String) := none
  changedFiles : Option (List String) := none
  copycatScore : Option JsNumber := none
  copycatMatchedPullNumber : Option ℕ := none
  deriving DecidableEq

structure RegistryConfig where
  issueDiscoveryShare : JsNumber
  maintainerCut : JsNumber
  /-- The keys of `labelMultipliers`. -/
  labelPatterns : List String := []

structure AdvisoryRepository where
  isRegistered : Bool
  registryConfig : Option RegistryConfig

structure SupersededByRival where
  issueNumber : ℕ
  rivalPullNumber : ℕ

/-- What the caller resolved for the advisory. -/
structure PullRequestFindingSignals where
  otherOpenPullRequests : List AdvisoryPullRequest
  requireLinkedIssue : Bool
  duplicateWinnerEnabled : Bool
  linkedIssueAuthorLogins : List (Option String)
  confirmedNoOpenLinkedIssue : Bool
  copycatGateMode : Option CopycatGateMode
  copycatGateMinScore : Option JsNumber
  /-- The claim time on the contested issues; `none` when the caller resolved none. -/
  scopedLinkedIssueClaimedAt : Option (Option String)
  supersededBy : Option SupersededByRival

/-- The text functions of the advisory: `labelMatchesPattern` is the glob of
`scoring/label-match.ts`. -/
structure AdvisoryRuntime extends Runtime where
  toUpperCase : String → String
  labelMatchesPattern : String → String → Bool

/-! ## Overlapping pull requests -/

/-- A threshold is rounded and clamped; what is no finite number is the default. -/
def normalizeMinScore : Option JsNumber → ℤ
  | some (.finite value) => min 100 (max 0 ⌊value + 1 / 2⌋)
  | _ => 85

def copycatWouldActOnPersistedScore (score : Option JsNumber) (matchedPullNumber : Option ℕ)
    (mode : Option CopycatGateMode) (minScore : Option JsNumber) : Bool :=
  mode.getD .off != .off && matchedPullNumber.isSome &&
    match score with
    | some (.finite value) => decide ((normalizeMinScore minScore : ℚ) ≤ value)
    | _ => false

/-- The open sibling that the stored copycat score names. -/
def resolveCopycatDuplicateSibling (pr : AdvisoryPullRequest)
    (otherOpenPullRequests : List AdvisoryPullRequest) (copycatGateMode : Option CopycatGateMode)
    (copycatGateMinScore : Option JsNumber) : Option AdvisoryPullRequest :=
  if copycatWouldActOnPersistedScore pr.copycatScore pr.copycatMatchedPullNumber copycatGateMode
      copycatGateMinScore then
    otherOpenPullRequests.find? fun otherPr => some otherPr.number == pr.copycatMatchedPullNumber
  else none

def linkedIssueOverlapPrs (pr : AdvisoryPullRequest)
    (otherOpenPullRequests : List AdvisoryPullRequest) : List AdvisoryPullRequest :=
  otherOpenPullRequests.filter fun otherPr =>
    otherPr.linkedIssues.any fun issueNumber => pr.linkedIssues.contains issueNumber

/-- The siblings on a common issue, and the copycat sibling when it is not among them. -/
def overlappingPrs (linkedPrs : List AdvisoryPullRequest) :
    Option AdvisoryPullRequest → List AdvisoryPullRequest
  | some copycatSibling =>
    if linkedPrs.any fun otherPr => otherPr.number == copycatSibling.number then linkedPrs
    else linkedPrs ++ [copycatSibling]
  | none => linkedPrs

/-- Evidence beyond the text of a body: common changed files, or a sibling that changes any. -/
def hasDuplicateOverlapCorroboration (pr otherPr : AdvisoryPullRequest) (isCopycatMatch : Bool) :
    Bool :=
  isCopycatMatch ||
    (match pr.changedFiles, otherPr.changedFiles with
      | some mine, some theirs => !mine.isEmpty && !theirs.isEmpty && theirs.any mine.contains
      | _, _ => false) ||
    match otherPr.changedFiles with
    | some theirs => !theirs.isEmpty
    | none => false

/-! ## Findings -/

def numberList (prs : List AdvisoryPullRequest) : String :=
  ", ".intercalate (prs.map fun otherPr => s!"#{otherPr.number}")

/-- `otherPr` is a corroborated duplicate of `pr`; the copycat sibling always is. -/
def corroborates (pr : AdvisoryPullRequest) (copycatSibling : Option AdvisoryPullRequest)
    (otherPr : AdvisoryPullRequest) : Bool :=
  hasDuplicateOverlapCorroboration pr otherPr
    (some otherPr.number == copycatSibling.map AdvisoryPullRequest.number)

/-- The findings on a pull request that is not spared. -/
def duplicateFindings (pr : AdvisoryPullRequest) (overlapping : List AdvisoryPullRequest)
    (copycatSibling : Option AdvisoryPullRequest) : List AdvisoryFinding :=
  let corroboratedPrs := overlapping.filter fun otherPr => corroborates pr copycatSibling otherPr
  let uncorroboratedPrs := overlapping.filter fun otherPr => !corroborates pr copycatSibling otherPr
  (if corroboratedPrs.isEmpty then [] else
    [{ code := "duplicate_pr_risk"
       severity := .warning
       title := "Linked issue overlaps another open PR with corroborating changes"
       detail := "Other open pull requests show corroborating overlap (shared linked issue with " ++
         "changed-file/diff evidence, and/or a content-similarity match): " ++
         numberList corroboratedPrs ++ "."
       action :=
         some <| "This looks like a genuine race for the same issue. Coordinate with the " ++
         "other contributor, or wait for a maintainer to triage before assuming priority." }]) ++
  (if uncorroboratedPrs.isEmpty then [] else
    [{ code := "duplicate_pr_risk_unconfirmed"
       severity := .info
       title := "Linked issue is also cited by another open PR"
       detail :=
         "Other open pull requests cite the same linked issue number, with no corroborating " ++
         "changed-file evidence yet: " ++ numberList uncorroboratedPrs ++ "."
       action :=
         some <| "This may be coincidental, or an early race that hasn't produced comparable " ++
         "code yet — verify manually before assuming it's a genuine duplicate." }])

/-- The finding on a pull request without an open linked issue. -/
def missingLinkedIssueFinding (noLinkedIssueCited : Bool) :
    Option SupersededByRival → AdvisoryFinding
  | some rival =>
    { code := "linked_issue_superseded"
      severity := .warning
      title := "Superseded by a merged pull request"
      detail :=
        s!"Issue #{rival.issueNumber} was closed by #{rival.rivalPullNumber}, which merged " ++
        "after this pull request opened. The work this pull request targets is already on the " ++
        "default branch."
      action :=
        some <| "Nothing is wrong with the issue link. If part of this pull request is still " ++
        s!"unaddressed by #{rival.rivalPullNumber}, open a new issue describing what remains." }
  | none =>
    { code := "missing_linked_issue"
      severity := .warning
      title := "No linked issue detected"
      detail := if noLinkedIssueCited then
          "No closing reference or linked issue number was found in the PR metadata/body."
        else "The PR cites an issue number, but it could not be verified as a currently open issue."
      action :=
        some <| "If this PR is intended to solve an issue, link it explicitly in the PR body." }

section Definitions

variable (rt : AdvisoryRuntime)

/-- The own entry of `pr` in the election. -/
def claimMemberForElection (pr : AdvisoryPullRequest) (signals : PullRequestFindingSignals) :
    DuplicateClaimMember :=
  ⟨pr.number, signals.scopedLinkedIssueClaimedAt.getD pr.linkedIssueClaimedAt⟩

/-- The entry of a sibling in the election, by its column. -/
def AdvisoryPullRequest.claimMember (pr : AdvisoryPullRequest) : DuplicateClaimMember :=
  ⟨pr.number, pr.linkedIssueClaimedAt⟩

/-- The linked issue is required, and none was cited or none of those cited is open. -/
def lacksLinkedIssue (pr : AdvisoryPullRequest) (signals : PullRequestFindingSignals) : Bool :=
  (pr.linkedIssues.isEmpty && pr.bodyObservedAt != some none ||
    signals.confirmedNoOpenLinkedIssue) &&
    signals.requireLinkedIssue

/-- The findings on the linked issue: it is missing, or other open pull requests are after it. -/
def linkedIssueFindings (pr : AdvisoryPullRequest) (signals : PullRequestFindingSignals) :
    List AdvisoryFinding :=
  if lacksLinkedIssue pr signals then
    [missingLinkedIssueFinding (pr.linkedIssues.isEmpty && pr.bodyObservedAt != some none)
      signals.supersededBy]
  else
    let copycatSibling := resolveCopycatDuplicateSibling pr signals.otherOpenPullRequests
      signals.copycatGateMode signals.copycatGateMinScore
    let overlapping :=
      overlappingPrs (linkedIssueOverlapPrs pr signals.otherOpenPullRequests) copycatSibling
    if !overlapping.isEmpty && !(signals.duplicateWinnerEnabled &&
        isDuplicateClusterWinnerByClaim rt.toRuntime (claimMemberForElection pr signals)
          (overlapping.map AdvisoryPullRequest.claimMember)) then
      duplicateFindings pr overlapping copycatSibling
    else []

def isMaintainerAuthorAssociation (association : Option String) : Bool :=
  association.any fun text =>
    ["OWNER", "MEMBER", "COLLABORATOR"].contains (rt.toUpperCase (rt.trim text))

def selfAuthoredLinkedIssue (pr : AdvisoryPullRequest) (signals : PullRequestFindingSignals) :
    Bool :=
  !pr.linkedIssues.isEmpty && (truthy pr.authorLogin).any fun author =>
    signals.linkedIssueAuthorLogins.any fun login => login.any (rt.sameText · author)

/-- The findings after those on the linked issue. -/
def contextFindings (repo : Option AdvisoryRepository) (pr : AdvisoryPullRequest)
    (signals : PullRequestFindingSignals) : List AdvisoryFinding :=
  let patterns :=
    ((repo.bind AdvisoryRepository.registryConfig).map RegistryConfig.labelPatterns).getD []
  let matchedLabels := pr.labels.filter fun label => patterns.any (rt.labelMatchesPattern label)
  (if selfAuthoredLinkedIssue rt pr signals then
    [{ code := "self_authored_linked_issue"
       severity := .warning
       title := "PR author also opened the linked issue"
       detail :=
         "The contributor who opened this PR also filed the linked issue. This pattern can " ++
         "indicate artificial issue-discovery work rather than solving an independently discovered " ++
         "problem."
       action :=
         some <| "Link an issue that was opened by a different contributor, or provide a " ++
         "rationale for why this self-authored issue represents genuine discovery work." }]
    else []) ++
  (if 10 ≤ signals.otherOpenPullRequests.length then
    [{ code := "busy_pr_queue"
       severity := .info
       title := "Review queue is busy"
       detail :=
         s!"LoopOver has {signals.otherOpenPullRequests.length} other open pull requests " ++
         "cached for this repository." }]
    else []) ++
  (if matchedLabels.isEmpty then [] else
    [{ code := "label_context_found"
       severity := .info
       title := "Configured label context found"
       detail := "Matched configured labels: " ++ ", ".intercalate matchedLabels ++ "." }]) ++
  (if isMaintainerAuthorAssociation rt pr.authorAssociation then
    [{ code := "maintainer_authored_pr"
       severity := .info
       title := "PR author has maintainer association"
       detail :=
         "GitHub marks this PR author as owner, member, or collaborator for the repository." }]
    else [])

def stateFindings (pr : AdvisoryPullRequest) : List AdvisoryFinding :=
  if pr.state = "open" then [] else
    [{ code := "pr_not_open"
       severity := .info
       title := "Pull request is not open"
       detail := s!"The pull request state is {pr.state}." }]

def addPullRequestFindings (repo : Option AdvisoryRepository) (pr : AdvisoryPullRequest)
    (signals : PullRequestFindingSignals) : List AdvisoryFinding :=
  stateFindings pr ++ linkedIssueFindings rt pr signals ++ contextFindings rt repo pr signals

/-- The findings on the registration of the repository. -/
def addRepoFindings (repo : AdvisoryRepository) : List AdvisoryFinding :=
  if !repo.isRegistered then
    [{ code := "repo_unregistered"
       severity := .warning
       title := "Repository is not registered in the latest snapshot"
       detail :=
         "This repository is installed in LoopOver, but the latest registry snapshot does " ++
         "not include it."
       action := some <| "Verify repository registration before relying on Gittensor-specific " ++
         "signals." }]
  else match repo.registryConfig with
    | none =>
      [{ code := "repo_config_missing"
         severity := .warning
         title := "Repository config was not parsed"
         detail := "The repository appears in the registry, but its config was not available in " ++
           "normalized form." }]
    | some config =>
      (if config.issueDiscoveryShare = 0 then
        [{ code := "issue_discovery_disabled"
           severity := .info
           title := "Issue discovery is disabled for this repo"
           detail := "The current Gittensor registry config routes this repository away from " ++
             "issue-discovery work." }]
      else if config.issueDiscoveryShare = 1 then
        [{ code := "direct_pr_pool_disabled"
           severity := .info
           title := "Direct PR scoring is disabled for this repo"
           detail := "The current Gittensor registry config routes this repository fully toward " ++
             "issue-discovery work." }]
      else []) ++
      (if JsNumber.lt 0 config.maintainerCut then
        [{ code := "maintainer_cut_enabled"
           severity := .info
           title := "Maintainer allocation is configured"
           detail := "This repo has a maintainer allocation configured in the registry." }]
      else [])

/-- The findings on the repository, which may not be stored yet. -/
def repositoryFindings : Option AdvisoryRepository → List AdvisoryFinding
  | none =>
    [{ code := "repo_not_cached"
       severity := .warning
       title := "Repository is not yet cached"
       detail := "LoopOver has not synced this repository yet, so repo-specific rules cannot be " ++
         "evaluated."
       action := some "Wait for the next repo sync, or re-deliver the installation webhook." }]
  | some repo => addRepoFindings repo

/-- The findings of an advisory. -/
def buildPullRequestAdvisory (repo : Option AdvisoryRepository) (pr : Option AdvisoryPullRequest)
    (signals : PullRequestFindingSignals) : List AdvisoryFinding :=
  repositoryFindings repo ++
  match pr with
  | none =>
    [{ code := "pr_not_cached"
       severity := .warning
       title := "Pull request is not cached"
       detail := "The GitHub webhook or manual fetch has not recorded this pull request yet."
       action := some "Re-deliver the webhook or wait for the next sync." }]
  | some pr => addPullRequestFindings rt repo pr signals

end Definitions

/-! ## The claim ledger -/

/-- A row of `linked_issue_claims`. -/
structure LinkedIssueClaim where
  repoFullName : String
  pullNumber : ℕ
  issueNumber : ℕ
  claimedAt : String

/-- The earliest recorded claim on one of the issues, in the order of the column's text. -/
def getEarliestLinkedIssueClaim (claims : List LinkedIssueClaim) (repoFullName : String)
    (pullNumber : ℕ) (issueNumbers : List ℕ) : Option String :=
  if issueNumbers.isEmpty then none
  else ((claims.filter fun row => row.repoFullName == sliceText 200 repoFullName &&
      row.pullNumber == pullNumber && issueNumbers.contains row.issueNumber).map
        LinkedIssueClaim.claimedAt).min?

/-- The claim time of `pr` on the issues that some sibling contests. -/
def resolveScopedLinkedIssueClaimedAt (claims : List LinkedIssueClaim) (repoFullName : String)
    (pr : AdvisoryPullRequest) (openSiblings : List AdvisoryPullRequest) : Option String :=
  let siblingIssues := openSiblings.flatMap AdvisoryPullRequest.linkedIssues
  let contestedIssues := pr.linkedIssues.filter siblingIssues.contains
  if contestedIssues.isEmpty then pr.linkedIssueClaimedAt
  else getEarliestLinkedIssueClaim claims repoFullName pr.number contestedIssues

/-- The signals of a run, with the claim time that every caller in `src/queue/processors.ts`
resolves for them. -/
def resolveSignals (claims : List LinkedIssueClaim) (repoFullName : String)
    (pr : AdvisoryPullRequest) (signals : PullRequestFindingSignals) : PullRequestFindingSignals :=
  { signals with
    scopedLinkedIssueClaimedAt := some <|
      if signals.duplicateWinnerEnabled && !signals.otherOpenPullRequests.isEmpty then
        resolveScopedLinkedIssueClaimedAt claims repoFullName pr signals.otherOpenPullRequests
      else pr.linkedIssueClaimedAt }

/-! ## When a run makes a duplicate finding -/

def AdvisoryFinding.IsDuplicate (finding : AdvisoryFinding) : Prop :=
  finding.code = "duplicate_pr_risk" ∨ finding.code = "duplicate_pr_risk_unconfirmed"

/-- No finding of the list is one on duplicates. -/
def NoDuplicate (findings : List AdvisoryFinding) : Prop := ∀ f ∈ findings, ¬f.IsDuplicate

section Findings

variable {rt : AdvisoryRuntime} {pr : AdvisoryPullRequest} {signals : PullRequestFindingSignals}
  {findings findings' : List AdvisoryFinding}

@[simp] theorem noDuplicate_nil : NoDuplicate [] := fun _ hf => absurd hf not_mem_nil

@[simp] theorem noDuplicate_append :
    NoDuplicate (findings ++ findings') ↔ NoDuplicate findings ∧ NoDuplicate findings' := by
  simp only [NoDuplicate, mem_append, or_imp, forall_and]

@[simp] theorem noDuplicate_singleton {f : AdvisoryFinding} : NoDuplicate [f] ↔ ¬f.IsDuplicate := by
  simp only [NoDuplicate, mem_singleton, forall_eq]

theorem noDuplicate_ite {p : Prop} [Decidable p] (h : NoDuplicate findings)
    (h' : NoDuplicate findings') :
    NoDuplicate (if p then findings else findings') := by
  split
  · exact h
  · exact h'

theorem noDuplicate_of_code (code : String) {f : AdvisoryFinding} (hcode : f.code = code)
    (h : code ∉ ["duplicate_pr_risk", "duplicate_pr_risk_unconfirmed"]) : NoDuplicate [f] := by
  subst hcode
  exact noDuplicate_singleton.2 fun hf => h (by simpa [AdvisoryFinding.IsDuplicate] using hf)

theorem noDuplicate_duplicateFindings {overlapping : List AdvisoryPullRequest}
    {copycatSibling : Option AdvisoryPullRequest} :
    NoDuplicate (duplicateFindings pr overlapping copycatSibling) ↔ overlapping = [] := by
  constructor
  · intro h
    by_contra hne
    obtain ⟨other, hother⟩ := exists_mem_of_ne_nil _ hne
    rw [duplicateFindings, noDuplicate_append] at h
    -- `other` is on one of the two sides
    cases hside : corroborates pr copycatSibling other with
    | true =>
      have hmem : other ∈ overlapping.filter fun otherPr =>
          corroborates pr copycatSibling otherPr :=
        mem_filter.2 ⟨hother, hside⟩
      rw [if_neg fun hempty => ne_nil_of_mem hmem (List.isEmpty_iff.1 hempty)] at h
      exact noDuplicate_singleton.1 h.1 (Or.inl rfl)
    | false =>
      have hmem : other ∈ overlapping.filter fun otherPr =>
          !corroborates pr copycatSibling otherPr :=
        mem_filter.2 ⟨hother, congrArg not hside⟩
      rw [if_neg fun hempty => ne_nil_of_mem hmem (List.isEmpty_iff.1 hempty)] at h
      exact noDuplicate_singleton.1 h.2 (Or.inr rfl)
  · rintro rfl
    exact noDuplicate_nil

theorem noDuplicate_addRepoFindings (repo : AdvisoryRepository) :
    NoDuplicate (addRepoFindings repo) := by
  unfold addRepoFindings
  refine noDuplicate_ite (noDuplicate_of_code "repo_unregistered" rfl (by decide)) ?_
  split
  · exact noDuplicate_of_code "repo_config_missing" rfl (by decide)
  · refine noDuplicate_append.2 ⟨?_, ?_⟩
    · refine noDuplicate_ite (noDuplicate_of_code "issue_discovery_disabled" rfl (by decide)) ?_
      exact noDuplicate_ite (noDuplicate_of_code "direct_pr_pool_disabled" rfl (by decide))
        noDuplicate_nil
    · exact noDuplicate_ite (noDuplicate_of_code "maintainer_cut_enabled" rfl (by decide))
        noDuplicate_nil

theorem noDuplicate_repositoryFindings :
    NoDuplicate (repositoryFindings repo) := by
  cases repo with
  | none => exact noDuplicate_of_code "repo_not_cached" rfl (by decide)
  | some repo => exact noDuplicate_addRepoFindings repo

theorem noDuplicate_contextFindings :
    NoDuplicate (contextFindings rt repo pr signals) := by
  unfold contextFindings
  refine noDuplicate_append.2 ⟨noDuplicate_append.2 ⟨noDuplicate_append.2 ⟨?_, ?_⟩, ?_⟩, ?_⟩
  · exact noDuplicate_ite (noDuplicate_of_code "self_authored_linked_issue" rfl (by decide))
      noDuplicate_nil
  · exact noDuplicate_ite (noDuplicate_of_code "busy_pr_queue" rfl (by decide)) noDuplicate_nil
  · exact noDuplicate_ite noDuplicate_nil
      (noDuplicate_of_code "label_context_found" rfl (by decide))
  · exact noDuplicate_ite (noDuplicate_of_code "maintainer_authored_pr" rfl (by decide))
      noDuplicate_nil

/-- Only the section on the linked issue makes a duplicate finding. -/
theorem noDuplicate_buildPullRequestAdvisory :
    NoDuplicate (buildPullRequestAdvisory rt repo (some pr) signals) ↔
      NoDuplicate (linkedIssueFindings rt pr signals) := by
  have hstate : NoDuplicate (stateFindings pr) :=
    noDuplicate_ite noDuplicate_nil (noDuplicate_of_code "pr_not_open" rfl (by decide))
  unfold buildPullRequestAdvisory addPullRequestFindings
  rw [noDuplicate_append, noDuplicate_append, noDuplicate_append]
  constructor
  · rintro ⟨-, ⟨-, h⟩, -⟩
    exact h
  · intro h
    exact ⟨noDuplicate_repositoryFindings repo, ⟨hstate, h⟩, noDuplicate_contextFindings repo⟩

/-- When all siblings link the issue of `pr`, the siblings are what overlaps. -/
theorem overlappingPrs_eq (hissue : ∃ issue ∈ pr.linkedIssues,
      ∀ other ∈ signals.otherOpenPullRequests, issue ∈ other.linkedIssues) :
    overlappingPrs (linkedIssueOverlapPrs pr signals.otherOpenPullRequests)
      (resolveCopycatDuplicateSibling pr signals.otherOpenPullRequests signals.copycatGateMode
        signals.copycatGateMinScore) = signals.otherOpenPullRequests := by
  obtain ⟨issue, hpr, hothers⟩ := hissue
  have hlinked : linkedIssueOverlapPrs pr signals.otherOpenPullRequests =
      signals.otherOpenPullRequests := by
    refine filter_eq_self.2 fun other hother => any_eq_true.2 ⟨issue, hothers other hother, ?_⟩
    exact contains_iff_mem.2 hpr
  rw [hlinked]
  cases hcopycat : resolveCopycatDuplicateSibling pr signals.otherOpenPullRequests
      signals.copycatGateMode signals.copycatGateMinScore with
  | none => rfl
  | some sibling =>
    have hmem : sibling ∈ signals.otherOpenPullRequests := by
      unfold resolveCopycatDuplicateSibling at hcopycat
      split at hcopycat
      · exact mem_of_find?_eq_some hcopycat
      · cases hcopycat
    rw [overlappingPrs, if_pos (any_eq_true.2 ⟨sibling, hmem, beq_self_eq_true sibling.number⟩)]

/-- A run of the election spares its pull request when the linked issue is at fault, or when it wins
against all siblings. -/
theorem noDuplicate_linkedIssueFindings (henabled : signals.duplicateWinnerEnabled = true)
    (hissue : ∃ issue ∈ pr.linkedIssues,
      ∀ other ∈ signals.otherOpenPullRequests, issue ∈ other.linkedIssues) :
    NoDuplicate (linkedIssueFindings rt pr signals) ↔
      lacksLinkedIssue pr signals = true ∨ ∀ other ∈ signals.otherOpenPullRequests,
        prPrecedesSibling rt.toRuntime (claimMemberForElection pr signals)
          other.claimMember = true := by
  have hwinner : isDuplicateClusterWinnerByClaim rt.toRuntime (claimMemberForElection pr signals)
        (signals.otherOpenPullRequests.map AdvisoryPullRequest.claimMember) = true ↔
      ∀ other ∈ signals.otherOpenPullRequests, prPrecedesSibling rt.toRuntime
        (claimMemberForElection pr signals) other.claimMember = true := by
    rw [isDuplicateClusterWinnerByClaim, all_map, all_eq_true]
    rfl
  unfold linkedIssueFindings
  split
  · next hlacks =>
    refine iff_of_true ?_ (Or.inl hlacks)
    cases signals.supersededBy with
    | none => exact noDuplicate_of_code "missing_linked_issue" rfl (by decide)
    | some rival => exact noDuplicate_of_code "linked_issue_superseded" rfl (by decide)
  · next hlacks =>
    simp only [overlappingPrs_eq hissue, henabled, Bool.true_and]
    rw [or_iff_right hlacks, ← hwinner]
    split
    · next hfound =>
      simp only [Bool.and_eq_true, Bool.not_eq_true', isEmpty_eq_false_iff] at hfound
      rw [noDuplicate_duplicateFindings, hfound.2]
      exact iff_of_false hfound.1 Bool.false_ne_true
    · next hspared =>
      refine iff_of_true noDuplicate_nil ?_
      by_contra hlost
      rw [Bool.not_eq_true] at hlost
      rw [hlost] at hspared
      refine hspared ?_
      rw [Bool.and_eq_true, Bool.not_eq_true', isEmpty_eq_false_iff]
      refine ⟨fun hnone => ?_, rfl⟩
      rw [hnone] at hlost
      cases hlost

end Findings

/-! ## The runs of a cluster -/

/-- A cluster of open pull requests with a common linked issue, all with a valid claim time, and the
inputs of the run that judges each of them: all the others are its siblings, in any order. -/
structure DuplicateCluster (rt : AdvisoryRuntime) where
  members : List AdvisoryPullRequest
  claims : List LinkedIssueClaim
  repoFullName : String
  repo : AdvisoryPullRequest → Option AdvisoryRepository
  signals : AdvisoryPullRequest → PullRequestFindingSignals
  members_ne_nil : members ≠ []
  numbers_nodup : (members.map AdvisoryPullRequest.number).Nodup
  common_issue : ∃ issue, ∀ pr ∈ members, issue ∈ pr.linkedIssues
  claimed : ∀ pr ∈ members, (claimTimeMs rt.toRuntime pr.linkedIssueClaimedAt).isSome
  enabled : ∀ pr ∈ members, (signals pr).duplicateWinnerEnabled = true
  siblings : ∀ pr ∈ members, (signals pr).otherOpenPullRequests.Perm
    (members.filter fun other => other.number != pr.number)

namespace DuplicateCluster

variable {rt : AdvisoryRuntime} (cluster : DuplicateCluster rt) {pr first m : AdvisoryPullRequest}

/-- The signals of the run of `pr`, with its claim time resolved. -/
def resolved (pr : AdvisoryPullRequest) : PullRequestFindingSignals :=
  resolveSignals cluster.claims cluster.repoFullName pr (cluster.signals pr)

/-- The run of `pr` makes no duplicate finding. -/
def Spared (pr : AdvisoryPullRequest) : Prop :=
  NoDuplicate (buildPullRequestAdvisory rt (cluster.repo pr) (some pr) (cluster.resolved pr))

/-- The run of `pr` reports the linked issue itself: it is required and confirmed not to be open. -/
def Unlinked (pr : AdvisoryPullRequest) : Prop := lacksLinkedIssue pr (cluster.signals pr) = true

/-- The scoped claim of `pr` comes before the column of `other`. -/
def Ahead (pr other : AdvisoryPullRequest) : Prop :=
  prPrecedesSibling rt.toRuntime (claimMemberForElection pr (cluster.resolved pr))
    other.claimMember = true

/-- The member with the first claim by the column. -/
def IsFirst (first : AdvisoryPullRequest) : Prop :=
  first ∈ cluster.members ∧
    ∀ m ∈ cluster.members, prPrecedesSibling rt.toRuntime first.claimMember m.claimMember = true

/-- The claims of a cluster whose runs spare one member, seen from its first claimant. -/
inductive OneAhead (first : AdvisoryPullRequest) : Prop
  /-- The scoped claim of the first claimant stays ahead of all columns, and no other scoped claim
  gets ahead of its column. -/
  | first (linked : ∀ pr ∈ cluster.members, ¬cluster.Unlinked pr)
      (stays : ∀ m ∈ cluster.members, m ≠ first → cluster.Ahead first m)
      (behind : ∀ pr ∈ cluster.members, pr ≠ first → ¬cluster.Ahead pr first)
  /-- The first claimant falls behind some column, and exactly one other gets ahead of its own. -/
  | other (linked : ∀ pr ∈ cluster.members, ¬cluster.Unlinked pr)
      (falls : ∃ m ∈ cluster.members, m ≠ first ∧ ¬cluster.Ahead first m)
      (overtakes : ∃! pr, pr ∈ cluster.members ∧ pr ≠ first ∧ cluster.Ahead pr first)
  /-- The linked issue of exactly one member is at fault, and nobody else is ahead. -/
  | unlinked (one : ∃! pr, pr ∈ cluster.members ∧ cluster.Unlinked pr)
      (falls : ¬cluster.Unlinked first → ∃ m ∈ cluster.members, m ≠ first ∧ ¬cluster.Ahead first m)
      (behind : ∀ pr ∈ cluster.members, ¬cluster.Unlinked pr → pr ≠ first → ¬cluster.Ahead pr first)

theorem mem_siblings (hpr : pr ∈ cluster.members) :
    m ∈ (cluster.signals pr).otherOpenPullRequests ↔ m ∈ cluster.members ∧ m ≠ pr := by
  rw [(cluster.siblings pr hpr).mem_iff, mem_filter, bne_iff_ne]
  refine and_congr_right fun hm => not_congr ⟨fun h => ?_, congrArg _⟩
  exact inj_on_of_nodup_map cluster.numbers_nodup hm hpr h

theorem spared_iff (hpr : pr ∈ cluster.members) :
    cluster.Spared pr ↔
      cluster.Unlinked pr ∨ ∀ m ∈ cluster.members, m ≠ pr → cluster.Ahead pr m := by
  obtain ⟨issue, hissue⟩ := cluster.common_issue
  have hcommon : ∃ issue ∈ pr.linkedIssues,
      ∀ other ∈ (cluster.resolved pr).otherOpenPullRequests, issue ∈ other.linkedIssues :=
    ⟨issue, hissue pr hpr, fun other hother => hissue other ((cluster.mem_siblings hpr).1 hother).1⟩
  have henabled : (cluster.resolved pr).duplicateWinnerEnabled = true := cluster.enabled pr hpr
  rw [Spared, noDuplicate_buildPullRequestAdvisory,
    noDuplicate_linkedIssueFindings henabled hcommon]
  refine or_congr Iff.rfl ⟨fun h m hm hne => ?_, fun h other hother => ?_⟩
  · exact h m ((cluster.mem_siblings hpr).2 ⟨hm, hne⟩)
  · obtain ⟨hmember, hne⟩ := (cluster.mem_siblings hpr).1 hother
    exact h other hmember hne

/-- Whoever is ahead of the first claimant is ahead of all. -/
theorem ahead_all_iff (hfirst : cluster.IsFirst first) (hne : pr ≠ first) :
    (∀ m ∈ cluster.members, m ≠ pr → cluster.Ahead pr m) ↔ cluster.Ahead pr first := by
  constructor
  · intro h
    exact h first hfirst.1 hne.symm
  · intro h m hm _
    exact prPrecedesSibling_trans h (hfirst.2 m hm)

theorem exists_isFirst : ∃ first, cluster.IsFirst first := by
  have hranked : ∀ m ∈ cluster.members.map AdvisoryPullRequest.claimMember,
      (m.rank rt.toRuntime).isSome := by
    intro m hm
    obtain ⟨pr, hpr, rfl⟩ := mem_map.1 hm
    rw [DuplicateClaimMember.rank, Option.isSome_map]
    exact cluster.claimed pr hpr
  obtain ⟨first, hmem, hleast⟩ := exists_first (mt map_eq_nil_iff.1 cluster.members_ne_nil) hranked
  obtain ⟨pr, hpr, rfl⟩ := mem_map.1 hmem
  exact ⟨pr, hpr, fun m hm => hleast _ (mem_map_of_mem hm)⟩

/-- What a run spares, seen from the first claimant. -/
theorem spared_iff_of_ne (hfirst : cluster.IsFirst first) (hpr : pr ∈ cluster.members)
    (hne : pr ≠ first) : cluster.Spared pr ↔ cluster.Unlinked pr ∨ cluster.Ahead pr first := by
  rw [cluster.spared_iff hpr, cluster.ahead_all_iff hfirst hne]

theorem oneAhead_of_spared (hfirst : cluster.IsFirst first)
    (h : ∃! pr, pr ∈ cluster.members ∧ cluster.Spared pr) : cluster.OneAhead first := by
  obtain ⟨winner, ⟨hwinner, hspared⟩, hunique⟩ := h
  have hlost : ∀ pr ∈ cluster.members, pr ≠ winner → ¬cluster.Spared pr := fun pr hpr hne hpr' =>
    hne (hunique pr ⟨hpr, hpr'⟩)
  have hfalls : winner ≠ first → ∃ m ∈ cluster.members, m ≠ first ∧ ¬cluster.Ahead first m := by
    intro hne
    have hlost' := hlost first hfirst.1 hne.symm
    rw [cluster.spared_iff hfirst.1] at hlost'
    push Not at hlost'
    exact hlost'.2
  by_cases hunlinked : cluster.Unlinked winner
  · refine .unlinked ⟨winner, ⟨hwinner, hunlinked⟩, fun pr hpr => ?_⟩ (fun hlinked => ?_)
      fun pr hpr hlinked hne hahead => ?_
    · exact hunique pr ⟨hpr.1, (cluster.spared_iff hpr.1).2 (Or.inl hpr.2)⟩
    · refine hfalls ?_
      rintro rfl
      exact hlinked hunlinked
    · refine hlost pr hpr ?_ ((cluster.spared_iff_of_ne hfirst hpr hne).2 (Or.inr hahead))
      rintro rfl
      exact hlinked hunlinked
  · have hlinked : ∀ pr ∈ cluster.members, ¬cluster.Unlinked pr := by
      intro pr hpr hpr'
      by_cases hne : pr = winner
      · exact hunlinked (hne ▸ hpr')
      · exact hlost pr hpr hne ((cluster.spared_iff hpr).2 (Or.inl hpr'))
    by_cases hwon : winner = first
    · subst hwon
      refine .first hlinked ((cluster.spared_iff hwinner).1 hspared |>.resolve_left hunlinked) ?_
      intro pr hpr hne hahead
      exact hlost pr hpr hne ((cluster.spared_iff_of_ne hfirst hpr hne).2 (Or.inr hahead))
    · refine .other hlinked (hfalls hwon) ⟨winner, ⟨hwinner, hwon, ?_⟩, ?_⟩
      · exact ((cluster.spared_iff_of_ne hfirst hwinner hwon).1 hspared).resolve_left hunlinked
      · rintro pr ⟨hpr, hne, hahead⟩
        exact hunique pr ⟨hpr, (cluster.spared_iff_of_ne hfirst hpr hne).2 (Or.inr hahead)⟩

theorem spared_of_oneAhead (hfirst : cluster.IsFirst first) (h : cluster.OneAhead first) :
    ∃! pr, pr ∈ cluster.members ∧ cluster.Spared pr := by
  -- when the first claimant is not spared, it falls behind some column
  have hfallen : (∃ m ∈ cluster.members, m ≠ first ∧ ¬cluster.Ahead first m) →
      ¬cluster.Unlinked first → ¬cluster.Spared first := by
    rintro ⟨m, hm, hne, hbehind⟩ hlinked hspared
    rcases (cluster.spared_iff hfirst.1).1 hspared with hunlinked | hahead
    · exact hlinked hunlinked
    · exact hbehind (hahead m hm hne)
  cases h with
  | first linked stays behind =>
    refine ⟨first, ⟨hfirst.1, (cluster.spared_iff hfirst.1).2 (Or.inr stays)⟩, ?_⟩
    rintro pr ⟨hpr, hspared⟩
    by_contra hne
    rcases (cluster.spared_iff_of_ne hfirst hpr hne).1 hspared with hunlinked | hahead
    · exact linked pr hpr hunlinked
    · exact behind pr hpr hne hahead
  | other linked falls overtakes =>
    obtain ⟨winner, ⟨hwinner, hne, hahead⟩, hunique⟩ := overtakes
    refine ⟨winner, ⟨hwinner, (cluster.spared_iff_of_ne hfirst hwinner hne).2 (Or.inr hahead)⟩, ?_⟩
    rintro pr ⟨hpr, hspared⟩
    have hpr' : pr ≠ first := by
      rintro rfl
      exact hfallen falls (linked pr hpr) hspared
    refine hunique pr ⟨hpr, hpr', ?_⟩
    exact ((cluster.spared_iff_of_ne hfirst hpr hpr').1 hspared).resolve_left (linked pr hpr)
  | unlinked one falls behind =>
    obtain ⟨winner, ⟨hwinner, hunlinked⟩, hunique⟩ := one
    refine ⟨winner, ⟨hwinner, (cluster.spared_iff hwinner).2 (Or.inl hunlinked)⟩, ?_⟩
    rintro pr ⟨hpr, hspared⟩
    by_cases hlinked : cluster.Unlinked pr
    · exact hunique pr ⟨hpr, hlinked⟩
    · exfalso
      by_cases hne : pr = first
      · subst hne
        exact hfallen (falls hlinked) hlinked hspared
      · rcases (cluster.spared_iff_of_ne hfirst hpr hne).1 hspared with hunlinked' | hahead
        · exact hlinked hunlinked'
        · exact behind pr hpr hlinked hne hahead

end DuplicateCluster

/-- **When a cluster keeps one pull request.** Exactly one member goes without a duplicate finding
precisely when the claims are `OneAhead` of the first claimant. -/
theorem advisories_spare_one_iff (rt : AdvisoryRuntime) (cluster : DuplicateCluster rt) :
    (∃! pr, pr ∈ cluster.members ∧ cluster.Spared pr) ↔
      ∃ first, cluster.IsFirst first ∧ cluster.OneAhead first := by
  constructor
  · intro h
    obtain ⟨first, hfirst⟩ := cluster.exists_isFirst
    exact ⟨first, hfirst, cluster.oneAhead_of_spared hfirst h⟩
  · rintro ⟨first, hfirst, h⟩
    exact cluster.spared_of_oneAhead hfirst h

/-! ## A cluster that keeps none -/

/-- ASCII letters, labels matched by their text, and the claim times of the example. -/
def claimAdvisoryRuntime : AdvisoryRuntime where
  toRuntime := claimRuntime
  toUpperCase text := String.ofList (text.toList.map Char.toUpper)
  labelMatchesPattern label pattern := label == pattern

/-- It claimed issue 1 first of all, and added issue 7 three weeks later. -/
def backdatedPr : AdvisoryPullRequest where
  number := 21
  linkedIssues := [1, 7]
  linkedIssueClaimedAt := some "2026-06-29T10:00:00.000Z"

/-- It claimed issue 7 when it was opened. -/
def genuinePr : AdvisoryPullRequest where
  number := 22
  linkedIssues := [7]
  linkedIssueClaimedAt := some "2026-07-01T00:00:00.000Z"

def backdatedSignals (pr : AdvisoryPullRequest) : PullRequestFindingSignals where
  otherOpenPullRequests := [backdatedPr, genuinePr].filter fun other => other.number != pr.number
  requireLinkedIssue := false
  duplicateWinnerEnabled := true
  linkedIssueAuthorLogins := []
  confirmedNoOpenLinkedIssue := false
  copycatGateMode := none
  copycatGateMinScore := none
  scopedLinkedIssueClaimedAt := none
  supersededBy := none

theorem backdated_numbers :
    ([backdatedPr, genuinePr].map AdvisoryPullRequest.number).Nodup := by decide

theorem backdated_issue : ∀ pr ∈ [backdatedPr, genuinePr], 7 ∈ pr.linkedIssues := by decide

theorem backdated_claimed : ∀ pr ∈ [backdatedPr, genuinePr],
    (claimTimeMs claimAdvisoryRuntime.toRuntime pr.linkedIssueClaimedAt).isSome := by decide

/-- The two pull requests with the rows that recording their claims leaves in the ledger. -/
def backdatedCluster : DuplicateCluster claimAdvisoryRuntime where
  members := [backdatedPr, genuinePr]
  claims := [⟨"owner/repo", 21, 1, "2026-06-29T10:00:00.000Z"⟩,
    ⟨"owner/repo", 21, 7, "2026-07-20T09:00:00.000Z"⟩,
    ⟨"owner/repo", 22, 7, "2026-07-01T00:00:00.000Z"⟩]
  repoFullName := "owner/repo"
  repo _ := none
  signals := backdatedSignals
  members_ne_nil := cons_ne_nil _ _
  numbers_nodup := backdated_numbers
  common_issue := ⟨7, backdated_issue⟩
  claimed := backdated_claimed
  enabled _ _ := rfl
  siblings _ _ := List.Perm.refl _

/-- Neither is spared: the one is too late on issue 7, and the other is compared with its column. -/
theorem advisories_spare_none :
    (∀ pr ∈ backdatedCluster.members, ¬backdatedCluster.Spared pr) ∧
      ¬∃! pr, pr ∈ backdatedCluster.members ∧ backdatedCluster.Spared pr := by
  have hbehind : ¬backdatedCluster.Unlinked backdatedPr ∧ ¬backdatedCluster.Unlinked genuinePr ∧
      ¬backdatedCluster.Ahead backdatedPr genuinePr ∧
        ¬backdatedCluster.Ahead genuinePr backdatedPr := by
    unfold DuplicateCluster.Unlinked DuplicateCluster.Ahead
    decide
  obtain ⟨hlinked, hlinked', hlate, hcolumn⟩ := hbehind
  have hmem : backdatedPr ∈ backdatedCluster.members := mem_cons_self
  have hmem' : genuinePr ∈ backdatedCluster.members := mem_cons_of_mem _ mem_cons_self
  have hnone : ∀ pr ∈ backdatedCluster.members, ¬backdatedCluster.Spared pr := by
    intro pr hpr hspared
    rcases mem_pair.1 hpr with rfl | rfl
    · rcases (backdatedCluster.spared_iff hmem).1 hspared with hunlinked | hahead
      · exact hlinked hunlinked
      · exact hlate (hahead genuinePr hmem' (by decide))
    · rcases (backdatedCluster.spared_iff hmem').1 hspared with hunlinked | hahead
      · exact hlinked' hunlinked
      · exact hcolumn (hahead backdatedPr hmem (by decide))
  exact ⟨hnone, fun ⟨pr, hpr, _⟩ => hnone pr hpr.1 hpr.2⟩

end LoopOver
