import LoopOver.Executor.Host

/-!
# The freshness guard

`src/github/pr-freshness.ts`: whether the pull request, read live, is still open at the head and on
the base that were reviewed. `fetchPullRequestFreshness` makes the read and
`classifyPullRequestFreshness` judges it; `classify_eq_current` says what a pull request judged
current is known to be.

The draft check and the provenance of an unavailable read are left out: the executor never asks for
the one and never looks at the other.
-/

namespace LoopOver

variable (rt : Runtime)

/-- A commit hash without surrounding blanks and case; a blank one is none at all. -/
def normalizedHead (value : Option String) : Option String :=
  (truthy (value.map rt.trim)).map rt.toLowerCase

/-- Why a plan no longer fits its pull request. -/
inductive StaleReason
  | unavailable
  | closed
  | headUnresolved
  | headChanged
  | baseChanged
  deriving DecidableEq, Repr

/-- The live pull request against the planned one. -/
inductive PullRequestFreshness
  | current (liveHeadSha : Option String) (liveState : String) (liveLabels : List String)
  | stale (reason : StaleReason) (expectedHeadSha liveHeadSha liveState : Option String)
  deriving DecidableEq, Repr

/-- The names of the labels on the live pull request. -/
def LivePullRequest.labelNames (live : LivePullRequest) : List String :=
  live.labels.filterMap truthy

/-- Judge a live read against the reviewed head and base. -/
def classifyPullRequestFreshness (live : Option LivePullRequest) (expectedHeadSha : String)
    (expectedBaseRef : Option String) : PullRequestFreshness :=
  let expected := normalizedHead rt (some expectedHeadSha)
  match live with
  | none => .stale .unavailable expected none none
  | some live =>
    let liveHeadSha := normalizedHead rt live.headSha
    match truthy live.state with
    | none => .stale .unavailable expected liveHeadSha none
    | some liveState =>
      if liveState ≠ "open" then .stale .closed expected liveHeadSha (some liveState)
      else if expected.isSome && liveHeadSha.isNone then
        .stale .headUnresolved expected none (some liveState)
      else if expected.isSome && liveHeadSha != expected then
        .stale .headChanged expected liveHeadSha (some liveState)
      else if (truthy expectedBaseRef).isSome && (truthy live.baseRef).isSome &&
          live.baseRef != expectedBaseRef then
        .stale .baseChanged expected liveHeadSha (some liveState)
      else .current liveHeadSha liveState live.labelNames

/-- Why a stale pull request is stale, for the audit record. -/
def pullRequestFreshnessDetail : PullRequestFreshness → String
  | .current .. => "PR is current"
  | .stale .unavailable .. => "live PR state could not be verified"
  | .stale .closed _ _ liveState =>
    "PR is no longer open (live state: " ++ liveState.getD "unknown" ++ ")"
  | .stale .headUnresolved .. => "live PR head SHA could not be verified"
  | .stale .baseChanged .. =>
    "PR base branch changed since the diff/review/CI it will merge with were computed"
  | .stale .headChanged expected liveHeadSha _ =>
    "PR head changed from " ++ expected.getD "unknown" ++ " to " ++ liveHeadSha.getD "unknown"

/-- Read the pull request live, with the installation's token or else the public one. -/
def fetchPullRequestFreshness (env : AgentEnv) (expectedHeadSha : String)
    (expectedBaseRef : Option String) : Exec PullRequestFreshness := do
  let installationToken := (← ask .createInstallationToken).toOption
  match truthy (installationToken <|> env.githubPublicToken) with
  | none => pure (classifyPullRequestFreshness rt none expectedHeadSha expectedBaseRef)
  | some token =>
    match ← ask (.fetchLivePullRequestResult token installationToken.isSome) with
    | .error _ => pure (classifyPullRequestFreshness rt none expectedHeadSha expectedBaseRef)
    | .ok live => pure (classifyPullRequestFreshness rt (some live) expectedHeadSha expectedBaseRef)

/-! ## What a current pull request is known to be -/

/-- The live pull request is open, at the pinned head where the pin is not blank, and not on another
base than the expected one. -/
structure LivePullRequest.IsCurrent (live : LivePullRequest) (pin : String)
    (expectedBaseRef : Option String) : Prop where
  isOpen : live.state = some "open"
  head : ∀ sha, normalizedHead rt (some pin) = some sha → normalizedHead rt live.headSha = some sha
  base : ∀ base ref, truthy expectedBaseRef = some base → truthy live.baseRef = some ref →
    ref = base

theorem eq_some_of_truthy {value : Option String} {s : String} (h : truthy value = some s) :
    value = some s :=
  (Option.filter_eq_some_iff.1 h).1

variable {rt}

theorem classify_eq_current {live : Option LivePullRequest} {pin : String} {base : Option String}
    {head : Option String} {state : String} {labels : List String}
    (h : classifyPullRequestFreshness rt live pin base = .current head state labels) :
    ∃ l, live = some l ∧ l.IsCurrent rt pin base ∧ labels = l.labelNames := by
  cases live with
  | none => simp [classifyPullRequestFreshness] at h
  | some l =>
    refine ⟨l, rfl, ?_⟩
    simp only [classifyPullRequestFreshness] at h
    cases hstate : truthy l.state with
    | none => simp [hstate] at h
    | some liveState =>
      simp only [hstate] at h
      split at h
      · cases h
      next hopen =>
        split at h
        · cases h
        next hresolved =>
          split at h
          · cases h
          next hhead =>
            split at h
            · cases h
            next hbase =>
              simp only [PullRequestFreshness.current.injEq] at h
              refine ⟨⟨?_, ?_, ?_⟩, h.2.2.symm⟩
              · rw [eq_some_of_truthy hstate, not_not.1 hopen]
              · intro sha hsha
                simpa [hsha] using hhead
              · intro b ref hb href
                have heq : l.baseRef = base := by simpa [hb, href] using hbase
                rw [eq_some_of_truthy href, eq_some_of_truthy hb] at heq
                exact Option.some.inj heq

/-- **A read judged current** is in the trace. -/
theorem fetchPullRequestFreshness_current {env : AgentEnv} {pin : String} {base : Option String}
    {s s' : ExecutorState} {t : List HostEvent} {head : Option String} {state : String}
    {labels : List String}
    (h : (fetchPullRequestFreshness rt env pin base).Ends s t
      (.ok (.current head state labels)) s') :
    ∃ token own live, ⟨.fetchLivePullRequestResult token own, .ok live⟩ ∈ t ∧
      live.IsCurrent rt pin base ∧ labels = live.labelNames := by
  obtain ⟨reply, back, rfl, hread⟩ := Script.ends_ask_bind.1 h
  dsimp only at hread
  split at hread
  · obtain ⟨-, hjudged, -⟩ := Script.ends_pure.1 hread
    obtain ⟨l, hl, -⟩ := classify_eq_current (Except.ok.inj hjudged).symm
    cases hl
  next token _ =>
    obtain ⟨result, back, rfl, hjudge⟩ := Script.ends_ask_bind.1 hread
    split at hjudge
    · obtain ⟨-, hjudged, -⟩ := Script.ends_pure.1 hjudge
      obtain ⟨l, hl, -⟩ := classify_eq_current (Except.ok.inj hjudged).symm
      cases hl
    next live =>
      obtain ⟨rfl, hjudged, -⟩ := Script.ends_pure.1 hjudge
      obtain ⟨l, hl, hcurrent, hlabels⟩ := classify_eq_current (Except.ok.inj hjudged).symm
      obtain rfl := Option.some.inj hl
      exact ⟨token, _, live, List.mem_cons_of_mem _ List.mem_cons_self, hcurrent, hlabels⟩

end LoopOver
