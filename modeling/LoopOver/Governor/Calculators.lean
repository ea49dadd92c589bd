import LoopOver.Contract.Digest
import LoopOver.Number
import LoopOver.Text
import Mathlib.Data.List.Dedup

/-!
# The other calculators of the governor

The pure calculators of `packages/loopover-engine/src/governor/` that the chokepoint asks besides
the rate limits and the reputation throttle: the kill switch, the action mode, the caps on budget,
turns and time, the detector of items that do not converge (`portfolio/non-convergence.ts`), and the
comparison of a submission with the miner's own recent ones.
-/

namespace LoopOver

/-- The events of the governor ledger. -/
inductive GovernorLedgerEventType
  | allowed
  | denied
  | throttled
  | killSwitch
  deriving DecidableEq

/-- How the ledger writes an event. -/
def GovernorLedgerEventType.text : GovernorLedgerEventType → String
  | .allowed => "allowed"
  | .denied => "denied"
  | .throttled => "throttled"
  | .killSwitch => "kill_switch"

/-! ## The kill switch and the action mode -/

/-- What the kill switch stops, if anything. -/
inductive MinerKillSwitchScope
  | global
  | repo
  | none
  deriving DecidableEq

/-- How a scope is written. -/
def MinerKillSwitchScope.text : MinerKillSwitchScope → String
  | .global => "global"
  | .repo => "repo"
  | .none => "none"

/-- The global switch comes before that of a repository. -/
def resolveMinerKillSwitch (global : Bool) (repoPaused : Option Bool) : MinerKillSwitchScope :=
  if global then .global else if repoPaused = some true then .repo else .none

/-- Something is stopped. -/
def isMinerKillSwitchActive (scope : MinerKillSwitchScope) : Bool := scope != .none

/-- What a miner may do with its actions. -/
inductive MinerActionMode
  | paused
  | dryRun
  | live
  deriving DecidableEq

/-- Only the exact text opts in. -/
def isExplicitMinerLiveModeOptIn : Option Json → Bool
  | some (.string value) => value == "live"
  | _ => false

/-- Live needs the opt-in of both, and no kill switch. -/
def resolveMinerActionMode (killSwitchScope : MinerKillSwitchScope)
    (repoLiveModeOptIn : Option Json) (globalLiveModeOptIn : Bool) : MinerActionMode :=
  if isMinerKillSwitchActive killSwitchScope then .paused
  else if globalLiveModeOptIn && isExplicitMinerLiveModeOptIn repoLiveModeOptIn then .live
  else .dryRun

/-- Only the live mode writes. -/
def minerActionModeExecutes (mode : MinerActionMode) : Bool := mode == .live

/-! ## Caps -/

/-- The caps of a run. -/
structure GovernorCapLimits where
  budget : JsNumber
  turns : JsNumber
  elapsedMs : JsNumber

/-- What a run has used up. -/
structure GovernorCapUsage where
  budgetSpent : JsNumber
  turnsTaken : JsNumber
  elapsedMs : JsNumber

/-- One cap beside its use. -/
structure GovernorCapDimension where
  limit : ℚ
  used : ℚ
  remaining : ℚ
  exceeded : Bool
  deriving DecidableEq

/-- The verdict on a run, with its three dimensions. -/
structure GovernorCapReport where
  verdict : GovernorLedgerEventType
  budget : GovernorCapDimension
  turns : GovernorCapDimension
  termination : GovernorCapDimension
  deriving DecidableEq

/-- A number that is not finite counts as zero. -/
def finiteNonNegative (value : JsNumber) : ℚ := max 0 (value.finiteOr 0)

/-- A cap is exceeded once it is reached. -/
def evaluateDimension (used limit : ℚ) : GovernorCapDimension :=
  ⟨limit, used, max 0 (limit - used), limit ≤ used⟩

/-- Too long a run is killed; a spent budget or too many turns deny. -/
def evaluateGovernorCaps (usage : GovernorCapUsage) (limits : GovernorCapLimits) :
    GovernorCapReport :=
  let budget :=
    evaluateDimension (finiteNonNegative usage.budgetSpent) (finiteNonNegative limits.budget)
  let turns :=
    evaluateDimension usage.turnsTaken.finiteNonNegativeInt limits.turns.finiteNonNegativeInt
  let termination :=
    evaluateDimension (finiteNonNegative usage.elapsedMs) (finiteNonNegative limits.elapsedMs)
  let verdict : GovernorLedgerEventType :=
    if termination.exceeded then .killSwitch
    else if budget.exceeded || turns.exceeded then .denied
    else .allowed
  ⟨verdict, budget, turns, termination⟩

/-! ## Items that do not converge -/

/-- Whether the attempts at an item get anywhere. -/
inductive PortfolioConvergenceStatus
  | converging
  | stalled
  | nonConvergent
  deriving DecidableEq

/-- The history of an item. -/
structure PortfolioConvergenceInput where
  attempts : JsNumber
  consecutiveFailures : JsNumber
  reenqueues : JsNumber
  reachedDone : Bool

/-- From when on an item counts as stuck. -/
structure PortfolioConvergenceThresholds where
  maxConsecutiveFailures : JsNumber
  maxReenqueues : JsNumber

/-- `DEFAULT_PORTFOLIO_CONVERGENCE_THRESHOLDS`. -/
def defaultPortfolioConvergenceThresholds : PortfolioConvergenceThresholds := ⟨3, 3⟩

/-- The status of an item, with the reasons. -/
structure PortfolioConvergenceVerdict where
  status : PortfolioConvergenceStatus
  reasons : List String
  deriving DecidableEq

/-- An item that is done, or was never tried, is not stuck. -/
def classifyPortfolioConvergence (input : PortfolioConvergenceInput)
    (thresholds : PortfolioConvergenceThresholds) : PortfolioConvergenceVerdict :=
  let attempts := input.attempts.finiteNonNegativeInt
  let consecutiveFailures := input.consecutiveFailures.finiteNonNegativeInt
  let reenqueues := input.reenqueues.finiteNonNegativeInt
  let maxConsecutiveFailures := thresholds.maxConsecutiveFailures.finiteNonNegativeInt
  let maxReenqueues := thresholds.maxReenqueues.finiteNonNegativeInt
  if attempts = 0 then
    ⟨.converging, ["No attempts yet; a first attempt is not evidence of a stuck loop."]⟩
  else if input.reachedDone then ⟨.converging, ["Item reached done."]⟩
  else
    let reasons :=
      (if maxConsecutiveFailures ≤ consecutiveFailures then
        [toString consecutiveFailures ++ " consecutive failures (≥ " ++
          toString maxConsecutiveFailures ++ ")."]
      else []) ++
      (if maxReenqueues ≤ reenqueues then
        ["re-enqueued " ++ toString reenqueues ++ " times without reaching done (≥ " ++
          toString maxReenqueues ++
          ")."]
      else [])
    if reasons ≠ [] then ⟨.nonConvergent, reasons⟩
    else if 0 < consecutiveFailures ∨ 0 < reenqueues then
      ⟨.stalled,
        [toString consecutiveFailures ++ " consecutive failure(s), " ++ toString reenqueues ++
        " re-enqueue(s) — below the non-convergence threshold."]⟩
    else ⟨.converging, ["Attempts in progress with no failure streak."]⟩

/-! ## The miner's own recent submissions -/

/-- From which similarity on two submissions are near duplicates. -/
structure SelfPlagiarismConfig where
  similarityThreshold : JsNumber

/-- `DEFAULT_SELF_PLAGIARISM_SIMILARITY_THRESHOLD`. -/
def defaultSelfPlagiarismSimilarityThreshold : ℚ := 85 / 100

/-- `DEFAULT_SELF_PLAGIARISM_CONFIG`. -/
def defaultSelfPlagiarismConfig : SelfPlagiarismConfig :=
  ⟨.finite defaultSelfPlagiarismSimilarityThreshold⟩

/-- A submission of the miner, as it is remembered. -/
structure OwnSubmissionRecord where
  repoFullName : String
  fingerprint : String
  submittedAt : Option String
  pullRequestNumber : Option JsNumber
  issueNumber : Option JsNumber
  deriving DecidableEq

/-- Whether a submission may go out, and what it repeats. -/
structure SelfPlagiarismVerdict where
  allowed : Bool
  eventType : GovernorLedgerEventType
  reason : String
  matchedSubmission : Option OwnSubmissionRecord
  similarity : Option ℚ
  deriving DecidableEq

/-- Clamped; what is no finite number falls back to the default. -/
def normalizeThreshold : JsNumber → ℚ
  | .finite value => min 1 (max 0 value)
  | _ => defaultSelfPlagiarismSimilarityThreshold

section Submissions

variable (rt : Runtime)

/-- Trimmed and in lower case; a blank one is none. -/
def normalizeFingerprint (value : String) : Option String :=
  let trimmed := rt.toLowerCase (rt.trim value)
  if trimmed = "" then none else some trimmed

/-- The tokens between blanks, colons and commas; each once. -/
def tokenSet (fingerprint : String) : List String :=
  let pieces := fingerprint.toList.splitOnP fun c => isRegexSpace c || c == ':' || c == ','
  -- Separators in a row leave empty pieces between them, which are dropped like the others.
  ((pieces.map fun piece => rt.trim (String.ofList piece)).filter (· ≠ "")).dedup

example :
    tokenSet asciiRuntime "src/a.ts, src/b.ts:src/a.ts" = ["src/b.ts", "src/a.ts"] := by decide

/-- The Jaccard index of the tokens, where nothing is like nothing. -/
def fingerprintSimilarity (left right : String) : ℚ :=
  let setLeft := tokenSet rt ((normalizeFingerprint rt left).getD "")
  let setRight := tokenSet rt ((normalizeFingerprint rt right).getD "")
  if setLeft.length = 0 ∧ setRight.length = 0 then 1
  else if setLeft.length = 0 ∨ setRight.length = 0 then 0
  else
    let intersection := (setLeft.filter (· ∈ setRight)).length
    (intersection : ℚ) / ((setLeft.length : ℚ) + setRight.length - intersection)

/-- The time of a submission, where its text parses. -/
def submissionTimeMs (value : Option String) : Option ℤ := (truthy value).bind rt.dateParse

/-- The pull request breaks ties of the time, else the issue. -/
def submissionNumber (record : OwnSubmissionRecord) : ℚ :=
  match record.pullRequestNumber with
  | some (.finite number) => number
  | _ =>
    match record.issueNumber with
    | some (.finite number) => number
    | _ => 0

/-- The repository breaks ties of the number. -/
def repoTieBreaker (record : OwnSubmissionRecord) : String :=
  rt.toLowerCase (rt.trim record.repoFullName)

/-- Both have a time when this is asked. -/
def submissionPrecedesSibling (candidate sibling : OwnSubmissionRecord) : Bool :=
  let candidateTime := (submissionTimeMs rt candidate.submittedAt).getD 0
  let siblingTime := (submissionTimeMs rt sibling.submittedAt).getD 0
  if siblingTime < candidateTime then false
  else if candidateTime < siblingTime then true
  else
    let candidateNumber := submissionNumber candidate
    let siblingNumber := submissionNumber sibling
    if siblingNumber < candidateNumber then false
    else if candidateNumber < siblingNumber then true
    else
      let candidateRepo := repoTieBreaker rt candidate
      let siblingRepo := repoTieBreaker rt sibling
      if siblingRepo = "" ∨ candidateRepo = "" then false
      else decide (utf16Units candidateRepo < utf16Units siblingRepo)

/-- The candidate precedes all its near duplicates. -/
def isSelfPlagiarismClusterWinner (candidate : OwnSubmissionRecord)
    (nearDuplicates : List OwnSubmissionRecord) : Bool :=
  nearDuplicates.all (submissionPrecedesSibling rt candidate)

/-- The first of the near duplicates that precedes the candidate and all others; each is an object
of its own. -/
def resolveSelfPlagiarismWinner (candidate : OwnSubmissionRecord)
    (nearDuplicates : List OwnSubmissionRecord) :
    Option OwnSubmissionRecord :=
  (nearDuplicates.zipIdx.find? fun sibling =>
    isSelfPlagiarismClusterWinner rt sibling.1 (candidate :: nearDuplicates.eraseIdx sibling.2)).map
      Prod.fst

/-- Of near duplicates only the earliest goes out; missing data denies. -/
def selfPlagiarismCheck (candidate : OwnSubmissionRecord)
    (recentOwnSubmissions : List OwnSubmissionRecord) (config : SelfPlagiarismConfig) :
    SelfPlagiarismVerdict :=
  let threshold := normalizeThreshold config.similarityThreshold
  match normalizeFingerprint rt candidate.fingerprint with
  | none => ⟨false, .denied, "missing_candidate_fingerprint", none, none⟩
  | some candidatePrint =>
    if submissionTimeMs rt candidate.submittedAt = none then
      ⟨false, .denied, "missing_candidate_submitted_at", none, none⟩
    else
      let near := recentOwnSubmissions.filterMap fun prior =>
        (normalizeFingerprint rt prior.fingerprint).bind fun priorPrint =>
          let similarity := fingerprintSimilarity rt candidatePrint priorPrint
          if threshold ≤ similarity then some (prior, similarity) else none
      let nearDuplicates := near.map Prod.fst
      let bestSimilarity := near.foldl (fun best entry => max best entry.2) 0
      if nearDuplicates = [] then
        ⟨true, .allowed, "distinct_from_recent_own_submissions", none, none⟩
      else if nearDuplicates.any fun prior => submissionTimeMs rt prior.submittedAt = none then
        ⟨false, .denied, "missing_prior_submitted_at", none, none⟩
      else if isSelfPlagiarismClusterWinner rt candidate nearDuplicates then
        ⟨true, .allowed, "earliest_near_duplicate_claimant", none, none⟩
      else
        match resolveSelfPlagiarismWinner rt candidate nearDuplicates with
        | none => ⟨false, .denied, "ambiguous_election_tie", none, none⟩
        | some winner =>
          let matchedPrint := (normalizeFingerprint rt winner.fingerprint).getD ""
          ⟨false, .throttled, "near_duplicate_self_plagiarism", some winner,
            some (if 0 < bestSimilarity then bestSimilarity
              else fingerprintSimilarity rt candidatePrint matchedPrint)⟩

end Submissions

end LoopOver
