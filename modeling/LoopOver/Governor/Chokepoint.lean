import LoopOver.Governor.Calculators
import LoopOver.Governor.Reputation
import LoopOver.Governor.WriteRateLimit

/-!
# The governor chokepoint

`packages/loopover-engine/src/governor/chokepoint.ts`: every write of the miner passes one ladder of
checks, and the first that refuses decides. A check whose calculator throws refuses as well. The
ladder is written over the calculators as parameters that may throw, and
`evaluateGovernorChokepoint` is the ladder over those of the source; of these, only the random
source of the rate limit can throw.

* `ladder_ok` says when the ladder is passed, and `refuses_ladder` that every way out of it refuses.
* `tighter_effectivePolicies`: a slower cadence stretches the window, and
  `evaluateWriteRateLimit_anti`: that lets no write more through.
* **`evaluateGovernorChokepoint_conjunction`**: a write is allowed exactly when every check that is
  asked passes, whatever the calculators are; and a worse history never turns a refusal into an
  allowed write.
-/

variable (policies : WriteRateLimitPolicies)

namespace LoopOver

/-! ## What goes in and what comes out -/

/-- The rung that decided. -/
inductive GovernorDecisionStage
  | killSwitch
  | dryRun
  | rateLimit
  | budgetCap
  | nonConvergence
  | reputationThrottle
  | selfPlagiarism
  | allow
  | internalError
  deriving DecidableEq

def GovernorDecisionStage.text : GovernorDecisionStage → String
  | .killSwitch => "kill_switch"
  | .dryRun => "dry_run"
  | .rateLimit => "rate_limit"
  | .budgetCap => "budget_cap"
  | .nonConvergence => "non_convergence"
  | .reputationThrottle => "reputation_throttle"
  | .selfPlagiarism => "self_plagiarism"
  | .allow => "allow"
  | .internalError => "internal_error"

/-- The actions with a history and a fingerprint of their own. -/
def selfSubmissionActionClasses : List String := ["open_pr"]

/-- All that the rungs read. -/
structure GovernorChokepointInput where
  actionClass : String
  repoFullName : String
  nowMs : JsNumber
  wouldBeAction : Json
  killSwitchGlobal : Bool
  killSwitchRepoPaused : Option Bool
  liveModeGlobalOptIn : Bool
  liveModeRepoOptIn : Option Json
  rateLimitBuckets : WriteRateLimitBucketStore
  rateLimitBackoffAttempts : String → Option JsNumber
  rateLimitPolicies : Option WriteRateLimitPolicies
  /-- What a call of the random source does, if there is one. -/
  rateLimitRandomFn : Option (Except String JsNumber)
  capUsage : GovernorCapUsage
  capLimits : GovernorCapLimits
  convergenceInput : PortfolioConvergenceInput
  convergenceThresholds : Option PortfolioConvergenceThresholds
  reputationHistory : Option RepoOutcomeHistory
  reputationThresholds : Option SelfReputationThresholds
  selfPlagiarismCandidate : Option OwnSubmissionRecord
  selfPlagiarismRecentSubmissions : Option (List OwnSubmissionRecord)
  selfPlagiarismConfig : Option SelfPlagiarismConfig

structure GovernorDecisionDetail where
  killSwitchScope : MinerKillSwitchScope
  mode : MinerActionMode
  rateLimit : Option WriteRateLimitVerdict
  budgetCap : Option GovernorCapReport
  convergence : Option PortfolioConvergenceVerdict
  reputation : Option SelfReputationThrottleDecision
  selfPlagiarism : Option SelfPlagiarismVerdict
  effectiveRateLimitPolicies : Option WriteRateLimitPolicies

/-- A value in the payload of a ledger event. -/
inductive GovernorPayloadValue
  | null
  | text (value : String)
  | number (value : JsNumber)
  | dimension (value : GovernorCapDimension)
  | action (value : Json)

structure GovernorLedgerEvent where
  eventType : GovernorLedgerEventType
  repoFullName : String
  actionClass : String
  decision : String
  reason : String
  payload : List (String × GovernorPayloadValue)

/-- The verdict, with the row for the ledger. -/
structure GovernorDecision where
  allowed : Bool
  mode : MinerActionMode
  stage : GovernorDecisionStage
  reason : String
  detail : GovernorDecisionDetail
  ledgerEvent : GovernorLedgerEvent

/-- What the rate limit is asked with. -/
structure RateLimitQuestion where
  actionClass : String
  repoFullName : String
  buckets : WriteRateLimitBucketStore
  backoffAttempts : String → Option JsNumber
  policies : Option WriteRateLimitPolicies
  nowMs : JsNumber
  randomFn : Option (Except String JsNumber)

/-- The calculators that the ladder asks, each of which may throw. -/
structure GovernorCalculators where
  selfReputationThrottle : RepoOutcomeHistory → SelfReputationThresholds →
    Except String SelfReputationThrottleDecision
  evaluateWriteRateLimit : RateLimitQuestion → Except String WriteRateLimitVerdict
  evaluateGovernorCaps : GovernorCapUsage → GovernorCapLimits → Except String GovernorCapReport
  classifyPortfolioConvergence : PortfolioConvergenceInput → PortfolioConvergenceThresholds →
    Except String PortfolioConvergenceVerdict
  selfPlagiarismCheck : OwnSubmissionRecord → List OwnSubmissionRecord → SelfPlagiarismConfig →
    Except String SelfPlagiarismVerdict

/-! ## The ladder -/

/-- Stretch the window of the action class in the repository. -/
def scaleRateLimitPerRepoWindow (policies : WriteRateLimitPolicies) (actionClass : String)
    (cadenceFactor : JsNumber) : WriteRateLimitPolicies :=
  match policies.perRepo actionClass with
  | none => policies
  | some perRepoConfig =>
    { policies with
      perRepo := Function.update policies.perRepo actionClass
        (some { perRepoConfig with windowMs :=
          (perRepoConfig.windowMs.div (safeFactor cadenceFactor)).mathRound }) }

def denyResult (input : GovernorChokepointInput) (stage : GovernorDecisionStage) (reason : String)
    (mode : MinerActionMode) (detail : GovernorDecisionDetail) (eventType : GovernorLedgerEventType)
    (extraPayload : List (String × GovernorPayloadValue)) : GovernorDecision where
  allowed := false
  mode := mode
  stage := stage
  reason := reason
  detail := detail
  ledgerEvent :=
    { eventType := eventType
      repoFullName := input.repoFullName
      actionClass := input.actionClass
      decision := match eventType with
        | .killSwitch => "paused"
        | .throttled => "throttle"
        | _ => "deny"
      reason := reason
      payload := ("stage", .text stage.text) :: extraPayload }

section Ladder

variable (calculators : GovernorCalculators) (input : GovernorChokepointInput)

def killSwitchScopeOf : MinerKillSwitchScope :=
  resolveMinerKillSwitch input.killSwitchGlobal input.killSwitchRepoPaused

def modeOf : MinerActionMode :=
  resolveMinerActionMode (killSwitchScopeOf input) input.liveModeRepoOptIn input.liveModeGlobalOptIn

def baseDetail : GovernorDecisionDetail :=
  ⟨killSwitchScopeOf input, modeOf input, none, none, none, none, none, none⟩

/-- The verdict of a calculator; one that throws refuses. -/
def askCalculator {α : Type} (name : String) (detail : GovernorDecisionDetail)
    (result : Except String α) :
    Except GovernorDecision α :=
  match result with
  | .ok verdict => .ok verdict
  | .error message =>
    .error (denyResult input .internalError (name ++ "_calculator_error: " ++ message)
      (modeOf input) detail
      .denied [])

/-- The kill switch and the mode, which ask no calculator. -/
def modeStage : Except GovernorDecision Unit :=
  let scope := killSwitchScopeOf input
  if isMinerKillSwitchActive scope then
    .error (denyResult input .killSwitch (scope.text ++ "_kill_switch_active") (modeOf input)
      (baseDetail input)
      .killSwitch [])
  else if minerActionModeExecutes (modeOf input) then .ok ()
  else
    -- A shadow of the write: logged as allowed, but not executed.
    .error
      { allowed := false
        mode := modeOf input
        stage := .dryRun
        reason := "dry_run_mode_active"
        detail := baseDetail input
        ledgerEvent :=
          { eventType := .allowed
            repoFullName := input.repoFullName
            actionClass := input.actionClass
            decision := "dry_run"
            reason := "dry_run_mode_active"
            payload := [("wouldBeAction", .action input.wouldBeAction)] } }

def isSelfSubmissionAction : Bool := decide (input.actionClass ∈ selfSubmissionActionClasses)

/-- The reputation, computed ahead of the rate limit that it scales. -/
def reputationOf : Except GovernorDecision (Option SelfReputationThrottleDecision) :=
  match input.reputationHistory with
  | none => .ok none
  | some history =>
    if isSelfSubmissionAction input then do
      let decision ← askCalculator input "reputation_throttle" (baseDetail input)
        (calculators.selfReputationThrottle history
          (input.reputationThresholds.getD defaultSelfReputationThresholds))
      return some decision
    else .ok none

/-- Whether the reputation slows the rate down. -/
def degrades (reputation : Option SelfReputationThrottleDecision) : Option JsNumber :=
  (reputation.map (·.cadenceFactor)).filter (·.lt 1)

def effectivePolicies (reputation : Option SelfReputationThrottleDecision) :
    Option WriteRateLimitPolicies :=
  match degrades reputation with
  | some cadenceFactor =>
    some (scaleRateLimitPerRepoWindow (input.rateLimitPolicies.getD defaultWriteRateLimitPolicies)
      input.actionClass cadenceFactor)
  | none => input.rateLimitPolicies

def rateLimitQuestion (reputation : Option SelfReputationThrottleDecision) : RateLimitQuestion where
  actionClass := input.actionClass
  repoFullName := input.repoFullName
  buckets := input.rateLimitBuckets
  backoffAttempts := input.rateLimitBackoffAttempts
  policies := effectivePolicies input reputation
  nowMs := input.nowMs
  randomFn := input.rateLimitRandomFn

def rateLimitStage (reputation : Option SelfReputationThrottleDecision) :
    Except GovernorDecision GovernorDecisionDetail := do
  let rateLimit ← askCalculator input "rate_limit" (baseDetail input)
    (calculators.evaluateWriteRateLimit (rateLimitQuestion input reputation))
  let detail : GovernorDecisionDetail := { baseDetail input with
    rateLimit := some rateLimit
    effectiveRateLimitPolicies :=
      some ((effectivePolicies input reputation).getD defaultWriteRateLimitPolicies) }
  if rateLimit.allowed then return detail
  else
    throw (denyResult input .rateLimit rateLimit.reason (modeOf input) detail .throttled
      ([("retryAfterMs", .number (.finite rateLimit.retryAfterMs)),
        ("blockedBy", match rateLimit.blockedBy with
          | some .global => .text "global"
          | some .perRepo => .text "per_repo"
          | none => .null)] ++
      ((degrades reputation).map fun cadenceFactor =>
        ("reputationCadenceFactor", GovernorPayloadValue.number cadenceFactor)).toList))

def budgetCapStage (detail : GovernorDecisionDetail) :
    Except GovernorDecision GovernorDecisionDetail := do
  let budgetCap ← askCalculator input "budget_cap" detail
    (calculators.evaluateGovernorCaps input.capUsage input.capLimits)
  let detail := { detail with budgetCap := some budgetCap }
  if budgetCap.verdict = .allowed then return detail
  else
    throw (denyResult input .budgetCap ("budget_cap_" ++ budgetCap.verdict.text)
      (modeOf input) detail
      budgetCap.verdict [("budget", .dimension budgetCap.budget),
        ("turns", .dimension budgetCap.turns),
        ("termination", .dimension budgetCap.termination)])

def convergenceStage (detail : GovernorDecisionDetail) :
    Except GovernorDecision GovernorDecisionDetail := do
  let convergence ← askCalculator input "non_convergence" detail
    (calculators.classifyPortfolioConvergence input.convergenceInput
      (input.convergenceThresholds.getD defaultPortfolioConvergenceThresholds))
  let detail := { detail with convergence := some convergence }
  if convergence.status ≠ .nonConvergent then return detail
  else
    throw (denyResult input .nonConvergence (" ".intercalate convergence.reasons) (modeOf input)
      detail .denied [])

/-- Only the floor refuses; a throttled reputation has had its effect on the rate. -/
def reputationStage (reputation : Option SelfReputationThrottleDecision)
    (detail : GovernorDecisionDetail) :
    Except GovernorDecision GovernorDecisionDetail :=
  match reputation with
  | none => .ok detail
  | some reputation =>
    let detail := { detail with reputation := some reputation }
    if reputation.reason = .floored then
      .error (denyResult input .reputationThrottle reputation.reason.text (modeOf input)
        detail .throttled
        [("cadenceFactor", .number reputation.cadenceFactor),
          ("unfavorableRatio",
            (reputation.unfavorableRatio.map GovernorPayloadValue.number).getD .null)])
    else .ok detail

def selfPlagiarismStage (detail : GovernorDecisionDetail) :
    Except GovernorDecision GovernorDecisionDetail :=
  match input.selfPlagiarismCandidate with
  | none => .ok detail
  | some candidate =>
    if isSelfSubmissionAction input then do
      let selfPlagiarism ← askCalculator input "self_plagiarism" detail
        (calculators.selfPlagiarismCheck candidate (input.selfPlagiarismRecentSubmissions.getD [])
          (input.selfPlagiarismConfig.getD defaultSelfPlagiarismConfig))
      let detail := { detail with selfPlagiarism := some selfPlagiarism }
      if selfPlagiarism.allowed then return detail
      else
        throw (denyResult input .selfPlagiarism selfPlagiarism.reason (modeOf input) detail
          selfPlagiarism.eventType
          [("similarity",
            (selfPlagiarism.similarity.map fun s => GovernorPayloadValue.number (.finite s)).getD
            .null)])
    else .ok detail

/-- The checks, in their order; what is thrown is the decision of the one that refused. -/
def ladder : Except GovernorDecision GovernorDecisionDetail := do
  modeStage input
  let reputation ← reputationOf calculators input
  let detail ← rateLimitStage calculators input reputation
  let detail ← budgetCapStage calculators input detail
  let detail ← convergenceStage calculators input detail
  let detail ← reputationStage input reputation detail
  selfPlagiarismStage calculators input detail

def evaluateChokepoint : GovernorDecision :=
  match ladder calculators input with
  | .error refused => refused
  | .ok detail =>
    { allowed := true
      mode := modeOf input
      stage := .allow
      reason := "all_governor_checks_passed"
      detail := detail
      ledgerEvent :=
        { eventType := .allowed
          repoFullName := input.repoFullName
          actionClass := input.actionClass
          decision := "allow"
          reason := "all_governor_checks_passed"
          payload := [] } }

end Ladder

/-! ## The calculators of the source -/

/-- The random source is called for a refused write only, and then it may throw. -/
def sourceRateLimit (rt : Runtime) (question : RateLimitQuestion) :
    Except String WriteRateLimitVerdict :=
  let verdictAt (draw : JsNumber) : WriteRateLimitVerdict :=
    LoopOver.evaluateWriteRateLimit rt
      { actionClass := question.actionClass
        repoFullName := question.repoFullName
        buckets := question.buckets
        backoffAttempts := question.backoffAttempts
        policies := question.policies.getD defaultWriteRateLimitPolicies
        nowMs := question.nowMs
        draw := draw }
  match question.randomFn.getD (.ok (.finite (1 / 2))) with
  | .ok draw => .ok (verdictAt draw)
  | .error message => if (verdictAt 0).allowed then .ok (verdictAt 0) else .error message

def sourceCalculators (rt : Runtime) : GovernorCalculators where
  selfReputationThrottle history thresholds :=
    .ok (LoopOver.selfReputationThrottle history thresholds)
  evaluateWriteRateLimit := sourceRateLimit rt
  evaluateGovernorCaps usage limits := .ok (LoopOver.evaluateGovernorCaps usage limits)
  classifyPortfolioConvergence input thresholds :=
    .ok (LoopOver.classifyPortfolioConvergence input thresholds)
  selfPlagiarismCheck candidate recent config :=
    .ok (LoopOver.selfPlagiarismCheck rt candidate recent config)

def evaluateGovernorChokepoint (rt : Runtime) (input : GovernorChokepointInput) :
    GovernorDecision :=
  evaluateChokepoint (sourceCalculators rt) input

/-! ## The conjunction -/

section Conjunction

variable (calculators : GovernorCalculators) (input : GovernorChokepointInput)

/-- What the reputation calculator says, where it is asked. -/
def reputationAnswer : Option (Except String SelfReputationThrottleDecision) :=
  if isSelfSubmissionAction input then
    input.reputationHistory.map fun history => calculators.selfReputationThrottle history
      (input.reputationThresholds.getD defaultSelfReputationThresholds)
  else none

/-- What the comparison with earlier submissions says, where it is asked. -/
def selfPlagiarismAnswer : Option (Except String SelfPlagiarismVerdict) :=
  if isSelfSubmissionAction input then
    input.selfPlagiarismCandidate.map fun candidate => calculators.selfPlagiarismCheck candidate
      (input.selfPlagiarismRecentSubmissions.getD [])
      (input.selfPlagiarismConfig.getD defaultSelfPlagiarismConfig)
  else none

/-- The reputation that the rate limit is scaled by. -/
def reputationVerdict : Option SelfReputationThrottleDecision :=
  (reputationAnswer calculators input).bind Except.toOption

/-- No kill switch, a live run, and of each calculator that is asked a verdict that lets the write
pass. -/
structure EveryCheckPasses : Prop where
  noKillSwitch : killSwitchScopeOf input = .none
  live : modeOf input = .live
  reputation : ∀ answer ∈ reputationAnswer calculators input,
    ∃ decision, answer = .ok decision ∧ decision.reason ≠ .floored
  rateLimit : ∃ verdict, calculators.evaluateWriteRateLimit
    (rateLimitQuestion input (reputationVerdict calculators input)) = .ok verdict ∧
      verdict.allowed = true
  budgetCap : ∃ report, calculators.evaluateGovernorCaps input.capUsage input.capLimits =
    .ok report ∧
    report.verdict = .allowed
  convergence : ∃ verdict, calculators.classifyPortfolioConvergence input.convergenceInput
    (input.convergenceThresholds.getD defaultPortfolioConvergenceThresholds) = .ok verdict ∧
    verdict.status ≠ .nonConvergent
  selfPlagiarism : ∀ answer ∈ selfPlagiarismAnswer calculators input,
    ∃ verdict, answer = .ok verdict ∧ verdict.allowed = true

theorem except_bind_eq_ok {ε α β : Type} {x : Except ε α} {f : α → Except ε β} {result : β} :
    x >>= f = .ok result ↔ ∃ value, x = .ok value ∧ f value = .ok result := by
  cases x with
  | error e => simp [bind, Except.bind]
  | ok value => simp [bind, Except.bind]

variable {calculators input} {α : Type} {detail : GovernorDecisionDetail}

theorem askCalculator_eq_ok {name : String} {result : Except String α} {verdict : α} :
    askCalculator input name detail result = .ok verdict ↔ result = .ok verdict := by
  cases result <;> simp [askCalculator]

variable {passed : α → GovernorDecisionDetail} {refused : α → GovernorDecision}

/-- A check on the verdict of a calculator is passed when the verdict is there and is good. -/
theorem check_eq_ok {name : String} {result : Except String α}
    {good : α → Prop} [DecidablePred good] :
    (∃ out, (do
      let verdict ← askCalculator input name detail result
      if good verdict then return passed verdict else throw (refused verdict)) = .ok out) ↔
      ∃ verdict, result = .ok verdict ∧ good verdict := by
  constructor
  · rintro ⟨out, hout⟩
    obtain ⟨verdict, hverdict, hpassed⟩ := except_bind_eq_ok.1 hout
    refine ⟨verdict, askCalculator_eq_ok.1 hverdict, ?_⟩
    by_contra hbad
    rw [if_neg hbad] at hpassed
    cases hpassed
  · rintro ⟨verdict, hverdict, hgood⟩
    exact ⟨passed verdict, except_bind_eq_ok.2 ⟨verdict, askCalculator_eq_ok.2 hverdict,
      if_pos hgood⟩⟩

theorem modeStage_eq_ok :
    modeStage input = .ok () ↔ killSwitchScopeOf input = .none ∧ modeOf input = .live := by
  rw [modeStage]
  cases hscope : killSwitchScopeOf input <;> cases hmode : modeOf input <;>
    simp [isMinerKillSwitchActive, minerActionModeExecutes]

variable {reputation : Option SelfReputationThrottleDecision}

theorem reputationOf_eq_ok :
    reputationOf calculators input = .ok reputation ↔
      (∀ answer ∈ reputationAnswer calculators input, ∃ decision, answer = .ok decision) ∧
        reputation = reputationVerdict calculators input := by
  rw [reputationVerdict, reputationAnswer, reputationOf]
  cases input.reputationHistory with
  | none => simpa using eq_comm
  | some history =>
    by_cases hself : isSelfSubmissionAction input
    · simp only [hself, if_true, Option.map_some]
      generalize calculators.selfReputationThrottle history
        (input.reputationThresholds.getD defaultSelfReputationThresholds) = answer
      cases answer with
      | error message => simp [askCalculator, bind, Except.bind]
      | ok decision =>
        simpa [askCalculator, bind, Except.bind, pure, Except.pure, Except.toOption] using eq_comm
    · simpa [hself] using eq_comm

theorem rateLimitStage_ok :
    (∃ detail, rateLimitStage calculators input reputation = .ok detail) ↔
      ∃ verdict, calculators.evaluateWriteRateLimit (rateLimitQuestion input reputation) =
        .ok verdict ∧
        verdict.allowed = true :=
  check_eq_ok

theorem budgetCapStage_ok (detail : GovernorDecisionDetail) :
    (∃ out, budgetCapStage calculators input detail = .ok out) ↔
      ∃ report, calculators.evaluateGovernorCaps input.capUsage input.capLimits = .ok report ∧
        report.verdict = .allowed :=
  check_eq_ok

theorem convergenceStage_ok (detail : GovernorDecisionDetail) :
    (∃ out, convergenceStage calculators input detail = .ok out) ↔
      ∃ verdict, calculators.classifyPortfolioConvergence input.convergenceInput
        (input.convergenceThresholds.getD defaultPortfolioConvergenceThresholds) = .ok verdict ∧
        verdict.status ≠ .nonConvergent :=
  check_eq_ok

theorem reputationStage_ok (detail : GovernorDecisionDetail) :
    (∃ out, reputationStage input reputation detail = .ok out) ↔
      ∀ decision ∈ reputation, decision.reason ≠ .floored := by
  cases reputation with
  | none => simp [reputationStage]
  | some decision =>
    by_cases hfloored : decision.reason = .floored <;> simp [reputationStage, hfloored]

theorem selfPlagiarismStage_ok (detail : GovernorDecisionDetail) :
    (∃ out, selfPlagiarismStage calculators input detail = .ok out) ↔
      ∀ answer ∈ selfPlagiarismAnswer calculators input,
        ∃ verdict, answer = .ok verdict ∧ verdict.allowed = true := by
  rw [selfPlagiarismAnswer, selfPlagiarismStage]
  cases input.selfPlagiarismCandidate with
  | none => simp
  | some candidate =>
    by_cases hself : isSelfSubmissionAction input
    · simp only [hself, if_true, Option.map_some, Option.mem_some_iff, forall_eq']
      exact check_eq_ok
    · simp [hself]

theorem mem_reputationVerdict {decision : SelfReputationThrottleDecision} :
    decision ∈ reputationVerdict calculators input ↔
      .ok decision ∈ reputationAnswer calculators input := by
  rw [reputationVerdict, Option.mem_def, Option.bind_eq_some_iff]
  constructor
  · rintro ⟨answer, hanswer, hdecision⟩
    cases answer with
    | error message => cases hdecision
    | ok found =>
      obtain rfl := Option.some.inj hdecision
      exact hanswer
  · intro hanswer
    exact ⟨.ok decision, hanswer, rfl⟩

/-- **The ladder is passed when every check is.** -/
theorem ladder_ok :
    (∃ out, ladder calculators input = .ok out) ↔ EveryCheckPasses calculators input := by
  constructor
  · rintro ⟨out, hout⟩
    obtain ⟨⟨⟩, hmode, hout⟩ := except_bind_eq_ok.1 hout
    obtain ⟨reputation, hreputation, hout⟩ := except_bind_eq_ok.1 hout
    obtain ⟨rated, hrate, hout⟩ := except_bind_eq_ok.1 hout
    obtain ⟨capped, hcap, hout⟩ := except_bind_eq_ok.1 hout
    obtain ⟨converged, hconvergence, hout⟩ := except_bind_eq_ok.1 hout
    obtain ⟨reputed, hfloor, hplagiarism⟩ := except_bind_eq_ok.1 hout
    obtain ⟨hscope, hlive⟩ := modeStage_eq_ok.1 hmode
    obtain ⟨hasked, rfl⟩ := reputationOf_eq_ok.1 hreputation
    refine ⟨hscope, hlive, ?_, rateLimitStage_ok.1 ⟨rated, hrate⟩,
      (budgetCapStage_ok rated).1 ⟨capped, hcap⟩,
      (convergenceStage_ok capped).1 ⟨converged, hconvergence⟩,
        (selfPlagiarismStage_ok reputed).1 ⟨out, hplagiarism⟩⟩
    intro answer hanswer
    obtain ⟨decision, rfl⟩ := hasked answer hanswer
    exact ⟨decision, rfl,
      (reputationStage_ok converged).1 ⟨reputed, hfloor⟩ decision (mem_reputationVerdict.2 hanswer)⟩
  · intro hpasses
    have hasked : ∀ answer ∈ reputationAnswer calculators input, ∃ decision,
        answer = .ok decision := by
      intro answer hanswer
      obtain ⟨decision, hdecision, _⟩ := hpasses.reputation answer hanswer
      exact ⟨decision, hdecision⟩
    have hfloored : ∀ decision ∈ reputationVerdict calculators input,
        decision.reason ≠ .floored := by
      intro decision hdecision
      obtain ⟨found, hfound, hreason⟩ := hpasses.reputation _ (mem_reputationVerdict.1 hdecision)
      obtain rfl := Except.ok.inj hfound
      exact hreason
    obtain ⟨rated, hrate⟩ := rateLimitStage_ok.2 hpasses.rateLimit
    obtain ⟨capped, hcap⟩ := (budgetCapStage_ok rated).2 hpasses.budgetCap
    obtain ⟨converged, hconvergence⟩ := (convergenceStage_ok capped).2 hpasses.convergence
    obtain ⟨reputed, hfloor⟩ := (reputationStage_ok converged).2 hfloored
    obtain ⟨out, hplagiarism⟩ := (selfPlagiarismStage_ok reputed).2 hpasses.selfPlagiarism
    exact ⟨out, except_bind_eq_ok.2 ⟨(), modeStage_eq_ok.2 ⟨hpasses.noKillSwitch, hpasses.live⟩,
      except_bind_eq_ok.2 ⟨_, reputationOf_eq_ok.2 ⟨hasked, rfl⟩, except_bind_eq_ok.2 ⟨rated, hrate,
        except_bind_eq_ok.2 ⟨capped, hcap, except_bind_eq_ok.2 ⟨converged, hconvergence,
          except_bind_eq_ok.2 ⟨reputed, hfloor, hplagiarism⟩⟩⟩⟩⟩⟩⟩

/-! ### Every way out refuses -/

/-- What is thrown does not allow the write. -/
def Refuses {α : Type} (result : Except GovernorDecision α) : Prop :=
  ∀ refused, result = .error refused → refused.allowed = false

theorem refuses_ok (value : α) : Refuses (.ok value) := by
  rintro refused ⟨⟩

theorem refuses_bind {α β : Type} {x : Except GovernorDecision α}
    {f : α → Except GovernorDecision β} (hx : Refuses x) (hf : ∀ value, Refuses (f value)) :
    Refuses (x >>= f) := by
  intro refused hrefused
  cases x with
  | error thrown =>
    obtain rfl := Except.error.inj hrefused
    exact hx thrown rfl
  | ok value => exact hf value refused hrefused

theorem refuses_askCalculator (name : String) (detail : GovernorDecisionDetail)
    (result : Except String α) : Refuses (askCalculator input name detail result) := by
  cases result with
  | ok value => exact refuses_ok value
  | error message => rintro refused ⟨⟩; rfl

/-- A check that refuses does so with a denial. -/
theorem refuses_check (name : String) (detail : GovernorDecisionDetail) (result : Except String α)
    (good : α → Prop) [DecidablePred good]
    (hdenied : ∀ verdict, (refused verdict).allowed = false) :
    Refuses (do
      let verdict ← askCalculator input name detail result
      if good verdict then return passed verdict else throw (refused verdict)) := by
  refine refuses_bind (refuses_askCalculator name detail result) fun verdict => ?_
  by_cases hgood : good verdict
  · rw [if_pos hgood]
    exact refuses_ok _
  · rw [if_neg hgood]
    rintro thrown ⟨⟩
    exact hdenied verdict

theorem refuses_modeStage : Refuses (modeStage input) := by
  rw [modeStage]
  split_ifs
  · rintro refused ⟨⟩; rfl
  · exact refuses_ok _
  · rintro refused ⟨⟩; rfl

theorem refuses_reputationOf : Refuses (reputationOf calculators input) := by
  rw [reputationOf]
  split
  · exact refuses_ok _
  · split_ifs
    · exact refuses_bind (refuses_askCalculator _ _ _) fun _ => refuses_ok _
    · exact refuses_ok _

theorem refuses_reputationStage (reputation : Option SelfReputationThrottleDecision)
    (detail : GovernorDecisionDetail) : Refuses (reputationStage input reputation detail) := by
  cases reputation with
  | none => exact refuses_ok _
  | some decision =>
    rw [reputationStage]
    split_ifs
    · rintro refused ⟨⟩; rfl
    · exact refuses_ok _

theorem refuses_selfPlagiarismStage (detail : GovernorDecisionDetail) :
    Refuses (selfPlagiarismStage calculators input detail) := by
  rw [selfPlagiarismStage]
  split
  · exact refuses_ok _
  · split_ifs
    · exact refuses_check _ _ _ _ fun _ => rfl
    · exact refuses_ok _

theorem refuses_ladder : Refuses (ladder calculators input) := by
  refine refuses_bind refuses_modeStage fun _ =>
    refuses_bind refuses_reputationOf fun reputation => ?_
  refine refuses_bind (refuses_check _ _ _ _ fun _ => rfl) fun rated => ?_
  refine refuses_bind (refuses_check _ _ _ _ fun _ => rfl) fun capped => ?_
  refine refuses_bind (refuses_check _ _ _ _ fun _ => rfl) fun converged => ?_
  exact refuses_bind (refuses_reputationStage _ _) fun reputed => refuses_selfPlagiarismStage _

theorem evaluateChokepoint_allowed :
    (evaluateChokepoint calculators input).allowed = true ↔ EveryCheckPasses calculators input := by
  rw [← ladder_ok, evaluateChokepoint]
  cases hladder : ladder calculators input with
  | ok detail => simp
  | error refused => simp [refuses_ladder refused hladder]

end Conjunction

/-! ## Worse histories -/

/-- A window is not stretched to less than a window that is stretched by a larger factor. -/
theorem stretched_le (windowMs : JsNumber) {factor smaller : ℚ} (hsmaller : 0 < smaller)
    (hle : smaller ≤ factor) :
    (windowMs.div (.finite factor)).mathRound.finiteNonNegativeInt ≤
      (windowMs.div (.finite smaller)).mathRound.finiteNonNegativeInt := by
  have hfactor : 0 < factor := hsmaller.trans_le hle
  cases windowMs with
  | nan => exact Nat.zero_le _
  | infinite negative => exact Nat.zero_le _
  | finite window =>
    simp only [JsNumber.div, if_neg hfactor.ne', if_neg hsmaller.ne', JsNumber.mathRound,
      JsNumber.finiteNonNegativeInt, Int.floor_intCast]
    obtain hnonneg | hnegative := le_or_gt 0 window
    · exact Int.toNat_le_toNat
        (JsNumber.round_mono (div_le_div_of_nonneg_left hnonneg hsmaller hle))
    · -- A negative window is none, however it is stretched.
      have hround := JsNumber.round_mono (div_nonpos_of_nonpos_of_nonneg hnegative.le hfactor.le)
      have hzero : JsNumber.round 0 = 0 := mod_cast JsNumber.round_intCast 0
      rw [hzero] at hround
      omega

/-- Stretching does not shorten a window. -/
theorem le_stretched (windowMs : JsNumber) {factor : ℚ} (hpositive : 0 < factor)
    (hle : factor ≤ 1) :
    windowMs.finiteNonNegativeInt ≤
      (windowMs.div (.finite factor)).mathRound.finiteNonNegativeInt := by
  cases windowMs with
  | nan => exact Nat.zero_le _
  | infinite negative => exact Nat.zero_le _
  | finite window =>
    simp only [JsNumber.div, if_neg hpositive.ne', JsNumber.mathRound,
      JsNumber.finiteNonNegativeInt, Int.floor_intCast]
    obtain hnonneg | hnegative := le_or_gt 0 window
    · have hdivided : window ≤ window / factor := by
        rw [le_div_iff₀ hpositive]
        nlinarith
      apply Int.toNat_le_toNat
      exact Int.floor_mono (by linarith)
    · have hfloor : ⌊window⌋ < 0 := Int.floor_lt.2 (by exact_mod_cast hnegative)
      omega

/-- Policies under which no write is allowed that the others do not allow. -/
structure Tighter (tight loose : WriteRateLimitPolicies) : Prop where
  global : ∀ actionClass, policyFor tight actionClass .global = policyFor loose actionClass .global
  limit : ∀ actionClass,
    (policyFor tight actionClass .perRepo).limit = (policyFor loose actionClass .perRepo).limit
  window : ∀ actionClass, (policyFor loose actionClass .perRepo).windowMs.finiteNonNegativeInt ≤
    (policyFor tight actionClass .perRepo).windowMs.finiteNonNegativeInt

theorem tighter_refl : Tighter policies policies :=
  ⟨fun _ => rfl, fun _ => rfl, fun _ => le_rfl⟩

theorem policyFor_scale (actionClass key : String) (cadence : JsNumber) :
    policyFor (scaleRateLimitPerRepoWindow policies actionClass cadence) key .perRepo =
      if key = actionClass ∧ (policies.perRepo actionClass).isSome then
        { policyFor policies key .perRepo with
          windowMs :=
            ((policyFor policies key .perRepo).windowMs.div (safeFactor cadence)).mathRound }
      else policyFor policies key .perRepo := by
  rw [scaleRateLimitPerRepoWindow]
  cases hconfig : policies.perRepo actionClass with
  | none => simp
  | some config =>
    by_cases hkey : key = actionClass
    · subst hkey
      simp [policyFor, hconfig]
    · simp [policyFor, hkey]

theorem policyFor_scale_global (actionClass key : String) (cadence : JsNumber) :
    policyFor (scaleRateLimitPerRepoWindow policies actionClass cadence) key .global =
      policyFor policies key .global := by
  rw [scaleRateLimitPerRepoWindow]
  cases policies.perRepo actionClass <;> rfl

theorem tighter_scale (actionClass : String) {cadence : JsNumber} (hless : cadence.lt 1 = true) :
    Tighter (scaleRateLimitPerRepoWindow policies actionClass cadence) policies := by
  obtain ⟨factor, hfactor, hpositive, hle⟩ := safeFactor_of_lt_one hless
  refine ⟨fun key => policyFor_scale_global policies actionClass key cadence, fun key => ?_,
    fun key => ?_⟩
  · rw [policyFor_scale]
    split_ifs <;> rfl
  · rw [policyFor_scale, hfactor]
    split_ifs
    · exact le_stretched _ hpositive hle
    · exact le_rfl

theorem tighter_scale_scale (actionClass : String) {slow fast : JsNumber} (hslow : slow.lt 1 = true)
    (hfast : fast.lt 1 = true) (hle : (safeFactor slow).le (safeFactor fast) = true) :
    Tighter (scaleRateLimitPerRepoWindow policies actionClass slow)
      (scaleRateLimitPerRepoWindow policies actionClass fast) := by
  obtain ⟨smaller, hsmaller, hpositive, _⟩ := safeFactor_of_lt_one hslow
  obtain ⟨factor, hfactor, _, _⟩ := safeFactor_of_lt_one hfast
  rw [hsmaller, hfactor, JsNumber.le_finite, decide_eq_true_eq] at hle
  refine ⟨fun key => ?_, fun key => ?_, fun key => ?_⟩
  · rw [policyFor_scale_global, policyFor_scale_global]
  · rw [policyFor_scale, policyFor_scale]
    split_ifs <;> rfl
  · rw [policyFor_scale, policyFor_scale, hsmaller, hfactor]
    split_ifs
    · exact stretched_le _ hpositive hle
    · exact le_rfl

/-- A slower reputation leaves tighter policies. -/
theorem tighter_effectivePolicies (input : GovernorChokepointInput)
    {slow fast : SelfReputationThrottleDecision}
    (hslower : Slower slow.cadenceFactor fast.cadenceFactor) :
    Tighter ((effectivePolicies input (some slow)).getD defaultWriteRateLimitPolicies)
      ((effectivePolicies input (some fast)).getD defaultWriteRateLimitPolicies) := by
  have hpolicies : ∀ decision : SelfReputationThrottleDecision,
      (effectivePolicies input (some decision)).getD defaultWriteRateLimitPolicies =
        if decision.cadenceFactor.lt 1 = true then
          scaleRateLimitPerRepoWindow (input.rateLimitPolicies.getD defaultWriteRateLimitPolicies)
            input.actionClass decision.cadenceFactor
        else input.rateLimitPolicies.getD defaultWriteRateLimitPolicies := by
    intro decision
    by_cases hless : decision.cadenceFactor.lt 1 = true <;>
      simp [effectivePolicies, degrades, Option.filter, hless]
  rw [hpolicies, hpolicies]
  by_cases hfast : fast.cadenceFactor.lt 1 = true
  · obtain ⟨hslow, hle⟩ := hslower hfast
    rw [if_pos hfast, if_pos hslow]
    exact tighter_scale_scale _ _ hslow hfast hle
  · rw [if_neg hfast]
    split_ifs with hslow
    · exact tighter_scale _ _ hslow
    · exact tighter_refl _

theorem evaluateLocalRateLimit_anti (bucket : LocalRateBucket) (nowMs : JsNumber)
    {tight loose : LocalRateLimitConfig} (hlimit : tight.limit = loose.limit)
    (hwindow : loose.windowMs.finiteNonNegativeInt ≤ tight.windowMs.finiteNonNegativeInt)
    (hallowed : (evaluateLocalRateLimit bucket tight nowMs).allowed = true) :
    (evaluateLocalRateLimit bucket loose nowMs).allowed = true := by
  simp only [evaluateLocalRateLimit, evaluateWindow, decide_eq_true_eq] at hallowed ⊢
  rw [hlimit] at hallowed
  have hcast : (loose.windowMs.finiteNonNegativeInt : ℚ) ≤ tight.windowMs.finiteNonNegativeInt :=
    mod_cast hwindow
  by_cases htight : (tight.windowMs.finiteNonNegativeInt : ℚ) ≤
    nowMs.finiteOr 0 - bucket.windowStartMs.finiteOr 0
  · rw [if_pos htight] at hallowed
    rwa [if_pos (hcast.trans htight)]
  · rw [if_neg htight] at hallowed
    split_ifs
    · omega
    · exact hallowed

/-- The answer of the rate limit does not depend on the random source. -/
theorem sourceRateLimit_allowed (rt : Runtime) (question : RateLimitQuestion) :
    (∃ verdict, sourceRateLimit rt question = .ok verdict ∧ verdict.allowed = true) ↔
      (LoopOver.evaluateWriteRateLimit rt ⟨question.actionClass, question.repoFullName,
        question.buckets,
        question.backoffAttempts, question.policies.getD defaultWriteRateLimitPolicies,
          question.nowMs, 0⟩).allowed =
        true := by
  have hdraw : ∀ draw,
      (LoopOver.evaluateWriteRateLimit rt ⟨question.actionClass, question.repoFullName,
      question.buckets, question.backoffAttempts,
        question.policies.getD defaultWriteRateLimitPolicies,
      question.nowMs, draw⟩).allowed = (LoopOver.evaluateWriteRateLimit rt ⟨question.actionClass,
      question.repoFullName, question.buckets, question.backoffAttempts,
      question.policies.getD defaultWriteRateLimitPolicies, question.nowMs, 0⟩).allowed := by
    intro draw
    simp only [LoopOver.evaluateWriteRateLimit]
    split_ifs <;> rfl
  rw [sourceRateLimit]
  cases question.randomFn.getD (.ok (.finite (1 / 2))) with
  | ok draw => simp [hdraw]
  | error message =>
    dsimp only
    split_ifs with hallowed
    · simp
    · simp [hallowed]

/-- **A tighter policy lets no write more through.** -/
theorem evaluateWriteRateLimit_anti (rt : Runtime) (input : WriteRateLimitInput)
    {tight loose : WriteRateLimitPolicies} (htighter : Tighter tight loose)
    (hallowed : (LoopOver.evaluateWriteRateLimit rt { input with policies := tight }).allowed =
      true) :
    (LoopOver.evaluateWriteRateLimit rt { input with policies := loose }).allowed = true := by
  have hiff : ∀ policies : WriteRateLimitPolicies,
      (LoopOver.evaluateWriteRateLimit rt { input with policies := policies }).allowed = true ↔
        (evaluateLocalRateLimit ((input.buckets.global (rt.trim input.actionClass)).getD
          (emptyBucket (.finite (input.nowMs.finiteOr 0))))
            (policyFor policies (rt.trim input.actionClass) .global)
          (.finite (input.nowMs.finiteOr 0))).allowed = true ∧
        (evaluateLocalRateLimit ((input.buckets.perRepo
          (writeRateLimitRepoKey rt (rt.trim input.actionClass) input.repoFullName)).getD
          (emptyBucket (.finite (input.nowMs.finiteOr 0))))
            (policyFor policies (rt.trim input.actionClass) .perRepo)
          (.finite (input.nowMs.finiteOr 0))).allowed = true := by
    intro policies
    simp only [LoopOver.evaluateWriteRateLimit]
    rw [← Bool.and_eq_true_iff]
    split_ifs with hboth
    · simp [hboth]
    · simp [hboth]
  rw [hiff] at hallowed ⊢
  exact ⟨htighter.global _ ▸ hallowed.1,
    evaluateLocalRateLimit_anti _ _ (htighter.limit _) (htighter.window _) hallowed.2⟩

/-- **The chokepoint is a conjunction, and a worse history never opens it.** -/
theorem evaluateGovernorChokepoint_conjunction (rt : Runtime) :
    (∀ calculators input, (evaluateChokepoint calculators input).allowed = true ↔
      EveryCheckPasses calculators input) ∧
    ∀ (input : GovernorChokepointInput) (history worse : RepoOutcomeHistory), Worse worse history →
      (evaluateGovernorChokepoint rt { input with reputationHistory := some worse }).allowed =
        true →
      (evaluateGovernorChokepoint rt { input with reputationHistory := some history }).allowed =
        true := by
  refine ⟨fun calculators input => evaluateChokepoint_allowed,
    fun input history worse hworse hallowed => ?_⟩
  rw [evaluateGovernorChokepoint, evaluateChokepoint_allowed] at hallowed ⊢
  by_cases hself : isSelfSubmissionAction input
  · have hanswer : ∀ outcomes : RepoOutcomeHistory, reputationAnswer (sourceCalculators rt)
        { input with reputationHistory := some outcomes } =
        some (.ok (LoopOver.selfReputationThrottle outcomes
          (input.reputationThresholds.getD defaultSelfReputationThresholds))) :=
      fun outcomes => if_pos hself
    have hverdict : ∀ outcomes : RepoOutcomeHistory, reputationVerdict (sourceCalculators rt)
        { input with reputationHistory := some outcomes } =
        some (LoopOver.selfReputationThrottle outcomes
          (input.reputationThresholds.getD defaultSelfReputationThresholds)) := by
      intro outcomes
      rw [reputationVerdict, hanswer]
      rfl
    obtain ⟨decision, hdecision, hnot⟩ := hallowed.reputation _ (hanswer worse)
    obtain rfl := Except.ok.inj hdecision
    obtain hfloored | ⟨hreason, hslower⟩ := selfReputationThrottle_slower
      (input.reputationThresholds.getD defaultSelfReputationThresholds) hworse
    · exact absurd hfloored hnot
    refine ⟨hallowed.noKillSwitch, hallowed.live, ?_, ?_, hallowed.budgetCap, hallowed.convergence,
      hallowed.selfPlagiarism⟩
    · intro answer hmem
      rw [hanswer] at hmem
      obtain rfl := Option.some.inj hmem
      exact ⟨_, rfl, hreason⟩
    · have hrate := hallowed.rateLimit
      rw [hverdict] at hrate ⊢
      have hopen := (sourceRateLimit_allowed rt _).1 hrate
      exact (sourceRateLimit_allowed rt _).2
        (evaluateWriteRateLimit_anti rt
          ⟨input.actionClass, input.repoFullName, input.rateLimitBuckets,
            input.rateLimitBackoffAttempts,
            defaultWriteRateLimitPolicies, input.nowMs,
              0⟩ (tighter_effectivePolicies input hslower) hopen)
  · -- Other actions do not read the history.
    have hanswer : ∀ outcomes : RepoOutcomeHistory, reputationAnswer (sourceCalculators rt)
        { input with reputationHistory := some outcomes } = none := fun outcomes => if_neg hself
    have hverdict : ∀ outcomes : RepoOutcomeHistory, reputationVerdict (sourceCalculators rt)
        { input with reputationHistory := some outcomes } = none := by
      intro outcomes
      rw [reputationVerdict, hanswer]
      rfl
    refine ⟨hallowed.noKillSwitch, hallowed.live, ?_, ?_, hallowed.budgetCap, hallowed.convergence,
      hallowed.selfPlagiarism⟩
    · intro answer hmem
      rw [hanswer] at hmem
      cases hmem
    · have hrate := hallowed.rateLimit
      rw [hverdict] at hrate ⊢
      exact hrate

/-- A live run within its caps that never wrote before. -/
def firstWrite : GovernorChokepointInput where
  actionClass := "open_pr"
  repoFullName := "acme/widgets"
  nowMs := 1000
  wouldBeAction := .object []
  killSwitchGlobal := false
  killSwitchRepoPaused := none
  liveModeGlobalOptIn := true
  liveModeRepoOptIn := some (.string "live")
  rateLimitBuckets := ⟨fun _ => none, fun _ => none⟩
  rateLimitBackoffAttempts := fun _ => none
  rateLimitPolicies := none
  rateLimitRandomFn := none
  capUsage := ⟨0, 0, 0⟩
  capLimits := ⟨10, 10, 10⟩
  convergenceInput := ⟨0, 0, 0, false⟩
  convergenceThresholds := none
  reputationHistory := none
  reputationThresholds := none
  selfPlagiarismCandidate := none
  selfPlagiarismRecentSubmissions := none
  selfPlagiarismConfig := none

theorem evaluateGovernorChokepoint_conjunction_firstWrite :
    (evaluateGovernorChokepoint asciiRuntime { firstWrite with
      reputationHistory := some ⟨5, 0⟩ }).allowed =
      true :=
  (evaluateGovernorChokepoint_conjunction asciiRuntime).2 firstWrite ⟨5, 0⟩ ⟨5, 3⟩
    ⟨by decide +kernel, by decide +kernel⟩ (by decide +kernel)

end LoopOver
