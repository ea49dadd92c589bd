import LoopOver.Foundations.Interaction
import LoopOver.Miner.IteratePolicy

/-!
# The loop of an attempt

`packages/loopover-engine/src/miner/iterate-loop.ts` runs a coding agent, reviews what it did and
asks the policy what to do next, until the policy hands off or abandons. The host is the driver of
the agent, the review, the clock, the probe for an abort and the log of the attempt; all of them may
reply anything, and all may throw.

* `iterateRound` is one iteration, `runIterateLoopCore` the loop and its fallback, and
  `runIterateLoop` what callers see. The totals of the meter are the state, which survives a throw.
* `runDriverSafely` does not call the driver unless the mode is `live`: it logs what it would have
  done.
-/

variable (rt : IterateRuntime) (input : IterateLoopInput)

namespace LoopOver

/-! ## Data -/

/-- Whether the driver may act. -/
inductive CodingAgentExecutionMode
  | paused
  | dryRun
  | live
  deriving DecidableEq

def codingAgentModeExecutes (mode : CodingAgentExecutionMode) : Bool := mode = .live

/-- What the driver is asked to do. -/
structure CodingAgentDriverTask where
  attemptId : String
  workingDirectory : String
  acceptanceCriteriaPath : String
  instructions : String
  maxTurns : JsNumber

/-- What the driver reports. -/
structure CodingAgentDriverResult where
  ok : Bool
  changedFiles : List String
  summary : String
  turnsUsed : Option JsNumber := none
  costUsd : Option JsNumber := none
  tokensUsed : Option JsNumber := none
  error : Option String := none
  deriving DecidableEq

structure IterateLoopInput where
  attemptId : String
  workingDirectory : String
  acceptanceCriteriaPath : String
  instructions : String
  mode : CodingAgentExecutionMode
  maxIterations : JsNumber
  maxTurnsPerIteration : JsNumber
  budget : Option AttemptBudget := none
  repoFullName : String
  contributorLogin : String
  title : String
  body : Option String := none
  labels : Option (List String) := none
  linkedIssues : Option (List ℕ) := none
  authorAssociation : Option String := none
  branchRef : Option String := none
  rejectionSignaled : Bool
  autonomyLevel : Option AutonomyLevel := none

/-- What the probe replies: a flag, or an object with one. -/
inductive IterateLoopShouldAbort
  | flag (abort : Bool)
  | signal (abort : Bool) (reason : Option String)

/-- The identity of the attempt and the files it changed, for the review. -/
structure AttemptDiffState where
  repoFullName : String
  contributorLogin : String
  title : String
  body : Option String
  labels : Option (List String)
  linkedIssues : Option (List ℕ)
  authorAssociation : Option String
  changedFiles : List String

/-- The kinds of event of the attempt log. -/
inductive AttemptLogEventType
  | attemptStarted
  | attemptToolEdit
  | attemptSucceeded
  | attemptFailed
  | attemptAborted
  | attemptShadow
  deriving DecidableEq

inductive AttemptLogPayload
  | started (maxIterations : ℕ) (maxTurnsPerIteration : JsNumber)
  | decided (iterationNumber : ℕ) (action : IterateLoopAction)
      (abandonReason : Option AbandonReason)
      (budgetBreaches : List AttemptBudgetAxis)
  | pausedIn (workingDirectory : String)
  | shadowed (workingDirectory acceptanceCriteriaPath : String) (maxTurns : JsNumber)

structure AttemptLogEvent where
  eventType : AttemptLogEventType
  attemptId : String
  actionClass : String
  mode : CodingAgentExecutionMode
  reason : String
  payload : AttemptLogPayload

/-- How a loop ends. -/
inductive IterateLoopOutcome
  | handoff
  | abandon
  deriving DecidableEq

structure IterateLoopIterationRecord where
  iterationNumber : ℕ
  driverResult : CodingAgentDriverResult
  decision : IterateLoopDecision
  deriving DecidableEq

/-- What the loop hands over. -/
structure HandoffPacket where
  worktreePath : String
  branchRef : Option String
  diffSummary : String
  selfReviewVerdict : Option SelfReviewVerdict
  attemptLogReference : String
  changedFiles : List String
  deriving DecidableEq

structure IterateLoopCoreResult where
  outcome : IterateLoopOutcome
  finalDecision : IterateLoopDecision
  iterationsUsed : ℕ
  totalTurnsUsed : JsNumber
  totalCostUsd : JsNumber
  iterations : List IterateLoopIterationRecord
  handoffPacket : Option HandoffPacket := none
  deriving DecidableEq

structure MeterTracker where
  totals : AttemptUsage
  breaches : List AttemptBudgetAxis
  deriving DecidableEq

structure IterateLoopResult extends IterateLoopCoreResult where
  finalMeterTotals : AttemptUsage
  budgetBreaches : List AttemptBudgetAxis
  deriving DecidableEq

/-! ## The host -/

/-- What the loop asks of its host. -/
inductive IterateCall
  | appendAttemptLogEvent (event : AttemptLogEvent)
  | shouldAbort
  | nowMs
  | runDriver (task : CodingAgentDriverTask)
  | runSelfReview (diff : AttemptDiffState)

/-- A reply, or the message of what was thrown. -/
def IterateReply : IterateCall → Type
  | .appendAttemptLogEvent _ => Except String Unit
  | .shouldAbort => Except String IterateLoopShouldAbort
  | .nowMs => Except String JsNumber
  | .runDriver _ => Except String CodingAgentDriverResult
  | .runSelfReview _ => Except String SelfReviewVerdict

/-- What the loop can reject with: what a host call threw, or a `RangeError` of the meter. -/
inductive IterateError
  | thrown (message : String)
  | range (message : String)
  deriving DecidableEq

abbrev IterateEvent := Event IterateReply

abbrev IterateScript (α : Type) := Script IterateReply MeterTracker IterateError α

/-- Call the host. -/
abbrev askHost (call : IterateCall) : IterateScript (IterateReply call) := Script.ask call

/-- Whether the caller gives a probe for an abort. -/
structure IterateLoopDeps where
  probesAbort : Bool

/-- A logging failure must never crash the loop or alter its decision. -/
def safeAppendAttemptLogEvent (event : AttemptLogEvent) : IterateScript Unit :=
  Script.tell (.appendAttemptLogEvent event)

/-- Read the clock; a throw of it is not caught. -/
def readClock : IterateScript JsNumber := do
  let reading ← askHost .nowMs
  Script.ofExcept (Except.mapError IterateError.thrown reading)

/-! ## One iteration -/

def killSwitchReason : String :=
  "Kill-switch engaged mid-attempt; abandoning without starting another driver iteration."

/-- The reason to abort, if the probe gives one. -/
def abortReason (rt : Runtime) : IterateLoopShouldAbort → Option String
  | .flag abort => if abort then some killSwitchReason else none
  | .signal abort reason =>
    if abort then some ((truthy (reason.map rt.trim)).getD killSwitchReason) else none

def resolveShouldAbort (rt : Runtime) (deps : IterateLoopDeps) : IterateScript (Option String) :=
  if deps.probesAbort then do
    let reply ← askHost .shouldAbort
    let raw ← Script.ofExcept (Except.mapError IterateError.thrown reply)
    pure (abortReason rt raw)
  else pure none

def pausedResult : CodingAgentDriverResult where
  ok := false
  changedFiles := []
  summary := "coding agent paused"
  error := some "coding_agent_paused"

def shadowSummary (workingDirectory acceptanceCriteriaPath : String)
    (maxTurns : JsNumber) : String :=
  "dry-run: would invoke coding agent in " ++ workingDirectory ++ " (≤" ++ rt.numberText maxTurns ++
    " turns, criteria " ++ acceptanceCriteriaPath ++ ")"

def shadowResult (workingDirectory acceptanceCriteriaPath : String)
    (maxTurns : JsNumber) : CodingAgentDriverResult where
  ok := true
  changedFiles := []
  summary := shadowSummary rt workingDirectory acceptanceCriteriaPath maxTurns
  turnsUsed := some 0

/-- The driver under a mode that does not execute: a log entry, and a result without a run. -/
def invokeCodingAgentDriver (mode : CodingAgentExecutionMode)
    (task : CodingAgentDriverTask) : IterateScript CodingAgentDriverResult :=
  if mode = .paused then do
    safeAppendAttemptLogEvent
      { eventType := .attemptAborted
        attemptId := task.attemptId
        actionClass := "codegen"
        mode := mode
        reason := "coding_agent_paused"
        payload := .pausedIn task.workingDirectory }
    pure pausedResult
  else do
    safeAppendAttemptLogEvent
      { eventType := .attemptShadow
        attemptId := task.attemptId
        actionClass := "codegen"
        mode := mode
        reason := "dry-run: would invoke coding agent without spawning underlying session"
        payload := .shadowed task.workingDirectory task.acceptanceCriteriaPath task.maxTurns }
    pure (shadowResult rt task.workingDirectory task.acceptanceCriteriaPath task.maxTurns)

/-- A thrown driver error has the shape of a run that failed. -/
def driverResultOf : Except String CodingAgentDriverResult → CodingAgentDriverResult
  | .ok result => result
  | .error message =>
    { ok := false, changedFiles := [], summary := "", error := some ("driver_threw: " ++ message) }

def runDriverSafely (task : CodingAgentDriverTask) :
    IterateScript CodingAgentDriverResult :=
  if codingAgentModeExecutes input.mode then do
    let reply ← askHost (.runDriver task)
    pure (driverResultOf reply)
  else invokeCodingAgentDriver rt input.mode task

def buildAttemptDiffState (driverResult : CodingAgentDriverResult) :
    AttemptDiffState where
  repoFullName := input.repoFullName
  contributorLogin := input.contributorLogin
  title := input.title
  body := input.body
  labels := input.labels
  linkedIssues := input.linkedIssues
  authorAssociation := input.authorAssociation
  changedFiles := driverResult.changedFiles

/-- The outcome of a review, with its verdict; a throw is ambiguous. -/
def reviewOutcomeOf : Except String SelfReviewVerdict → SelfReviewOutcome × Option SelfReviewVerdict
  | .ok verdict => (deriveSelfReviewOutcome verdict, some verdict)
  | .error message => (.ambiguous (some ("self_review_error: " ++ message)), none)

def evaluateSelfReviewOutcome (driverResult : CodingAgentDriverResult) :
    IterateScript (SelfReviewOutcome × Option SelfReviewVerdict) :=
  if driverResult.ok then do
    let reply ← askHost (.runSelfReview (buildAttemptDiffState input driverResult))
    pure (reviewOutcomeOf reply)
  else
    pure (.ambiguous (some ("driver run did not complete successfully" ++
      reasonSuffix driverResult.error)), none)

def attemptLogEventTypeForDecision (decision : IterateLoopDecision) : AttemptLogEventType :=
  match decision.action with
  | .continue => .attemptToolEdit
  | .handoff => .attemptSucceeded
  | .abandon =>
    match decision.abandonReason with
    | some .rejectionSignaled => .attemptAborted
    | some .selfReviewAmbiguous => .attemptAborted
    | some .killSwitchEngaged => .attemptAborted
    | _ => .attemptFailed

def logDecision (iterationNumber : ℕ) (decision : IterateLoopDecision)
    (budgetBreaches : List AttemptBudgetAxis) : IterateScript Unit :=
  safeAppendAttemptLogEvent
    { eventType := attemptLogEventTypeForDecision decision
      attemptId := input.attemptId
      actionClass := "iterate_loop"
      mode := input.mode
      reason := decision.reason
      payload := .decided iterationNumber decision.action decision.abandonReason budgetBreaches }

/-- A finite, non-negative usage value, else zero. -/
def finiteNonNegativeUsage (value : Option JsNumber) : JsNumber :=
  match value with
  | some value => if isNonNegativeFinite value then value else 0
  | none => 0

def blockerCodesFromContinuingOutcome : SelfReviewOutcome → List String
  | .fail blockerCodes => blockerCodes
  | _ => []

def buildHandoffPacket (verdict : Option SelfReviewVerdict)
    (driverResult : CodingAgentDriverResult) : HandoffPacket where
  worktreePath := input.workingDirectory
  branchRef := input.branchRef
  diffSummary := driverResult.summary
  selfReviewVerdict := verdict
  attemptLogReference := input.attemptId
  changedFiles := driverResult.changedFiles

/-- What one iteration hands to the next. -/
structure IterateState where
  previousBlockerCodes : Option (List String)
  totalTurnsUsed : JsNumber
  totalCostUsd : JsNumber
  iterations : List IterateLoopIterationRecord

/-- The usage of an iteration. -/
def usageOf (driverResult : CodingAgentDriverResult) (iterationElapsedMs : JsNumber) :
    AttemptUsage where
  tokens := finiteNonNegativeUsage driverResult.tokensUsed
  turns := finiteNonNegativeUsage driverResult.turnsUsed
  wallClockMs := iterationElapsedMs
  costUsd := finiteNonNegativeUsage driverResult.costUsd

/-- Run the driver between two readings of the clock. -/
def timedDriver :
    IterateScript (CodingAgentDriverResult × JsNumber) := do
  let iterationStartMs ← readClock
  let driverResult ← runDriverSafely rt input
    { attemptId := input.attemptId
      workingDirectory := input.workingDirectory
      acceptanceCriteriaPath := input.acceptanceCriteriaPath
      instructions := input.instructions
      maxTurns := input.maxTurnsPerIteration }
  let iterationEndMs ← readClock
  pure (driverResult, JsNumber.max 0 (iterationEndMs.sub iterationStartMs))

/-- Add the usage to the totals, and hold them against the budget. -/
def meterUsage (usage : AttemptUsage) :
    IterateScript (List AttemptBudgetAxis) := do
  let tracker ← Script.get
  let totals ← Script.ofExcept
    ((accumulateAttemptUsage tracker.totals usage).mapError IterateError.range)
  Script.modify fun tracker => { tracker with totals := totals }
  match input.budget with
  | none =>
    Script.modify fun tracker => { tracker with breaches := [] }
    pure []
  | some budget =>
    let verdict ← Script.ofExcept
      ((evaluateAttemptBudget totals budget).mapError IterateError.range)
    Script.modify fun tracker => { tracker with breaches := verdict.breaches }
    pure (if verdict.withinBudget then [] else verdict.breaches)

def budgetDecision (iterationNumber : ℕ) (breaches : List AttemptBudgetAxis) :
    IterateLoopDecision where
  action := .abandon
  abandonReason := some .costCeilingReached
  reason := "Reached the attempt's budget ceiling (" ++
    ", ".intercalate (breaches.map AttemptBudgetAxis.name) ++ ") on iteration " ++
    rt.numberText (.finite iterationNumber) ++
      "; abandoning regardless of this iteration's own result."

/-- What follows from a decision: a result to return, or what the next iteration starts with. -/
def settleIteration (iterationNumber : ℕ)
    (driverResult : CodingAgentDriverResult) (selfReview : SelfReviewOutcome)
    (verdict : Option SelfReviewVerdict) (decision : IterateLoopDecision) (state : IterateState) :
    IterateLoopCoreResult ⊕ IterateState :=
  let iterations := state.iterations ++ [⟨iterationNumber, driverResult, decision⟩]
  match decision.action with
  | .handoff => .inl
      { outcome := .handoff
        finalDecision := decision
        iterationsUsed := iterationNumber
        totalTurnsUsed := state.totalTurnsUsed
        totalCostUsd := state.totalCostUsd
        iterations := iterations
        handoffPacket := some (buildHandoffPacket input verdict driverResult) }
  | .abandon => .inl
      { outcome := .abandon
        finalDecision := decision
        iterationsUsed := iterationNumber
        totalTurnsUsed := state.totalTurnsUsed
        totalCostUsd := state.totalCostUsd
        iterations := iterations }
  | .continue => .inr
      { state with
        previousBlockerCodes := some (blockerCodesFromContinuingOutcome selfReview)
        iterations := iterations }

/-- Review the result, ask the policy, and do what it says. -/
def decideIteration (maxIterations iterationNumber : ℕ) (driverResult : CodingAgentDriverResult)
    (state : IterateState) :
    IterateScript (IterateLoopCoreResult ⊕ IterateState) := do
  let (selfReview, verdict) ← evaluateSelfReviewOutcome input driverResult
  let decision := decideNextActionWithReason rt
    { iterationNumber := iterationNumber
      maxIterations := maxIterations
      costCeilingReached := none
      selfReview := selfReview
      previousBlockerCodes := state.previousBlockerCodes
      rejectionSignaled := input.rejectionSignaled
      autonomyLevel := input.autonomyLevel }
  logDecision input iterationNumber decision []
  pure (settleIteration input iterationNumber driverResult selfReview verdict decision state)

/-- Abandon without starting another iteration. -/
def abortIteration (iterationNumber : ℕ) (reason : String) (state : IterateState) :
    IterateScript (IterateLoopCoreResult ⊕ IterateState) := do
  let decision : IterateLoopDecision :=
    { action := .abandon, abandonReason := some .killSwitchEngaged, reason := reason }
  logDecision input (iterationNumber - 1) decision []
  pure (.inl ⟨.abandon, decision, iterationNumber - 1, state.totalTurnsUsed, state.totalCostUsd,
    state.iterations, none⟩)

/-- Abandon at the budget, whatever the iteration did. -/
def breachIteration (iterationNumber : ℕ) (breaches : List AttemptBudgetAxis)
    (driverResult : CodingAgentDriverResult) (state : IterateState) :
    IterateScript (IterateLoopCoreResult ⊕ IterateState) := do
  let decision := budgetDecision rt iterationNumber breaches
  logDecision input iterationNumber decision breaches
  pure (.inl ⟨.abandon, decision, iterationNumber, state.totalTurnsUsed, state.totalCostUsd,
    state.iterations ++ [⟨iterationNumber, driverResult, decision⟩], none⟩)

/-- The totals of the result, which are not those of the meter. -/
def IterateState.charge (state : IterateState) (driverResult : CodingAgentDriverResult) :
    IterateState :=
  { state with
    totalTurnsUsed := state.totalTurnsUsed.plus (finiteNonNegativeUsage driverResult.turnsUsed)
    totalCostUsd := state.totalCostUsd.plus (finiteNonNegativeUsage driverResult.costUsd) }

/-- An iteration that is not aborted. -/
def driveIteration (maxIterations iterationNumber : ℕ) (state : IterateState) :
    IterateScript (IterateLoopCoreResult ⊕ IterateState) := do
  let (driverResult, iterationElapsedMs) ← timedDriver rt input
  let breaches ← meterUsage input (usageOf driverResult iterationElapsedMs)
  if breaches.isEmpty then
    decideIteration rt input maxIterations iterationNumber driverResult (state.charge driverResult)
  else
    breachIteration rt input iterationNumber breaches driverResult (state.charge driverResult)

/-- The body of the loop: a result to return, or what the next iteration starts with. -/
def iterateRound (deps : IterateLoopDeps) (maxIterations iterationNumber : ℕ)
    (state : IterateState) :
    IterateScript (IterateLoopCoreResult ⊕ IterateState) := do
  match ← resolveShouldAbort rt.toRuntime deps with
  | some reason => abortIteration input iterationNumber reason state
  | none => driveIteration rt input maxIterations iterationNumber state

/-! ## The loop -/

/-- The whole number of iterations; none for what is no finite number. -/
def iterationCap : JsNumber → ℕ
  | .finite value => (JsNumber.truncate value).toNat
  | _ => 0

def immediateAbandonNoIterationsPermitted :
    IterateScript IterateLoopCoreResult := do
  let decision : IterateLoopDecision :=
    { action := .abandon
      abandonReason := some .maxIterationsReached
      reason := "maxIterations (" ++ rt.numberText input.maxIterations ++
        ") permits no iterations; abandoning without invoking the driver." }
  safeAppendAttemptLogEvent
    { eventType := .attemptAborted
      attemptId := input.attemptId
      actionClass := "iterate_loop"
      mode := input.mode
      reason := decision.reason
      payload := .decided 0 decision.action decision.abandonReason [] }
  pure ⟨.abandon, decision, 0, 0, 0, [], none⟩

/-- The iterations, up to the ceiling. -/
def iterateRounds (deps : IterateLoopDeps)
    (maxIterations : ℕ) : IterateScript (IterateLoopCoreResult ⊕ IterateState) :=
  Script.rounds (iterateRound rt input deps maxIterations) maxIterations 1 ⟨none, 0, 0, []⟩

/-- The result after a loop that came to its end. -/
def fallbackResult (maxIterations : ℕ) (state : IterateState) : IterateLoopCoreResult where
  outcome := .abandon
  finalDecision :=
    { action := .abandon
      abandonReason := some .maxIterationsReached
      reason := "Iterate loop exhausted its iteration budget." }
  iterationsUsed := maxIterations
  totalTurnsUsed := state.totalTurnsUsed
  totalCostUsd := state.totalCostUsd
  iterations := state.iterations

def runIterateLoopCore (deps : IterateLoopDeps) :
    IterateScript IterateLoopCoreResult :=
  let maxIterations := iterationCap input.maxIterations
  if maxIterations = 0 then immediateAbandonNoIterationsPermitted rt input
  else do
    safeAppendAttemptLogEvent
      { eventType := .attemptStarted
        attemptId := input.attemptId
        actionClass := "iterate_loop"
        mode := input.mode
        reason := "iterate_loop_started"
        payload := .started maxIterations input.maxTurnsPerIteration }
    match ← iterateRounds rt input deps maxIterations with
    | .inl result => pure result
    | .inr state => pure (fallbackResult maxIterations state)

/-- The loop, with the totals of the meter. -/
def runIterateLoop (deps : IterateLoopDeps) :
    IterateScript IterateLoopResult := do
  let core ← runIterateLoopCore rt input deps
  let tracker ← Script.get
  pure { core with finalMeterTotals := tracker.totals, budgetBreaches := tracker.breaches }

/-- The meter before the first iteration. -/
def zeroMeter : MeterTracker := ⟨⟨0, 0, 0, 0⟩, []⟩

end LoopOver
