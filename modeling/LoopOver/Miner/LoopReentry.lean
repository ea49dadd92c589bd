import LoopOver.Governor.Calculators
import LoopOver.Miner.PrOutcome

/-!
# Re-entry of the miner's loop

When a pull request has ended, the miner may go on with the next issue. `shouldReenter` of
`packages/loopover-engine/src/miner/loop-reentry-policy.ts` is the decision, with a breaker for each
repository and two caps. `attemptLoopReentry` of `packages/loopover-miner/lib/loop-reentry.ts`
counts what the decision needs in the event ledger, takes the next issue from the queue if it may,
and appends its decision to the ledger.

* `LoopState` has the ledger, with the calls that were completed, and `step` is a call or an outcome
  that is recorded.
* `attemptLoopReentry_cases` says what a call does, and `counted_of_candidateOf` what it counts.

What the queue and the run states answer is given with the call: any of them may throw.
-/

namespace LoopOver.LoopReentry

open Queue (JsonValue)
open EventLedger (EventTable EventDbRow LedgerEntry)

/-! ## The policy -/

/-- How a loop ended. -/
inductive LoopReentryOutcome
  | merged
  | disengaged
  | other
  deriving DecidableEq

def LoopReentryOutcome.text : LoopReentryOutcome → String
  | .merged => "merged"
  | .disengaged => "disengaged"
  | .other => "other"

def defaultMaxConsecutiveDisengagements : ℕ := 3

def defaultMaxReentriesPerHour : ℕ := 4

def defaultMaxReentriesPerSession : ℕ := 20

/-- The caps that a caller may give. -/
structure ReentryCaps where
  maxConsecutiveDisengagements : Option ℕ
  maxReentriesPerHour : Option ℕ
  maxReentriesPerSession : Option ℕ

namespace ReentryCaps

variable (caps : ReentryCaps)

def consecutive : ℕ := caps.maxConsecutiveDisengagements.getD defaultMaxConsecutiveDisengagements

def hourly : ℕ := caps.maxReentriesPerHour.getD defaultMaxReentriesPerHour

def session : ℕ := caps.maxReentriesPerSession.getD defaultMaxReentriesPerSession

end ReentryCaps

/-- What the decision reads. -/
structure LoopReentryCandidate extends ReentryCaps where
  killSwitchScope : MinerKillSwitchScope
  repoFullName : String
  outcome : LoopReentryOutcome
  consecutiveDisengagements : ℕ
  reentriesThisHour : ℕ
  reentriesThisSession : ℕ

/-- Whether the loop goes on, and if not, why. -/
structure LoopReentryDecision where
  reenter : Bool
  reasons : List String
  deriving DecidableEq

/-- `count >= cap`, with the reason for it. -/
def ceiling (reason : String) (count cap : ℕ) : List String :=
  if cap ≤ count then [reason ++ ":" ++ toString count ++ ">=" ++ toString cap] else []

/-- The kill switch comes first; then every ceiling that is reached is named. -/
def shouldReenter (candidate : LoopReentryCandidate) : LoopReentryDecision :=
  if isMinerKillSwitchActive candidate.killSwitchScope then
    ⟨false, [candidate.killSwitchScope.text ++ "_kill_switch_active"]⟩
  else
    let reasons :=
      (if candidate.outcome = .disengaged then
        ceiling "repo_paused_after_consecutive_disengagements" candidate.consecutiveDisengagements
          candidate.consecutive
      else []) ++
      ceiling "hourly_reentry_cap_reached" candidate.reentriesThisHour candidate.hourly ++
      ceiling "session_reentry_cap_reached" candidate.reentriesThisSession candidate.session
    ⟨reasons.isEmpty, reasons⟩

/-! ## A call -/

def loopReentryDecisionEvent : String := "loop_reentry_decision"

def hourMs : ℚ := 60 * 60 * 1000

/-- The candidate, before it is checked. -/
structure LoopReentryCandidateInput where
  killSwitchScope : Untyped
  repoFullName : Untyped
  outcome : Untyped

/-- What the queue hands out. -/
structure DequeuedEntry where
  repoFullName : String
  identifier : String
  priority : ℚ
  status : String
  enqueuedAt : String

/-- What a call is given. -/
structure LoopReentryDeps where
  /-- What the queue answers, if it is asked. -/
  dequeueNext : Except String (Option DequeuedEntry)
  /-- What the run states answer, if there are any. -/
  setRunState : Option (String → String → Except String Unit)
  nowMs : Option ℚ
  sessionStartMs : Option ℚ
  loopSummary : Option JsonValue
  /-- `Date.now()`. -/
  clock : ℚ
  /-- The stamp of the event. -/
  createdAt : String

def LoopReentryDeps.now (deps : LoopReentryDeps) : ℚ := deps.nowMs.getD deps.clock

/-- The decision, the item, and the entry of the ledger. -/
structure LoopReentryResult where
  decision : LoopReentryDecision
  dequeued : Option DequeuedEntry
  event : LedgerEntry JsonValue

def killSwitchScopes : List MinerKillSwitchScope := [.global, .repo, .none]

def loopReentryOutcomes : List LoopReentryOutcome := [.merged, .disengaged, .other]

/-- The member of a list with a text. -/
def parseText {α : Type} (text : α → String) (allowed : List α) (message : String) :
    Untyped → Except String α
  | .text value => ((allowed.find? fun a => text a == value).map Except.ok).getD (.error message)
  | _ => .error message

section Calls

variable (host : LoopHost)

/-- A pull request that was closed. -/
def isDisengagedOutcome (outcome : NormalizedPrOutcomePayload) : Prop := outcome.decision = .closed

instance : DecidablePred isDisengagedOutcome :=
  fun outcome => inferInstanceAs (Decidable (outcome.decision = .closed))

/-- The closed ones at the end of the outcomes. -/
def countConsecutiveDisengagements (repoFullName : String) (table : EventTable) : Except String ℕ :=
  (readPrOutcomes host ⟨.text repoFullName, .undefined⟩ table).map fun outcomes =>
    (outcomes.rtakeWhile fun entry => isDisengagedOutcome entry.2).length

/-- An event of a re-entry that was granted, at or after a time. -/
def isReentrySince (sinceMs : ℚ) (event : LedgerEntry JsonValue) : Bool :=
  event.type == loopReentryDecisionEvent && (event.payload.field "reentered").isTrue &&
    (host.dateParse event.createdAt).any fun createdAt : ℤ => decide (sinceMs ≤ createdAt)

/-- The granted reentries from a time on. -/
def countReentriesSince (sinceMs : ℚ) (table : EventTable) : Except String ℕ :=
  (EventLedger.readEvents host.toLedgerHost ⟨.undefined, .undefined⟩ table).map fun events =>
    (events.filter (isReentrySince host sinceMs)).length

/-- The candidate, with what is counted for it. -/
def candidateOf (caps : ReentryCaps) (input : LoopReentryCandidateInput) (deps : LoopReentryDeps)
    (table : EventTable) :
    Except String LoopReentryCandidate := do
  let killSwitchScope ← parseText MinerKillSwitchScope.text killSwitchScopes
    "invalid_kill_switch_scope"
    input.killSwitchScope
  let repoFullName ← ((trimmedName input.repoFullName).map Except.ok).getD
    (.error "invalid_repo_full_name")
  let outcome ← parseText LoopReentryOutcome.text loopReentryOutcomes "invalid_outcome"
    input.outcome
  let consecutiveDisengagements ← countConsecutiveDisengagements host repoFullName table
  let reentriesThisHour ← countReentriesSince host (deps.now - hourMs) table
  let reentriesThisSession ← countReentriesSince host (deps.sessionStartMs.getD 0) table
  return { toReentryCaps := caps, killSwitchScope, repoFullName, outcome, consecutiveDisengagements,
           reentriesThisHour, reentriesThisSession }

/-- The next issue, whose repository is discovered now. -/
def dequeue (deps : LoopReentryDeps) : Except String (Option DequeuedEntry) := do
  let dequeued ← deps.dequeueNext
  match dequeued, deps.setRunState with
  | some entry, some setRunState =>
    setRunState entry.repoFullName "discovering"
    return some entry
  | dequeued, _ => return dequeued

/-- The payload of the event. -/
def decisionPayload (candidate : LoopReentryCandidate) (decision : LoopReentryDecision)
    (dequeued : Option DequeuedEntry) (loopSummary : Option JsonValue) : JsonValue :=
  .object [("killSwitchScope", .string candidate.killSwitchScope.text),
    ("outcome", .string candidate.outcome.text),
    ("reentered", .bool decision.reenter),
      ("reasons", .array (decision.reasons.map JsonValue.string)),
    ("consecutiveDisengagements", .number candidate.consecutiveDisengagements),
    ("reentriesThisHour", .number candidate.reentriesThisHour),
    ("reentriesThisSession", .number candidate.reentriesThisSession),
    ("dequeuedIdentifier", nullableString (dequeued.map (·.identifier))),
      ("loopSummary", loopSummary.getD .null)]

/-- A call of which the event cannot be appended throws, with the issue taken. -/
def attemptLoopReentry (caps : ReentryCaps) (input : LoopReentryCandidateInput)
    (deps : LoopReentryDeps) (table : EventTable) : Except String LoopReentryResult × EventTable :=
  match candidateOf host caps input deps table with
  | .error e => (.error e, table)
  | .ok candidate =>
    let decision := shouldReenter candidate
    match (if decision.reenter then dequeue deps else .ok none) with
    | .error e => (.error e, table)
    | .ok dequeued =>
      let (answer, table) := EventLedger.appendEvent host.toLedgerHost
        ⟨.text loopReentryDecisionEvent, .text candidate.repoFullName,
          decisionPayload candidate decision dequeued deps.loopSummary⟩
        deps.createdAt table
      (answer.map fun event => ⟨decision, dequeued, event⟩, table)

end Calls

/-! ## Runs -/

/-- A call that was completed. -/
structure CompletedCall where
  input : LoopReentryCandidateInput
  nowMs : ℚ
  result : LoopReentryResult

/-- The call let the loop go on. -/
def CompletedCall.Granted (call : CompletedCall) : Prop := call.result.decision.reenter = true

instance (call : CompletedCall) : Decidable call.Granted :=
  inferInstanceAs (Decidable (call.result.decision.reenter = true))

/-- The ledger, and the calls so far. -/
structure LoopState where
  table : EventTable
  calls : List CompletedCall

/-- The calls that write to the ledger. -/
inductive Action
  | attemptLoopReentry (input : LoopReentryCandidateInput) (deps : LoopReentryDeps)
  | recordPrOutcomeSnapshot (input : PrOutcomeInput) (createdAt : String)

/-- The event of a call is not stamped before the time of the call. -/
def Stamped (host : LoopHost) (deps : LoopReentryDeps) : Prop :=
  ∃ stamp : ℤ, host.dateParse deps.createdAt = some stamp ∧ deps.now ≤ stamp

instance (host : LoopHost) (deps : LoopReentryDeps) : Decidable (Stamped host deps) :=
  match h : host.dateParse deps.createdAt with
  | none => isFalse fun ⟨_, hstamp, _⟩ => by rw [h] at hstamp; cases hstamp
  | some stamp => decidable_of_iff (deps.now ≤ stamp) (by rw [Stamped, h]; simp)

/-- A call with its clock, or the record of an outcome. -/
def step (host : LoopHost) (caps : ReentryCaps) (sessionStartMs : ℚ) (s : LoopState) :
    Action → Option LoopState
  | .attemptLoopReentry input deps =>
    if Stamped host deps ∧ deps.sessionStartMs.getD 0 = sessionStartMs then
      match LoopReentry.attemptLoopReentry host caps input deps s.table with
      | (.error _, table) => some { s with table := table }
      | (.ok result, table) => some ⟨table, s.calls ++ [⟨input, deps.now, result⟩]⟩
    else none
  | .recordPrOutcomeSnapshot input createdAt =>
    some { s with table := (LoopOver.recordPrOutcomeSnapshot host input createdAt s.table).2 }

/-! ## What a call does -/

section Cases

variable {host : LoopHost} {caps : ReentryCaps} {input : LoopReentryCandidateInput}
  {deps : LoopReentryDeps}
  {table : EventTable} {candidate : LoopReentryCandidate} {name : String}

/-- The policy lets the loop go on only without a kill switch, and below its caps. -/
theorem shouldReenter_eq_true (h : (shouldReenter candidate).reenter = true) :
    candidate.killSwitchScope = .none ∧
      (candidate.outcome = .disengaged → candidate.consecutiveDisengagements <
        candidate.consecutive) ∧
      candidate.reentriesThisHour < candidate.hourly ∧
        candidate.reentriesThisSession < candidate.session := by
  have hceiling : ∀ reason count cap, ceiling reason count cap = [] → count < cap := by
    intro reason count cap hnil
    by_contra hle
    rw [ceiling, if_pos (Nat.not_lt.1 hle)] at hnil
    cases hnil
  unfold shouldReenter at h
  split at h
  · cases h
  · next hswitch =>
    simp only [List.isEmpty_iff, List.append_eq_nil_iff] at h
    obtain ⟨⟨hpaused, hhour⟩, hsession⟩ := h
    refine ⟨?_, fun hdisengaged => ?_, hceiling _ _ _ hhour, hceiling _ _ _ hsession⟩
    · by_contra hactive
      exact hswitch (bne_iff_ne.2 hactive)
    · rw [if_pos hdisengaged] at hpaused
      exact hceiling _ _ _ hpaused

theorem parseText_ok {α : Type} {text : α → String} {allowed : List α} {message : String}
    {value : Untyped} {a : α} (h : parseText text allowed message value = .ok a) :
    value = .text (text a) := by
  cases value with
  | text value =>
    rw [parseText] at h
    cases hfind : allowed.find? fun a => text a == value with
    | none =>
      rw [hfind] at h
      cases h
    | some found =>
      rw [hfind] at h
      obtain rfl := Except.ok.inj h
      have hfound : (text found == value) = true :=
        List.find?_some (p := fun a => text a == value) hfind
      rw [beq_iff_eq.1 hfound]
  | _ => cases h

/-- The name of a candidate is that of a repository, or the call throws. -/
theorem normalize_trimmedName {argument : Untyped} {trimmed : String}
    (h : trimmedName argument = some trimmed)
    (hname : normalizeRepoFullName (.text trimmed) = .ok name) :
    normalizeRepoFullName argument = .ok name := by
  obtain ⟨text, rfl, rfl, -⟩ := trimmedName_eq_some h
  obtain ⟨hvalid, text', htext, htrim⟩ := normalizeRepoFullName_eq_ok.1 hname
  obtain rfl := Untyped.text.inj htext
  exact normalizeRepoFullName_eq_ok.2 ⟨hvalid, text, rfl, by rw [← htrim, trimText_trimText]⟩

theorem countReentriesSince_inOrder (h : table.InOrder) (host : LoopHost) (sinceMs : ℚ) :
    countReentriesSince host sinceMs table =
      .ok ((table.rows.map (EventLedger.rowToEntry host.toLedgerHost)).filter
        (isReentrySince host sinceMs)).length := by
  rw [countReentriesSince, EventLedger.readEvents_inOrder h]
  have hall : (fun row : EventDbRow => (none : Option String).all fun repo =>
      row.repoFullName == some repo) =
      fun _ => true := rfl
  show Except.ok (((table.rows.filter _).map _).filter _).length = _
  rw [hall, List.filter_true]

/-- What a candidate is, in a ledger from which nothing was deleted. -/
structure Counted (host : LoopHost) (caps : ReentryCaps) (input : LoopReentryCandidateInput)
    (deps : LoopReentryDeps) (table : EventTable) (candidate : LoopReentryCandidate) : Prop where
  caps : candidate.toReentryCaps = caps
  scope : input.killSwitchScope = .text candidate.killSwitchScope.text
  outcome : input.outcome = .text candidate.outcome.text
  consecutive : ∃ name, normalizeRepoFullName input.repoFullName = .ok name ∧
    candidate.consecutiveDisengagements =
      ((Recency.latest (recordedOutcomes host name table)).rtakeWhile fun entry =>
        isDisengagedOutcome entry.2).length
  hour : candidate.reentriesThisHour =
    ((table.rows.map (EventLedger.rowToEntry host.toLedgerHost)).filter
      (isReentrySince host (deps.now - hourMs))).length
  session : candidate.reentriesThisSession =
    ((table.rows.map (EventLedger.rowToEntry host.toLedgerHost)).filter
      (isReentrySince host (deps.sessionStartMs.getD 0))).length

theorem counted_of_candidateOf (h : table.InOrder)
    (hcandidate : candidateOf host caps input deps table = .ok candidate) :
    Counted host caps input deps table candidate := by
  unfold candidateOf at hcandidate
  rw [countReentriesSince_inOrder h, countReentriesSince_inOrder h] at hcandidate
  obtain ⟨scope, hscope, hcandidate⟩ := exists_of_bind_ok hcandidate
  obtain ⟨trimmed, htrimmed, hcandidate⟩ := exists_of_bind_ok hcandidate
  obtain ⟨outcome, houtcome, hcandidate⟩ := exists_of_bind_ok hcandidate
  obtain ⟨count, hcount, hcandidate⟩ := exists_of_bind_ok hcandidate
  obtain ⟨hour, hhour, hcandidate⟩ := exists_of_bind_ok hcandidate
  obtain ⟨session, hsession, hcandidate⟩ := exists_of_bind_ok hcandidate
  obtain rfl := Except.ok.inj hcandidate
  refine ⟨rfl, parseText_ok hscope, parseText_ok houtcome, ?_, (Except.ok.inj hhour).symm,
    (Except.ok.inj hsession).symm⟩
  have hname : trimmedName input.repoFullName = some trimmed := by
    cases hname : trimmedName input.repoFullName with
    | none =>
      rw [hname] at htrimmed
      cases htrimmed
    | some name =>
      rw [hname] at htrimmed
      rw [Except.ok.inj htrimmed]
  cases hrepo : EventLedger.normalizeOptionalRepoFullName (.text trimmed) with
  | error e =>
    rw [countConsecutiveDisengagements, readPrOutcomes, EventLedger.readEvents_inOrder h,
      hrepo] at hcount
    cases hcount
  | ok repo =>
    obtain ⟨name, hnormal, rfl⟩ := EventLedger.normalizeOptionalRepoFullName_ok hrepo
    rw [countConsecutiveDisengagements, readPrOutcomes_inOrder h hrepo] at hcount
    exact ⟨name, normalize_trimmedName hname hnormal, (Except.ok.inj hcount).symm⟩

/-- **What a call does**: it throws and leaves the ledger as it is, or it appends its decision. -/
theorem attemptLoopReentry_cases (host : LoopHost) (caps : ReentryCaps)
    (input : LoopReentryCandidateInput) (deps : LoopReentryDeps) (table : EventTable) :
    (∃ e, attemptLoopReentry host caps input deps table = (.error e, table)) ∨
      ∃ candidate dequeued prepared, candidateOf host caps input deps table = .ok candidate ∧
        EventLedger.prepareEvent host.toLedgerHost ⟨.text loopReentryDecisionEvent,
          .text candidate.repoFullName,
          decisionPayload candidate (shouldReenter candidate) dequeued deps.loopSummary⟩
            deps.createdAt =
            .ok prepared ∧
        attemptLoopReentry host caps input deps table =
          (.ok ⟨shouldReenter candidate, dequeued, EventLedger.rowToEntry host.toLedgerHost
            { prepared with id := table.lastId + 1, seq := EventLedger.nextSeq table }⟩,
            EventLedger.appendRow prepared table) := by
  unfold attemptLoopReentry
  cases candidateOf host caps input deps table with
  | error e => exact Or.inl ⟨e, rfl⟩
  | ok candidate =>
    simp only
    cases (if (shouldReenter candidate).reenter = true then dequeue deps else .ok none) with
    | error e => exact Or.inl ⟨e, rfl⟩
    | ok dequeued =>
      simp only [EventLedger.appendEvent]
      cases hprepared : EventLedger.prepareEvent host.toLedgerHost ⟨.text loopReentryDecisionEvent,
        .text candidate.repoFullName,
        decisionPayload candidate (shouldReenter candidate) dequeued deps.loopSummary⟩
          deps.createdAt with
      | error e => exact Or.inl ⟨e, rfl⟩
      | ok prepared => exact Or.inr ⟨candidate, dequeued, prepared, rfl, hprepared, rfl⟩

end Cases

end LoopOver.LoopReentry
