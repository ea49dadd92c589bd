import LoopOver.Foundations.Recency
import LoopOver.Miner.EventLedger
import LoopOver.Queue.Keys

/-!
# The outcomes of the miner's pull requests

`packages/loopover-miner/lib/pr-outcome.ts` keeps in the event ledger how the miner's own pull
requests ended. `readPrOutcomes` makes a map of the events, whose last entry is the pull request
with the newest outcome.

* `normalizePrOutcomePayload` is the check that a payload passes before it is written, and again
  when it is read.
* `recordPrOutcomeSnapshot` writes an outcome, and `readPrOutcomes` reads all of them.

A ledger from which nothing was deleted has its rows in the order of their seqs
(`EventLedger.InOrder`).
-/

namespace LoopOver

open Queue (JsonValue)
open EventLedger (EventTable EventDbRow LedgerEntry LedgerHost)

/-! ## The ledger's host -/

/-- A field of a payload, as what is not known to have a type. -/
def untyped : Option JsonValue → Untyped
  | none => .undefined
  | some .null => .null
  | some (.string value) => .text value
  | some (.number value) => .number (.finite value)
  | some _ => .other

/-- A ledger whose payloads are objects. What is deeply equal to an object has the same strings,
numbers and booleans under the same keys. -/
structure LoopHost extends LedgerHost JsonValue where
  /-- `Date.parse`; nothing where it is not a number. -/
  dateParse : String → Option ℤ
  deepEqual_untyped : ∀ {a b : JsonValue} (key : String), isDeepStrictEqual a b = true →
    untyped (a.property? key) = untyped (b.property? key)
  deepEqual_isTrue : ∀ {a b : JsonValue} (key : String), isDeepStrictEqual a b = true →
    (a.field key).isTrue = (b.field key).isTrue

/-! ## Payloads -/

def minerPrOutcomeEvent : String := "pr_outcome"

/-- How a pull request ended. -/
inductive MinerPrOutcomeDecision
  | merged
  | closed
  deriving DecidableEq

def MinerPrOutcomeDecision.text : MinerPrOutcomeDecision → String
  | .merged => "merged"
  | .closed => "closed"

def minerPrOutcomeDecisions : List MinerPrOutcomeDecision := [.merged, .closed]

def rejectionReasons : List String :=
  ["gate_close", "maintainer_close_no_reason", "superseded_by_duplicate"]

/-- The fields of a payload. -/
structure PrOutcomeFields where
  prNumber : Untyped
  decision : Untyped
  closedAt : Untyped
  reason : Untyped
  issueNumber : Untyped

/-- An outcome, before it is checked. -/
structure PrOutcomeInput extends PrOutcomeFields where
  repoFullName : Untyped

/-- An outcome that is recorded. -/
structure NormalizedPrOutcomePayload where
  prNumber : ℕ
  decision : MinerPrOutcomeDecision
  closedAt : Option String
  reason : Option String
  issueNumber : Option ℕ
  deriving DecidableEq

/-- A text that is not blank, trimmed. -/
def optionalString : Untyped → Option String
  | .text value => if trimText value = "" then none else some (trimText value)
  | _ => none

/-- `Number.isInteger(value) && value > 0`. -/
def positiveInteger? : Untyped → Option ℕ
  | .number (.finite value) => if value.den = 1 ∧ 0 < value then some value.num.toNat else none
  | _ => none

/-- The fields of a stored payload. -/
def fieldsOf (payload : JsonValue) : PrOutcomeFields where
  prNumber := untyped (payload.property? "prNumber")
  decision := untyped (payload.property? "decision")
  closedAt := untyped (payload.property? "closedAt")
  reason := untyped (payload.property? "reason")
  issueNumber := untyped (payload.property? "issueNumber")

/-- The checks of a payload that is an object. -/
def normalizeFields (record : PrOutcomeFields) : Option NormalizedPrOutcomePayload := do
  let prNumber ← positiveInteger? record.prNumber
  let decisionText ← optionalString record.decision
  let decision ← minerPrOutcomeDecisions.find? fun decision => decision.text == decisionText
  let reason := (optionalString record.reason).filter fun reason =>
    decision == .closed && rejectionReasons.contains reason
  return ⟨prNumber, decision, optionalString record.closedAt, reason,
    positiveInteger? record.issueNumber⟩

/-- Only an object is an outcome. -/
def normalizePrOutcomePayload : JsonValue → Option NormalizedPrOutcomePayload
  | .object fields => normalizeFields (fieldsOf (.object fields))
  | _ => none

def nullableString : Option String → JsonValue
  | none => .null
  | some text => .string text

def nullableNumber : Option ℕ → JsonValue
  | none => .null
  | some n => .number n

/-- The object that is written. -/
def NormalizedPrOutcomePayload.json (payload : NormalizedPrOutcomePayload) : JsonValue :=
  .object [("prNumber", .number payload.prNumber), ("decision", .string payload.decision.text),
    ("closedAt", nullableString payload.closedAt), ("reason", nullableString payload.reason),
    ("issueNumber", nullableNumber payload.issueNumber)]

/-! ## Writing and reading -/

/-- `typeof value === "string" ? value.trim() : ""`, where an empty text is refused. -/
def trimmedName : Untyped → Option String
  | .text value => if trimText value = "" then none else some (trimText value)
  | _ => none

section Operations

variable (host : LoopHost)

/-- What does not normalize is not recorded. -/
def recordPrOutcomeSnapshot (input : PrOutcomeInput) (createdAt : String) (table : EventTable) :
    Except String (Option (LedgerEntry JsonValue)) × EventTable :=
  match trimmedName input.repoFullName, normalizeFields input.toPrOutcomeFields with
  | some repoFullName, some payload =>
    let (answer, table) := EventLedger.appendEvent host.toLedgerHost
      ⟨.text minerPrOutcomeEvent, .text repoFullName, payload.json⟩ createdAt table
    (answer.map some, table)
  | _, _ => (.ok none, table)

/-- The key and the value that an event sets in the map. The key is the text
`repoFullName:prNumber`, which is another for every other pair. -/
def outcomeOf (event : LedgerEntry JsonValue) :
    Option ((String × ℕ) × NormalizedPrOutcomePayload) := do
  let repoFullName ← event.repoFullName
  if event.type = minerPrOutcomeEvent ∧ trimText repoFullName ≠ "" then
    let payload ← normalizePrOutcomePayload event.payload
    return ((repoFullName, payload.prNumber), payload)
  else none

/-- The last outcome of each pull request. -/
def readPrOutcomes (filter : EventLedger.ReadEventsFilter) (table : EventTable) :
    Except String (List ((String × ℕ) × NormalizedPrOutcomePayload)) :=
  (EventLedger.readEvents host.toLedgerHost filter table).map fun events =>
    Recency.latest (events.filterMap outcomeOf)

/-- The outcomes of a repository that are recorded, in the order in which they were: the pull
requests and their outcomes. -/
def recordedOutcomes (repoFullName : String) (table : EventTable) :
    List ((String × ℕ) × NormalizedPrOutcomePayload) :=
  ((table.rows.filter fun row => row.repoFullName == some repoFullName).map
    (EventLedger.rowToEntry host.toLedgerHost)).filterMap outcomeOf

end Operations

/-! ## Outcomes that are recorded -/

section Outcomes

variable {host : LoopHost} {table : EventTable} {name : String}

theorem trimmedName_eq_some {value : Untyped} (h : trimmedName value = some name) :
    ∃ text, value = .text text ∧ trimText text = name ∧ name ≠ "" := by
  cases value with
  | text text =>
    rw [trimmedName] at h
    split at h
    · cases h
    · next hne =>
      obtain rfl := Option.some.inj h
      exact ⟨text, rfl, rfl, hne⟩
  | _ => cases h

/-- The map of a repository's outcomes, in the order of their last updates. -/
theorem readPrOutcomes_inOrder (h : table.InOrder) {argument : Untyped}
    (hname : EventLedger.normalizeOptionalRepoFullName argument = .ok (some name)) :
    readPrOutcomes host ⟨argument, .undefined⟩ table =
      .ok (Recency.latest (recordedOutcomes host name table)) := by
  rw [readPrOutcomes, EventLedger.readEvents_inOrder h, hname]
  rfl

end Outcomes

end LoopOver
