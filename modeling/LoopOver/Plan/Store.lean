import LoopOver.Contract.Digest
import LoopOver.Plan.Dag
import LoopOver.Queue.Keys

/-!
# The plan store

`packages/loopover-miner/lib/plan-store.ts` keeps the plans of an unattended miner between its
calls, one row for each plan id. A plan is checked when it is saved and when it is loaded again, by
a validator of the store's own.

* A row has the plan as a JSON value: `planJson` is `JSON.stringify`, and the text of it parses to
  the same value.
* `savePlan` and `loadPlan` are the operations of the store.
-/

namespace LoopOver.PlanStore

open Queue (JsonValue)

/-! ## Data -/

/-- Where a plan stands. -/
inductive PlanStatus
  | pending
  | running
  | completed
  | failed
  deriving DecidableEq

def PlanStatus.text : PlanStatus → String
  | .pending => "pending"
  | .running => "running"
  | .completed => "completed"
  | .failed => "failed"

/-- `PLAN_STATUSES`. -/
def planStatuses : List PlanStatus := [.pending, .running, .completed, .failed]

def stepStatusText : PlanStepStatus → String
  | .pending => "pending"
  | .running => "running"
  | .completed => "completed"
  | .failed => "failed"
  | .skipped => "skipped"

/-- `PLAN_STEP_STATUSES`. -/
def planStepStatuses : List PlanStepStatus := [.pending, .running, .completed, .failed, .skipped]

/-- A stored plan. -/
structure PlanRecord where
  planId : String
  plan : PlanDag
  status : PlanStatus
  updatedAt : String
  deriving DecidableEq

/-- A row of the table; its status is a text that somebody may have edited. -/
structure PlanRow where
  planId : String
  planJson : JsonValue
  status : String
  updatedAt : String

/-- The table, by its primary key. -/
abbrev PlanTable := String → Option PlanRow

/-- `JSON.stringify` leaves out a property that is `undefined`. -/
def stepJson (step : PlanStep) : JsonValue :=
  .object ([("id", .string step.id), ("title", .string step.title)] ++
    (step.actionClass.map fun actionClass => ("actionClass", .string actionClass)).toList ++
    [("dependsOn", .array (step.dependsOn.map .string)),
      ("status", .string (stepStatusText step.status)),
      ("attempts", .number step.attempts), ("maxAttempts", .number step.maxAttempts),
      ("lastError", (step.lastError.map JsonValue.string).getD .null)])

/-- A plan as it is stored. -/
def planJson (plan : PlanDag) : JsonValue := .object [("steps", .array (plan.steps.map stepJson))]

/-! ## Validation -/

section Validation

/-- `Number.MAX_SAFE_INTEGER`. -/
def maxSafeInteger : ℤ := 9007199254740991

/-- A type guard: the text that the value is. -/
def isBoundedString (value : Option JsonValue) (min max : ℕ) : Option String :=
  (value.bind (·.text?)).filter fun text => decide (min ≤ textLength text ∧ textLength text ≤ max)

/-- A type guard: the integer that the value is. -/
def isBoundedInt (value : Option JsonValue) (min max : ℤ) : Option ℤ :=
  ((value.bind (·.number?)).filter fun n : ℚ => decide (n.den = 1 ∧ min ≤ n ∧ n ≤ max)).map (·.num)

def stepKeys : List String :=
  ["id", "title", "actionClass", "dependsOn", "status", "attempts", "maxAttempts", "lastError"]

/-- A type guard: the step that the value is. -/
def isValidStep (step : JsonValue) : Option PlanStep :=
  match step with
  | .object fields =>
    if fields.all fun entry => stepKeys.contains entry.1 then do
      let id ← isBoundedString (step.property? "id") 1 100
      let title ← isBoundedString (step.property? "title") 1 300
      let actionClass ← match step.property? "actionClass" with
        | none => some none
        | value => (isBoundedString value 1 60).map some
      let deps ← ((step.property? "dependsOn").bind (·.items?)).filter fun deps =>
        decide (deps.length ≤ 50)
      let dependsOn ← deps.mapM fun dep => isBoundedString (some dep) 1 100
      let statusText ← (step.property? "status").bind (·.text?)
      let status ← planStepStatuses.find? fun status => stepStatusText status == statusText
      let attempts ← isBoundedInt (step.property? "attempts") 0 maxSafeInteger
      let maxAttempts ← isBoundedInt (step.property? "maxAttempts") 1 10
      let lastError ← match step.property? "lastError" with
        | none | some .null => some none
        | value => (isBoundedString value 0 2000).map some
      pure ⟨id, title, actionClass, dependsOn, status, attempts.toNat, maxAttempts, lastError⟩
    else none
  | _ => none

/-- The search of the store for a cycle. -/
def hasCycle (plan : PlanDag) : Option Bool :=
  DepthFirst.search (fun id => (plan.byId id).isSome)
    (fun id => ((plan.byId id).map PlanStep.dependsOn).getD [])
    plan.ids.length plan.ids fun _ => .white

/-- What the validator asks of the steps, once they are steps. -/
def checkSteps (plan : PlanDag) : Except String PlanDag :=
  if ¬plan.ids.Nodup then .error "invalid_plan"
  else if plan.steps.any fun step => step.dependsOn.any fun dep => dep == step.id ||
    !plan.ids.contains dep then
    .error "invalid_plan"
  else if hasCycle plan ≠ some false then .error "invalid_plan"
  else .ok plan

/-- One to a hundred valid steps that are valid together. -/
def validatePlanDag (plan : JsonValue) : Except String PlanDag :=
  match plan with
  | .object [("steps", .array items)] =>
    if items.length = 0 ∨ 100 < items.length then .error "invalid_plan"
    else
      match items.mapM isValidStep with
      | none => .error "invalid_plan"
      | some steps => checkSteps ⟨steps⟩
  | _ => .error "invalid_plan"

end Validation

/-! ## The store -/

/-- A text that is not blank, trimmed. -/
def normalizePlanId (planId : String) : Except String String :=
  if trimText planId = "" then .error "invalid_plan_id" else .ok (trimText planId)

/-- A failed step comes first, then a running one. -/
def computePlanStatus (plan : PlanDag) : PlanStatus :=
  if plan.steps.any fun step => step.status == .failed then .failed
  else if plan.steps.any fun step => step.status == .running then .running
  else if 0 < plan.steps.length ∧
      plan.steps.all (fun step => step.status == .completed || step.status == .skipped) =
        true then .completed
  else .pending

/-- A row that does not read is reported as corrupted. -/
def rowToRecord (row : PlanRow) : Except String PlanRecord :=
  match validatePlanDag row.planJson with
  | .error _ => .error "corrupted_plan_row"
  | .ok plan =>
    match planStatuses.find? fun status => status.text == row.status with
    | none => .error "corrupted_plan_row"
    | some status => .ok ⟨row.planId, plan, status, row.updatedAt⟩

section Store

variable (table : PlanTable)

/-- A plan is checked as it will be read. -/
def savePlan (planId : String) (plan : PlanDag) (now : String) :
    Except String PlanRecord × PlanTable :=
  match normalizePlanId planId with
  | .error e => (.error e, table)
  | .ok id =>
    match validatePlanDag (planJson plan) with
    | .error e => (.error e, table)
    | .ok _ =>
      let status := computePlanStatus plan
      (.ok ⟨id, plan, status, now⟩,
        Function.update table id (some ⟨id, planJson plan, status.text, now⟩))

/-- A row that is there is checked again. -/
def loadPlan (planId : String) : Except String (Option PlanRecord) := do
  let id ← normalizePlanId planId
  match table id with
  | none => pure none
  | some row => (rowToRecord row).map some

end Store

end LoopOver.PlanStore
