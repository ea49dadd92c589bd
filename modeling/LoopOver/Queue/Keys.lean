import LoopOver.Queue.Rows
import LoopOver.Text
import Mathlib.Data.List.Dedup

/-!
# What the queue reads from a payload

A payload is a JSON text. `src/selfhost/queue-common.ts` reads from it the key under which jobs are
coalesced, the priority, the claim order and the admission keys, and
`src/github/webhook-coalesce.ts` the key of a webhook. `Payload` is the value that `JSON.parse`
gives, or nothing where the text does not parse, and `queueReader` puts the functions together.

Trimming, folding, parsing dates, writing whole numbers and SHA-256 are in `KeyRuntime`, and
everything here holds for all of them.

* `planGithubWebhookCoalesce` and `jobCoalesceKey` are the keys.
* `jobCoalesceMergedPayload_paths` says that a merged index job has the paths of both.
-/

namespace LoopOver.Queue

open List

/-! ## Payloads -/

/-- What `JSON.parse` gives. -/
inductive JsonValue
  | null
  | bool (value : Bool)
  | number (value : ℚ)
  | string (value : String)
  | array (items : List JsonValue)
  | object (fields : List (String × JsonValue))

namespace JsonValue

/-- `value?.[key]`, where `undefined` and `null` are one. -/
def field : JsonValue → String → JsonValue
  | .object fields, key => ((fields.find? (·.1 == key)).map (·.2)).getD .null
  | _, _ => .null

/-- The value of a key, where `undefined` is nothing and `null` is a value. -/
def property? : JsonValue → String → Option JsonValue
  | .object fields, key => (fields.find? (·.1 == key)).map (·.2)
  | _, _ => none

/-- The value, if it is a string. -/
def text? : JsonValue → Option String
  | .string value => some value
  | _ => none

/-- The value, if it is a number; a number in a JSON text is finite. -/
def number? : JsonValue → Option ℚ
  | .number value => some value
  | _ => none

def items? : JsonValue → Option (List JsonValue)
  | .array items => some items
  | _ => none

/-- `typeof value === "string" ? value : ""`. -/
def textOrEmpty (value : JsonValue) : String := value.text?.getD ""

/-- `value === true`. -/
def isTrue : JsonValue → Bool
  | .bool value => value
  | _ => false

def orElse : JsonValue → JsonValue → JsonValue
  | .null, other => other
  | value, _ => value

/-- `{ ...object, [key]: value }`, up to the order of the fields, which nothing reads. -/
def setField : JsonValue → String → JsonValue → JsonValue
  | .object fields, key, value => .object ((key, value) :: fields.filter (·.1 != key))
  | _, key, value => .object [(key, value)]

@[simp] theorem field_setField_self (object value : JsonValue) (key : String) :
    (object.setField key value).field key = value := by
  cases object <;> simp [setField, field]

theorem field_setField_of_ne (fields : List (String × JsonValue)) (value : JsonValue)
    {key other : String} (hne : key ≠ other) :
    ((object fields).setField key value).field other = (object fields).field other := by
  have hkey : (key == other) = false := beq_eq_false_iff_ne.2 hne
  show Option.getD (Option.map _ (List.find? _ (_ :: _))) _ = Option.getD (Option.map _ _) _
  rw [List.find?_cons, hkey, List.find?_filter]
  have hsame : (fun entry : String × JsonValue =>
      decide ((entry.1 != key) = true ∧ (entry.1 == other) = true)) =
      fun entry => entry.1 == other := by
    funext entry
    by_cases hentry : entry.1 = other
    · simp [hentry, Ne.symm hne]
    · simp [hentry]
  rw [hsame]

end JsonValue

/-- A payload; nothing where the text does not parse. -/
abbrev Payload := Option JsonValue

/-- The functions on texts and numbers that the keys are made with. -/
structure KeyRuntime extends Runtime where
  /-- `String` of a whole number. -/
  integerText : ℤ → String
  /-- The digest of a text, in hexadecimal. -/
  sha256 : String → String

/-- ASCII texts, decimal numbers, and the text itself for its digest. -/
def asciiKeyRuntime : KeyRuntime where
  toRuntime := asciiRuntime
  integerText n := if n < 0 then "-" ++ toString n.natAbs else toString n.natAbs
  sha256 text := text

section Keys

variable (host : KeyRuntime)

/-! ## Normal forms -/

def normalizedRepo (value : JsonValue) : Option String :=
  (value.text?.filter fun text => text.toList.contains '/').map fun text =>
    host.toLowerCase (host.trim text)

def normalizedNumber (value : JsonValue) : Option ℤ := value.number?.map fun number => ⌊number⌋

/-- A text with something in it, trimmed. -/
def normalizedId (value : JsonValue) : Option String := truthy (value.text?.map host.trim)

/-- `normalizedLogin` and `normalizedEnum`. -/
def normalizedName (value : JsonValue) : Option String :=
  (normalizedId host value).map host.toLowerCase

def normalizedCursor (value : JsonValue) : Option String :=
  match value with
  | .number number => some (host.integerText ⌊number⌋)
  | other => normalizedId host other

/-- `/^\d{4}-\d{2}-\d{2}$/`. -/
def isDateText (text : String) : Bool :=
  match text.toList with
  | [y₁, y₂, y₃, y₄, h₁, m₁, m₂, h₂, d₁, d₂] =>
    [y₁, y₂, y₃, y₄, m₁, m₂, d₁, d₂].all Char.isDigit && h₁ == '-' && h₂ == '-'
  | _ => false

def normalizedDate (value : JsonValue) : Option String :=
  (value.text?.map host.trim).filter isDateText

/-- `/^[a-f0-9]{7,40}$/i`. -/
def isShaText (text : String) : Bool :=
  decide (7 ≤ text.toList.length) && decide (text.toList.length ≤ 40) &&
    text.toList.all fun c => c.isDigit || 'a' ≤ c.toLower && c.toLower ≤ 'f'

def normalizedSha (value : JsonValue) : Option String :=
  ((value.text?.map host.trim).filter isShaText).map host.toLowerCase

/-- `[...new Set(texts)].sort()`. -/
def sortedSet (texts : List String) : List String := texts.dedup.insertionSort keyLe

/-- The paths that are texts with something in them. -/
def pathTexts (value : JsonValue) : List String :=
  (value.items?.getD []).filterMap fun entry => entry.text?.filter fun path => host.trim path != ""

def stableStringDigest (values : List String) : String :=
  "sha256:" ++ host.sha256 (canonicalJson (.array (values.map .string)))

def normalizedPathScope (value : JsonValue) : Option String :=
  let paths := sortedSet ((pathTexts host value).map host.trim)
  if paths = [] then none else some (stableStringDigest host paths)

def boolFlag (value : JsonValue) : String := if value.isTrue then "1" else "0"

def keyOf (type : String) (parts : List String) : String := type ++ ":" ++ ":".intercalate parts

/-! ## Webhooks -/

structure WebhookCoalescePlan where
  key : String
  quietWindowSeconds : ℚ
  deriving DecidableEq

def coalescablePullRequestActions : List String :=
  ["opened", "reopened", "synchronize", "edited", "ready_for_review"]

def coalescablePullRequestLabelActions : List String := ["labeled", "unlabeled"]

def reviewSurfaceActionsByEvent (eventName : String) : List String :=
  if eventName = "pull_request_review_comment" then ["created", "edited", "deleted"]
  else if eventName = "pull_request_review_thread" then ["resolved", "unresolved"]
  else []

/-- `@sha` after a key, where there is one. -/
def headSuffix (headSha : Option String) : String := (headSha.map ("@" ++ ·)).getD ""

/-- The numbers of the pull requests of a node, in order; nothing where the list is none, and the
read throws. -/
def pullNumbers (node : JsonValue) : Option (List ℤ) :=
  match node.field "pull_requests" with
  | .null => some []
  | .array entries =>
    some ((entries.filterMap fun entry => normalizedNumber (entry.field "number")).insertionSort
      (· ≤ ·))
  | _ => none

/-- The plan of a webhook; where the source throws, its callers go on without one. -/
def planGithubWebhookCoalesce (eventName : String) (payload : JsonValue) :
    Option WebhookCoalescePlan :=
  let action := (payload.field "action").textOrEmpty
  let pullRequest := payload.field "pull_request"
  (truthy (normalizedRepo host ((payload.field "repository").field "full_name"))).bind fun repo =>
    if (eventName = "check_suite" ∨ eventName = "check_run") ∧ action = "completed" then
      let node := payload.field eventName
      let fallback :=
        if eventName = "check_run" then (node.field "check_suite").field "head_sha" else .null
      (normalizedSha host ((node.field "head_sha").orElse fallback)).bind fun headSha =>
        (pullNumbers node).map fun numbers =>
          let list := ",".intercalate (numbers.map host.integerText)
          ⟨"github-webhook:ci-completed:" ++ repo ++ "@" ++ headSha ++
            (if list = "" then "" else "#" ++ list), 45⟩
    else if eventName = "pull_request" ∧ coalescablePullRequestActions.contains action = true then
      ((normalizedNumber (pullRequest.field "number")).or
          (normalizedNumber (payload.field "number"))).map fun pr =>
        if action = "synchronize" then
          ⟨"github-webhook:pr-push:" ++ repo ++ "#" ++ host.integerText pr, 45⟩
        else
          let headSha := normalizedSha host ((pullRequest.field "head").field "sha")
          ⟨"github-webhook:pr-refresh:" ++ repo ++ "#" ++ host.integerText pr ++
            headSuffix headSha, 0⟩
    else if eventName = "pull_request" ∧
      coalescablePullRequestLabelActions.contains action = true then
      ((normalizedNumber (pullRequest.field "number")).or
          (normalizedNumber (payload.field "number"))).map fun pr =>
        ⟨"github-webhook:pr-label:" ++ repo ++ "#" ++ host.integerText pr, 15⟩
    else if (reviewSurfaceActionsByEvent eventName).contains action = true then
      (normalizedNumber (pullRequest.field "number")).map fun pr =>
        let headSha := normalizedSha host ((pullRequest.field "head").field "sha")
        ⟨"github-webhook:" ++ eventName ++ ":" ++ repo ++ "#" ++ host.integerText pr ++
          headSuffix headSha, 15⟩
    else none

def githubWebhookCoalesceKey (eventName : String) (payload : JsonValue) : Option String :=
  (planGithubWebhookCoalesce host eventName payload).map (·.key)

/-! ## Coalesce keys -/

def ragIndexFullKey (repo : String) : String := keyOf "rag-index-repo" [repo, "full"]

def ragIndexRepoKeyPrefix (repo : String) : String := keyOf "rag-index-repo" [repo, ""]

/-- The job type of a message. -/
def typeOf (message : JsonValue) : String := (message.field "type").textOrEmpty

/-- The value of a payload, or null. -/
def parseCoalesceMessage (payload : Payload) : JsonValue := payload.getD .null

/-- The repository of an index job, with whether the job is for some paths only. -/
def ragIndexScope (payload : Payload) : Option (String × Bool) :=
  let message := parseCoalesceMessage payload
  if typeOf message ≠ "rag-index-repo" then none
  else (truthy (normalizedRepo host (message.field "repoFullName"))).map fun repo =>
    (repo, (normalizedPathScope host (message.field "paths")).isSome)

def jobCoalesceSupersededKeyPrefix (payload : Payload) : Option String :=
  ((ragIndexScope host payload).filter fun scope => !scope.2).map fun scope =>
    ragIndexRepoKeyPrefix scope.1

def jobCoalesceAbsorbedByKey (payload : Payload) : Option String :=
  ((ragIndexScope host payload).filter fun scope => scope.2).map fun scope =>
    ragIndexFullKey scope.1

def jobCoalesceMergeKeyPrefix (payload : Payload) : Option String :=
  ((ragIndexScope host payload).filter fun scope => scope.2).map fun scope =>
    ragIndexRepoKeyPrefix scope.1

def ragIndexMergeMaxPaths : ℕ := 100

/-- The incoming job with the paths of both. -/
def jobCoalesceMergedPayload (existingPayload incomingPayload : Payload) : Option Payload :=
  let existing := parseCoalesceMessage existingPayload
  let incoming := parseCoalesceMessage incomingPayload
  if typeOf existing ≠ "rag-index-repo" ∨ typeOf incoming ≠ "rag-index-repo" then none
  else
    let existingPaths := pathTexts host (existing.field "paths")
    let incomingPaths := pathTexts host (incoming.field "paths")
    if existingPaths = [] ∨ incomingPaths = [] then none
    else
      let merged := sortedSet (existingPaths ++ incomingPaths)
      if ragIndexMergeMaxPaths < merged.length then none
      else some (some (incoming.setField "paths" (.array (merged.map .string))))

/-- The types that are their own key. -/
def singletonJobTypes : List String :=
  ["refresh-registry", "sync-brokered-installed-repos", "refresh-installation-health",
    "refresh-scoring-model",
    "refresh-upstream-drift", "file-upstream-drift-issues", "repair-data-fidelity", "ops-alerts",
    "loop-escalation-sweep", "selftune", "retry-orb-relay", "reconcile-open-prs"]

/-- The parts of a key after its type, for the types whose key is `keyOf type parts`. -/
def coalesceKeyParts (type : String) (message : JsonValue) : Option (List String) :=
  let repo := normalizedRepo host (message.field "repoFullName")
  match type with
  | "backfill-registered-repos" =>
    some [repo.getD "all", (normalizedName host (message.field "mode")).getD "default",
      boolFlag (message.field "force")]
  | "backfill-repo-segment" =>
    some [repo.getD "unknown", (normalizedName host (message.field "segment")).getD "unknown",
      (normalizedName host (message.field "mode")).getD "default", boolFlag (message.field "force"),
      (normalizedCursor host (message.field "cursor")).getD "start"]
  | "backfill-pr-details" =>
    some [repo.getD "unknown", (normalizedName host (message.field "mode")).getD "default",
      (normalizedCursor host (message.field "cursor")).getD "start"]
  | "generate-signal-snapshots" | "build-burden-forecasts" | "generate-review-recap" =>
    some [repo.getD "all"]
  | "build-contributor-evidence" | "build-contributor-decision-packs" =>
    match truthy (normalizedName host (message.field "login")), (message.field "logins").items? with
    | some login, _ => some [login]
    | none, some (head :: _) => (truthy (normalizedName host head)).map fun batchHead =>
      ["batch", batchHead]
    | none, _ => some ["all"]
  | "refresh-contributor-activity" =>
    some [(normalizedName host (message.field "login")).getD "unknown", repo.getD "all"]
  | "rollup-product-usage" =>
    some [(normalizedDate host (message.field "day")).getD "latest",
      (normalizedCursor host (message.field "days")).getD "default"]
  | "prune-retention" => some [boolFlag (message.field "dryRun")]
  | "generate-weekly-value-report" =>
    some [(normalizedName host (message.field "variant")).getD "operator",
      (normalizedCursor host (message.field "days")).getD "default"]
  | "rag-index-repo" =>
    some [repo.getD "all", (normalizedPathScope host (message.field "paths")).getD "full"]
  | "run-agent" => (normalizedId host (message.field "runId")).map ([·])
  | "notify-deliver" => (normalizedId host (message.field "deliveryId")).map ([·])
  | "notify-evaluate" =>
    match (message.field "events").items? with
    | none | some [] => none
    | some events =>
      (events.mapM fun event => normalizedId host (event.field "dedupKey")).map fun dedupKeys =>
        [stableStringDigest host (dedupKeys.insertionSort keyLe)]
  | "submit-draft" => (normalizedId host (message.field "draftId")).map ([·])
  | _ => none

def jobCoalesceKey (payload : Payload) : Option String :=
  let message := parseCoalesceMessage payload
  let type := typeOf message
  let repo := normalizedRepo host (message.field "repoFullName")
  let pr := normalizedNumber (message.field "prNumber")
  if type = "agent-regate-pr" then
    (truthy repo).bind fun repo => pr.map fun pr => "agent-regate-pr:" ++ repo ++ "#" ++
      host.integerText pr
  else if type = "agent-regate-sweep" then some ("agent-regate-sweep:" ++ repo.getD "all")
  else if type = "backlog-convergence-sweep" then
    some ("backlog-convergence-sweep:" ++ repo.getD "all")
  else if type = "recapture-preview" then
    (truthy repo).bind fun repo => pr.bind fun pr =>
        (normalizedNumber (message.field "attempt")).map fun attempt =>
      "recapture-preview:" ++ repo ++ "#" ++ host.integerText pr ++ ":" ++ host.integerText attempt
  else if singletonJobTypes.contains type then some type
  else if type = "github-webhook" then
    githubWebhookCoalesceKey host (message.field "eventName").textOrEmpty (message.field "payload")
  else (coalesceKeyParts host type message).map (keyOf type)

/-! ## Priorities and lanes -/

def agentRegatePriority : ℕ := 9

def hasTextPrefix (start text : String) : Bool := start.toList.isPrefixOf text.toList

/-- Edits of comments by a bot are noise, and all other webhooks come first. -/
def githubWebhookPriority (message : JsonValue) : ℕ :=
  let payload := message.field "payload"
  let sender := payload.field "sender"
  let senderLogin := host.toLowerCase (sender.field "login").textOrEmpty
  let senderType := host.toLowerCase (sender.field "type").textOrEmpty
  if (message.field "eventName").textOrEmpty = "issue_comment" ∧
      (payload.field "action").textOrEmpty = "edited" ∧
      (senderType = "bot" ∨ "[bot]".toList.isSuffixOf senderLogin.toList = true) then 0
  else 10

def jobPriority (payload : Payload) : ℕ :=
  let message := parseCoalesceMessage payload
  match typeOf message with
  | "github-webhook" => githubWebhookPriority host message
  | "agent-regate-pr" =>
    if hasTextPrefix "manual-regate:" (message.field "deliveryId").textOrEmpty then 99
      else agentRegatePriority
  | "recapture-preview" => 9
  | "agent-regate-sweep" => 8
  | _ => 0

def freshPullRequestActions : List String :=
  ["opened", "reopened", "synchronize", "ready_for_review"]

def foregroundLaneForJob (payload : Payload) : Option ForegroundLane :=
  let message := parseCoalesceMessage payload
  match typeOf message with
  | "github-webhook" =>
    if (message.field "eventName").textOrEmpty = "pull_request" ∧
        freshPullRequestActions.contains ((message.field "payload").field "action").textOrEmpty =
          true then some .fresh
    else none
  | "agent-regate-pr" =>
    if hasTextPrefix "backlog-convergence:" (message.field "deliveryId").textOrEmpty then
      some .backlog else none
  | _ => none

/-- `Date.parse("2000-01-01T00:00:00.000Z")`. -/
def legacyAgentRegateSortBaseMs : ℚ := 946684800000

def normalizedTimeMs (value : JsonValue) : Option ℚ :=
  ((value.text?.filter fun text => host.trim text != "").bind host.dateParse).map fun ms => (ms : ℚ)

def normalizedSortNumber (value : ℚ) : ℚ := max 0 ⌊value⌋

def jobClaimSortKey (payload : Payload) (fallbackMs : ℚ) : ℚ :=
  let message := parseCoalesceMessage payload
  if typeOf message = "agent-regate-pr" then
    match normalizedTimeMs host (message.field "prCreatedAt"),
      normalizedNumber (message.field "prNumber") with
    | some createdAtMs, _ => createdAtMs
    | none, some pr => legacyAgentRegateSortBaseMs + pr
    | none, none => normalizedSortNumber fallbackMs
  else normalizedSortNumber fallbackMs

/-! ## Admission -/

def maintenanceJobTypes : List String :=
  ["backfill-registered-repos", "refresh-registry", "sync-brokered-installed-repos",
    "refresh-installation-health",
    "refresh-scoring-model", "refresh-upstream-drift", "file-upstream-drift-issues",
      "build-contributor-evidence",
    "build-contributor-decision-packs", "refresh-contributor-activity", "build-burden-forecasts",
    "repair-data-fidelity", "rollup-product-usage", "prune-retention",
      "generate-weekly-value-report",
    "generate-review-recap", "generate-maintainer-recap", "generate-signal-snapshots",
      "notify-evaluate",
    "notify-deliver", "ops-alerts", "sweep-liveness-watchdog", "loop-escalation-sweep",
      "reconcile-open-prs",
    "selftune", "rag-index-repo", "backlog-convergence-sweep"]

def githubBudgetBackgroundTypes : List String :=
  ["agent-regate-sweep", "backfill-registered-repos", "backfill-repo-segment",
    "backfill-pr-details",
    "refresh-upstream-drift", "file-upstream-drift-issues", "build-contributor-evidence",
    "build-contributor-decision-packs", "refresh-contributor-activity", "build-burden-forecasts",
      "rag-index-repo",
    "reconcile-open-prs", "backlog-convergence-sweep", "selftune", "refresh-installation-health",
    "generate-review-recap", "sync-brokered-installed-repos", "reconcile-active-review-tracking"]

def isGitHubBudgetBackgroundJob (message : JsonValue) : Bool :=
  if typeOf message = "agent-regate-pr" then
    (message.field "deliveryId").text?.any fun deliveryId =>
      !hasTextPrefix "manual-regate:" deliveryId
  else githubBudgetBackgroundTypes.contains (typeOf message)

def githubRateLimitAdmissionKeyForInstallation (installationId : ℚ) : String :=
  "installation:" ++ host.integerText (if 0 ≤ installationId then ⌊installationId⌋
    else ⌈installationId⌉)

def githubRateLimitAdmissionKeyForPublicToken : String := "public-token"

def githubRateLimitAdmissionKeyForJob (message : JsonValue) : Option String :=
  let installationId :=
    if typeOf message = "github-webhook" then
      ((message.field "payload").field "installation").field "id"
    else message.field "installationId"
  installationId.number?.map (githubRateLimitAdmissionKeyForInstallation host)

def installationConcurrencyKeyForJob (payload : Payload) : Option String :=
  let message := parseCoalesceMessage payload
  if typeOf message = "agent-regate-pr" then none
  else if isGitHubBudgetBackgroundJob message then
    truthy (githubRateLimitAdmissionKeyForJob host message)
  else none

/-- The key of the target. Its kind, which only the metrics read, is left out; with it go the two
branches that differ in nothing else. -/
def githubRateLimitAdmissionTargetForJob (payload : Payload) : Option (Option String) :=
  let message := parseCoalesceMessage payload
  let admissionKey := githubRateLimitAdmissionKeyForJob host message
  if typeOf message = "github-webhook" then some admissionKey
  else if isGitHubBudgetBackgroundJob message then
    some (admissionKey.or (some githubRateLimitAdmissionKeyForPublicToken))
  else none

/-! ## Merging -/

variable {host}

theorem jobPriority_ragIndex {payload : Payload}
    (htype : typeOf (parseCoalesceMessage payload) = "rag-index-repo") :
    jobPriority host payload = 0 := by
  simp [jobPriority, htype]

variable {existing incoming merged : Payload}

/-- What a merge of two payloads is made of. -/
theorem jobCoalesceMergedPayload_eq_some
    (h : jobCoalesceMergedPayload host existing incoming = some merged) :
    typeOf (parseCoalesceMessage existing) = "rag-index-repo" ∧
    typeOf (parseCoalesceMessage incoming) = "rag-index-repo" ∧
    merged = some ((parseCoalesceMessage incoming).setField "paths" (.array
      ((sortedSet (pathTexts host ((parseCoalesceMessage existing).field "paths") ++
        pathTexts host ((parseCoalesceMessage incoming).field "paths"))).map .string))) := by
  simp only [jobCoalesceMergedPayload] at h
  split_ifs at h with htype hpaths hlength
  · rw [not_or, not_not, not_not] at htype
    exact ⟨htype.1, htype.2, (Option.some.inj h).symm⟩

/-- A merged payload is that of the incoming job but for its paths. -/
theorem field_merged (h : jobCoalesceMergedPayload host existing incoming = some merged)
    {key : String} (hkey : "paths" ≠ key) :
    (parseCoalesceMessage merged).field key = (parseCoalesceMessage incoming).field key := by
  obtain ⟨_, htype, rfl⟩ := jobCoalesceMergedPayload_eq_some h
  cases hmessage : parseCoalesceMessage incoming with
  | object fields => exact JsonValue.field_setField_of_ne fields _ hkey
  | _ =>
    -- Only an object has a type.
    rw [hmessage] at htype
    simp [typeOf, JsonValue.field, JsonValue.textOrEmpty, JsonValue.text?] at htype

theorem pathTexts_setField (message : JsonValue) {paths : List String}
    (hpaths : ∀ path ∈ paths, host.trim path ≠ "") :
    pathTexts host ((message.setField "paths" (.array (paths.map .string))).field "paths") =
      paths := by
  rw [JsonValue.field_setField_self]
  show (paths.map JsonValue.string).filterMap _ = paths
  rw [filterMap_map]
  induction paths with
  | nil => rfl
  | cons path paths ih =>
    have hhead : (host.trim path != "") = true := bne_iff_ne.2 (hpaths path mem_cons_self)
    rw [filterMap_cons_some (b := path)]
    · rw [ih fun other hother => hpaths other (mem_cons_of_mem _ hother)]
    · simp [JsonValue.text?, hhead]

theorem mem_sortedSet {texts : List String} {text : String} :
    text ∈ sortedSet texts ↔ text ∈ texts := by
  rw [sortedSet, mem_insertionSort, mem_dedup]

theorem trim_of_mem_pathTexts {value : JsonValue} {path : String}
    (h : path ∈ pathTexts host value) :
    host.trim path ≠ "" := by
  obtain ⟨entry, _, hentry⟩ := mem_filterMap.1 h
  exact bne_iff_ne.1 (Option.filter_eq_some_iff.1 hentry).2

/-- **A merged index job has the paths of both.** -/
theorem jobCoalesceMergedPayload_paths
    (h : jobCoalesceMergedPayload host existing incoming = some merged) {path : String} :
    path ∈ pathTexts host ((parseCoalesceMessage merged).field "paths") ↔
      path ∈ pathTexts host ((parseCoalesceMessage existing).field "paths") ∨
      path ∈ pathTexts host ((parseCoalesceMessage incoming).field "paths") := by
  obtain ⟨_, _, rfl⟩ := jobCoalesceMergedPayload_eq_some h
  show path ∈ pathTexts host ((JsonValue.setField _ _ _).field _) ↔ _
  rw [pathTexts_setField, mem_sortedSet, mem_append]
  intro other hother
  obtain hold | hnew := mem_append.1 (mem_sortedSet.1 hother)
  · exact trim_of_mem_pathTexts hold
  · exact trim_of_mem_pathTexts hnew

/-! ## The forms of keys -/

/-- The repository of an index job, as its key has it. -/
def indexRepo (host : KeyRuntime) (payload : Payload) : Option String :=
  let message := parseCoalesceMessage payload
  if typeOf message = "rag-index-repo" then
    some ((normalizedRepo host (message.field "repoFullName")).getD "all")
  else none

variable (host)

/-- The functions of the queue on payloads. -/
def queueReader : JobReader Payload where
  parses := Option.isSome
  jobPriority := jobPriority host
  jobCoalesceKey := jobCoalesceKey host
  jobCoalesceAbsorbedByKey := jobCoalesceAbsorbedByKey host
  jobCoalesceMergeKeyPrefix := jobCoalesceMergeKeyPrefix host
  jobCoalesceMergedPayload := jobCoalesceMergedPayload host
  jobCoalesceSupersededKeyPrefix := jobCoalesceSupersededKeyPrefix host
  foregroundLaneForJob := foregroundLaneForJob
  jobClaimSortKey := jobClaimSortKey host
  isMaintenanceJobType payload :=
    maintenanceJobTypes.contains (typeOf (parseCoalesceMessage payload))
  installationConcurrencyKeyForJob := installationConcurrencyKeyForJob host
  githubRateLimitAdmissionTargetForJob := githubRateLimitAdmissionTargetForJob host
  jobPriority_merged existing incoming merged h := by
    have htype := (jobCoalesceMergedPayload_eq_some h).2.1
    have hmerged : typeOf (parseCoalesceMessage merged) = "rag-index-repo" := by
      rw [typeOf, field_merged h (by decide)]
      exact htype
    rw [jobPriority_ragIndex hmerged, jobPriority_ragIndex htype]

end Keys

end LoopOver.Queue
