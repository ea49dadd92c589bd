import LoopOver.Contract.Digest
import LoopOver.Foundations.Record
import LoopOver.Text

/-!
# Who may invoke a command

`packages/loopover-engine/src/settings/command-authorization.ts`: a repository may say which roles
invoke a command. What it says is normalised over the shipped policy, and the roles that the actor
holds are looked up in the result.

* `normalizeCommandAuthorizationPolicy` reads any JSON value. Each command of it gets the roles that
  `normalizeRoleList` finds valid, or else those of the policy's default, and
  `normalizeCommandRoleList` takes the author's role away from a command that ships without it.
* `evaluateCommandAuthorization` decides with the first role of the actor that is allowed; the
  author's role counts for some commands only while rate limiting is on and the pull request is open
  and ready.
* **`gate_only_removes_iff`**: the gate takes nothing but the author's role away exactly where the
  actor is not `Shadowed`, that is, a confirmed miner whom the role of the author hides.

A policy that is read back is a JSON value as well (`Policy.toJson`).
-/

namespace LoopOver.CommandAuthorization

open List

/-! ## Roles and policies -/

/-- Who may invoke a command. -/
inductive CommandAuthorizationRole
  | maintainer | collaborator | prAuthor | confirmedMiner
  deriving DecidableEq

namespace CommandAuthorizationRole

def name : CommandAuthorizationRole → String
  | maintainer => "maintainer"
  | collaborator => "collaborator"
  | prAuthor => "pr_author"
  | confirmedMiner => "confirmed_miner"

/-- `COMMAND_AUTHORIZATION_ROLES`. -/
def all : List CommandAuthorizationRole := [maintainer, collaborator, prAuthor, confirmedMiner]

/-- The role of a JSON value. -/
def ofJson : Json → Option CommandAuthorizationRole
  | .string value => all.find? (·.name == value)
  | _ => none

theorem ofJson_name (role : CommandAuthorizationRole) : ofJson (.string role.name) = some role := by
  cases role <;> decide

end CommandAuthorizationRole

open CommandAuthorizationRole

abbrev Roles : Type := List CommandAuthorizationRole

structure RepositoryCommandAuthorizationPolicy where
  default : Roles
  /-- The record of commands, in the order of its keys. -/
  commands : List (String × Roles)

/-- `DEFAULT_COMMAND_AUTHORIZATION_POLICY`. -/
def defaultCommandAuthorizationPolicy : RepositoryCommandAuthorizationPolicy where
  default := [maintainer, collaborator, confirmedMiner]
  commands :=
    [("queue-summary", [maintainer, collaborator]),
     ("confirmed-miners", [maintainer, collaborator]),
     ("review-now", [maintainer, collaborator]),
     ("needs-author", [maintainer, collaborator]),
     ("duplicate-clusters", [maintainer, collaborator]),
     ("burden-forecast", [maintainer, collaborator]),
     ("intake-health", [maintainer, collaborator]),
     ("outcome-patterns", [maintainer, collaborator]),
     ("noise-report", [maintainer, collaborator]),
     ("gate-override", [maintainer, collaborator]),
     ("plan", [maintainer, collaborator]),
     ("chat", [maintainer, collaborator, prAuthor]),
     ("review", [maintainer, collaborator, confirmedMiner]),
     ("pause", [maintainer, collaborator]),
     ("resume", [maintainer, collaborator]),
     ("resolve", [maintainer, collaborator]),
     ("configuration", [maintainer, collaborator]),
     ("explain", [maintainer, collaborator]),
     ("generate-tests", [maintainer])]

/-- What a command ships with; `none` where it is not of `MAINTAINER_ONLY_DEFAULT_COMMANDS`. -/
def shippedRoles (commandName : String) : Option Roles :=
  defaultCommandAuthorizationPolicy.commands.lookup commandName

/-- `MAINTAINER_COMMAND_AUTHORIZATION_ROLES`. -/
def maintainerCommandAuthorizationRoles : Roles := [maintainer, collaborator, confirmedMiner]

/-- `PR_AUTHOR_RATE_LIMITED_COMMANDS`. -/
def prAuthorRateLimitedCommands : List String := ["chat"]

/-! ## Normalising -/

/-- The lower case of the host, which leaves the names of commands alone. -/
structure CommandText where
  toLowerCase : String → String
  lower_name : ∀ text : String, (∀ c ∈ text.toList, c.isLower ∨ c = '-') → toLowerCase text = text

/-- `/^[a-z][a-z-]{0,63}$/`. -/
def isCommandName (text : String) : Bool :=
  match text.toList with
  | [] => false
  | first :: rest => first.isLower && rest.all (fun c => c.isLower || c == '-') && rest.length ≤ 63

/-- `[...new Set(roles)]`. -/
def dedupeRoles (roles : Roles) : Roles := roles.eraseDups

/-- The valid roles of an array, and a warning for each other item. -/
def validRoles (label : String) : List Json → Roles × List String
  | [] => ([], [])
  | item :: rest =>
    match ofJson item with
    | some role => (role :: (validRoles label rest).1, (validRoles label rest).2)
    | none => ((validRoles label rest).1,
        ("Ignored invalid command authorization role for " ++ label ++
          ".") :: (validRoles label rest).2)

def normalizeRoleList (input : Option Json) (fallback : Roles) (label : String) :
    Roles × List String :=
  match input with
  | none => (dedupeRoles fallback, [])
  | some (.array items) =>
    match validRoles label items with
    | ([], warnings) => (dedupeRoles fallback,
        warnings ++
          ["commandAuthorization." ++ label ++ " had no valid roles; using fallback roles."])
    | (roles, warnings) => (dedupeRoles roles, warnings)
  | some _ => (dedupeRoles fallback,
      ["commandAuthorization." ++ label ++ " must be an array of roles; using fallback roles."])

/-- The roles that may stay on a command that ships with the given ones. -/
def clampRoles (own : Roles) : Roles := maintainerCommandAuthorizationRoles ++ own

def normalizeCommandRoleList (commandName : String) (roles : Roles) : Roles × List String :=
  match shippedRoles commandName with
  | none => (roles, [])
  | some own =>
    let maintainerRoles := roles.filter (· ∈ clampRoles own)
    if maintainerRoles.length = roles.length then (roles, [])
    else
      (if maintainerRoles ≠ [] then dedupeRoles maintainerRoles else own,
        ["Ignored author command authorization roles for maintainer-only command: " ++
          commandName ++ "."])

section Normalize

variable (text : CommandText)

def normalizeCommandName (commandName : String) : String := text.toLowerCase (trimText commandName)

/-- One entry of the record of overrides. -/
def normalizeEntry (defaultRoles : Roles) (state : List (String × Roles) × List String)
    (entry : String × Json) :
    List (String × Roles) × List String :=
  let commandName := normalizeCommandName text entry.1
  if isCommandName commandName then
    let given := normalizeRoleList (some entry.2) defaultRoles commandName
    let kept := normalizeCommandRoleList commandName given.1
    (Record.set commandName kept.1 state.1, state.2 ++ given.2 ++ kept.2)
  else
    (state.1, state.2 ++ ["Ignored malformed command authorization key: " ++ sliceText 64 entry.1])

/-- `input.default` and `input.commands`; `none` is `undefined`. -/
def field (fields : List (String × Json)) (key : String) : Option Json := fields.lookup key

def normalizeCommandAuthorizationPolicy (input : Option Json) :
    RepositoryCommandAuthorizationPolicy × List String :=
  match input with
  | some (.object fields) =>
    let given :=
      normalizeRoleList (field fields "default") defaultCommandAuthorizationPolicy.default "default"
    match field fields "commands" with
    | none => (⟨given.1, defaultCommandAuthorizationPolicy.commands⟩, given.2)
    | some (.object entries) =>
      let state := entries.foldl (normalizeEntry text given.1)
        (defaultCommandAuthorizationPolicy.commands, given.2)
      (⟨given.1, state.1⟩, state.2)
    | some _ => (⟨given.1, defaultCommandAuthorizationPolicy.commands⟩,
        given.2 ++ ["commandAuthorization.commands must be an object; using command defaults."])
  | none | some .null => (defaultCommandAuthorizationPolicy, [])
  | some _ => (defaultCommandAuthorizationPolicy,
      ["commandAuthorization must be an object; using secure defaults."])

def commandAuthorizationAllowedRoles (policy : Option Json) (commandName : String) : Roles :=
  let normalized := (normalizeCommandAuthorizationPolicy text policy).1
  dedupeRoles ((normalized.commands.lookup (normalizeCommandName text commandName)).getD
    normalized.default)

end Normalize

/-! ## Deciding -/

/-- The answer of the miner lookup. -/
inductive MinerStatus
  | confirmed | notFound | unavailable
  deriving DecidableEq

/-- What is known of the comment that invokes a command. -/
structure Invocation where
  commandName : String
  commenterLogin : Option String
  commenterAssociation : Option String
  pullRequestAuthorLogin : Option String
  minerStatus : Option MinerStatus
  /-- `commandRateLimitPolicy === "hold"`. -/
  rateLimitHolds : Bool
  pullRequestOpenAndNotDraft : Bool

/-- As whom a command is invoked. -/
inductive ActorKind
  | maintainer | author | none
  deriving DecidableEq

/-- Whether the command runs, and why. -/
structure CommandAuthorizationDecision where
  authorized : Bool
  reason : String
  actorKind : ActorKind
  matchedRole : Option CommandAuthorizationRole
  allowedRoles : Roles
  deriving DecidableEq

def authorizationReason : CommandAuthorizationRole → String
  | maintainer => "maintainer_invocation"
  | collaborator => "collaborator_invocation"
  | confirmedMiner => "confirmed_miner_pr_author"
  | prAuthor => "allowed_pr_author"

def actorKindOf : CommandAuthorizationRole → ActorKind
  | maintainer | collaborator => .maintainer
  | prAuthor | confirmedMiner => .author

section Evaluate

variable (text : CommandText)

def isSameLogin (left right : Option String) : Bool :=
  match truthy left, truthy right with
  | some left, some right => text.toLowerCase left == text.toLowerCase right
  | _, _ => false

/-- The commenter is the author of the pull request. -/
def ownPrAuthor (args : Invocation) : Bool :=
  isSameLogin text args.commenterLogin args.pullRequestAuthorLogin

/-- The roles that an association gives. -/
def teamRoles (commenterAssociation : Option String) : Roles :=
  (if commenterAssociation = some "OWNER" ∨ commenterAssociation = some "MEMBER" then
    [maintainer] else []) ++
  if commenterAssociation = some "COLLABORATOR" then [collaborator] else []

def actorRoles (args : Invocation) : Roles :=
  teamRoles args.commenterAssociation ++
  if ownPrAuthor text args then
    prAuthor :: if args.minerStatus = some .confirmed then [confirmedMiner] else []
  else []

/-- The command is one that the author invokes only under a rate limit. -/
def isRateLimited (args : Invocation) : Bool :=
  normalizeCommandName text args.commandName ∈ prAuthorRateLimitedCommands

/-- The decision, given the roles that are allowed. -/
def evaluateWith (allowedRoles : Roles) (args : Invocation) : CommandAuthorizationDecision :=
  let matchedRole := (actorRoles text args).find? (· ∈ allowedRoles)
  let prAuthorGatedCommand := matchedRole = some prAuthor ∧ isRateLimited text args
  if prAuthorGatedCommand ∧ ¬args.rateLimitHolds then
    ⟨false, "pr_author_requires_rate_limiting", .author, none, allowedRoles⟩
  else if prAuthorGatedCommand ∧ ¬args.pullRequestOpenAndNotDraft then
    ⟨false, "pr_author_requires_open_pr", .author, none, allowedRoles⟩
  else
    match matchedRole with
    | some role => ⟨true, authorizationReason role, actorKindOf role, some role, allowedRoles⟩
    | none =>
      if ownPrAuthor text args ∧ confirmedMiner ∈ allowedRoles then
        ⟨false, if args.minerStatus = some .unavailable ∨
          args.minerStatus = none then "miner_detection_unavailable"
          else "pr_author_not_confirmed_miner", .author, none, allowedRoles⟩
      else if ownPrAuthor text args ∧
          (shippedRoles (normalizeCommandName text args.commandName)).isSome ∧
          allowedRoles.all (fun role => role = maintainer ∨ role = collaborator) then
        ⟨false, "maintainer_command_requires_maintainer", .author, none, allowedRoles⟩
      else
        ⟨false, if ownPrAuthor text args then "command_policy_denied"
          else "not_maintainer_or_pr_author",
          if ownPrAuthor text args then .author else .none, none, allowedRoles⟩

def evaluateCommandAuthorization (policy : Option Json) (args : Invocation) :
    CommandAuthorizationDecision :=
  evaluateWith text (commandAuthorizationAllowedRoles text policy args.commandName) args

end Evaluate

/-! ## The gate of the author's role -/

section Gate

variable (text : CommandText) (allowedRoles : Roles) (policy : Option Json) (args : Invocation)

/-- Rate limiting is not on, or the pull request is not open and ready. -/
def GateClosed : Prop := ¬(args.rateLimitHolds ∧ args.pullRequestOpenAndNotDraft)

/-- The role is the author's, and does not count for the command now. -/
def Gated (role : CommandAuthorizationRole) : Prop :=
  role = prAuthor ∧ isRateLimited text args ∧ GateClosed args

/-- **The gate only removes the author's role** from what is allowed. -/
structure GateOnlyRemoves : Prop where
  without : GateClosed args → isRateLimited text args →
    (evaluateCommandAuthorization text policy args).authorized =
      (evaluateWith text ((commandAuthorizationAllowedRoles text policy args.commandName).filter
        (· ≠ prAuthor))
        args).authorized
  authorized_iff : (evaluateCommandAuthorization text policy args).authorized = true ↔
    ∃ role ∈ actorRoles text args,
      role ∈ commandAuthorizationAllowedRoles text policy args.commandName ∧
      ¬Gated text args role

/-- The author is a confirmed miner, who is allowed as one, but the role of the author is found
first and gated. -/
structure Shadowed : Prop where
  limited : isRateLimited text args
  closed : GateClosed args
  author : prAuthor ∈ allowedRoles
  miner : confirmedMiner ∈ allowedRoles
  own : ownPrAuthor text args
  confirmed : args.minerStatus = some .confirmed
  team : ∀ role ∈ teamRoles args.commenterAssociation, role ∉ allowedRoles

variable {text allowedRoles args}

theorem mem_teamRoles {association : Option String} {role : CommandAuthorizationRole}
    (h : role ∈ teamRoles association) : role = maintainer ∨ role = collaborator := by
  unfold teamRoles at h
  split_ifs at h <;> simp_all

/-- The first role that is allowed decides, unless it is gated. -/
theorem authorized_evaluateWith : (evaluateWith text allowedRoles args).authorized = true ↔
    ∃ role, (actorRoles text args).find? (· ∈ allowedRoles) = some role ∧
      ¬Gated text args role := by
  unfold evaluateWith Gated GateClosed
  cases hmatched : (actorRoles text args).find? (· ∈ allowedRoles) with
  | none =>
    simp only [reduceCtorEq, false_and, if_false, exists_false, iff_false]
    split_ifs <;> exact not_false
  | some role =>
    simp only [Option.some.injEq, exists_eq_left']
    by_cases hrole : role = prAuthor ∧ isRateLimited text args
    · cases hhold : args.rateLimitHolds <;> cases hopen : args.pullRequestOpenAndNotDraft <;>
        simp [hrole]
    · rw [if_neg (mt And.left hrole), if_neg (mt And.left hrole)]
      exact iff_of_true rfl fun hgated => hrole ⟨hgated.1, hgated.2.1⟩

theorem find?_of_shadowed (h : Shadowed text allowedRoles args) :
    (actorRoles text args).find? (· ∈ allowedRoles) = some prAuthor := by
  unfold actorRoles
  have hteam : (teamRoles args.commenterAssociation).find? (· ∈ allowedRoles) = none := by
    simpa using h.team
  rw [List.find?_append, hteam, if_pos h.own]
  simp [h.author]

/-- An actor who is not shadowed is authorized by any role that is allowed and not gated. -/
theorem authorized_of_not_shadowed (h : ¬Shadowed text allowedRoles args) :
    (evaluateWith text allowedRoles args).authorized = true ↔
      ∃ role ∈ actorRoles text args, role ∈ allowedRoles ∧ ¬Gated text args role := by
  rw [authorized_evaluateWith]
  constructor
  · rintro ⟨role, hfind, hgated⟩
    exact ⟨role, mem_of_find?_eq_some hfind, by simpa using List.find?_some hfind, hgated⟩
  · rintro ⟨role, hheld, hallowed, hgated⟩
    obtain ⟨first, hfind⟩ : ∃ first, (actorRoles text args).find? (· ∈ allowedRoles) = some first :=
      Option.isSome_iff_exists.1 (List.find?_isSome.2 ⟨role, hheld, decide_eq_true hallowed⟩)
    refine ⟨first, hfind, fun hfirst => h ?_⟩
    obtain ⟨rfl, hlimited, hclosed⟩ := hfirst
    have hteam : ∀ other ∈ teamRoles args.commenterAssociation, other ∉ allowedRoles := by
      intro other hother hin
      unfold actorRoles at hfind
      obtain ⟨found, hfound⟩ : ∃ found,
          (teamRoles args.commenterAssociation).find? (· ∈ allowedRoles) = some found :=
        Option.isSome_iff_exists.1 (List.find?_isSome.2 ⟨other, hother, decide_eq_true hin⟩)
      rw [List.find?_append, hfound] at hfind
      obtain rfl : found = prAuthor := Option.some.inj hfind
      rcases mem_teamRoles (mem_of_find?_eq_some hfound) with hrole | hrole <;> cases hrole
    have hne : role ≠ prAuthor := fun hrole => hgated ⟨hrole, hlimited, hclosed⟩
    rcases mem_append.1 hheld with hrole | hrole
    · exact absurd hallowed (hteam role hrole)
    · split_ifs at hrole with hown hminer
      · obtain rfl : role = confirmedMiner := by simpa [hne] using hrole
        exact ⟨hlimited, hclosed, by simpa using List.find?_some hfind, hallowed, hown,
          hminer, hteam⟩
      · exact absurd (mem_singleton.1 hrole) hne
      · exact absurd hrole not_mem_nil

/-- **The gate only removes the author's role exactly where it hides no confirmed miner.** -/
theorem gate_only_removes_iff (text : CommandText) (policy : Option Json) (args : Invocation) :
    GateOnlyRemoves text policy args ↔
      ¬Shadowed text (commandAuthorizationAllowedRoles text policy args.commandName) args := by
  constructor
  · intro h hshadowed
    have hminer : confirmedMiner ∈ actorRoles text args := by
      simp [actorRoles, hshadowed.own, hshadowed.confirmed]
    obtain ⟨role, hfind, hgated⟩ := authorized_evaluateWith.1
      (h.authorized_iff.2 ⟨confirmedMiner, hminer, hshadowed.miner, nofun⟩)
    obtain rfl : prAuthor = role := Option.some.inj ((find?_of_shadowed hshadowed).symm.trans hfind)
    exact hgated ⟨rfl, hshadowed.limited, hshadowed.closed⟩
  · intro h
    refine ⟨fun hclosed hlimited => ?_, authorized_of_not_shadowed h⟩
    have hwithout : ¬Shadowed text
        ((commandAuthorizationAllowedRoles text policy args.commandName).filter (· ≠ prAuthor))
          args :=
      fun hshadowed => by simpa using hshadowed.author
    have hgated (role : CommandAuthorizationRole) : Gated text args role ↔ role = prAuthor :=
      ⟨And.left, fun hrole => ⟨hrole, hlimited, hclosed⟩⟩
    rw [Bool.eq_iff_iff, evaluateCommandAuthorization, authorized_of_not_shadowed h,
      authorized_of_not_shadowed hwithout]
    simp only [hgated, mem_filter, decide_eq_true_eq]
    exact exists_congr fun role => by tauto

end Gate

theorem asciiText_name {text : String} (h : ∀ c ∈ text.toList, c.isLower ∨ c = '-') :
    asciiText.toLowerCase text = text := by
  have hchars : text.toList.map Char.toLower = text.toList := by
    refine (map_congr_left fun c hc => ?_).trans (map_id _)
    rw [id, ← Char.toNat_inj, toNat_toLower, if_neg]
    rintro ⟨hlow, hhigh⟩
    rcases h c hc with hlower | rfl
    · have hle : 97 ≤ c.toNat := by
        delta Char.isLower at hlower
        simp only [Bool.and_eq_true, decide_eq_true_eq] at hlower
        exact hlower.1
      omega
    · exact absurd hlow (by decide)
  exact (congrArg String.ofList hchars).trans (String.ofList_toList)

/-- The lower case of ASCII text. -/
def asciiCommandText : CommandText where
  toLowerCase := asciiText.toLowerCase
  lower_name _ := asciiText_name

/-- A repository lets confirmed miners chat too. -/
def minersChat : Json :=
  .object
    [("commands", .object [("chat", .array [.string "pr_author", .string "confirmed_miner"])])]

/-- A confirmed miner chats on their own pull request, where rate limiting is off. -/
def minerChats : Invocation where
  commandName := "chat"
  commenterLogin := some "octocat"
  commenterAssociation := some "CONTRIBUTOR"
  pullRequestAuthorLogin := some "Octocat"
  minerStatus := some .confirmed
  rateLimitHolds := false
  pullRequestOpenAndNotDraft := true

theorem miner_shadowed : ¬GateOnlyRemoves asciiCommandText (some minersChat) minerChats := by
  rw [gate_only_removes_iff, not_not]
  exact ⟨by decide, fun hopen => Bool.false_ne_true hopen.1, by decide, by decide, by decide,
    rfl, by decide⟩

end LoopOver.CommandAuthorization
