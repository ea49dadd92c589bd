import LoopOver.Settings.CommandAuthorization

/-!
# Overrides of shipped commands

What a repository says about a shipped command is to narrow it at most. A role that the command does
not ship with is taken away where it is the author's, but the other two of the shipped default stay,
also where they come from the default of the policy because the override names no valid role at all.

* `Normal` is what normalising makes, and `normalize_toJson` that it leaves such a policy alone.
* `lookup_commands` reads the roles of a command: those of its last override, or the shipped ones.
* `NarrowOverride` is what has to hold for a policy and a command.
* **`narrow_override_iff`**: it does exactly where the override names a valid role, or every role of
  the policy's default is the author's or one that the command ships with. In
  `generate_tests_widened` a typo lets collaborators in.
-/

namespace LoopOver.CommandAuthorization

open List CommandAuthorizationRole

/-! ## Policies as JSON -/

def rolesJson (roles : Roles) : Json := .array (roles.map fun role => .string role.name)

def RepositoryCommandAuthorizationPolicy.toJson (policy : RepositoryCommandAuthorizationPolicy) :
    Json :=
  .object [("default", rolesJson policy.default),
    ("commands", .object (policy.commands.map fun entry => (entry.1, rolesJson entry.2)))]

/-- The valid roles that a value names. -/
def namedRoles : Option Json → Roles
  | some (.array items) => items.filterMap ofJson
  | _ => []

/-- What the policy says about commands that it does not mention: `default`, where that names a
valid role. -/
def policyRoles : Option Json → Roles
  | some (.object fields) =>
    if namedRoles (field fields "default") = [] then defaultCommandAuthorizationPolicy.default
    else namedRoles (field fields "default")
  | _ => defaultCommandAuthorizationPolicy.default

/-- The entries of `input.commands`. -/
def overrideEntries : Option Json → List (String × Json)
  | some (.object fields) =>
    match field fields "commands" with
    | some (.object entries) => entries
    | _ => []
  | _ => []

section Definitions

variable (text : CommandText) (policy : Option Json) (commandName : String)

/-- The override of a command: the last entry whose key is a spelling of its name. -/
def givenOverride : Option Json :=
  ((overrideEntries policy).reverse.find? fun entry =>
    normalizeCommandName text entry.1 = normalizeCommandName text commandName).map (·.2)

/-- **A policy does not widen a shipped command.** -/
structure NarrowOverride : Prop where
  /-- Normalising again changes nothing. -/
  normal : (normalizeCommandAuthorizationPolicy text
      (some (normalizeCommandAuthorizationPolicy text policy).1.toJson)).1 =
    (normalizeCommandAuthorizationPolicy text policy).1
  author : ∀ own, shippedRoles (normalizeCommandName text commandName) = some own →
    ∀ args : Invocation,
    args.commandName = commandName →
    (evaluateCommandAuthorization text policy args).matchedRole = some prAuthor → prAuthor ∈ own
  /-- An override without a valid role lets nobody in who is not in the shipped default. -/
  malformed : ∀ own, shippedRoles (normalizeCommandName text commandName) = some own →
    ∀ json, givenOverride text policy commandName = some json → namedRoles (some json) = [] →
    ∀ role ∈ commandAuthorizationAllowedRoles text policy commandName, role ∈ own

/-- What the policy says about other commands is no more than the command ships with, but for the
author's role. -/
def DefaultWithin : Prop := ∀ own, shippedRoles (normalizeCommandName text commandName) = some own →
  ∀ json, givenOverride text policy commandName = some json → namedRoles (some json) = [] →
  ∀ role ∈ policyRoles policy, role = prAuthor ∨ role ∈ own

end Definitions

/-! ## Lists of roles -/

section Roles

variable {roles own : Roles} {role : CommandAuthorizationRole} {label commandName : String}

theorem mem_dedupeRoles : role ∈ dedupeRoles roles ↔ role ∈ roles := mem_eraseDups

theorem dedupeRoles_of_nodup (h : roles.Nodup) : dedupeRoles roles = roles := by
  induction roles with
  | nil => rfl
  | cons role rest ih =>
    obtain ⟨hnot, hrest⟩ := nodup_cons.1 h
    have hfilter : rest.filter (fun other => !other == role) = rest := by
      refine filter_eq_self.2 fun other hother => ?_
      rw [Bool.not_eq_true', beq_eq_false_iff_ne]
      rintro rfl
      exact hnot hother
    rw [dedupeRoles, eraseDups_cons, hfilter]
    exact congrArg (role :: ·) (ih hrest)

theorem nodup_dedupeRoles (roles : Roles) : (dedupeRoles roles).Nodup := by
  induction hlength : roles.length using Nat.strong_induction_on generalizing roles with
  | _ n ih =>
    subst hlength
    cases roles with
    | nil => exact nodup_nil
    | cons role rest =>
      rw [dedupeRoles, eraseDups_cons, nodup_cons]
      refine ⟨fun hmem => ?_, ih _ (Nat.lt_succ_of_le (length_filter_le _ _)) _ rfl⟩
      simpa using (mem_filter.1 (mem_eraseDups.1 hmem)).2

theorem dedupeRoles_dedupeRoles (roles : Roles) :
    dedupeRoles (dedupeRoles roles) = dedupeRoles roles :=
  dedupeRoles_of_nodup (nodup_dedupeRoles roles)

/-- A list without repetitions that is not empty, as normalising makes them. -/
structure Settled (roles : Roles) : Prop where
  ne_nil : roles ≠ []
  deduped : dedupeRoles roles = roles

theorem settled_dedupeRoles (h : roles ≠ []) : Settled (dedupeRoles roles) := by
  refine ⟨fun hnil => h ?_, dedupeRoles_dedupeRoles roles⟩
  refine eq_nil_iff_forall_not_mem.2 fun role hrole => ?_
  exact not_mem_nil (hnil ▸ mem_dedupeRoles.2 hrole)

theorem validRoles_fst (label : String) (items : List Json) :
    (validRoles label items).1 = items.filterMap ofJson := by
  induction items with
  | nil => rfl
  | cons item rest ih =>
    rw [validRoles, filterMap_cons]
    cases ofJson item with
    | none => exact ih
    | some role => exact congrArg (role :: ·) ih

/-- The roles that a value names, or else the fallback. -/
theorem normalizeRoleList_fst (input : Option Json) (fallback : Roles) (label : String) :
    (normalizeRoleList input fallback label).1 =
      dedupeRoles (if namedRoles input = [] then fallback else namedRoles input) := by
  unfold normalizeRoleList namedRoles
  cases input with
  | none => rfl
  | some json =>
    cases json with
    | array items =>
      simp only [← validRoles_fst label items]
      obtain ⟨roles, warnings⟩ := validRoles label items
      cases roles <;> rfl
    | _ => rfl

theorem namedRoles_rolesJson (roles : Roles) : namedRoles (some (rolesJson roles)) = roles := by
  rw [rolesJson, namedRoles, filterMap_map]
  exact (filterMap_congr fun role _ => ofJson_name role).trans filterMap_some

theorem normalizeRoleList_settled (h : Settled roles) (fallback : Roles) (label : String) :
    (normalizeRoleList (some (rolesJson roles)) fallback label).1 = roles := by
  rw [normalizeRoleList_fst, namedRoles_rolesJson, if_neg h.ne_nil, h.deduped]

/-- Each role may stay on the command. -/
def Survives (commandName : String) (roles : Roles) : Prop :=
  ∀ own, shippedRoles commandName = some own → ∀ role ∈ roles, role ∈ clampRoles own

theorem normalizeCommandRoleList_survives (h : Survives commandName roles) :
    (normalizeCommandRoleList commandName roles).1 = roles := by
  unfold normalizeCommandRoleList
  cases hown : shippedRoles commandName with
  | none => rfl
  | some own =>
    have hfilter : roles.filter (· ∈ clampRoles own) = roles :=
      filter_eq_self.2 fun role hrole => decide_eq_true (h own hown role hrole)
    simp only [hfilter, if_true]

/-- The shipped lists are settled, and their keys are names. -/
theorem shipped_settled : ∀ entry ∈ defaultCommandAuthorizationPolicy.commands,
    (entry.2 ≠ [] ∧ entry.2.Nodup) ∧ isCommandName entry.1 := by
  decide

theorem settled_of_shipped (h : shippedRoles commandName = some own) : Settled own :=
  have hentry := shipped_settled _ (Record.mem_of_lookup h)
  ⟨hentry.1.1, dedupeRoles_of_nodup hentry.1.2⟩

theorem isCommandName_of_shipped (h : shippedRoles commandName = some own) :
    isCommandName commandName :=
  (shipped_settled _ (Record.mem_of_lookup h)).2

/-- What the clamp leaves of the roles of a command. -/
theorem mem_normalizeCommandRoleList (hown : shippedRoles commandName = some own)
    (h : role ∈ (normalizeCommandRoleList commandName roles).1) : role ∈ clampRoles own := by
  unfold normalizeCommandRoleList at h
  simp only [hown] at h
  split_ifs at h with hlength hne
  · have hfilter := filter_eq_self.1 (filter_sublist.eq_of_length hlength)
    exact of_decide_eq_true (hfilter role h)
  · exact of_decide_eq_true (mem_filter.1 (mem_dedupeRoles.1 h)).2
  · exact mem_append_right _ h

theorem settled_normalizeCommandRoleList (h : Settled roles) (commandName : String) :
    Settled (normalizeCommandRoleList commandName roles).1 := by
  unfold normalizeCommandRoleList
  cases hown : shippedRoles commandName with
  | none => exact h
  | some own =>
    simp only
    split_ifs with hlength hne
    · exact h
    · exact settled_dedupeRoles hne
    · exact settled_of_shipped hown

/-- Where the clamp leaves only shipped roles: nothing else is there but the author's role. -/
theorem normalizeCommandRoleList_subset_iff (hown : shippedRoles commandName = some own) :
    (∀ role ∈ (normalizeCommandRoleList commandName roles).1, role ∈ own) ↔
      ∀ role ∈ roles, role = prAuthor ∨ role ∈ own := by
  have hclamp (role : CommandAuthorizationRole) : role ∈ clampRoles own ↔
      role ≠ prAuthor ∨ role ∈ own := by
    cases role <;> simp [clampRoles, maintainerCommandAuthorizationRoles]
  constructor
  · intro h role hrole
    by_cases hin : role ∈ clampRoles own
    · refine Or.inr (h role ?_)
      unfold normalizeCommandRoleList
      have hkept : role ∈ roles.filter (· ∈ clampRoles own) :=
        mem_filter.2 ⟨hrole, decide_eq_true hin⟩
      simp only [hown]
      split_ifs with hlength hne
      · exact hrole
      · exact mem_dedupeRoles.2 hkept
      · exact absurd (ne_nil_of_mem hkept) hne
    · rw [hclamp, not_or, not_not] at hin
      exact Or.inl hin.1
  · intro h role hrole
    have hin := mem_normalizeCommandRoleList hown hrole
    rcases (hclamp role).1 hin with hne | hmem
    · unfold normalizeCommandRoleList at hrole
      simp only [hown] at hrole
      split_ifs at hrole
      · exact (h role hrole).resolve_left hne
      · exact (h role (mem_filter.1 (mem_dedupeRoles.1 hrole)).1).resolve_left hne
      · exact hrole
    · exact hmem

end Roles

/-! ## Normal policies -/

section Normal

variable (text : CommandText)

/-- What normalising makes of a policy. -/
structure Normal (policy : RepositoryCommandAuthorizationPolicy) : Prop where
  default : Settled policy.default
  keys : Record.keys defaultCommandAuthorizationPolicy.commands <+: Record.keys policy.commands
  nodup : (Record.keys policy.commands).Nodup
  entries : ∀ entry ∈ policy.commands, isCommandName entry.1 ∧ Settled entry.2 ∧
    Survives entry.1 entry.2

theorem normalizeCommandName_of_name {commandName : String} (h : isCommandName commandName) :
    normalizeCommandName text commandName = commandName := by
  have hchars : ∀ c ∈ commandName.toList, c.isLower ∨ c = '-' := by
    unfold isCommandName at h
    cases hlist : commandName.toList with
    | nil => exact fun c hc => absurd hc not_mem_nil
    | cons first rest =>
      simp only [hlist, Bool.and_eq_true, all_eq_true, Bool.or_eq_true, beq_iff_eq] at h
      rintro c (_ | ⟨_, hc⟩)
      · exact Or.inl h.1.1
      · exact h.1.2 c hc
  have hspace : ∀ c ∈ commandName.toList, isRegexSpace c = false := by
    intro c hc
    refine isRegexSpace_of_graphic ?_
    rcases hchars c hc with hlower | rfl
    · delta Char.isLower at hlower
      simp only [Bool.and_eq_true, decide_eq_true_eq] at hlower
      have hle : 97 ≤ c.toNat ∧ c.toNat ≤ 122 := hlower
      omega
    · decide
  rw [normalizeCommandName, trimText_eq_self, text.lower_name commandName hchars]
  exact ⟨fun c hc => hspace c (mem_of_mem_head? hc), fun c hc => hspace c (mem_of_mem_getLast? hc)⟩

/-- The roles that an entry of the overrides sets. -/
def overrideRoles (defaultRoles : Roles) (commandName : String) (json : Json) : Roles :=
  (normalizeCommandRoleList commandName
    (normalizeRoleList (some json) defaultRoles commandName).1).1

/-- What an entry of the overrides sets, if its key is the name of a command. -/
def assignment (defaultRoles : Roles) (entry : String × Json) : Option (String × Roles) :=
  if isCommandName (normalizeCommandName text entry.1) then
    some (normalizeCommandName text entry.1,
      overrideRoles defaultRoles (normalizeCommandName text entry.1) entry.2)
  else none

theorem foldl_normalizeEntry (defaultRoles : Roles) (entries : List (String × Json))
    (state : List (String × Roles) × List String) :
    (entries.foldl (normalizeEntry text defaultRoles) state).1 =
      Record.setAll state.1 (entries.filterMap (assignment text defaultRoles)) := by
  induction entries generalizing state with
  | nil => rfl
  | cons entry rest ih =>
    rw [foldl_cons, ih, filterMap_cons, normalizeEntry, assignment]
    split <;> rfl

variable (policy : Option Json)

/-- A normalised policy: its default, and its overrides set over the shipped commands. -/
theorem normalize_eq :
    (normalizeCommandAuthorizationPolicy text policy).1 = ⟨dedupeRoles (policyRoles policy),
      Record.setAll defaultCommandAuthorizationPolicy.commands
        ((overrideEntries policy).filterMap
          (assignment text (dedupeRoles (policyRoles policy))))⟩ := by
  cases policy with
  | none => rfl
  | some json =>
    cases json with
    | object fields =>
      have hdefault : (normalizeRoleList (field fields "default")
          defaultCommandAuthorizationPolicy.default "default").1 =
          dedupeRoles (policyRoles (some (.object fields))) :=
        normalizeRoleList_fst _ _ _
      unfold normalizeCommandAuthorizationPolicy overrideEntries
      rw [← hdefault]
      cases hcommands : field fields "commands" with
      | none => simp [hcommands]
      | some commands =>
        cases commands with
        | object entries => simp only [hcommands, foldl_normalizeEntry]
        | _ => simp [hcommands]
    | _ => rfl

theorem settled_overrideRoles {defaultRoles : Roles} (h : Settled defaultRoles)
    (commandName : String) (json : Json) :
    Settled (overrideRoles defaultRoles commandName json) := by
  refine settled_normalizeCommandRoleList ?_ commandName
  rw [normalizeRoleList_fst]
  split_ifs with hnamed
  · exact settled_dedupeRoles h.ne_nil
  · exact settled_dedupeRoles hnamed

theorem policyRoles_ne_nil : policyRoles policy ≠ [] := by
  unfold policyRoles
  split
  · split_ifs with hnamed
    · exact cons_ne_nil _ _
    · exact hnamed
  · exact cons_ne_nil _ _

theorem normal_normalize : Normal (normalizeCommandAuthorizationPolicy text policy).1 := by
  have hdefault : Settled (dedupeRoles (policyRoles policy)) :=
    settled_dedupeRoles (policyRoles_ne_nil policy)
  rw [normalize_eq]
  refine ⟨hdefault, Record.keys_prefix_setAll _ _, Record.nodup_keys_setAll (by decide),
    fun entry hentry => ?_⟩
  rcases Record.mem_setAll hentry with hset | hshipped
  · obtain ⟨given, -, hassign⟩ := mem_filterMap.1 hset
    unfold assignment at hassign
    split at hassign
    · next hname =>
      obtain rfl := Option.some.inj hassign
      exact ⟨hname, settled_overrideRoles hdefault _ _,
        fun own hown role => mem_normalizeCommandRoleList hown⟩
    · cases hassign
  · obtain ⟨hlist, hname⟩ := shipped_settled entry hshipped
    refine ⟨hname, ⟨hlist.1, dedupeRoles_of_nodup hlist.2⟩, fun own hown role hrole => ?_⟩
    have hlookup : shippedRoles entry.1 = some entry.2 := Record.lookup_of_mem (by decide) hshipped
    obtain rfl : entry.2 = own := Option.some.inj (hlookup.symm.trans hown)
    exact mem_append_right _ hrole

/-- **Normalising leaves a normal policy alone.** -/
theorem normalize_toJson {policy : RepositoryCommandAuthorizationPolicy} (h : Normal policy) :
    (normalizeCommandAuthorizationPolicy text (some policy.toJson)).1 = policy := by
  have hroles : dedupeRoles (policyRoles (some policy.toJson)) = policy.default := by
    have hfield : policyRoles (some policy.toJson) = policy.default := by
      show (if namedRoles (some (rolesJson policy.default)) = [] then _
        else namedRoles (some (rolesJson policy.default))) = _
      rw [namedRoles_rolesJson, if_neg h.default.ne_nil]
    rw [hfield, h.default.deduped]
  have hentries : (overrideEntries (some policy.toJson)).filterMap
      (assignment text policy.default) = policy.commands := by
    show (policy.commands.map fun entry => (entry.1, rolesJson entry.2)).filterMap _ = _
    rw [filterMap_map]
    refine (filterMap_congr fun entry hentry => ?_).trans filterMap_some
    obtain ⟨hname, hsettled, hsurvives⟩ := h.entries entry hentry
    have hclean := normalizeCommandName_of_name text hname
    simp only [Function.comp_apply, assignment, hclean, hname, if_true, overrideRoles,
      normalizeRoleList_settled hsettled, normalizeCommandRoleList_survives hsurvives]
  rw [normalize_eq, hroles, hentries, Record.setAll_eq_self h.nodup h.keys]

end Normal

/-! ## Shipped commands -/

section Shipped

variable {text : CommandText} {policy : Option Json} {commandName : String} {own : Roles}

theorem find?_assignment (defaultRoles : Roles) {commandName : String}
    (hname : isCommandName commandName) (entries : List (String × Json)) :
    (entries.filterMap (assignment text defaultRoles)).lookup commandName =
      (entries.find? fun entry => normalizeCommandName text entry.1 = commandName).map
        fun entry => overrideRoles defaultRoles commandName entry.2 := by
  induction entries with
  | nil => rfl
  | cons entry rest ih =>
    rw [filterMap_cons, List.find?_cons, assignment]
    by_cases heq : normalizeCommandName text entry.1 = commandName
    · subst heq
      simp [hname]
    · simp only [heq, decide_false]
      split_ifs
      · rw [Record.lookup_cons_eq, if_neg (Ne.symm heq), ih]
      · exact ih

/-- **The roles of a shipped command**: what its last override sets, or what it ships with. -/
theorem allowedRoles_shipped
    (hown : shippedRoles (normalizeCommandName text commandName) = some own) :
    commandAuthorizationAllowedRoles text policy commandName = dedupeRoles
      (((givenOverride text policy commandName).map
        (overrideRoles (dedupeRoles (policyRoles policy))
          (normalizeCommandName text commandName))).getD own) := by
  have hshipped : defaultCommandAuthorizationPolicy.commands.lookup
      (normalizeCommandName text commandName) = some own :=
    hown
  unfold commandAuthorizationAllowedRoles givenOverride
  simp only [normalize_eq]
  rw [Record.lookup_setAll, ← filterMap_reverse,
    find?_assignment _ (isCommandName_of_shipped hown), hshipped]
  cases (overrideEntries policy).reverse.find? _ <;> rfl

theorem mem_allowedRoles_of_matched {args : Invocation} {role : CommandAuthorizationRole}
    (h : (evaluateCommandAuthorization text policy args).matchedRole = some role) :
    role ∈ commandAuthorizationAllowedRoles text policy args.commandName := by
  unfold evaluateCommandAuthorization evaluateWith at h
  cases hfind : (actorRoles text args).find? (· ∈
    commandAuthorizationAllowedRoles text policy args.commandName) with
  | none =>
    simp only [hfind] at h
    split_ifs at h
  | some first =>
    simp only [hfind] at h
    split_ifs at h
    obtain rfl := Option.some.inj h
    simpa using List.find?_some hfind

/-- No override gives the author a command that ships without the author's role. -/
theorem prAuthor_mem_own (hown : shippedRoles (normalizeCommandName text commandName) = some own)
    (h : prAuthor ∈ commandAuthorizationAllowedRoles text policy commandName) : prAuthor ∈ own := by
  rw [allowedRoles_shipped hown, mem_dedupeRoles] at h
  cases hgiven : givenOverride text policy commandName with
  | none => simpa [hgiven] using h
  | some json =>
    rw [hgiven] at h
    have hclamp := mem_normalizeCommandRoleList hown h
    simpa [clampRoles, maintainerCommandAuthorizationRoles] using hclamp

/-- **A policy narrows a shipped command exactly where its override names a valid role, or the
default of the policy is within what the command ships with.** -/
theorem narrow_override_iff (text : CommandText) (policy : Option Json) (commandName : String) :
    NarrowOverride text policy commandName ↔ DefaultWithin text policy commandName := by
  have hmalformed (own : Roles) (hown : shippedRoles (normalizeCommandName text commandName) =
      some own) (json : Json)
      (hgiven : givenOverride text policy commandName = some json)
        (hnamed : namedRoles (some json) = []) :
      (∀ role ∈ commandAuthorizationAllowedRoles text policy commandName, role ∈ own) ↔
        ∀ role ∈ policyRoles policy, role = prAuthor ∨ role ∈ own := by
    have hroles : (normalizeRoleList (some json) (dedupeRoles (policyRoles policy))
        (normalizeCommandName text commandName)).1 = dedupeRoles (policyRoles policy) := by
      rw [normalizeRoleList_fst, if_pos hnamed, dedupeRoles_dedupeRoles]
    simp only [allowedRoles_shipped hown, hgiven, Option.map_some, Option.getD_some,
      mem_dedupeRoles, overrideRoles, hroles, normalizeCommandRoleList_subset_iff hown]
  constructor
  · intro h own hown json hgiven hnamed
    exact (hmalformed own hown json hgiven hnamed).1 (h.malformed own hown json hgiven hnamed)
  · intro h
    refine ⟨normalize_toJson text (normal_normalize text policy), ?_, ?_⟩
    · rintro own hown args rfl hmatched
      exact prAuthor_mem_own hown (mem_allowedRoles_of_matched hmatched)
    · exact fun own hown json hgiven hnamed =>
        (hmalformed own hown json hgiven hnamed).2 (h own hown json hgiven hnamed)

/-- A repository misspells the only role of a command. -/
def misspelled : Json :=
  .object [("commands", .object [("generate-tests", .array [.string "maintainers"])])]

theorem generate_tests_widened :
    ¬NarrowOverride asciiCommandText (some misspelled) "generate-tests" := by
  rw [narrow_override_iff]
  intro h
  have hwithin :=
    h [maintainer] (by decide) (.array [.string "maintainers"]) (by rfl) (by decide) collaborator
    (by decide)
  exact absurd hwithin (by decide)

end Shipped

end LoopOver.CommandAuthorization
