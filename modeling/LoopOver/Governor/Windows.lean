import LoopOver.Governor.WriteRateLimit
import Mathlib.Data.Finset.Dedup
import Mathlib.Data.Finset.Order

/-!
# What the write rate limits bound

A run asks for one write after the other, and records those that are allowed. The bucket of a
repository is stored under the action class and the name of the repository with a colon between
them, so two action classes can share one when there are colons in them as well.

* `ScopeCounts` says of a scope that its buckets know the writes, and `scopeCounts_record` is its
  step.
* **`write_windows_bounded`**: where calls that share a bucket have windows of one length, no window
  has more writes than its limit, and the wait of a refused call is long enough.
  `write_window_exceeded` is a run in which a shared bucket with two lengths lets one write too many
  through.
* `sharedWindows_of_no_colon`: action classes without a colon never share a bucket.
-/

namespace LoopOver

open List

/-! ## Runs -/

/-- A write that is asked for, with the clock reading and what the caller knows of its retries. -/
structure WriteCall where
  actionClass : String
  repoFullName : String
  nowMs : ℚ
  backoffAttempts : String → Option JsNumber
  draw : JsNumber

structure WriteState where
  buckets : WriteRateLimitBucketStore
  written : List WriteCall

section Runs

variable (rt : Runtime) (policies : WriteRateLimitPolicies)

/-- The verdict on a call. -/
def verdictOf (buckets : WriteRateLimitBucketStore) (call : WriteCall) : WriteRateLimitVerdict :=
  evaluateWriteRateLimit rt
    { actionClass := call.actionClass
      repoFullName := call.repoFullName
      buckets := buckets
      backoffAttempts := call.backoffAttempts
      policies := policies
      nowMs := .finite call.nowMs
      draw := call.draw }

/-- Ask, and record the write with the same arguments when it is allowed. -/
def writeStep (state : WriteState) (call : WriteCall) : WriteState :=
  if (verdictOf rt policies state.buckets call).allowed then
    { buckets := recordWriteRateLimitAllowed rt state.buckets call.actionClass call.repoFullName
        (.finite call.nowMs) policies
      written := state.written ++ [call] }
  else state

def runWrites (calls : List WriteCall) : WriteState :=
  calls.foldl (writeStep rt policies) ⟨⟨fun _ => none, fun _ => none⟩, []⟩

/-- The key of the bucket of the repository, as both functions build it. -/
def WriteCall.repoKey (call : WriteCall) : String :=
  writeRateLimitRepoKey rt (rt.trim call.actionClass) call.repoFullName

/-- The writes among some in a window. -/
def writesDuring (start length : ℚ) (written : List WriteCall) : List WriteCall :=
  written.filter fun call => start ≤ call.nowMs ∧ call.nowMs < start + length

/-- No window that a bucket has at some point of the run has more writes than the limit. -/
structure WindowsBounded (calls : List WriteCall) : Prop where
  global : ∀ earlier, earlier <+: calls → ∀ actionClass bucket,
    (runWrites rt policies earlier).buckets.global (rt.trim actionClass) = some bucket →
      ∃ start, bucket.windowStartMs = .finite start ∧
        (writesDuring start (policyFor policies (rt.trim actionClass) .global).window
          ((runWrites rt policies calls).written.filter fun call =>
            rt.trim call.actionClass = rt.trim actionClass)).length ≤
              (policyFor policies (rt.trim actionClass) .global).ceiling
  perRepo : ∀ earlier, earlier <+: calls → ∀ actionClass repoFullName bucket,
    (runWrites rt policies earlier).buckets.perRepo
        (writeRateLimitRepoKey rt (rt.trim actionClass) repoFullName) = some bucket →
      ∃ start, bucket.windowStartMs = .finite start ∧
        (writesDuring start (policyFor policies (rt.trim actionClass) .perRepo).window
          ((runWrites rt policies calls).written.filter fun call =>
            rt.trim call.actionClass = rt.trim actionClass ∧
              rt.toLowerCase (rt.trim call.repoFullName) =
                rt.toLowerCase (rt.trim repoFullName))).length ≤
                (policyFor policies (rt.trim actionClass) .perRepo).ceiling

/-- A refused call is allowed after the wait it was given, unless a limit lets nothing through. -/
def RetryAllowed (calls : List WriteCall) : Prop :=
  ∀ call retry, (∀ earlier ∈ calls, earlier.nowMs ≤ call.nowMs) →
    (verdictOf rt policies (runWrites rt policies calls).buckets call).allowed = false →
    0 < (policyFor policies (rt.trim call.actionClass) .global).ceiling →
    0 < (policyFor policies (rt.trim call.actionClass) .perRepo).ceiling →
    retry.actionClass = call.actionClass → retry.repoFullName = call.repoFullName →
    retry.nowMs =
      call.nowMs + (verdictOf rt policies (runWrites rt policies calls).buckets call).retryAfterMs →
    (verdictOf rt policies (runWrites rt policies calls).buckets retry).allowed = true

/-- Calls that share the bucket of a repository have windows of one length. -/
def SharedWindows (calls : List WriteCall) : Prop :=
  ∀ call ∈ calls, ∀ other ∈ calls, call.repoKey rt = other.repoKey rt →
    (policyFor policies (rt.trim call.actionClass) .perRepo).window =
      (policyFor policies (rt.trim other.actionClass) .perRepo).window

end Runs

/-! ## One scope -/

section Scope

variable (rt : Runtime) (key : WriteCall → String) (config : String → LocalRateLimitConfig)
  (length : String → ℚ)

/-- The writes of a bucket, by action class. -/
def bucketWrites (bucketKey : String) (written : List WriteCall) : List (String × ℚ) :=
  (written.filter fun call => key call = bucketKey).map fun call =>
    (rt.trim call.actionClass, call.nowMs)

/-- The buckets of a scope know the writes. -/
def ScopeCounts (table : String → Option LocalRateBucket) (written : List WriteCall) (now : ℚ) :
    Prop :=
  ∀ bucketKey, ∃ bucket, table bucketKey = bucket.map bucketOf ∧
    Window.Counts (length bucketKey) (fun actionClass => (config actionClass).ceiling) bucket
      (bucketWrites rt key bucketKey written) now

/-- A window of a bucket is within the limits. -/
def ScopeWithin (start : ℚ) (bucketKey : String) (table : String → Option LocalRateBucket)
    (written : List WriteCall) : Prop :=
  ∃ bucket, table bucketKey = bucket.map bucketOf ∧
    Window.Within start (length bucketKey) (fun actionClass => (config actionClass).ceiling) bucket
      (bucketWrites rt key bucketKey written)

/-- What the scope says of a call. -/
def scopeDecision (table : String → Option LocalRateBucket) (call : WriteCall) :
    LocalRateLimitDecision :=
  evaluateLocalRateLimit (bucketAt call.nowMs (table (key call)))
    (config (rt.trim call.actionClass))
    (.finite call.nowMs)

/-- The scope counts a call. -/
def scopeRecord (table : String → Option LocalRateBucket) (call : WriteCall) :
    String → Option LocalRateBucket :=
  Function.update table (key call) (some (incrementBucket (bucketAt call.nowMs (table (key call)))
    (config (rt.trim call.actionClass)) (.finite call.nowMs)))

variable {rt key config length} {table : String → Option LocalRateBucket} {written : List WriteCall}
  {call : WriteCall} {now start : ℚ} {bucketKey : String}

theorem bucketOf_injective : Function.Injective bucketOf := by
  rintro ⟨count, start⟩ ⟨count', start'⟩ heq
  injection heq with hcount hstart
  injection hcount with hcount
  injection hstart with hstart
  exact congrArg₂ Window.Bucket.mk (Nat.cast_injective hcount) hstart

theorem bucketWrites_concat_self :
    bucketWrites rt key (key call) (written ++ [call]) =
      bucketWrites rt key (key call) written ++ [(rt.trim call.actionClass, call.nowMs)] := by
  simp [bucketWrites]

theorem bucketWrites_concat_ne (hne : key call ≠ bucketKey) :
    bucketWrites rt key bucketKey (written ++ [call]) = bucketWrites rt key bucketKey written := by
  simp [bucketWrites, hne]

/-- What a recorded call does to its own bucket. -/
theorem scopeRecord_self {bucket : Option (Window.Bucket ℚ)}
    (hbucket : table (key call) = bucket.map bucketOf) :
    scopeRecord rt key config table call (key call) =
      (some (Window.record (config (rt.trim call.actionClass)).window call.nowMs bucket)).map
        bucketOf := by
  rw [scopeRecord, Function.update_self, hbucket, incrementBucket_eq]
  rfl

theorem scopeRecord_ne (hne : key call ≠ bucketKey) :
    scopeRecord rt key config table call bucketKey = table bucketKey :=
  Function.update_of_ne hne.symm _ _

theorem scopeDecision_allowed_iff {bucket : Option (Window.Bucket ℚ)}
    (hbucket : table (key call) = bucket.map bucketOf) :
    (scopeDecision rt key config table call).allowed = true ↔
      (Window.current (config (rt.trim call.actionClass)).window call.nowMs bucket).count <
        (config (rt.trim call.actionClass)).ceiling := by
  rw [scopeDecision, hbucket, evaluateLocalRateLimit_eq]
  exact decide_eq_true_iff

theorem scopeCounts_record (h : ScopeCounts rt key config length table written now)
    (hnow : now ≤ call.nowMs)
    (hlength : (config (rt.trim call.actionClass)).window = length (key call))
    (hallowed : (scopeDecision rt key config table call).allowed = true) :
    ScopeCounts rt key config length (scopeRecord rt key config table call) (written ++ [call])
      call.nowMs := by
  intro bucketKey
  by_cases hkey : key call = bucketKey
  · subst hkey
    obtain ⟨bucket, hbucket, hcounts⟩ := h (key call)
    have hless := (scopeDecision_allowed_iff hbucket).1 hallowed
    refine ⟨_, scopeRecord_self hbucket, ?_⟩
    rw [hlength] at hless ⊢
    rw [bucketWrites_concat_self]
    exact Window.counts_record hcounts hnow hless
  · obtain ⟨bucket, hbucket, hcounts⟩ := h bucketKey
    refine ⟨bucket, (scopeRecord_ne hkey).trans hbucket, ?_⟩
    rw [bucketWrites_concat_ne hkey]
    exact hcounts.later hnow

theorem scopeWithin_record (h : ScopeCounts rt key config length table written now)
    (hnow : now ≤ call.nowMs)
    (hlength : (config (rt.trim call.actionClass)).window = length (key call))
    (hallowed : (scopeDecision rt key config table call).allowed = true)
    (hwithin : ScopeWithin rt key config length start bucketKey table written) :
    ScopeWithin rt key config length start bucketKey (scopeRecord rt key config table call)
      (written ++ [call]) := by
  obtain ⟨bucket, hbucket, hwithin⟩ := hwithin
  by_cases hkey : key call = bucketKey
  · subst hkey
    obtain ⟨bucket', hbucket', hcounts⟩ := h (key call)
    obtain rfl : bucket = bucket' :=
      Option.map_injective bucketOf_injective (hbucket.symm.trans hbucket')
    have hless := (scopeDecision_allowed_iff hbucket).1 hallowed
    refine ⟨_, scopeRecord_self hbucket, ?_⟩
    rw [hlength] at hless ⊢
    rw [bucketWrites_concat_self]
    exact Window.within_record hcounts hnow hless hwithin
  · refine ⟨bucket, (scopeRecord_ne hkey).trans hbucket, ?_⟩
    rwa [bucketWrites_concat_ne hkey]

end Scope

/-! ## The run of both scopes -/

/-- The table of a scope. -/
def scopeTable (buckets : WriteRateLimitBucketStore) : RateScope → String → Option LocalRateBucket
  | .global => buckets.global
  | .perRepo => buckets.perRepo

/-- The key of a call in a scope. -/
def scopeKey (rt : Runtime) (scope : RateScope) (call : WriteCall) : String :=
  match scope with
  | .global => rt.trim call.actionClass
  | .perRepo => call.repoKey rt

section Run

variable {rt : Runtime} {policies : WriteRateLimitPolicies} {scope : RateScope}
  {length : String → ℚ}
  {calls : List WriteCall}

/-- What a scope says of a call. -/
def decisionIn (rt : Runtime) (policies : WriteRateLimitPolicies)
    (buckets : WriteRateLimitBucketStore) (call : WriteCall) (scope : RateScope) :
    LocalRateLimitDecision :=
  scopeDecision rt (scopeKey rt scope) (policyFor policies · scope) (scopeTable buckets scope) call

/-- A call is allowed when both scopes let it through; a refused one waits for the longer of the
two. -/
theorem verdictOf_cases (buckets : WriteRateLimitBucketStore) (call : WriteCall) :
    ((verdictOf rt policies buckets call).allowed = true ∧
        ∀ scope, (decisionIn rt policies buckets call scope).allowed = true) ∨
      (verdictOf rt policies buckets call).allowed = false ∧
        (¬∀ scope, (decisionIn rt policies buckets call scope).allowed = true) ∧
        ∀ scope, (decisionIn rt policies buckets call scope).retryAfterMs ≤
          (verdictOf rt policies buckets call).retryAfterMs := by
  rw [verdictOf, evaluateWriteRateLimit]
  dsimp only
  split
  · next hallowed =>
    obtain ⟨hglobal, hperRepo⟩ := Bool.and_eq_true_iff.1 hallowed
    refine Or.inl ⟨rfl, ?_⟩
    rintro (_ | _)
    · exact hglobal
    · exact hperRepo
  · next hrefused =>
    refine Or.inr ⟨rfl, fun hall => hrefused ?_, ?_⟩
    · exact Bool.and_eq_true_iff.2 ⟨hall .global, hall .perRepo⟩
    · rintro (_ | _)
      · exact (le_max_left _ _).trans (le_max_left _ _)
      · exact (le_max_right _ _).trans (le_max_left _ _)

/-- A call changes nothing, or is counted in each scope, which lets it through. -/
theorem writeStep_cases (state : WriteState) (call : WriteCall) :
    writeStep rt policies state call = state ∨
      (writeStep rt policies state call).written = state.written ++ [call] ∧
        ∀ scope, (decisionIn rt policies state.buckets call scope).allowed = true ∧
          scopeTable (writeStep rt policies state call).buckets scope =
            scopeRecord rt (scopeKey rt scope) (policyFor policies · scope)
              (scopeTable state.buckets scope) call := by
  rw [writeStep]
  rcases verdictOf_cases state.buckets call with ⟨hallowed, hall⟩ | ⟨hrefused, -, -⟩
  · rw [if_pos hallowed]
    refine Or.inr ⟨rfl, fun scope => ⟨hall scope, ?_⟩⟩
    cases scope with
    | global => rfl
    | perRepo => rfl
  · rw [hrefused]
    exact Or.inl rfl

theorem runWrites_concat (calls : List WriteCall) (call : WriteCall) :
    runWrites rt policies (calls ++ [call]) =
      writeStep rt policies (runWrites rt policies calls) call :=
  foldl_concat ..

/-- The clock of the last call is that of the run. -/
theorem clock_concat {call : WriteCall}
    (hclock : (calls ++ [call]).Pairwise fun a b => a.nowMs ≤ b.nowMs) :
    calls.Pairwise (fun a b => a.nowMs ≤ b.nowMs) ∧
      ∀ earlier ∈ calls, earlier.nowMs ≤ call.nowMs := by
  obtain ⟨hcalls, -, hlast⟩ := pairwise_append.1 hclock
  exact ⟨hcalls, fun earlier hearlier => hlast earlier hearlier call mem_cons_self⟩

/-- The buckets of a scope know the writes of every run. -/
theorem runWrites_counts (scope : RateScope) (hclock : calls.Pairwise fun a b => a.nowMs ≤ b.nowMs)
    (hlength : ∀ call ∈ calls,
      (policyFor policies (rt.trim call.actionClass) scope).window =
        length (scopeKey rt scope call))
    {now : ℚ} (hnow : ∀ call ∈ calls, call.nowMs ≤ now) :
    ScopeCounts rt (scopeKey rt scope) (policyFor policies · scope) length
      (scopeTable (runWrites rt policies calls).buckets scope)
        (runWrites rt policies calls).written now := by
  induction calls using List.reverseRecOn generalizing now with
  | nil =>
    intro bucketKey
    refine ⟨none, ?_, Window.counts_none _ _ _⟩
    cases scope with
    | global => rfl
    | perRepo => rfl
  | append_singleton calls call ih =>
    obtain ⟨hcalls, hlast⟩ := clock_concat hclock
    have hbefore := ih hcalls (fun c hc => hlength c (mem_append_left _ hc)) hlast
    have hcall : call ∈ calls ++ [call] := mem_append_right _ mem_cons_self
    have hafter : ScopeCounts rt (scopeKey rt scope) (policyFor policies · scope) length
        (scopeTable (runWrites rt policies (calls ++ [call])).buckets scope)
        (runWrites rt policies (calls ++ [call])).written call.nowMs := by
      rw [runWrites_concat]
      rcases writeStep_cases (runWrites rt policies calls) call with hsame | ⟨hwritten, hscopes⟩
      · rwa [hsame]
      · obtain ⟨hallowed, htable⟩ := hscopes scope
        rw [hwritten, htable]
        exact scopeCounts_record hbefore (le_refl _) (hlength call hcall) hallowed
    intro bucketKey
    obtain ⟨bucket, hbucket, hcounts⟩ := hafter bucketKey
    exact ⟨bucket, hbucket, hcounts.later (hnow call hcall)⟩

/-- A window that a bucket has at some point of a run is within the limits at its end. -/
theorem runWrites_within (scope : RateScope) (hclock : calls.Pairwise fun a b => a.nowMs ≤ b.nowMs)
    (hlength : ∀ call ∈ calls,
      (policyFor policies (rt.trim call.actionClass) scope).window =
        length (scopeKey rt scope call))
    {earlier : List WriteCall} (hearlier : earlier <+: calls) {bucketKey : String}
    {bucket : LocalRateBucket}
    (hbucket : scopeTable (runWrites rt policies earlier).buckets scope bucketKey = some bucket) :
    ∃ start, bucket.windowStartMs = .finite start ∧
      ScopeWithin rt (scopeKey rt scope) (policyFor policies · scope) length start bucketKey
        (scopeTable (runWrites rt policies calls).buckets scope)
          (runWrites rt policies calls).written := by
  obtain ⟨rest, rfl⟩ := hearlier
  induction rest using List.reverseRecOn with
  | nil =>
    rw [append_nil] at hclock hlength ⊢
    obtain ⟨now, hnow⟩ := (earlier.map WriteCall.nowMs).toFinset.exists_le
    have hcounts := runWrites_counts scope hclock hlength fun call hcall =>
      hnow _ (mem_toFinset.2 (mem_map_of_mem hcall))
    obtain ⟨bucket', hbucket', hcounts⟩ := hcounts bucketKey
    obtain ⟨b, rfl, rfl⟩ := Option.map_eq_some_iff.1 (hbucket'.symm.trans hbucket)
    exact ⟨b.start, rfl, some b, hbucket', hcounts.within rfl⟩
  | append_singleton rest call ih =>
    rw [← append_assoc] at hclock hlength ⊢
    obtain ⟨hcalls, hlast⟩ := clock_concat hclock
    have hlengths := fun c hc => hlength c (mem_append_left _ hc)
    obtain ⟨start, hstart, hwithin⟩ := ih hcalls hlengths
    refine ⟨start, hstart, ?_⟩
    rw [runWrites_concat]
    rcases writeStep_cases (runWrites rt policies (earlier ++ rest)) call with
      hsame | ⟨hwritten, hscopes⟩
    · rwa [hsame]
    · obtain ⟨hallowed, htable⟩ := hscopes scope
      rw [hwritten, htable]
      exact scopeWithin_record (runWrites_counts scope hcalls hlengths hlast) (le_refl _)
        (hlength call (mem_append_right _ mem_cons_self)) hallowed hwithin

theorem runWrites_written_subset (rt : Runtime) (policies : WriteRateLimitPolicies)
    (calls : List WriteCall) : ∀ call ∈ (runWrites rt policies calls).written, call ∈ calls := by
  induction calls using List.reverseRecOn with
  | nil => exact fun _ h => absurd h not_mem_nil
  | append_singleton calls call ih =>
    intro written hwritten
    rw [runWrites_concat] at hwritten
    rcases writeStep_cases (runWrites rt policies calls) call with hsame | ⟨hconcat, -⟩
    · rw [hsame] at hwritten
      exact mem_append_left _ (ih written hwritten)
    · rw [hconcat] at hwritten
      rcases mem_append.1 hwritten with hwritten | hwritten
      · exact mem_append_left _ (ih written hwritten)
      · exact mem_append_right _ hwritten

/-- The writes that are looked for are among those that the bucket counts for their action class. -/
theorem writesDuring_le {key : WriteCall → String} {bucketKey actionClass : String}
    {start period : ℚ} {written : List WriteCall} {wanted : WriteCall → Bool}
    (hwanted : ∀ call, wanted call = true → key call = bucketKey ∧
      rt.trim call.actionClass = actionClass) :
    (writesDuring start period (written.filter wanted)).length ≤
      (Window.ofSource actionClass
        (Window.inWindow start period (bucketWrites rt key bucketKey written))).length := by
  rw [writesDuring, Window.ofSource, Window.inWindow, bucketWrites, filter_map, filter_map,
    length_map, filter_filter, filter_filter, filter_filter]
  refine (monotone_filter_right written fun call hcall => ?_).length_le
  obtain ⟨hduring, hcall⟩ := Bool.and_eq_true_iff.1 hcall
  obtain ⟨hkey, hclass⟩ := hwanted call hcall
  simp only [Function.comp_apply, Bool.and_eq_true, decide_eq_true_eq] at hduring ⊢
  exact ⟨⟨hclass, hduring⟩, hkey⟩

/-- A length for the window of each bucket, from the calls that share it. -/
theorem exists_length (hshared : SharedWindows rt policies calls) :
    ∃ length : RateScope → String → ℚ, ∀ scope, ∀ call ∈ calls,
      (policyFor policies (rt.trim call.actionClass) scope).window =
        length scope (scopeKey rt scope call) := by
  have hsame : ∀ scope, ∀ call ∈ calls, ∀ other ∈ calls,
      scopeKey rt scope call = scopeKey rt scope other →
      (policyFor policies (rt.trim call.actionClass) scope).window =
        (policyFor policies (rt.trim other.actionClass) scope).window := by
    rintro (_ | _) call hcall other hother hkey
    · exact congrArg (fun actionClass => (policyFor policies actionClass .global).window) hkey
    · exact hshared call hcall other hother hkey
  refine ⟨fun scope key => ((calls.find? fun call => scopeKey rt scope call = key).map fun call =>
    (policyFor policies (rt.trim call.actionClass) scope).window).getD 0,
      fun scope call hcall => ?_⟩
  dsimp only
  cases hfind : calls.find? fun other => scopeKey rt scope other = scopeKey rt scope call with
  | none => exact absurd (decide_eq_true rfl) (List.find?_eq_none.1 hfind call hcall)
  | some other =>
    have hkey := List.find?_some hfind
    rw [decide_eq_true_iff] at hkey
    exact hsame scope call hcall other (mem_of_find?_eq_some hfind) hkey.symm

/-- In a scope, the writes of an action class that are in the same bucket. -/
theorem writes_bounded (scope : RateScope) (hclock : calls.Pairwise fun a b => a.nowMs ≤ b.nowMs)
    (hlength : ∀ call ∈ calls,
      (policyFor policies (rt.trim call.actionClass) scope).window =
        length (scopeKey rt scope call))
    {earlier : List WriteCall} (hearlier : earlier <+: calls) {bucketKey actionClass : String}
    {bucket : LocalRateBucket}
    (hbucket : scopeTable (runWrites rt policies earlier).buckets scope bucketKey = some bucket)
    {wanted : WriteCall → Bool} (hwanted : ∀ call, wanted call = true →
      scopeKey rt scope call = bucketKey ∧ rt.trim call.actionClass = actionClass) :
    ∃ start, bucket.windowStartMs = .finite start ∧
      (writesDuring start (policyFor policies actionClass scope).window
        ((runWrites rt policies calls).written.filter wanted)).length ≤
          (policyFor policies actionClass scope).ceiling := by
  obtain ⟨start, hstart, _, -, hwithin⟩ := runWrites_within scope hclock hlength hearlier hbucket
  refine ⟨start, hstart, ?_⟩
  -- Without such a write there is nothing to bound; with one, its bucket has its window.
  cases hfirst : (runWrites rt policies calls).written.filter wanted with
  | nil => exact Nat.zero_le _
  | cons first rest =>
    have hmem : first ∈ (runWrites rt policies calls).written.filter wanted :=
      hfirst ▸ mem_cons_self
    obtain ⟨hwritten, hfirstWanted⟩ := mem_filter.1 hmem
    obtain ⟨hkey, hclass⟩ := hwanted first hfirstWanted
    have hwindow := hlength first (runWrites_written_subset rt policies calls first hwritten)
    rw [hclass, hkey] at hwindow
    rw [← hfirst, hwindow]
    exact (writesDuring_le hwanted).trans (hwithin.bounded actionClass)

/-- In a scope, a call that waits as long as it is told to is let through. -/
theorem decisionIn_retry (scope : RateScope) (hclock : calls.Pairwise fun a b => a.nowMs ≤ b.nowMs)
    (hlength : ∀ call ∈ calls,
      (policyFor policies (rt.trim call.actionClass) scope).window =
        length (scopeKey rt scope call))
    {call retry : WriteCall} (hnow : ∀ earlier ∈ calls, earlier.nowMs ≤ call.nowMs)
    (hceiling : 0 < (policyFor policies (rt.trim call.actionClass) scope).ceiling)
    (hclass : retry.actionClass = call.actionClass) (hrepo : retry.repoFullName = call.repoFullName)
    (hwait : call.nowMs + (decisionIn rt policies (runWrites rt policies calls).buckets call
      scope).retryAfterMs ≤ retry.nowMs) :
    (decisionIn rt policies (runWrites rt policies calls).buckets retry scope).allowed = true := by
  have hkey : scopeKey rt scope retry = scopeKey rt scope call := by
    cases scope with
    | global => exact congrArg rt.trim hclass
    | perRepo =>
      rw [scopeKey, scopeKey, WriteCall.repoKey, WriteCall.repoKey, hclass, hrepo]
  obtain ⟨bucket, hbucket, hcounts⟩ :=
    runWrites_counts scope hclock hlength hnow (scopeKey rt scope call)
  rw [decisionIn, scopeDecision, hbucket] at hwait
  rw [decisionIn, scopeDecision, hkey, hclass, hbucket]
  exact evaluateLocalRateLimit_retry _ call.nowMs bucket hceiling hcounts.started hwait

/-- **The write rate limits.** In a run whose clock does not go back and where calls that share the
bucket of a repository have windows of one length. -/
theorem write_windows_bounded (rt : Runtime) (policies : WriteRateLimitPolicies)
    (calls : List WriteCall) (hclock : calls.Pairwise fun a b => a.nowMs ≤ b.nowMs)
    (hshared : SharedWindows rt policies calls) :
    WindowsBounded rt policies calls ∧ RetryAllowed rt policies calls := by
  obtain ⟨length, hlength⟩ := exists_length hshared
  refine ⟨⟨fun earlier hearlier actionClass bucket hbucket => ?_,
    fun earlier hearlier actionClass repoFullName bucket hbucket => ?_⟩, ?_⟩
  · refine writes_bounded .global hclock (hlength .global) hearlier hbucket fun call hcall => ?_
    exact ⟨of_decide_eq_true hcall, of_decide_eq_true hcall⟩
  · refine writes_bounded .perRepo hclock (hlength .perRepo) hearlier hbucket fun call hcall => ?_
    obtain ⟨hclass, hrepo⟩ := of_decide_eq_true hcall
    refine ⟨?_, hclass⟩
    rw [scopeKey, WriteCall.repoKey, writeRateLimitRepoKey, hclass, hrepo]
    rfl
  · intro call retry hnow hrefused hglobal hperRepo hclass hrepo hretry
    have hwait : ∀ scope,
        call.nowMs + (decisionIn rt policies (runWrites rt policies calls).buckets call
        scope).retryAfterMs ≤ retry.nowMs := by
      intro scope
      rcases verdictOf_cases (runWrites rt policies calls).buckets call with ⟨hallowed, -⟩ |
        ⟨-, -, hlonger⟩
      · rw [hallowed] at hrefused
        cases hrefused
      · rw [hretry]
        exact add_le_add_right (hlonger scope) call.nowMs
    have hall : ∀ scope,
        (decisionIn rt policies (runWrites rt policies calls).buckets retry scope).allowed =
          true := by
      rintro (_ | _)
      · exact decisionIn_retry .global hclock (hlength .global) hnow hglobal hclass hrepo
          (hwait .global)
      · exact decisionIn_retry .perRepo hclock (hlength .perRepo) hnow hperRepo hclass hrepo
          (hwait .perRepo)
    rcases verdictOf_cases (runWrites rt policies calls).buckets retry with ⟨hallowed, -⟩ |
      ⟨-, hnot, -⟩
    · exact hallowed
    · exact absurd hall hnot

/-- Action classes without a colon have buckets of their own. -/
theorem sharedWindows_of_no_colon (rt : LawfulRuntime) (policies : WriteRateLimitPolicies)
    (hcolon : ∀ call ∈ calls, ':' ∉ (rt.trim call.actionClass).toList) :
    SharedWindows rt.toRuntime policies calls := by
  intro call hcall other hother hkey
  rw [WriteCall.repoKey, WriteCall.repoKey, writeRateLimitRepoKey, writeRateLimitRepoKey,
    rt.trim_trim, rt.trim_trim, String.append_assoc, String.append_assoc] at hkey
  -- The action class is what stands before the first colon of the key.
  have hbefore : ∀ actionClass rest : String, ':' ∉ actionClass.toList →
      (actionClass ++ (":" ++ rest)).toList.takeWhile (· != ':') = actionClass.toList := by
    intro actionClass rest hnone
    have hall : ∀ c ∈ actionClass.toList, (c != ':') = true := fun c hc =>
      bne_iff_ne.2 fun heq => hnone (heq ▸ hc)
    rw [String.toList_append, takeWhile_append_of_pos hall, String.toList_append]
    exact append_nil _
  have hclass : (rt.trim call.actionClass).toList = (rt.trim other.actionClass).toList := by
    rw [← hbefore _ _ (hcolon call hcall), hkey, hbefore _ _ (hcolon other hother)]
  rw [String.toList_inj.1 hclass]

/-- A write of an action class to a repository. -/
def writeAt (actionClass repoFullName : String) (nowMs : ℚ) : WriteCall :=
  ⟨actionClass, repoFullName, nowMs, fun _ => none, .finite (1 / 2)⟩

/-- Four pull requests to a repository, with its name spelled in two ways. -/
def openPrCalls : List WriteCall :=
  [writeAt "open_pr" "acme/web" 0, writeAt " open_pr" "Acme/Web" 1, writeAt "open_pr" "acme/web" 2,
    writeAt "open_pr" "acme/web" 3]

/-- The fourth is refused. -/
theorem write_windows_bounded_default :
    (runWrites asciiRuntime defaultWriteRateLimitPolicies openPrCalls).written.length = 3 ∧
      WindowsBounded asciiRuntime defaultWriteRateLimitPolicies openPrCalls :=
  ⟨by decide +kernel, (write_windows_bounded asciiRuntime defaultWriteRateLimitPolicies openPrCalls
    (by decide +kernel) (sharedWindows_of_no_colon asciiLawful _ (by decide +kernel))).1⟩

/-- Two action classes whose buckets meet, with windows of a minute and of a second. -/
def collidingPolicies : WriteRateLimitPolicies where
  global _ := none
  perRepo actionClass := match actionClass with
    | "comment" => some ⟨2, 60000⟩
    | "comment:thread" => some ⟨2, 1000⟩
    | _ => none
  backoffBaseMs := 0

/-- The write of the second class ends the window of the first, which then has room again. -/
def collidingCalls : List WriteCall :=
  [writeAt "comment" "thread:acme/web" 0, writeAt "comment" "thread:acme/web" 1,
    writeAt "comment:thread" "acme/web" 1000, writeAt "comment" "thread:acme/web" 1001]

/-- Three comments in a window for two. -/
theorem write_window_exceeded :
    (collidingCalls.Pairwise fun a b => a.nowMs ≤ b.nowMs) ∧
      ¬WindowsBounded asciiRuntime collidingPolicies collidingCalls := by
  refine ⟨by decide +kernel, fun hbounded => ?_⟩
  obtain ⟨start, hstart, hle⟩ :=
    hbounded.perRepo (collidingCalls.take 1) (List.take_prefix _ _) "comment"
    "thread:acme/web" ⟨.finite 1, .finite 0⟩ (by decide +kernel)
  obtain rfl := JsNumber.finite.inj hstart
  exact absurd hle (by decide +kernel)

end Run

end LoopOver
