import LoopOver.Governor.Chokepoint
import LoopOver.Governor.Windows

/-!
# The governor gate

`packages/loopover-miner/lib/governor-chokepoint.ts` is what a write of the miner calls: it asks the
chokepoint, appends the decision to the governor ledger, and advances the state of the rate limits,
which the caller keeps between its calls. Only a write that the whole ladder allows is counted in
the buckets, by the policies it was decided with.

* `gateStep_step` is what a call does to the state.
* `GateKeeps`: the buckets of the action classes are those of a run of the rate limits alone, over
  the writes that the gate let through.
* **`gate_bounds_writes`**: no window of an action class has more writes than its limit, whatever
  the other checks say and whichever appends fail; and the attempts of a key are its refusals since
  its last allowed write.
-/

variable (reputation : Option SelfReputationThrottleDecision)

namespace LoopOver

open List

/-! ## The gate -/

section Backoff

variable (rt : Runtime) (backoffAttempts : String → Option JsNumber)
  (actionClassInput repoFullName : String)

def recordWriteRateLimitDenied : String → Option JsNumber :=
  let key := writeRateLimitRepoKey rt (rt.trim actionClassInput) repoFullName
  Function.update backoffAttempts key (some (((backoffAttempts key).getD 0).add 1))

def clearWriteRateLimitBackoff : String → Option JsNumber :=
  Function.update backoffAttempts (writeRateLimitRepoKey rt (rt.trim actionClassInput) repoFullName)
    none

end Backoff

structure GovernorGateResult (Row : Type) where
  decision : GovernorDecision
  recorded : Row
  rateLimitBuckets : WriteRateLimitBucketStore
  rateLimitBackoffAttempts : String → Option JsNumber

/-- The gate; what `append` throws is thrown by it. -/
def evaluateGovernorChokepointGate {Row : Type} (rt : Runtime) (input : GovernorChokepointInput)
    (append : GovernorLedgerEvent → Except String Row) :
    Except String (GovernorGateResult Row) := do
  let decision := evaluateGovernorChokepoint rt input
  let recorded ← append decision.ledgerEvent
  if decision.stage = .allow then
    let policies := (decision.detail.effectiveRateLimitPolicies.or input.rateLimitPolicies).getD
      defaultWriteRateLimitPolicies
    return { decision := decision
             recorded := recorded
             rateLimitBuckets := recordWriteRateLimitAllowed rt input.rateLimitBuckets
               input.actionClass input.repoFullName
               input.nowMs policies
             rateLimitBackoffAttempts :=
               clearWriteRateLimitBackoff rt input.rateLimitBackoffAttempts input.actionClass
               input.repoFullName }
  else if decision.stage = .rateLimit then
    return { decision := decision
             recorded := recorded
             rateLimitBuckets := input.rateLimitBuckets
             rateLimitBackoffAttempts :=
               recordWriteRateLimitDenied rt input.rateLimitBackoffAttempts input.actionClass
               input.repoFullName }
  else return ⟨decision, recorded, input.rateLimitBuckets, input.rateLimitBackoffAttempts⟩

/-! ## Runs -/

/-- A call of the gate; the state of the rate limits in its input is that of the run. -/
structure GateCall (Row : Type) where
  input : GovernorChokepointInput
  append : GovernorLedgerEvent → Except String Row

/-- What the caller keeps, with the stages of the decisions that were logged and the writes that
were let through. -/
structure GateState where
  buckets : WriteRateLimitBucketStore
  backoffAttempts : String → Option JsNumber
  decided : List (String × GovernorDecisionStage)
  written : List WriteCall

section Runs

variable {Row : Type} (rt : Runtime)

/-- The policies of the caller. -/
def GateCall.policies (call : GateCall Row) : WriteRateLimitPolicies :=
  call.input.rateLimitPolicies.getD defaultWriteRateLimitPolicies

/-- The write that is asked for. -/
def GateCall.write (call : GateCall Row) : WriteCall where
  actionClass := call.input.actionClass
  repoFullName := call.input.repoFullName
  nowMs := call.input.nowMs.finiteOr 0
  backoffAttempts := fun _ => none
  draw := 0

/-- A call that throws leaves the state to its caller as it was, and is no permission to write. -/
def gateStep (s : GateState) (call : GateCall Row) : GateState :=
  let input :=
    { call.input with rateLimitBuckets := s.buckets, rateLimitBackoffAttempts := s.backoffAttempts }
  match evaluateGovernorChokepointGate rt input call.append with
  | .error _ => s
  | .ok result =>
    { buckets := result.rateLimitBuckets
      backoffAttempts := result.rateLimitBackoffAttempts
      decided := s.decided ++ [(call.write.repoKey rt, result.decision.stage)]
      written := s.written ++ if result.decision.allowed then [call.write] else [] }

def runGate (calls : List (GateCall Row)) : GateState :=
  calls.foldl (gateStep rt) ⟨⟨fun _ => none, fun _ => none⟩, fun _ => none, [], []⟩

/-- The attempts of a key after one more decision: none after an allowed write, one more when the
rate limit refuses. -/
def attemptsAfter (key : String) (attempts : ℕ) (decided : String × GovernorDecisionStage) : ℕ :=
  if decided.1 ≠ key then attempts
  else if decided.2 = .allow then 0
  else if decided.2 = .rateLimit then attempts + 1
  else attempts

def attemptsIn (key : String) (decided : List (String × GovernorDecisionStage)) : ℕ :=
  decided.foldl (attemptsAfter key) 0

end Runs

/-! ## The stage of a refusal -/

section Ladder

variable {calculators : GovernorCalculators} {input : GovernorChokepointInput} {α β : Type}

/-- What is thrown has another stage than an allowed write. -/
def Stops (result : Except GovernorDecision α) : Prop :=
  ∀ refused, result = .error refused → refused.stage ≠ .allow

theorem stops_ok (value : α) : Stops (.ok value) := by
  rintro refused ⟨⟩

theorem stops_error {refused : GovernorDecision} (h : refused.stage ≠ .allow) :
    Stops (.error refused : Except GovernorDecision α) := by
  rintro thrown ⟨⟩
  exact h

theorem stops_bind {x : Except GovernorDecision α} {f : α → Except GovernorDecision β}
    (hx : Stops x) (hf : ∀ value, Stops (f value)) : Stops (x >>= f) := by
  intro refused hrefused
  cases x with
  | error thrown =>
    obtain rfl := Except.error.inj hrefused
    exact hx thrown rfl
  | ok value => exact hf value refused hrefused

variable {result : Except String α} {name : String}

theorem stops_ask {detail : GovernorDecisionDetail}
    {next : α → Except GovernorDecision β} (hnext : ∀ value, Stops (next value)) :
    Stops (askCalculator input name detail result >>= next) := by
  refine stops_bind ?_ hnext
  cases result with
  | ok value => exact stops_ok value
  | error message => exact stops_error nofun

variable {passed : α → GovernorDecisionDetail} {refused : α → GovernorDecision}

/-- A check on the verdict of a calculator. -/
theorem stops_check {detail : GovernorDecisionDetail} {good : α → Prop} [DecidablePred good]
    (h : ∀ verdict, (refused verdict).stage ≠ .allow) :
    Stops (do
      let verdict ← askCalculator input name detail result
      if good verdict then return passed verdict else throw (refused verdict)) := by
  refine stops_ask fun verdict => ?_
  split_ifs
  · exact stops_ok _
  · exact stops_error (h verdict)

theorem stops_modeStage : Stops (modeStage input) := by
  unfold modeStage
  dsimp only
  split_ifs
  · exact stops_error nofun
  · exact stops_ok ()
  · exact stops_error nofun

theorem stops_reputationOf : Stops (reputationOf calculators input) := by
  unfold reputationOf
  split
  · exact stops_ok none
  · split_ifs
    · exact stops_ask fun decision => stops_ok (some decision)
    · exact stops_ok none

theorem stops_reputationStage (detail : GovernorDecisionDetail) :
    Stops (reputationStage input reputation detail) := by
  cases reputation with
  | none => exact stops_ok detail
  | some decision =>
    unfold reputationStage
    dsimp only
    split_ifs
    · exact stops_error nofun
    · exact stops_ok _

theorem stops_selfPlagiarismStage (detail : GovernorDecisionDetail) :
    Stops (selfPlagiarismStage calculators input detail) := by
  unfold selfPlagiarismStage
  split
  · exact stops_ok detail
  · split_ifs
    · exact stops_check fun _ => nofun
    · exact stops_ok detail

theorem stops_ladder : Stops (ladder calculators input) := by
  refine stops_bind stops_modeStage fun _ => stops_bind stops_reputationOf fun reputation => ?_
  refine stops_bind (stops_check fun _ => nofun) fun rated =>
    stops_bind (stops_check fun _ => nofun) fun capped => ?_
  refine stops_bind (stops_check fun _ => nofun) fun converged => ?_
  exact stops_bind (stops_reputationStage reputation converged) fun reputed =>
    stops_selfPlagiarismStage reputed

/-! ## The policies of an allowed write -/

variable {detail out : GovernorDecisionDetail}

/-- A check that is passed leaves the policies in the detail. -/
theorem check_policies {good : α → Prop}
    [DecidablePred good]
    {policies : Option WriteRateLimitPolicies}
    (h : (do
      let verdict ← askCalculator input name detail result
      if good verdict then return passed verdict else throw (refused verdict)) = .ok out)
    (hpassed : ∀ verdict, (passed verdict).effectiveRateLimitPolicies = policies) :
    out.effectiveRateLimitPolicies = policies := by
  obtain ⟨verdict, -, hout⟩ := except_bind_eq_ok.1 h
  split_ifs at hout
  obtain rfl := Except.ok.inj hout
  exact hpassed verdict

theorem reputationStage_policies {reputation : Option SelfReputationThrottleDecision}
    (h : reputationStage input reputation detail = .ok out) :
    out.effectiveRateLimitPolicies = detail.effectiveRateLimitPolicies := by
  cases reputation with
  | none =>
    obtain rfl := Except.ok.inj h
    rfl
  | some decision =>
    unfold reputationStage at h
    dsimp only at h
    split_ifs at h
    obtain rfl := Except.ok.inj h
    rfl

theorem selfPlagiarismStage_policies (h : selfPlagiarismStage calculators input detail = .ok out) :
    out.effectiveRateLimitPolicies = detail.effectiveRateLimitPolicies := by
  unfold selfPlagiarismStage at h
  split at h
  · obtain rfl := Except.ok.inj h
    rfl
  · split_ifs at h
    · exact check_policies h fun _ => rfl
    · obtain rfl := Except.ok.inj h
      rfl

/-- The policies that an allowed write is counted by are those that the rate limit was asked
with. -/
theorem ladder_policies {out : GovernorDecisionDetail} (h : ladder calculators input = .ok out) :
    out.effectiveRateLimitPolicies =
      some ((effectivePolicies input (reputationVerdict calculators input)).getD
        defaultWriteRateLimitPolicies) := by
  obtain ⟨-, -, h⟩ := except_bind_eq_ok.1 h
  obtain ⟨reputation, hreputation, h⟩ := except_bind_eq_ok.1 h
  obtain ⟨rated, hrate, h⟩ := except_bind_eq_ok.1 h
  obtain ⟨capped, hcap, h⟩ := except_bind_eq_ok.1 h
  obtain ⟨converged, hconvergence, h⟩ := except_bind_eq_ok.1 h
  obtain ⟨reputed, hfloor, hplagiarism⟩ := except_bind_eq_ok.1 h
  rw [← (reputationOf_eq_ok.1 hreputation).2]
  calc out.effectiveRateLimitPolicies = reputed.effectiveRateLimitPolicies :=
    selfPlagiarismStage_policies hplagiarism
    _ = converged.effectiveRateLimitPolicies := reputationStage_policies hfloor
    _ = capped.effectiveRateLimitPolicies := check_policies hconvergence fun _ => rfl
    _ = rated.effectiveRateLimitPolicies := check_policies hcap fun _ => rfl
    _ = _ := check_policies hrate fun _ => rfl

/-- The reputation scales the rate of a repository only. -/
theorem effectivePolicies_global (key : String) :
    policyFor ((effectivePolicies input reputation).getD defaultWriteRateLimitPolicies)
      key .global =
      policyFor (input.rateLimitPolicies.getD defaultWriteRateLimitPolicies) key .global := by
  unfold effectivePolicies
  split
  · exact policyFor_scale_global _ _ _ _
  · rfl

end Ladder

/-! ## What a call does -/

section Step

variable {Row : Type} {rt : Runtime} {policies : WriteRateLimitPolicies} {s : GateState}
  {call : GateCall Row}
  {calls : List (GateCall Row)}

/-- The state after a call that is refused at a stage. -/
def GateState.refuse (rt : Runtime) (s : GateState) (call : GateCall Row)
    (stage : GovernorDecisionStage) : GateState :=
  { s with
    backoffAttempts :=
      if stage = .rateLimit then
        recordWriteRateLimitDenied rt s.backoffAttempts call.input.actionClass
          call.input.repoFullName
      else s.backoffAttempts
    decided := s.decided ++ [(call.write.repoKey rt, stage)] }

/-- The state after an allowed write. -/
def GateState.allow (rt : Runtime) (s : GateState) (call : GateCall Row)
    (buckets : WriteRateLimitBucketStore) :
    GateState where
  buckets := buckets
  backoffAttempts :=
    clearWriteRateLimitBackoff rt s.backoffAttempts call.input.actionClass call.input.repoFullName
  decided := s.decided ++ [(call.write.repoKey rt, .allow)]
  written := s.written ++ [call.write]

/-- The write has room in the bucket of its action class, and is counted there. -/
def GateAdmits (rt : Runtime) (s : GateState) (call : GateCall Row)
    (buckets : WriteRateLimitBucketStore) : Prop :=
  (decisionIn rt call.policies s.buckets call.write .global).allowed = true ∧
    buckets.global = scopeRecord rt (scopeKey rt .global) (policyFor call.policies · .global)
      s.buckets.global call.write

/-- What a call can make of the state. -/
inductive GateStep (rt : Runtime) (s : GateState) (call : GateCall Row) : GateState → Prop
  | thrown : GateStep rt s call s
  | refused (stage : GovernorDecisionStage) (hstage : stage ≠ .allow) :
      GateStep rt s call (s.refuse rt call stage)
  | allowed (buckets : WriteRateLimitBucketStore) (hadmits : GateAdmits rt s call buckets) :
      GateStep rt s call (s.allow rt call buckets)

/-- The bucket of the action class has room for a write that is allowed. -/
theorem room_of_passes {input : GovernorChokepointInput}
    (h : EveryCheckPasses (sourceCalculators rt) input) {write : WriteCall}
    (hclass : write.actionClass = input.actionClass)
    (hrepo : write.repoFullName = input.repoFullName) (hnow : input.nowMs = .finite write.nowMs) :
    (decisionIn rt (input.rateLimitPolicies.getD defaultWriteRateLimitPolicies)
      input.rateLimitBuckets write
      .global).allowed = true := by
  have hverdict := (sourceRateLimit_allowed rt _).1 h.rateLimit
  rcases @verdictOf_cases rt
    ((effectivePolicies input (reputationVerdict (sourceCalculators rt) input)).getD
      defaultWriteRateLimitPolicies)
    input.rateLimitBuckets { write with
      backoffAttempts := input.rateLimitBackoffAttempts, draw := 0 } with
    ⟨-, hall⟩ | ⟨hrefused, -, -⟩
  · have hglobal := hall .global
    simp only [decisionIn, scopeDecision, effectivePolicies_global] at hglobal
    exact hglobal
  · rw [verdictOf, hclass, hrepo, ← hnow] at hrefused
    exact absurd (hverdict.symm.trans hrefused) (by decide)

section Exits

variable {input : GovernorChokepointInput}
  {append : GovernorLedgerEvent → Except String Row} {row : Row}

theorem gate_thrown {message : String}
    (hrow : append (evaluateGovernorChokepoint rt input).ledgerEvent = .error message) :
    evaluateGovernorChokepointGate rt input append = .error message := by
  unfold evaluateGovernorChokepointGate
  dsimp only
  rw [hrow]
  rfl

theorem gate_refused {refused : GovernorDecision}
    (hladder : ladder (sourceCalculators rt) input = .error refused)
    (hrow : append (evaluateGovernorChokepoint rt input).ledgerEvent = .ok row) :
    evaluateGovernorChokepointGate rt input append =
      .ok ⟨refused, row, input.rateLimitBuckets,
        if refused.stage = .rateLimit then
          recordWriteRateLimitDenied rt input.rateLimitBackoffAttempts input.actionClass
            input.repoFullName
        else input.rateLimitBackoffAttempts⟩ := by
  have hdecision : evaluateGovernorChokepoint rt input = refused := by
    rw [evaluateGovernorChokepoint, evaluateChokepoint, hladder]
  unfold evaluateGovernorChokepointGate
  dsimp only
  rw [hrow, hdecision]
  change (if refused.stage = .allow then _ else _) = _
  rw [if_neg (stops_ladder refused hladder)]
  split_ifs <;> rfl

theorem gate_allowed {out : GovernorDecisionDetail}
    (hladder : ladder (sourceCalculators rt) input = .ok out)
    (hrow : append (evaluateGovernorChokepoint rt input).ledgerEvent = .ok row) :
    ((evaluateGovernorChokepoint rt input).allowed = true ∧
      (evaluateGovernorChokepoint rt input).stage = .allow) ∧
    evaluateGovernorChokepointGate rt input append =
      .ok ⟨evaluateGovernorChokepoint rt input, row,
        recordWriteRateLimitAllowed rt input.rateLimitBuckets input.actionClass
          input.repoFullName input.nowMs
          ((effectivePolicies input (reputationVerdict (sourceCalculators rt) input)).getD
            defaultWriteRateLimitPolicies),
        clearWriteRateLimitBackoff rt input.rateLimitBackoffAttempts input.actionClass
          input.repoFullName⟩ := by
  unfold evaluateGovernorChokepointGate
  rw [evaluateGovernorChokepoint, evaluateChokepoint, hladder] at hrow ⊢
  refine ⟨⟨rfl, rfl⟩, ?_⟩
  dsimp only at hrow ⊢
  rw [hrow, ladder_policies hladder]
  rfl

end Exits

theorem gateStep_step (rt : Runtime) (s : GateState)
    (hnow : call.input.nowMs = .finite call.write.nowMs) :
    GateStep rt s call (gateStep rt s call) := by
  unfold gateStep
  generalize hinput : ({ call.input with
    rateLimitBuckets := s.buckets, rateLimitBackoffAttempts :=
      s.backoffAttempts } : GovernorChokepointInput) = input
  dsimp only
  cases hrow : call.append (evaluateGovernorChokepoint rt input).ledgerEvent with
  | error message =>
    rw [gate_thrown hrow]
    exact .thrown
  | ok row =>
    cases hladder : ladder (sourceCalculators rt) input with
    | error refused =>
      have hgate := gate_refused hladder hrow
      have hwritten : (s.written ++ if refused.allowed then [call.write] else []) = s.written := by
        rw [refuses_ladder refused hladder]
        exact append_nil _
      rw [hgate]
      dsimp only
      rw [hwritten]
      subst hinput
      exact .refused refused.stage (stops_ladder refused hladder)
    | ok out =>
      obtain ⟨⟨hallowed, hstage⟩, hgate⟩ := gate_allowed hladder hrow
      rw [hgate]
      dsimp only
      rw [if_pos hallowed, hstage]
      have hroom := @room_of_passes rt _ (ladder_ok.1 ⟨out, hladder⟩) call.write
      subst hinput
      refine .allowed _ ⟨hroom rfl rfl hnow, ?_⟩
      rw [recordWriteRateLimitAllowed]
      dsimp only
      rw [effectivePolicies_global, hnow]
      rfl

/-! ## What the gate keeps -/

/-- Of the rate limits only those of the action classes. -/
def globalOnly (policies : WriteRateLimitPolicies) : WriteRateLimitPolicies :=
  { policies with perRepo := fun _ => some ⟨1, 0⟩ }

/-- A window without a length has room for every write. -/
theorem globalOnly_perRepo {written : List WriteCall} {write : WriteCall}
    (hclock : written.Pairwise fun a b => a.nowMs ≤ b.nowMs)
    (hnow : ∀ earlier ∈ written, earlier.nowMs ≤ write.nowMs) :
    (decisionIn rt (globalOnly policies) (runWrites rt (globalOnly policies) written).buckets write
      .perRepo).allowed = true := by
  have hwindow : (⟨1, 0⟩ : LocalRateLimitConfig).window = 0 := by decide +kernel
  obtain ⟨bucket, hbucket, hcounts⟩ := @runWrites_counts rt (globalOnly policies)
    (fun _ => (⟨1, 0⟩ : LocalRateLimitConfig).window) written .perRepo hclock (fun _ _ => rfl)
      write.nowMs hnow
    (scopeKey rt .perRepo write)
  rw [decisionIn, scopeDecision_allowed_iff hbucket]
  change (Window.current (⟨1, 0⟩ : LocalRateLimitConfig).window write.nowMs bucket).count <
    (⟨1, 0⟩ : LocalRateLimitConfig).ceiling
  have hzero : (Window.current (⟨1, 0⟩ : LocalRateLimitConfig).window write.nowMs bucket).count =
      0 := by
    cases bucket with
    | none => rfl
    | some b =>
      refine Window.current_count_of_le ?_
      rw [hwindow, add_zero]
      exact hcounts.started b rfl
  rw [hzero]
  decide +kernel

/-- What the state says of the calls until now. -/
structure GateKeeps (rt : Runtime) (policies : WriteRateLimitPolicies) (calls : List (GateCall Row))
    (s : GateState) :
    Prop where
  sublist : s.written.Sublist (calls.map GateCall.write)
  written : (runWrites rt (globalOnly policies) s.written).written = s.written
  buckets : (runWrites rt (globalOnly policies) s.written).buckets.global = s.buckets.global
  attempts : ∀ key, (s.backoffAttempts key).getD 0 = .finite (attemptsIn key s.decided)

theorem attemptsIn_concat (key : String) (decided : List (String × GovernorDecisionStage))
    (last : String × GovernorDecisionStage) :
    attemptsIn key (decided ++ [last]) = attemptsAfter key (attemptsIn key decided) last :=
  foldl_concat ..

theorem GateKeeps.refused (h : GateKeeps rt policies calls s) {stage : GovernorDecisionStage}
    (hstage : stage ≠ .allow) :
    GateKeeps rt policies (calls ++ [call]) (s.refuse rt call stage) where
  sublist := h.sublist.trans (by simp)
  written := h.written
  buckets := h.buckets
  attempts key := by
    have hbefore := h.attempts key
    have hdenied : recordWriteRateLimitDenied rt s.backoffAttempts call.input.actionClass
      call.input.repoFullName =
      Function.update s.backoffAttempts (call.write.repoKey rt) _ := rfl
    rw [GateState.refuse, attemptsIn_concat, attemptsAfter, if_neg hstage, hdenied]
    dsimp only
    split_ifs with hrate hkey hkey
    · rwa [Function.update_of_ne (Ne.symm hkey)]
    · obtain rfl := not_not.1 hkey
      rw [Function.update_self, Option.getD_some]
      exact (congrArg (JsNumber.add · 1) hbefore).trans
        (congrArg JsNumber.finite (by push_cast; rfl))
    · exact hbefore
    · exact hbefore

theorem GateKeeps.allowed (h : GateKeeps rt policies calls s) (hpolicies : call.policies = policies)
    (hclock : (calls ++ [call]).Pairwise fun a b => a.write.nowMs ≤ b.write.nowMs)
    {buckets : WriteRateLimitBucketStore} (hadmits : GateAdmits rt s call buckets) :
    GateKeeps rt policies (calls ++ [call]) (s.allow rt call buckets) := by
  subst hpolicies
  have hwrites : ((calls ++ [call]).map GateCall.write).Pairwise fun a b => a.nowMs ≤ b.nowMs :=
    pairwise_map.2 hclock
  have hlater : (s.written ++ [call.write]).Pairwise fun a b => a.nowMs ≤ b.nowMs := by
    refine hwrites.sublist ?_
    rw [map_append]
    exact h.sublist.append (List.Sublist.refl _)
  obtain ⟨hpast, hnow⟩ := clock_concat hlater
  -- the rate limits alone let the write through as well
  have hverdict : (verdictOf rt (globalOnly call.policies)
      (runWrites rt (globalOnly call.policies) s.written).buckets
      call.write).allowed = true := by
    rcases @verdictOf_cases rt (globalOnly call.policies)
      (runWrites rt (globalOnly call.policies) s.written).buckets call.write with ⟨hallowed, -⟩ |
        ⟨-, hnot, -⟩
    · exact hallowed
    · refine absurd ?_ hnot
      rintro (_ | _)
      · rw [decisionIn, scopeTable, h.buckets]
        exact hadmits.1
      · exact globalOnly_perRepo hpast hnow
  have hrun : runWrites rt (globalOnly call.policies) (s.written ++ [call.write]) = _ :=
    (runWrites_concat s.written call.write).trans (if_pos hverdict)
  refine ⟨?_, ?_, ?_, fun key => ?_⟩
  · rw [map_append]
    exact h.sublist.append (List.Sublist.refl _)
  · rw [GateState.allow, hrun]
    exact congrArg (· ++ [call.write]) h.written
  · change _ = buckets.global
    rw [GateState.allow, hrun, hadmits.2, ← h.buckets]
    rfl
  · have hbefore := h.attempts key
    have hclear : clearWriteRateLimitBackoff rt s.backoffAttempts call.input.actionClass
      call.input.repoFullName =
      Function.update s.backoffAttempts (call.write.repoKey rt) none := rfl
    rw [GateState.allow, attemptsIn_concat, attemptsAfter, if_pos rfl, hclear]
    dsimp only
    split_ifs with hkey
    · rwa [Function.update_of_ne (Ne.symm hkey)]
    · rw [not_not.1 hkey, Function.update_self]
      exact congrArg JsNumber.finite Nat.cast_zero.symm

theorem runGate_concat (calls : List (GateCall Row)) (call : GateCall Row) :
    runGate rt (calls ++ [call]) = gateStep rt (runGate rt calls) call :=
  foldl_concat ..

/-- The calls of a run, with the policies of the caller and a clock that is finite and does not go
back. -/
structure GateRun (policies : WriteRateLimitPolicies) (calls : List (GateCall Row)) : Prop where
  policies : ∀ call ∈ calls, call.policies = policies
  finite : ∀ call ∈ calls, call.input.nowMs = .finite call.write.nowMs
  clock : calls.Pairwise fun a b => a.write.nowMs ≤ b.write.nowMs

theorem GateRun.of_append {later : List (GateCall Row)} (h : GateRun policies (calls ++ later)) :
    GateRun policies calls :=
  ⟨fun call hcall => h.policies call (mem_append_left _ hcall),
    fun call hcall => h.finite call (mem_append_left _ hcall), (pairwise_append.1 h.clock).1⟩

theorem runGate_keeps (h : GateRun policies calls) :
    GateKeeps rt policies calls (runGate rt calls) := by
  induction calls using List.reverseRecOn with
  | nil =>
    exact ⟨List.Sublist.refl _, rfl, rfl, fun _ => congrArg JsNumber.finite Nat.cast_zero.symm⟩
  | append_singleton calls call ih =>
    have hkeeps := ih h.of_append
    have hmem : call ∈ calls ++ [call] := mem_append_right _ mem_cons_self
    have hstep := gateStep_step rt (runGate rt calls) (h.finite call hmem)
    rw [runGate_concat]
    generalize gateStep rt (runGate rt calls) call = next at hstep ⊢
    generalize runGate rt calls = s at hkeeps hstep
    cases hstep with
    | thrown =>
      exact ⟨hkeeps.sublist.trans (by simp), hkeeps.written, hkeeps.buckets, hkeeps.attempts⟩
    | refused stage hstage => exact hkeeps.refused hstage
    | allowed buckets hadmits => exact hkeeps.allowed (h.policies call hmem) h.clock hadmits

/-- What was written stays written. -/
theorem runGate_written_append (h : GateRun policies calls) {earlier : List (GateCall Row)}
    (hearlier : earlier <+: calls) :
    (runGate rt earlier).written <+: (runGate rt calls).written := by
  obtain ⟨rest, rfl⟩ := hearlier
  induction rest using List.reverseRecOn with
  | nil => simp only [append_nil, prefix_rfl]
  | append_singleton rest call ih =>
    rw [← append_assoc] at h ⊢
    refine (ih h.of_append).trans ?_
    have hstep := gateStep_step rt (runGate rt (earlier ++ rest)) (h.finite call (by simp))
    rw [runGate_concat]
    generalize gateStep rt (runGate rt (earlier ++ rest)) call = next at hstep ⊢
    generalize runGate rt (earlier ++ rest) = s at hstep ⊢
    cases hstep with
    | thrown => exact prefix_rfl
    | refused => exact prefix_rfl
    | allowed => exact prefix_append _ _

/-- **The gate bounds the writes** of an action class, and counts the refusals of a key. -/
theorem gate_bounds_writes (rt : Runtime) (policies : WriteRateLimitPolicies)
    (calls : List (GateCall Row)) (h : GateRun policies calls) :
    (∀ earlier, earlier <+: calls → ∀ actionClass bucket,
      (runGate rt earlier).buckets.global (rt.trim actionClass) = some bucket →
        ∃ start, bucket.windowStartMs = .finite start ∧
          (writesDuring start (policyFor policies (rt.trim actionClass) .global).window
            ((runGate rt calls).written.filter fun write =>
              rt.trim write.actionClass = rt.trim actionClass)).length ≤
              (policyFor policies (rt.trim actionClass) .global).ceiling) ∧
      ∀ key, ((runGate rt calls).backoffAttempts key).getD 0 =
        .finite (attemptsIn key (runGate rt calls).decided) := by
  have hkeeps : GateKeeps rt policies calls (runGate rt calls) := runGate_keeps h
  refine ⟨fun earlier hearlier actionClass bucket hbucket => ?_, hkeeps.attempts⟩
  have hpast : GateRun policies earlier := by
    obtain ⟨rest, rfl⟩ := hearlier
    exact h.of_append
  have hwrites : (calls.map GateCall.write).Pairwise fun a b => a.nowMs ≤ b.nowMs :=
    pairwise_map.2 h.clock
  have hclock : (runGate rt calls).written.Pairwise fun a b => a.nowMs ≤ b.nowMs :=
    hwrites.sublist hkeeps.sublist
  rw [← (runGate_keeps hpast).buckets] at hbucket
  have hbounded := @writes_bounded rt (globalOnly policies)
    (fun key => (policyFor policies key .global).window) _ .global hclock (fun _ _ => rfl)
    _ (runGate_written_append h hearlier) (rt.trim actionClass) (rt.trim actionClass) _ hbucket
    (fun write => rt.trim write.actionClass = rt.trim actionClass)
    fun write hwrite => ⟨of_decide_eq_true hwrite, of_decide_eq_true hwrite⟩
  rwa [hkeeps.written] at hbounded

/-- Two pull requests, of which the second is a second later. -/
theorem gate_bounds_writes_two :
    ((runGate asciiRuntime [⟨firstWrite, Except.ok⟩,
      ⟨{ firstWrite with nowMs := 2000 }, Except.ok⟩]).backoffAttempts
        "open_pr:acme/widgets").getD 0 =
      .finite (attemptsIn "open_pr:acme/widgets"
        (runGate asciiRuntime [⟨firstWrite, Except.ok⟩,
          ⟨{ firstWrite with nowMs := 2000 }, Except.ok⟩]).decided) :=
  (gate_bounds_writes asciiRuntime defaultWriteRateLimitPolicies
    [⟨firstWrite, Except.ok⟩, ⟨{ firstWrite with nowMs := 2000 }, Except.ok⟩]
    ⟨by simp [GateCall.policies, firstWrite],
      by simp [GateCall.write, firstWrite]; exact ⟨rfl, rfl⟩,
      by simp [GateCall.write, firstWrite]; decide +kernel⟩).2 "open_pr:acme/widgets"

end Step

end LoopOver
