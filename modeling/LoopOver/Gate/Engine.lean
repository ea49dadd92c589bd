import LoopOver.Gate.Host

/-!
# The gate of the engine package

The copy of the gate in `packages/loopover-engine/src/advisory/gate-advisory.ts`. It is meant to
agree with the host's, and it does for every finding but one: a linked issue that another pull
request has superseded blocks in the host under a blocking linked-issue gate and is not known here.

* `isConfiguredGateBlocker_eq_host` compares the two copies finding by finding.
* `gate_parity_iff` says on which inputs the two evaluations agree.
-/

namespace LoopOver

namespace Engine

def gatePolicyBlocks (mode : Option GateRuleMode) (defaultMode : GateRuleMode) : Bool :=
  gateModeOr mode defaultMode == .block

/-- An AI finding blocks with the review, except below the floor. -/
def aiFindingBlocks (finding : AdvisoryFinding) (policy : GateCheckPolicy) : Bool :=
  if !gatePolicyBlocks policy.aiReviewGateMode .advisory then false
  else if belowAdvisoryFloor finding policy then false
  else true

def isConfiguredGateBlocker (finding : AdvisoryFinding) (policy : GateCheckPolicy) : Bool :=
  let code := finding.code
  if code = "missing_linked_issue" then gatePolicyBlocks policy.linkedIssueGateMode .advisory
  else if code = "duplicate_pr_risk" then gatePolicyBlocks policy.duplicatePrGateMode .advisory
  else if code = "duplicate_pr_risk_unconfirmed" then false
  else if code = "ai_consensus_defect" ∨ code = "ai_review_split" then
    aiFindingBlocks finding policy
  else if code = "review_thread_unresolved" then true
  else if code = "secret_leak" then true
  else if code = "pre_merge_check_required" then true
  else if code = "manifest_missing_tests" then gatePolicyBlocks policy.manifestPolicyGateMode .off
  else if code = "manifest_linked_issue_required" then
    gatePolicyBlocks policy.manifestPolicyGateMode .off ||
      gatePolicyBlocks policy.linkedIssueGateMode .advisory
  else if code = "self_authored_linked_issue" then
    gatePolicyBlocks policy.selfAuthoredLinkedIssueGateMode .advisory
  else if code = "linked_issue_scope_mismatch" then
    gatePolicyBlocks policy.linkedIssueSatisfactionGateMode .advisory
  else if code = "content_lane_deliverable_missing" then
    gatePolicyBlocks policy.contentLaneDeliverableGateMode .off
  else if code = "backtest_regression" then
    gatePolicyBlocks policy.backtestRegressionGateMode .advisory
  else if code = "lockfile_tamper_risk" then gatePolicyBlocks policy.lockfileIntegrityGateMode .off
  else if code = "cla_consent_missing" then gatePolicyBlocks policy.claGateMode .off
  else false

/-- Here a quality mode that is not set reaches `gateMode` as it is. -/
def buildQualityGateWarning (policy : GateCheckPolicy) : Option AdvisoryFinding :=
  qualityWarning (gateMode policy.qualityGateMode) policy

/-- The engine's copy. -/
def rules : GateRules where
  isConfiguredGateBlocker := isConfiguredGateBlocker
  buildQualityGateWarning := buildQualityGateWarning
  isDuplicateOnly code := code == "duplicate_pr_risk"

def evaluateGateCheck (text : GateText) (findings : List AdvisoryFinding)
    (policy : GateCheckPolicy) :
    GateCheckEvaluation :=
  rules.evaluateGateCheck text findings policy

end Engine

/-! ## What the copies have in common -/

theorem buildQualityGateWarning_eq_host (policy : GateCheckPolicy) :
    Engine.buildQualityGateWarning policy = Host.buildQualityGateWarning policy := by
  -- a mode that is not set reads as `block` here and as `advisory` there, and neither is `off`
  cases hmode : policy.qualityGateMode <;>
    simp [Engine.buildQualityGateWarning, Host.buildQualityGateWarning, qualityWarning, gateMode,
      hmode]

theorem isDuplicateOnly_eq_host : Engine.rules.isDuplicateOnly = Host.rules.isDuplicateOnly := by
  funext code
  simp [Engine.rules, Host.rules, Host.duplicateOnlyBlockerCodes, Bool.beq_eq_decide_eq]

theorem aiFindingBlocks_eq_host (finding : AdvisoryFinding) (policy : GateCheckPolicy) :
    Engine.aiFindingBlocks finding policy = (Host.aiFindingMode finding policy == .block) := by
  unfold Engine.aiFindingBlocks Engine.gatePolicyBlocks Host.aiFindingMode
  cases gateModeOr policy.aiReviewGateMode .advisory <;>
    cases belowAdvisoryFloor finding policy <;> rfl

theorem manifestLinkedIssueMode_eq_block (policy : GateCheckPolicy) :
    (Host.manifestLinkedIssueMode policy == .block) =
      (Engine.gatePolicyBlocks policy.manifestPolicyGateMode .off ||
        Engine.gatePolicyBlocks policy.linkedIssueGateMode .advisory) := by
  simp only [Engine.gatePolicyBlocks, Host.manifestLinkedIssueMode]
  cases gateModeOr policy.manifestPolicyGateMode .off <;>
    cases gateModeOr policy.linkedIssueGateMode .advisory <;> rfl

/-- The two copies block on the same findings, except on a superseded linked issue. -/
theorem isConfiguredGateBlocker_eq_host (finding : AdvisoryFinding) (policy : GateCheckPolicy) :
    Engine.isConfiguredGateBlocker finding policy =
      (Host.isConfiguredGateBlocker finding policy &&
        finding.code != "linked_issue_superseded") := by
  by_cases hcode : finding.code = "linked_issue_superseded"
  · simp [Engine.isConfiguredGateBlocker, hcode]
  · have hne : (finding.code != "linked_issue_superseded") = true := by simpa using hcode
    have hoff : (GateRuleMode.off == GateRuleMode.block) = false := rfl
    have hblock : (GateRuleMode.block == GateRuleMode.block) = true := rfl
    -- the test for `block` moves to the ends of the host's chain, which is then the engine's
    simp only [Engine.isConfiguredGateBlocker, Host.isConfiguredGateBlocker,
      Host.resolveConfiguredGateMode, hcode, if_false, hne, Bool.and_true, aiFindingBlocks_eq_host,
      ← manifestLinkedIssueMode_eq_block, apply_ite (· == GateRuleMode.block), hoff, hblock]
    rfl

/-! ## Parity -/

/-- The same verdict, before and after a dry run, over the same findings. -/
structure GateCheckEvaluation.Agrees (a b : GateCheckEvaluation) : Prop where
  conclusion : a.conclusion = b.conclusion
  displayConclusion : a.displayConclusion = b.displayConclusion
  blockers : a.blockers = b.blockers
  warnings : a.warnings = b.warnings

/-- A superseded linked issue blocks the host's gate: the pull request can be evaluated, and the
linked-issue gate in force is `block`. -/
structure SupersededBlocks (findings : List AdvisoryFinding) (policy : GateCheckPolicy) : Prop where
  evaluated : (findings.any fun finding => isEvaluationBlocker finding.code policy) = false
  blocking : (applyMergeReadinessGate policy).linkedIssueGateMode = some .block
  superseded : ∃ finding ∈ findings, finding.code = "linked_issue_superseded"

variable {findings : List AdvisoryFinding} {policy : GateCheckPolicy}

theorem supersededBlocks_promote :
    SupersededBlocks findings (promoteAdvisoryToBlock policy) ↔
      SupersededBlocks findings policy := by
  have hmode : (applyMergeReadinessGate (promoteAdvisoryToBlock policy)).linkedIssueGateMode =
      (applyMergeReadinessGate policy).linkedIssueGateMode := by
    rw [applyMergeReadinessGate_linkedIssueGateMode, applyMergeReadinessGate_linkedIssueGateMode]
    rfl
  constructor
  · rintro ⟨hevaluated, hblocking, hsuperseded⟩
    exact ⟨hevaluated, hmode ▸ hblocking, hsuperseded⟩
  · rintro ⟨hevaluated, hblocking, hsuperseded⟩
    exact ⟨hevaluated, hmode.trans hblocking, hsuperseded⟩

theorem Host.isConfiguredGateBlocker_superseded {finding : AdvisoryFinding}
    (hcode : finding.code = "linked_issue_superseded") :
    Host.isConfiguredGateBlocker finding policy = true ↔
      policy.linkedIssueGateMode = some .block := by
  simp [Host.isConfiguredGateBlocker, Host.resolveConfiguredGateMode, hcode, Option.getD_eq_iff]

/-- Without a superseded finding that blocks, the two copies agree in everything. -/
theorem core_eq_host (text : GateText) (h : ¬SupersededBlocks findings policy) :
    Engine.rules.evaluateGateCheckCore text findings policy =
      Host.rules.evaluateGateCheckCore text findings policy := by
  cases hevaluated : findings.any fun finding => isEvaluationBlocker finding.code policy with
  | true => simp [GateRules.evaluateGateCheckCore, hevaluated]
  | false =>
    refine GateRules.evaluateGateCheckCore_congr (funext buildQualityGateWarning_eq_host)
      isDuplicateOnly_eq_host fun finding hmem => ?_
    change Engine.isConfiguredGateBlocker finding _ = Host.isConfiguredGateBlocker finding _
    rw [isConfiguredGateBlocker_eq_host]
    by_cases hcode : finding.code = "linked_issue_superseded"
    · have hhost : Host.isConfiguredGateBlocker finding
          (applyMergeReadinessGate policy) = false := by
        refine Bool.eq_false_iff.2 fun hblocks => h ⟨hevaluated, ?_, finding, hmem, hcode⟩
        exact (Host.isConfiguredGateBlocker_superseded hcode).1 hblocks
      simp [hhost]
    · simp [hcode]

/-- No blocker of the engine's gate is a superseded linked issue. -/
theorem Engine.code_ne_of_mem_blockers {finding : AdvisoryFinding}
    (h : finding ∈ Engine.rules.blockers findings policy) :
    finding.code ≠ "linked_issue_superseded" := by
  rcases List.mem_append.1 h with hconfigured | hslop
  · have hblocks : Engine.isConfiguredGateBlocker finding policy = true :=
      (List.mem_filter.1 hconfigured).2
    rw [isConfiguredGateBlocker_eq_host, Bool.and_eq_true, bne_iff_ne] at hblocks
    exact hblocks.2
  · simp only [buildSlopGateBlocker, Option.mem_toList] at hslop
    split at hslop
    · cases hslop
    · split at hslop
      · cases hslop
      · split at hslop
        · cases hslop
        · obtain rfl := Option.some.inj hslop
          simp

/-- **The two gates agree exactly when no superseded linked issue blocks the host's.** -/
theorem gate_parity_iff (text : GateText) (findings : List AdvisoryFinding)
    (policy : GateCheckPolicy) :
    (Engine.evaluateGateCheck text findings policy).Agrees
        (Host.evaluateGateCheck text findings policy) ↔
      ¬SupersededBlocks findings policy := by
  constructor
  · rintro hagrees ⟨hevaluated, hblocking, finding, hmem, hcode⟩
    have hfinding : finding ∈ Host.rules.blockers findings (applyMergeReadinessGate policy) := by
      refine List.mem_append_left _ (List.mem_filter.2 ⟨hmem, ?_⟩)
      exact (Host.isConfiguredGateBlocker_superseded hcode).2 hblocking
    -- the host fails and lists the finding, the engine never does
    have hother : ((Host.rules.blockers findings (applyMergeReadinessGate policy)).all
        fun blocker => Host.rules.isDuplicateOnly blocker.code) = false := by
      refine Bool.eq_false_iff.2 fun hall => ?_
      have hduplicate := List.all_eq_true.1 hall finding hfinding
      rw [hcode] at hduplicate
      exact absurd hduplicate (by decide)
    have hhost : (Host.rules.evaluateGateCheck text findings policy).blockers =
        Host.rules.blockers findings (applyMergeReadinessGate policy) :=
      GateRules.evaluation_blockers_eq text hevaluated (List.ne_nil_of_mem hfinding) hother
    have hsame : (Engine.rules.evaluateGateCheck text findings policy).blockers =
        (Host.rules.evaluateGateCheck text findings policy).blockers := hagrees.blockers
    have hlisted : finding ∈ (Engine.rules.evaluateGateCheck text findings policy).blockers := by
      rw [hsame, hhost]
      exact hfinding
    exact Engine.code_ne_of_mem_blockers (GateRules.mem_blockers_of_mem_evaluation hlisted) hcode
  · intro h
    have hcore := core_eq_host text h
    have hpromoted := core_eq_host text (mt supersededBlocks_promote.1 h)
    have heq : Engine.rules.evaluateGateCheck text findings policy =
        Host.rules.evaluateGateCheck text findings policy := by
      simp only [GateRules.evaluateGateCheck, hcore, hpromoted]
    simp only [Engine.evaluateGateCheck, Host.evaluateGateCheck, heq]
    exact ⟨rfl, rfl, rfl, rfl⟩

/-- Texts as they are, and no number printed. -/
def plainGateText : GateText where
  sanitizeForCheckRun s := s
  numberText _ := ""

def supersededFinding : AdvisoryFinding where
  code := "linked_issue_superseded"
  title := "Linked issue was superseded"
  severity := .warning
  detail := "Another pull request closes the linked issue."

/-- A superseded linked issue fails the host's gate and passes the engine's. -/
theorem gate_parity_superseded :
    ¬(Engine.evaluateGateCheck plainGateText [supersededFinding]
        { linkedIssueGateMode := some .block }).Agrees
      (Host.evaluateGateCheck plainGateText [supersededFinding]
        { linkedIssueGateMode := some .block }) := by
  intro h
  have hconclusion := h.conclusion
  revert hconclusion
  decide

end LoopOver
