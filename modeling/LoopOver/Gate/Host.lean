import LoopOver.Gate.Policy

/-!
# The gate of the host

The copy of the gate in `src/rules/advisory.ts`, and how strict it is: more findings or a stricter
mode never turn a gate that did not pass into one that passes.

* `resolveConfiguredGateMode` is the mode of a finding under a policy.
* `GateCheckPolicy.AtLeast` orders policies by the modes in force, and every stage of the evaluation
  is monotone in it.
* `gate_strict` is the monotonicity of the whole gate.
-/

namespace LoopOver

open List

def confidenceWhenUnstated : JsNumber := .finite (1 / 2)
def defaultAiReviewCloseConfidence : JsNumber := .finite (93 / 100)

/-- The disposition that drops an AI finding whose confidence is below the floor. -/
def belowAdvisoryFloor (finding : AdvisoryFinding) (policy : GateCheckPolicy) : Bool :=
  policy.aiReviewLowConfidenceDisposition.getD .holdForReview == .advisoryOnly &&
    (finding.confidence.getD confidenceWhenUnstated).lt
      (policy.aiReviewCloseConfidence.getD defaultAiReviewCloseConfidence)

namespace Host

/-- The mode of an AI finding: the review's own, except below the floor. -/
def aiFindingMode (finding : AdvisoryFinding) (policy : GateCheckPolicy) : GateRuleMode :=
  let mode := gateModeOr policy.aiReviewGateMode .advisory
  if mode ≠ .block then mode
  else if belowAdvisoryFloor finding policy then .advisory
  else .block

/-- The stricter of the manifest's mode and the linked-issue mode. -/
def manifestLinkedIssueMode (policy : GateCheckPolicy) : GateRuleMode :=
  let manifest := gateModeOr policy.manifestPolicyGateMode .off
  let linked := gateModeOr policy.linkedIssueGateMode .advisory
  if manifest = .block ∨ linked = .block then .block
  else if manifest = .advisory ∨ linked = .advisory then .advisory
  else .off

/-- The mode of a finding: block, advise, or do nothing. -/
def resolveConfiguredGateMode (finding : AdvisoryFinding) (policy : GateCheckPolicy) :
    GateRuleMode :=
  let code := finding.code
  if code = "missing_linked_issue" then gateModeOr policy.linkedIssueGateMode .advisory
  else if code = "linked_issue_superseded" then gateModeOr policy.linkedIssueGateMode .advisory
  else if code = "duplicate_pr_risk" then gateModeOr policy.duplicatePrGateMode .advisory
  else if code = "duplicate_pr_risk_unconfirmed" then .off
  else if code = "ai_consensus_defect" ∨ code = "ai_review_split" then aiFindingMode finding policy
  else if code = "review_thread_unresolved" then .block
  else if code = "secret_leak" then .block
  else if code = "pre_merge_check_required" then .block
  else if code = "manifest_missing_tests" then gateModeOr policy.manifestPolicyGateMode .off
  else if code = "manifest_linked_issue_required" then manifestLinkedIssueMode policy
  else if code = "self_authored_linked_issue" then
    gateModeOr policy.selfAuthoredLinkedIssueGateMode .advisory
  else if code = "linked_issue_scope_mismatch" then
    gateModeOr policy.linkedIssueSatisfactionGateMode .advisory
  else if code = "content_lane_deliverable_missing" then
    gateModeOr policy.contentLaneDeliverableGateMode .off
  else if code = "backtest_regression" then gateModeOr policy.backtestRegressionGateMode .advisory
  else if code = "lockfile_tamper_risk" then gateModeOr policy.lockfileIntegrityGateMode .off
  else if code = "cla_consent_missing" then gateModeOr policy.claGateMode .off
  else .off

def isConfiguredGateBlocker (finding : AdvisoryFinding) (policy : GateCheckPolicy) : Bool :=
  resolveConfiguredGateMode finding policy == .block

def buildQualityGateWarning (policy : GateCheckPolicy) : Option AdvisoryFinding :=
  qualityWarning (gateModeOr policy.qualityGateMode .advisory) policy

def duplicateOnlyBlockerCodes : List String := ["duplicate_pr_risk"]

/-- The host's copy. -/
def rules : GateRules where
  isConfiguredGateBlocker := isConfiguredGateBlocker
  buildQualityGateWarning := buildQualityGateWarning
  isDuplicateOnly code := duplicateOnlyBlockerCodes.contains code

/-- The host keeps the inputs of the evaluation for a replay. -/
def evaluateGateCheck (text : GateText) (findings : List AdvisoryFinding)
    (policy : GateCheckPolicy) :
    GateCheckEvaluation :=
  { rules.evaluateGateCheck text findings policy with replay := some ⟨findings, policy⟩ }

end Host

/-! ## Stricter policies -/

namespace GateRuleMode

def rank : GateRuleMode → ℕ
  | off => 0
  | advisory => 1
  | block => 2

/-- `off ≤ advisory ≤ block`. -/
instance : LE GateRuleMode := ⟨fun a b => a.rank ≤ b.rank⟩

instance (a b : GateRuleMode) : Decidable (a ≤ b) := inferInstanceAs (Decidable (a.rank ≤ b.rank))

protected theorem le_refl (a : GateRuleMode) : a ≤ a := Nat.le_refl a.rank

theorem eq_block_of_le {a b : GateRuleMode} (h : a ≤ b) (ha : a = .block) : b = .block := by
  subst ha
  revert h
  cases b <;> decide

theorem ne_off_of_le {a b : GateRuleMode} (h : a ≤ b) (ha : a ≠ .off) : b ≠ .off := by
  rintro rfl
  revert h ha
  cases a <;> decide

end GateRuleMode

/-- The sub-gates that have a mode of their own. -/
inductive SubGate
  | linkedIssue
  | duplicatePr
  | quality
  | aiReview
  | slop
  | manifestPolicy
  | selfAuthoredLinkedIssue
  | linkedIssueSatisfaction
  | contentLaneDeliverable
  | backtestRegression
  | cla
  | size
  | lockfileIntegrity
  deriving DecidableEq

/-- The mode of a sub-gate that is not set. -/
def SubGate.defaultMode : SubGate → GateRuleMode
  | manifestPolicy | contentLaneDeliverable | cla | size | lockfileIntegrity => .off
  | linkedIssue | duplicatePr | quality | aiReview | slop | selfAuthoredLinkedIssue
  | linkedIssueSatisfaction | backtestRegression => .advisory

/-- The sub-gates that the merge-readiness composite overrides. -/
def SubGate.isComposed : SubGate → Bool
  | linkedIssue | duplicatePr | slop => true
  | _ => false

variable {policy : GateCheckPolicy}

namespace GateCheckPolicy

def mode (policy : GateCheckPolicy) : SubGate → Option GateRuleMode
  | .linkedIssue => policy.linkedIssueGateMode
  | .duplicatePr => policy.duplicatePrGateMode
  | .quality => policy.qualityGateMode
  | .aiReview => policy.aiReviewGateMode
  | .slop => policy.slopGateMode
  | .manifestPolicy => policy.manifestPolicyGateMode
  | .selfAuthoredLinkedIssue => policy.selfAuthoredLinkedIssueGateMode
  | .linkedIssueSatisfaction => policy.linkedIssueSatisfactionGateMode
  | .contentLaneDeliverable => policy.contentLaneDeliverableGateMode
  | .backtestRegression => policy.backtestRegressionGateMode
  | .cla => policy.claGateMode
  | .size => policy.sizeGateMode
  | .lockfileIntegrity => policy.lockfileIntegrityGateMode

/-- The policy with one mode changed. -/
def setMode (policy : GateCheckPolicy) (gate : SubGate) (mode : Option GateRuleMode) :
    GateCheckPolicy :=
  match gate with
  | .linkedIssue => { policy with linkedIssueGateMode := mode }
  | .duplicatePr => { policy with duplicatePrGateMode := mode }
  | .quality => { policy with qualityGateMode := mode }
  | .aiReview => { policy with aiReviewGateMode := mode }
  | .slop => { policy with slopGateMode := mode }
  | .manifestPolicy => { policy with manifestPolicyGateMode := mode }
  | .selfAuthoredLinkedIssue => { policy with selfAuthoredLinkedIssueGateMode := mode }
  | .linkedIssueSatisfaction => { policy with linkedIssueSatisfactionGateMode := mode }
  | .contentLaneDeliverable => { policy with contentLaneDeliverableGateMode := mode }
  | .backtestRegression => { policy with backtestRegressionGateMode := mode }
  | .cla => { policy with claGateMode := mode }
  | .size => { policy with sizeGateMode := mode }
  | .lockfileIntegrity => { policy with lockfileIntegrityGateMode := mode }

/-- The mode of a sub-gate with its default. -/
def modeInForce (policy : GateCheckPolicy) (gate : SubGate) : GateRuleMode :=
  gateModeOr (policy.mode gate) gate.defaultMode

/-- What is left of a policy without its modes. -/
def settings (policy : GateCheckPolicy) : GateCheckPolicy :=
  { policy with
    linkedIssueGateMode := none
    duplicatePrGateMode := none
    qualityGateMode := none
    aiReviewGateMode := none
    slopGateMode := none
    manifestPolicyGateMode := none
    selfAuthoredLinkedIssueGateMode := none
    linkedIssueSatisfactionGateMode := none
    contentLaneDeliverableGateMode := none
    backtestRegressionGateMode := none
    claGateMode := none
    sizeGateMode := none
    lockfileIntegrityGateMode := none }

/-- `strict` differs from `loose` in its modes only, and none of them is looser. -/
structure AtLeast (strict loose : GateCheckPolicy) : Prop where
  modes : ∀ gate, loose.modeInForce gate ≤ strict.modeInForce gate
  settings_eq : strict.settings = loose.settings

protected theorem AtLeast.refl (policy : GateCheckPolicy) : policy.AtLeast policy :=
  ⟨fun _ => GateRuleMode.le_refl _, rfl⟩

theorem mode_setMode (policy : GateCheckPolicy) (gate other : SubGate)
    (mode : Option GateRuleMode) :
    (policy.setMode gate mode).mode other = if other = gate then mode else policy.mode other := by
  cases gate <;> cases other <;> rfl

/-- Raising one mode makes a policy stricter. -/
theorem atLeast_setMode {gate : SubGate} {mode : Option GateRuleMode}
    (h : policy.modeInForce gate ≤ gateModeOr mode gate.defaultMode) :
    (policy.setMode gate mode).AtLeast policy := by
  refine ⟨fun other => ?_, by cases gate <;> rfl⟩
  rw [modeInForce, modeInForce, mode_setMode]
  split
  · next hother =>
    subst hother
    exact h
  · exact GateRuleMode.le_refl _

theorem mode_applyMergeReadinessGate (policy : GateCheckPolicy) (gate : SubGate) :
    (applyMergeReadinessGate policy).mode gate =
      if gate.isComposed then compositeOr policy.mergeReadinessGateMode (policy.mode gate)
      else policy.mode gate := by
  unfold applyMergeReadinessGate compositeOr
  dsimp only
  split <;> cases gate <;> rfl

theorem settings_applyMergeReadinessGate (policy : GateCheckPolicy) :
    (applyMergeReadinessGate policy).settings = policy.settings := by
  unfold applyMergeReadinessGate
  dsimp only
  split <;> rfl

variable {strict loose : GateCheckPolicy}

/-- What does not depend on the modes is the same. -/
theorem AtLeast.setting_eq (h : strict.AtLeast loose) {β : Type} (setting : GateCheckPolicy → β)
    (hsetting : ∀ policy, setting policy.settings = setting policy) :
    setting strict = setting loose := by
  rw [← hsetting strict, h.settings_eq, hsetting loose]

/-- The composite keeps the order of policies. -/
theorem AtLeast.apply (h : strict.AtLeast loose) :
    (applyMergeReadinessGate strict).AtLeast (applyMergeReadinessGate loose) := by
  have hcomposite : strict.mergeReadinessGateMode = loose.mergeReadinessGateMode :=
    h.setting_eq (·.mergeReadinessGateMode) fun _ => rfl
  refine ⟨fun gate => ?_, ?_⟩
  · rw [modeInForce, modeInForce, mode_applyMergeReadinessGate, mode_applyMergeReadinessGate,
      hcomposite]
    cases gate.isComposed with
    | false => exact h.modes gate
    | true =>
      simp only [if_true, compositeOr]
      split
      · exact h.modes gate
      · exact GateRuleMode.le_refl _
  · rw [settings_applyMergeReadinessGate, settings_applyMergeReadinessGate, h.settings_eq]

theorem AtLeast.eq_block (h : strict.AtLeast loose) (gate : SubGate)
    (hblock : loose.modeInForce gate = .block) : strict.modeInForce gate = .block :=
  GateRuleMode.eq_block_of_le (h.modes gate) hblock

end GateCheckPolicy

/-! ## Every stage is monotone -/

section Monotone

variable {strict loose : GateCheckPolicy} {text : GateText} {findings more : List AdvisoryFinding}

theorem isEvaluationBlocker_mono (h : strict.AtLeast loose) {code : String}
    (hblocker : isEvaluationBlocker code loose = true) :
    isEvaluationBlocker code strict = true := by
  unfold isEvaluationBlocker at hblocker ⊢
  split
  · rfl
  · next hcodes =>
    rw [if_neg hcodes] at hblocker
    split
    · next hcla =>
      rw [if_pos hcla, beq_iff_eq] at hblocker
      have hloose : loose.modeInForce .cla = .block := by
        simp [GateCheckPolicy.modeInForce, GateCheckPolicy.mode, hblocker]
      have hstrict := h.eq_block .cla hloose
      cases hmode : strict.claGateMode with
      | none => simp [GateCheckPolicy.modeInForce, GateCheckPolicy.mode, hmode,
          SubGate.defaultMode] at hstrict
      | some mode =>
        simp only [GateCheckPolicy.modeInForce, GateCheckPolicy.mode, hmode, gateModeOr_eq,
          Option.getD_some] at hstrict
        rw [hstrict]
        rfl
    · next hcla =>
      rw [if_neg hcla] at hblocker
      cases hblocker

/-- A test that does not look at the modes, between two monotone branches. -/
theorem ite_eq_block_mono {c : Prop} [Decidable c] {a a' b b' : GateRuleMode}
    (ha : a = .block → a' = .block) (hb : b = .block → b' = .block)
    (h : (if c then a else b) = .block) : (if c then a' else b') = .block := by
  split
  · next hc => exact ha (by rwa [if_pos hc] at h)
  · next hc => exact hb (by rwa [if_neg hc] at h)

variable {finding : AdvisoryFinding}

theorem Host.aiFindingMode_mono (h : strict.AtLeast loose)
    (hblock : Host.aiFindingMode finding loose = .block) :
    Host.aiFindingMode finding strict = .block := by
  have hfloor : belowAdvisoryFloor finding strict = belowAdvisoryFloor finding loose :=
    h.setting_eq (belowAdvisoryFloor finding) fun _ => rfl
  have hmode : gateModeOr loose.aiReviewGateMode .advisory = .block := by
    by_contra hmode
    rw [Host.aiFindingMode, if_pos hmode] at hblock
    exact hmode hblock
  have hstrict : gateModeOr strict.aiReviewGateMode .advisory = .block := h.eq_block .aiReview hmode
  rw [Host.aiFindingMode, if_neg (not_not.2 hmode)] at hblock
  rw [Host.aiFindingMode, if_neg (not_not.2 hstrict), hfloor]
  exact hblock

theorem Host.manifestLinkedIssueMode_mono (h : strict.AtLeast loose)
    (hblock : Host.manifestLinkedIssueMode loose = .block) :
    Host.manifestLinkedIssueMode strict = .block := by
  have hone : gateModeOr loose.manifestPolicyGateMode .off = .block ∨
      gateModeOr loose.linkedIssueGateMode .advisory = .block := by
    by_contra hnone
    rw [Host.manifestLinkedIssueMode, if_neg hnone] at hblock
    split at hblock <;> cases hblock
  rw [Host.manifestLinkedIssueMode, if_pos]
  exact hone.imp (h.eq_block .manifestPolicy) (h.eq_block .linkedIssue)

/-- A finding that blocks under a policy blocks under a stricter one. -/
theorem Host.isConfiguredGateBlocker_mono (h : strict.AtLeast loose)
    (hblocks : Host.isConfiguredGateBlocker finding loose = true) :
    Host.isConfiguredGateBlocker finding strict = true := by
  rw [Host.isConfiguredGateBlocker, beq_iff_eq] at hblocks ⊢
  revert hblocks
  exact ite_eq_block_mono (h.eq_block .linkedIssue) <|
    ite_eq_block_mono (h.eq_block .linkedIssue) <|
    ite_eq_block_mono (h.eq_block .duplicatePr) <|
    ite_eq_block_mono id <|
    ite_eq_block_mono (Host.aiFindingMode_mono h) <|
    ite_eq_block_mono id <|
    ite_eq_block_mono id <|
    ite_eq_block_mono id <|
    ite_eq_block_mono (h.eq_block .manifestPolicy) <|
    ite_eq_block_mono (Host.manifestLinkedIssueMode_mono h) <|
    ite_eq_block_mono (h.eq_block .selfAuthoredLinkedIssue) <|
    ite_eq_block_mono (h.eq_block .linkedIssueSatisfaction) <|
    ite_eq_block_mono (h.eq_block .contentLaneDeliverable) <|
    ite_eq_block_mono (h.eq_block .backtestRegression) <|
    ite_eq_block_mono (h.eq_block .lockfileIntegrity) <|
    ite_eq_block_mono (h.eq_block .cla) id

/-- The slop blocker of a policy is the one of a stricter policy. -/
theorem buildSlopGateBlocker_mono (h : strict.AtLeast loose)
    (hslop : buildSlopGateBlocker loose = some finding) :
    buildSlopGateBlocker strict = some finding := by
  have hrisk : strict.slopRisk = loose.slopRisk := h.setting_eq (·.slopRisk) fun _ => rfl
  have hmin : strict.slopGateMinScore = loose.slopGateMinScore :=
    h.setting_eq (·.slopGateMinScore) fun _ => rfl
  have hmode : gateModeOr loose.slopGateMode .advisory = .block := by
    by_contra hmode
    rw [buildSlopGateBlocker, if_pos hmode] at hslop
    cases hslop
  have hstrict : gateModeOr strict.slopGateMode .advisory = .block := h.eq_block .slop hmode
  rw [buildSlopGateBlocker, if_neg (not_not.2 hmode)] at hslop
  rw [buildSlopGateBlocker, if_neg (not_not.2 hstrict), hrisk, hmin]
  exact hslop

theorem Host.blockers_mono (h : strict.AtLeast loose) (hsub : findings ⊆ more) :
    Host.rules.blockers findings loose ⊆ Host.rules.blockers more strict := by
  intro finding hmem
  rcases mem_append.1 hmem with hconfigured | hslop
  · obtain ⟨hmem, hblocks⟩ := mem_filter.1 hconfigured
    refine mem_append_left _ (mem_filter.2 ⟨hsub hmem, ?_⟩)
    exact Host.isConfiguredGateBlocker_mono h hblocks
  · refine mem_append_right _ (Option.mem_toList.2 ?_)
    exact buildSlopGateBlocker_mono h (Option.mem_toList.1 hslop)

/-- A size gate that is on looks only at the settings. -/
theorem buildSizeHoldFinding_mono (h : strict.AtLeast loose)
    (hsize : buildSizeHoldFinding text loose = some finding) :
    buildSizeHoldFinding text strict = some finding := by
  have hon : loose.modeInForce .size ≠ .off := by
    intro hoff
    have hnone : loose.sizeGateMode = none ∨ loose.sizeGateMode = some .off := by
      cases hmode : loose.sizeGateMode with
      | none => exact Or.inl rfl
      | some mode =>
        simp only [GateCheckPolicy.modeInForce, GateCheckPolicy.mode, hmode, gateModeOr_eq,
          Option.getD_some] at hoff
        exact Or.inr (by rw [hoff])
    rw [buildSizeHoldFinding, if_pos hnone] at hsize
    cases hsize
  have hstrict : ¬(strict.sizeGateMode = none ∨ strict.sizeGateMode = some .off) := by
    have hne := GateRuleMode.ne_off_of_le (h.modes .size) hon
    rintro (hmode | hmode) <;>
      exact hne (by simp [GateCheckPolicy.modeInForce, GateCheckPolicy.mode, hmode,
        SubGate.defaultMode])
  have hloose : ¬(loose.sizeGateMode = none ∨ loose.sizeGateMode = some .off) := by
    intro hmode
    rw [buildSizeHoldFinding, if_pos hmode] at hsize
    cases hsize
  have hfiles : strict.changedFileCount = loose.changedFileCount :=
    h.setting_eq (·.changedFileCount) fun _ => rfl
  have hlines : strict.changedLineCount = loose.changedLineCount :=
    h.setting_eq (·.changedLineCount) fun _ => rfl
  have hmaxFiles : strict.sizeGateMaxFiles = loose.sizeGateMaxFiles :=
    h.setting_eq (·.sizeGateMaxFiles) fun _ => rfl
  have hmaxLines : strict.sizeGateMaxLines = loose.sizeGateMaxLines :=
    h.setting_eq (·.sizeGateMaxLines) fun _ => rfl
  rw [buildSizeHoldFinding, if_neg hloose] at hsize
  rw [buildSizeHoldFinding, if_neg hstrict, hfiles, hlines, hmaxFiles, hmaxLines]
  exact hsize

theorem manualHolds_mono (h : strict.AtLeast loose) :
    manualHolds text loose ⊆ manualHolds text strict := by
  intro finding hmem
  rcases mem_append.1 hmem with hsize | hguardrail
  · refine mem_append_left _ (Option.mem_toList.2 ?_)
    exact buildSizeHoldFinding_mono h (Option.mem_toList.1 hsize)
  · refine mem_append_right _ ?_
    have hhit : strict.guardrailHit = loose.guardrailHit :=
      h.setting_eq (·.guardrailHit) fun _ => rfl
    have hmatches : strict.guardrailMatches = loose.guardrailMatches :=
      h.setting_eq (·.guardrailMatches) fun _ => rfl
    rw [hhit, hmatches]
    exact hguardrail

theorem isHeld_mono (h : strict.AtLeast loose) (hsub : findings ⊆ more)
    (hheld : GateRules.isHeld text findings loose = true) :
    GateRules.isHeld text more strict = true := by
  have hany : ∀ code : String, (findings.any fun finding => finding.code == code) = true →
      (more.any fun finding => finding.code == code) = true := by
    intro code
    simp only [any_eq_true]
    rintro ⟨finding, hmem, hcode⟩
    exact ⟨finding, hsub hmem, hcode⟩
  simp only [GateRules.isHeld, Bool.or_eq_true, Bool.and_eq_true, beq_iff_eq, decide_eq_true_eq]
    at hheld ⊢
  refine hheld.imp (Or.imp ?_ (hany _)) ?_
  · rintro ⟨hmode, hinconclusive⟩
    exact ⟨h.eq_block .aiReview hmode, hany _ hinconclusive⟩
  · intro hholds
    obtain ⟨finding, hmem⟩ := length_pos_iff_exists_mem.1 hholds
    exact length_pos_iff_exists_mem.2 ⟨finding, manualHolds_mono h hmem⟩

/-- **A gate that does not pass does not pass with more findings under a stricter policy.** -/
theorem Host.conclusion_ne_success_mono (h : strict.AtLeast loose) (hsub : findings ⊆ more)
    (hne : (Host.evaluateGateCheck text findings loose).conclusion ≠ .success) :
    (Host.evaluateGateCheck text more strict).conclusion ≠ .success := by
  simp only [Host.evaluateGateCheck, GateRules.evaluateGateCheck_conclusion, ne_eq] at hne ⊢
  rw [← ne_eq, GateRules.conclusion_ne_success_iff] at hne ⊢
  refine hne.imp ?_ (Or.imp ?_ (isHeld_mono h.apply hsub))
  · rintro ⟨finding, hmem, hblocker⟩
    exact ⟨finding, hsub hmem, isEvaluationBlocker_mono h hblocker⟩
  · intro hblockers
    obtain ⟨finding, hmem⟩ := exists_mem_of_ne_nil _ hblockers
    exact ne_nil_of_mem (Host.blockers_mono h.apply hsub hmem)

/-- A failed gate fails with more findings, as long as it can be evaluated. -/
theorem Host.conclusion_eq_failure_mono (hsub : findings ⊆ more)
    (hmore : ∀ finding ∈ more, finding ∉ findings →
      isEvaluationBlocker finding.code policy = false)
    (hfailure : (Host.evaluateGateCheck text findings policy).conclusion = .failure) :
    (Host.evaluateGateCheck text more policy).conclusion = .failure := by
  simp only [Host.evaluateGateCheck, GateRules.evaluateGateCheck_conclusion,
    GateRules.conclusion_eq_failure_iff] at hfailure ⊢
  obtain ⟨hevaluated, blocker, hmem, hduplicate⟩ := hfailure
  refine ⟨fun finding hfinding => ?_, blocker, ?_, hduplicate⟩
  · by_cases hold : finding ∈ findings
    · exact hevaluated finding hold
    · exact hmore finding hfinding hold
  · exact Host.blockers_mono (.refl _) hsub hmem

/-- A leaked secret blocks under every policy. -/
theorem Host.mem_blockers_of_secret_leak
    (hmem : finding ∈ findings) (hcode : finding.code = "secret_leak") :
    finding ∈ Host.rules.blockers findings policy := by
  refine mem_append_left _ (mem_filter.2 ⟨hmem, ?_⟩)
  simp [Host.rules, Host.isConfiguredGateBlocker, Host.resolveConfiguredGateMode, hcode]

end Monotone

/-- **The gate of the host is monotone.** A gate that does not pass stays so when findings are added
and when one mode is raised; a failed gate stays failed when findings are added that leave it
evaluable; and a leaked secret never passes, and fails every gate that can be evaluated. -/
theorem gate_strict (text : GateText) (findings : List AdvisoryFinding) (policy : GateCheckPolicy) :
    ((Host.evaluateGateCheck text findings policy).conclusion ≠ .success →
      (∀ more, findings.Sublist more →
        (Host.evaluateGateCheck text more policy).conclusion ≠ .success) ∧
      ∀ gate mode, policy.modeInForce gate ≤ gateModeOr mode gate.defaultMode →
        (Host.evaluateGateCheck text findings (policy.setMode gate mode)).conclusion ≠ .success) ∧
    ((Host.evaluateGateCheck text findings policy).conclusion = .failure →
      ∀ more, findings.Sublist more →
        (∀ finding ∈ more, finding ∉ findings → isEvaluationBlocker finding.code policy = false) →
        (Host.evaluateGateCheck text more policy).conclusion = .failure) ∧
    ((∃ finding ∈ findings, finding.code = "secret_leak") →
      (Host.evaluateGateCheck text findings policy).conclusion ≠ .success ∧
      ((∀ finding ∈ findings, isEvaluationBlocker finding.code policy = false) →
        (Host.evaluateGateCheck text findings policy).conclusion = .failure)) := by
  refine ⟨fun hne => ⟨fun more hsub => ?_, fun gate mode hle => ?_⟩, ?_, ?_⟩
  · exact Host.conclusion_ne_success_mono (.refl policy) hsub.subset hne
  · exact Host.conclusion_ne_success_mono (GateCheckPolicy.atLeast_setMode hle)
      (List.Subset.refl findings) hne
  · intro hfailure more hsub hmore
    exact Host.conclusion_eq_failure_mono hsub.subset hmore hfailure
  · rintro ⟨finding, hmem, hcode⟩
    have hblocker : finding ∈ Host.rules.blockers findings (applyMergeReadinessGate policy) :=
      Host.mem_blockers_of_secret_leak hmem hcode
    simp only [Host.evaluateGateCheck, GateRules.evaluateGateCheck_conclusion, ne_eq]
    refine ⟨?_, fun hevaluated => ?_⟩
    · exact GateRules.conclusion_ne_success_iff.2 (Or.inr (Or.inl (ne_nil_of_mem hblocker)))
    · refine GateRules.conclusion_eq_failure_iff.2 ⟨hevaluated, finding, hblocker, ?_⟩
      rw [hcode]
      decide

end LoopOver
