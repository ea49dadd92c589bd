import LoopOver.Foundations.Table
import LoopOver.Foundations.TopRows
import LoopOver.Retention.Prune
import LoopOver.Text
import Std.Data.String.ToInt

/-!
# The reputation of a submitter

`src/review/submitter-reputation.ts` tallies the recent outcomes of a submitter's pull requests, in
one repository or in all repositories of an installation. The outcomes are rows of `review_audit`,
in which a pull request may have several; the query keeps those whose time is the latest of their
target.

* `outcomeRows` is the query up to its order and its limit, and `TalliedRows` what may be read of
  it.
* `mem_outcomeRows` and `map_outcome` say which rows it selects: one for each outcome that stands
  for a pull request.
* `CountsOnce` is what the tally is meant to be, and `sample_countOutcomes_le` what follows for the
  counts.
* **`counts_once_iff`**: it is that exactly where no latest outcome of a pull request has a second
  one at the same time.

Times are texts, compared as texts. Rows with one time are read in any order.
-/

namespace LoopOver.SubmitterReputation

open List TopRows

/-! ## Outcomes and their classes -/

/-- How far a submitter is trusted. -/
inductive ReputationSignal
  | trusted | neutral | low
  deriving DecidableEq

/-- `ReputationConfig`, without the length of the window. -/
structure ReputationConfig where
  minSample : ℚ
  qualityFailLowRate : ℚ
  qualityFailLowMaxSuccess : ℚ
  lightFailWeight : ℚ
  trustedMinSuccess : ℚ
  trustedMaxFailRate : ℚ

def defaultReputationConfig : ReputationConfig where
  minSample := 5
  qualityFailLowRate := 7 / 10
  qualityFailLowMaxSuccess := 2
  lightFailWeight := 1 / 2
  trustedMinSuccess := 5
  trustedMaxFailRate := 2 / 10

def successCodes : List String :=
  ["dual_review_approved", "dual_review_approved_tiebreak", "maintainer_cleanup"]

def qualityFailCodes : List String := ["dual_review_declined", "scope_failure", "thin_description"]

def qualityFailLightCodes : List String :=
  ["checks_failed", "strict_duplicate", "source_unfetchable", "source_archived",
    "protected_metadata_edit"]

def promptInjectionCode : String := "source_prompt_injection"

def conflictCodes : List String :=
  ["merge_conflict_closed", "merge_conflict_close", "pr_closed_before_merge"]

/-- What one outcome counts as. -/
inductive Bucket
  | success | qualityFail | qualityFailLight | promptInjection | exclude
  deriving DecidableEq

structure StatusRow where
  status : Option String
  reasonCode : Option String

def classifyOutcome (row : StatusRow) : Bucket :=
  if row.status = some "manual" then .exclude
  else if row.status = some "merged" then .success
  else
    match row.reasonCode with
    | none => .exclude
    | some reasonCode =>
      if reasonCode ∈ successCodes then .exclude
      else if reasonCode ∈ conflictCodes then .exclude
      else if reasonCode = promptInjectionCode then .promptInjection
      else if reasonCode ∈ qualityFailCodes then .qualityFail
      else if reasonCode ∈ qualityFailLightCodes then .qualityFailLight
      else .exclude

structure ReputationCounts where
  success : ℕ
  qualityFail : ℕ
  qualityFailLight : ℕ
  promptInjection : ℕ

/-- A turn of the loop over the rows. -/
def ReputationCounts.add (c : ReputationCounts) (row : StatusRow) : ReputationCounts :=
  match classifyOutcome row with
  | .success => { c with success := c.success + 1 }
  | .qualityFail => { c with qualityFail := c.qualityFail + 1 }
  | .qualityFailLight => { c with qualityFailLight := c.qualityFailLight + 1 }
  | .promptInjection => { c with promptInjection := c.promptInjection + 1 }
  | .exclude => c

def countOutcomes (rows : List StatusRow) : ReputationCounts :=
  rows.foldl ReputationCounts.add ⟨0, 0, 0, 0⟩

/-- The quality-relevant sample. -/
def ReputationCounts.sample (c : ReputationCounts) : ℕ :=
  c.success + c.qualityFail + c.qualityFailLight + c.promptInjection

def signalFromCounts (c : ReputationCounts) (cfg : ReputationConfig) : ReputationSignal :=
  let weightedFails := c.qualityFail + c.qualityFailLight * cfg.lightFailWeight
  let failRate := if 0 < c.sample then weightedFails / c.sample else 0
  if 0 < c.promptInjection then .low
  else if (c.sample : ℚ) < cfg.minSample then .neutral
  else if cfg.qualityFailLowRate ≤ failRate ∧
    (c.success : ℚ) < cfg.qualityFailLowMaxSuccess then .low
  else if cfg.trustedMinSuccess ≤ c.success ∧ failRate ≤ cfg.trustedMaxFailRate then .trusted
  else .neutral

/-! ## The tables -/

structure AuditRow where
  id : String
  project : String
  targetId : String
  eventType : String
  decision : Option String
  summary : Option String
  createdAt : String
  deriving DecidableEq

structure PullRequestRow where
  repoFullName : String
  number : ℤ
  authorLogin : Option String
  deriving DecidableEq

structure RepositoryRow where
  fullName : String
  installationId : Option ℤ
  deriving DecidableEq

/-- The contents of the tables, with the keys of their definitions. -/
structure Tables where
  reviewAudit : List AuditRow
  pullRequests : List PullRequestRow
  repositories : List RepositoryRow
  ids : (reviewAudit.map (·.id)).Nodup
  numbers : (pullRequests.map fun pr => (pr.repoFullName, pr.number)).Nodup
  names : (repositories.map (·.fullName)).Nodup

/-- What a query is about: a repository, or the repositories of an installation. -/
inductive Scope
  | project (project : String)
  | install (installationId : ℤ)

/-- A row of the query, before its columns are taken. -/
structure OutcomeRow where
  outcome : AuditRow
  pullRequest : PullRequestRow
  deriving DecidableEq

/-- `REPUTATION_WINDOW_ROW_CAP`. -/
def reputationWindowRowCap : ℕ := 500

/-- The text under which the outcomes of a pull request are kept. -/
def targetIdOf (project : String) (number : ℤ) : String := project ++ "#" ++ toString number

/-- `PR_OUTCOME_JOIN`. -/
def prOutcomeJoin (po : AuditRow) (pr : PullRequestRow) : Bool :=
  pr.repoFullName = po.project ∧ targetIdOf po.project pr.number = po.targetId

/-- `LOWER(pr.author_login) = LOWER(?)`, which `NULL` does not satisfy. -/
def sameLogin (authorLogin : Option String) (submitter : String) : Bool :=
  authorLogin.any fun login => sqlLower login == sqlLower submitter

section Query

variable (tables : Tables) (scope : Scope) (windowStart : String)

/-- The outcomes of a target. -/
def outcomesOf (targetId : String) : List AuditRow :=
  tables.reviewAudit.filter fun po => po.targetId = targetId ∧ po.eventType = "pr_outcome"

/-- `LATEST_PR_OUTCOME_FILTER`. -/
def latestPrOutcomeFilter (po : AuditRow) : Bool :=
  po.eventType = "pr_outcome" ∧
    ((outcomesOf tables po.targetId).map (·.createdAt)).max? = some po.createdAt

/-- How often the scope has the repository of an outcome: a condition on the column, or a join with
`repositories`. -/
def copies (po : AuditRow) : ℕ :=
  match scope with
  | .project project => if po.project = project then 1 else 0
  | .install installationId =>
    tables.repositories.countP fun r => r.fullName = po.project ∧
      r.installationId = some installationId

def selected (submitter : String) (po : AuditRow) (pr : PullRequestRow) : Bool :=
  prOutcomeJoin po pr && sameLogin pr.authorLogin submitter && latestPrOutcomeFilter tables po &&
    decide (windowStart ≤ po.createdAt)

/-- The query without its order and its limit. -/
def outcomeRows (submitter : String) : List OutcomeRow :=
  tables.reviewAudit.flatMap fun po =>
    (tables.pullRequests.filter (selected tables windowStart submitter po)).flatMap fun pr =>
      List.replicate (copies tables scope po) ⟨po, pr⟩

/-- The rows that `getSubmitterReputation` and `getSubmitterReputationAcrossInstall` tally. -/
inductive TalliedRows : Option String → List OutcomeRow → Prop
  | unnamed {submitter : Option String} (h : truthy submitter = none) : TalliedRows submitter []
  /-- The query throws. -/
  | failed (submitter : Option String) : TalliedRows submitter []
  | read {submitter : Option String} {name : String} {rows : List OutcomeRow}
      (h : truthy submitter = some name)
      (hrows : TopRows.Answers (·.outcome.createdAt) reputationWindowRowCap
        (outcomeRows tables scope windowStart name) rows) :
      TalliedRows submitter rows

/-- What `REASON_CODE_SUBQUERY` may read: the summary of a latest gate decision that has one. -/
def ReasonCode (po : AuditRow) (reasonCode : Option String) : Prop :=
  ∃ rows, TopRows.Answers (·.createdAt) 1 (tables.reviewAudit.filter fun gd =>
    gd.targetId = po.targetId ∧ gd.eventType = "gate_decision" ∧ gd.summary ≠ none) rows ∧
      reasonCode = rows.head?.bind (·.summary)

/-- The columns of a row. -/
def Columns (row : OutcomeRow) (columns : StatusRow) : Prop :=
  columns.status = row.outcome.decision ∧ ReasonCode tables row.outcome columns.reasonCode

end Query

/-! ## What a tally has to be -/

section Laws

variable (tables : Tables) (scope : Scope) (windowStart : String)

/-- The row is an outcome of the pull request. -/
def IsOutcome (po : AuditRow) (pr : PullRequestRow) : Prop :=
  po.eventType = "pr_outcome" ∧ po.project = pr.repoFullName ∧
    po.targetId = targetIdOf pr.repoFullName pr.number

/-- No outcome of the target is later than the row. -/
def IsLatest (po : AuditRow) : Prop :=
  ∀ other ∈ tables.reviewAudit, other.eventType = "pr_outcome" → other.targetId = po.targetId →
    other.createdAt ≤ po.createdAt

/-- **Each pull request counts once**, with one of its latest outcomes. -/
structure CountsOnce (rows : List OutcomeRow) : Prop where
  once : (rows.map (·.pullRequest)).Nodup
  latest : ∀ row ∈ rows, row.outcome ∈ tables.reviewAudit ∧ row.pullRequest ∈ tables.pullRequests ∧
    IsOutcome row.outcome row.pullRequest ∧ IsLatest tables row.outcome

/-- The repository is the wanted one, or one of the installation. -/
def Covers (repoFullName : String) : Prop :=
  match scope with
  | .project project => repoFullName = project
  | .install installationId => ⟨repoFullName, some installationId⟩ ∈ tables.repositories

/-- The outcome is the latest of a pull request by the submitter, and in the scope and the
window. -/
def Relevant (submitter : String) (po : AuditRow) (pr : PullRequestRow) : Prop :=
  IsOutcome po pr ∧ sameLogin pr.authorLogin submitter = true ∧
    Covers tables scope pr.repoFullName ∧
    windowStart ≤ po.createdAt ∧ IsLatest tables po

instance (po : AuditRow) (pr : PullRequestRow) : Decidable (IsOutcome po pr) :=
  inferInstanceAs (Decidable (_ ∧ _))

instance (po : AuditRow) : Decidable (IsLatest tables po) :=
  inferInstanceAs (Decidable (∀ _ ∈ _, _))

instance (repoFullName : String) : Decidable (Covers tables scope repoFullName) :=
  match scope with
  | .project _ => inferInstanceAs (Decidable (_ = _))
  | .install _ => inferInstanceAs (Decidable (_ ∈ _))

instance (submitter : String) (po : AuditRow) (pr : PullRequestRow) :
    Decidable (Relevant tables scope windowStart submitter po pr) :=
      inferInstanceAs (Decidable (_ ∧ _))

/-- How many pull requests of the submitter have an outcome later than a time. -/
def laterOutcomes (submitter time : String) : ℕ :=
  tables.reviewAudit.countP fun po => time < po.createdAt ∧
    ∃ pr ∈ tables.pullRequests, Relevant tables scope windowStart submitter po pr

/-- **Outcomes of a pull request are told apart by their times**: two that are dated alike are
superseded by a third, or there are more recent ones than are read. -/
def OutcomesApart (submitter : Option String) : Prop :=
  ∀ name ∈ truthy submitter, ∀ pr ∈ tables.pullRequests, sameLogin pr.authorLogin name = true →
    Covers tables scope pr.repoFullName →
      ∀ a ∈ tables.reviewAudit, ∀ b ∈ tables.reviewAudit, a ≠ b →
      IsOutcome a pr → IsOutcome b pr → a.createdAt = b.createdAt → windowStart ≤ a.createdAt →
        ¬IsLatest tables a ∨
          reputationWindowRowCap < laterOutcomes tables scope windowStart name a.createdAt + 2

end Laws

/-! ## The selected rows -/

section Selected

variable {tables : Tables} {scope : Scope} {windowStart submitter : String} {po : AuditRow}
  {pr other : PullRequestRow}
  {row : OutcomeRow}

theorem latestPrOutcomeFilter_iff (hpo : po ∈ tables.reviewAudit) :
    latestPrOutcomeFilter tables po = true ↔ po.eventType = "pr_outcome" ∧ IsLatest tables po := by
  rw [latestPrOutcomeFilter, decide_eq_true_eq]
  refine and_congr_right fun hevent => ?_
  rw [List.max?_eq_some_iff]
  constructor
  · rintro ⟨-, hmax⟩ other hother hotherEvent htarget
    exact hmax _ (mem_map_of_mem (mem_filter.2 ⟨hother, by simp [hotherEvent, htarget]⟩))
  · intro hlatest
    refine ⟨mem_map_of_mem (mem_filter.2 ⟨hpo, by simp [hevent]⟩), fun time htime => ?_⟩
    obtain ⟨other, hother, rfl⟩ := mem_map.1 htime
    obtain ⟨hmem, hkey⟩ := mem_filter.1 hother
    rw [decide_eq_true_eq] at hkey
    exact hlatest other hmem hkey.2 hkey.1

theorem prOutcomeJoin_iff :
    prOutcomeJoin po pr = true ∧ po.eventType = "pr_outcome" ↔ IsOutcome po pr := by
  rw [prOutcomeJoin, decide_eq_true_eq, IsOutcome]
  constructor
  · rintro ⟨⟨hproject, htarget⟩, hevent⟩
    exact ⟨hevent, hproject.symm, hproject ▸ htarget.symm⟩
  · rintro ⟨hevent, hproject, htarget⟩
    exact ⟨⟨hproject.symm, hproject ▸ htarget.symm⟩, hevent⟩

theorem selected_iff (hpo : po ∈ tables.reviewAudit) :
    selected tables windowStart submitter po pr = true ↔
      IsOutcome po pr ∧ sameLogin pr.authorLogin submitter = true ∧ windowStart ≤ po.createdAt ∧
        IsLatest tables po := by
  rw [selected, Bool.and_eq_true, Bool.and_eq_true, Bool.and_eq_true, latestPrOutcomeFilter_iff hpo,
    decide_eq_true_eq, ← prOutcomeJoin_iff]
  constructor
  · rintro ⟨⟨⟨hjoin, hlogin⟩, hevent, hlatest⟩, hwindow⟩
    exact ⟨⟨hjoin, hevent⟩, hlogin, hwindow, hlatest⟩
  · rintro ⟨⟨hjoin, hevent⟩, hlogin, hwindow, hlatest⟩
    exact ⟨⟨⟨hjoin, hlogin⟩, hevent, hlatest⟩, hwindow⟩

/-- A scope has a repository once or not at all. -/
theorem copies_eq (po : AuditRow) :
    copies tables scope po = if Covers tables scope po.project then 1 else 0 := by
  cases scope with
  | project project => rfl
  | install installationId =>
    rw [copies]
    have hle : tables.repositories.countP (fun r => r.fullName = po.project ∧
        r.installationId = some installationId) ≤
        1 := by
      refine le_trans (countP_mono_left fun r _ hr => ?_)
        (Table.countP_key_le_one tables.names po.project)
      rw [decide_eq_true_eq] at hr
      exact beq_iff_eq.2 hr.1
    split
    · next hcovers =>
      have hpos : 0 < tables.repositories.countP fun r =>
          r.fullName = po.project ∧ r.installationId = some installationId :=
        countP_pos_iff.2 ⟨_, hcovers, by simp⟩
      omega
    · next hcovers =>
      refine countP_eq_zero.2 fun r hr hkey => hcovers ?_
      rw [decide_eq_true_eq] at hkey
      obtain ⟨fullName, installation⟩ := r
      obtain ⟨rfl, rfl⟩ := hkey
      exact hr

/-- An outcome stands for one pull request. -/
theorem pullRequest_unique (hpr : pr ∈ tables.pullRequests) (hother : other ∈ tables.pullRequests)
    (h : IsOutcome po pr) (h' : IsOutcome po other) : pr = other := by
  have hrepo : pr.repoFullName = other.repoFullName := h.2.1.symm.trans h'.2.1
  have htarget := h.2.2.symm.trans h'.2.2
  rw [targetIdOf, targetIdOf, hrepo, String.append_right_inj] at htarget
  exact Table.eq_of_key tables.numbers hpr hother (Prod.ext hrepo (Int.repr_injective htarget))

theorem mem_outcomeRows : row ∈ outcomeRows tables scope windowStart submitter ↔
    row.outcome ∈ tables.reviewAudit ∧ row.pullRequest ∈ tables.pullRequests ∧
      Relevant tables scope windowStart submitter row.outcome row.pullRequest := by
  rw [outcomeRows, mem_flatMap]
  constructor
  · rintro ⟨po, hpo, hrow⟩
    obtain ⟨pr, hpr, hrow⟩ := mem_flatMap.1 hrow
    obtain ⟨hmem, hselected⟩ := mem_filter.1 hpr
    obtain ⟨houtcome, hlogin, hwindow, hlatest⟩ := (selected_iff hpo).1 hselected
    obtain ⟨hcopies, rfl⟩ := mem_replicate.1 hrow
    rw [copies_eq, houtcome.2.1] at hcopies
    exact ⟨hpo, hmem, houtcome, hlogin, by_contra fun hnot => hcopies (if_neg hnot),
      hwindow, hlatest⟩
  · rintro ⟨hpo, hpr, houtcome, hlogin, hcovers, hwindow, hlatest⟩
    refine ⟨row.outcome, hpo, mem_flatMap.2 ⟨row.pullRequest, mem_filter.2 ⟨hpr, ?_⟩, ?_⟩⟩
    · exact (selected_iff hpo).2 ⟨houtcome, hlogin, hwindow, hlatest⟩
    · rw [copies_eq, houtcome.2.1, if_pos hcovers]
      exact mem_singleton.2 rfl

/-- The rows of an outcome: one where a pull request of the submitter has it, else none. -/
theorem rowsOf_map (hpo : po ∈ tables.reviewAudit) :
    (((tables.pullRequests.filter (selected tables windowStart submitter po)).flatMap fun pr =>
      List.replicate (copies tables scope po) (⟨po, pr⟩ : OutcomeRow)).map (·.outcome)) =
      if ∃ pr ∈ tables.pullRequests, Relevant tables scope windowStart submitter po pr then [po]
        else [] := by
  have hsingle : (tables.pullRequests.filter (selected tables windowStart submitter po)).length ≤
      1 := by
    have hnodup : (tables.pullRequests.filter (selected tables windowStart submitter po)).Nodup :=
      tables.numbers.of_map.filter _
    rcases hlist : tables.pullRequests.filter (selected tables windowStart submitter po) with
      - | ⟨first, - | ⟨second, rest⟩⟩
    · exact Nat.zero_le _
    · exact le_rfl
    · rw [hlist] at hnodup
      have hmem (pr : PullRequestRow) (h : pr ∈ first :: second :: rest) := mem_filter.1 (hlist ▸ h)
      obtain ⟨hfirst, hselected⟩ := hmem first (by simp)
      obtain ⟨hsecond, hselected'⟩ := hmem second (by simp)
      have heq := pullRequest_unique hfirst hsecond ((selected_iff hpo).1 hselected).1
        ((selected_iff hpo).1 hselected').1
      exact absurd (heq ▸ mem_cons_self) (nodup_cons.1 hnodup).1
  split
  · next h =>
    obtain ⟨pr, hpr, houtcome, hlogin, hcovers, hwindow, hlatest⟩ := h
    have hmem :=
      mem_filter.2 ⟨hpr, (selected_iff (show po ∈ tables.reviewAudit from hpo)).2 ⟨houtcome, hlogin,
        hwindow, hlatest⟩⟩
    have hone : tables.pullRequests.filter (selected tables windowStart submitter po) = [pr] := by
      obtain ⟨only, honly⟩ := length_eq_one_iff.1 (Nat.le_antisymm hsingle (length_pos_of_mem hmem))
      rw [honly] at hmem ⊢
      rw [mem_singleton.1 hmem]
    rw [hone, copies_eq, houtcome.2.1, if_pos hcovers]
    rfl
  · next h =>
    rw [map_eq_nil_iff, flatMap_eq_nil_iff]
    intro pr hpr
    obtain ⟨hmem, hselected⟩ := mem_filter.1 hpr
    obtain ⟨houtcome, hlogin, hwindow, hlatest⟩ := (selected_iff hpo).1 hselected
    rw [copies_eq, if_neg]
    · rfl
    · exact fun hcovers => h ⟨pr, hmem, houtcome, hlogin, houtcome.2.1 ▸ hcovers, hwindow, hlatest⟩

/-- **The query selects each outcome of the submitter's pull requests once.** -/
theorem map_outcome : (outcomeRows tables scope windowStart submitter).map (·.outcome) =
    tables.reviewAudit.filter fun po =>
      ∃ pr ∈ tables.pullRequests, Relevant tables scope windowStart submitter po pr := by
  rw [outcomeRows, map_flatMap, flatMap_congr fun po hpo => rowsOf_map hpo]
  induction tables.reviewAudit with
  | nil => rfl
  | cons po rest ih =>
    rw [flatMap_cons, ih, filter_cons]
    by_cases h : ∃ pr ∈ tables.pullRequests, Relevant tables scope windowStart submitter po pr
    · rw [if_pos h, if_pos (decide_eq_true h), singleton_append]
    · rw [if_neg h, if_neg (by simpa using h), nil_append]

theorem nodup_outcomeRows : (outcomeRows tables scope windowStart submitter).Nodup := by
  refine List.Nodup.of_map (·.outcome) ?_
  rw [map_outcome]
  exact tables.ids.of_map.filter _

theorem newer_outcomeRows (time : String) :
    newer (·.outcome.createdAt) time (outcomeRows tables scope windowStart submitter) =
      laterOutcomes tables scope windowStart submitter time := by
  have hmap : newer (·.outcome.createdAt) time (outcomeRows tables scope windowStart submitter) =
      ((outcomeRows tables scope windowStart submitter).map (·.outcome)).countP fun po =>
        time < po.createdAt := by
    rw [countP_map]
    rfl
  rw [hmap, map_outcome, countP_filter, laterOutcomes]
  exact countP_congr fun po _ => by simp

end Selected

/-! ## The tally -/

section Tally

variable {tables : Tables} {scope : Scope} {windowStart : String} {submitter : Option String}
  {rows : List OutcomeRow}

theorem mem_of_tallied (h : TalliedRows tables scope windowStart submitter rows) {row : OutcomeRow}
    (hrow : row ∈ rows) :
    ∃ name ∈ truthy submitter, row ∈ outcomeRows tables scope windowStart name := by
  cases h with
  | unnamed => cases hrow
  | failed => cases hrow
  | read hname hanswer => exact ⟨_, hname, hanswer.subperm.subset hrow⟩

theorem latest_of_tallied (h : TalliedRows tables scope windowStart submitter rows)
    {row : OutcomeRow} (hrow : row ∈ rows) :
    row.outcome ∈ tables.reviewAudit ∧ row.pullRequest ∈ tables.pullRequests ∧
      IsOutcome row.outcome row.pullRequest ∧ IsLatest tables row.outcome := by
  obtain ⟨name, -, hselected⟩ := mem_of_tallied h hrow
  obtain ⟨hpo, hpr, houtcome, -, -, -, hlatest⟩ := mem_outcomeRows.1 hselected
  exact ⟨hpo, hpr, houtcome, hlatest⟩

/-- Two latest outcomes of a target have one time. -/
theorem time_eq {a b : AuditRow} {pr : PullRequestRow} (ha : a ∈ tables.reviewAudit)
    (hb : b ∈ tables.reviewAudit) (houtcome : IsOutcome a pr) (houtcome' : IsOutcome b pr)
    (hlatest : IsLatest tables a) (hlatest' : IsLatest tables b) : a.createdAt = b.createdAt :=
  le_antisymm (hlatest' a ha houtcome.1 (houtcome.2.2.trans houtcome'.2.2.symm))
    (hlatest b hb houtcome'.1 (houtcome'.2.2.trans houtcome.2.2.symm))

/-- A submitter is judged by at most as many outcomes as there are pull requests. -/
theorem sample_countOutcomes_le {columns : List StatusRow}
    (hcolumns : List.Forall₂ (Columns tables) rows columns) (h : CountsOnce tables rows) :
    (countOutcomes columns).sample ≤ tables.pullRequests.length := by
  have hadd (c : ReputationCounts) : (columns.foldl ReputationCounts.add c).sample ≤ c.sample +
      columns.length := by
    clear hcolumns
    induction columns generalizing c with
    | nil => exact le_rfl
    | cons row rest ih =>
      refine (ih (c.add row)).trans ?_
      have hrow : (c.add row).sample ≤ c.sample + 1 := by
        rw [ReputationCounts.add]
        cases classifyOutcome row <;> simp only [ReputationCounts.sample] <;> omega
      rw [length_cons]
      omega
  have hprs : (rows.map (·.pullRequest)).length ≤ tables.pullRequests.length := by
    refine (h.once.subperm fun pr hpr => ?_).length_le
    obtain ⟨row, hrow, rfl⟩ := mem_map.1 hpr
    exact (h.latest row hrow).2.1
  calc (countOutcomes columns).sample ≤ 0 + columns.length := hadd _
    _ = (rows.map (·.pullRequest)).length := by rw [Nat.zero_add, length_map, hcolumns.length_eq]
    _ ≤ tables.pullRequests.length := hprs

/-- **Each pull request counts once, exactly where its latest outcome is told from the others by its
time.** -/
theorem counts_once_iff (tables : Tables) (scope : Scope) (windowStart : String)
    (submitter : Option String) :
    (∀ rows, TalliedRows tables scope windowStart submitter rows → CountsOnce tables rows) ↔
      OutcomesApart tables scope windowStart submitter := by
  constructor
  · intro h name hname pr hpr hlogin hcovers a ha b hb hne houtcome houtcome' htime hwindow
    by_contra hnot
    rw [not_or, not_not, not_lt, ← newer_outcomeRows] at hnot
    obtain ⟨hlatest, hroom⟩ := hnot
    have hlatest' : IsLatest tables b := fun other hother hevent htarget =>
      htime ▸ hlatest other hother hevent (htarget.trans (houtcome'.2.2.trans houtcome.2.2.symm))
    have hrow : (⟨a, pr⟩ : OutcomeRow) ∈ outcomeRows tables scope windowStart name :=
      mem_outcomeRows.2 ⟨ha, hpr, houtcome, hlogin, hcovers, hwindow, hlatest⟩
    have hrow' : (⟨b, pr⟩ : OutcomeRow) ∈ outcomeRows tables scope windowStart name :=
      mem_outcomeRows.2 ⟨hb, hpr, houtcome', hlogin, hcovers, htime ▸ hwindow, hlatest'⟩
    have hpair : [(⟨a, pr⟩ : OutcomeRow), ⟨b, pr⟩].Subperm
        (outcomeRows tables scope windowStart name) := by
      refine List.Nodup.subperm ?_ ?_
      · exact nodup_cons.2 ⟨by simp [hne], nodup_singleton _⟩
      · rintro row hmem
        rcases mem_cons.1 hmem with rfl | hmem
        · exact hrow
        · rwa [mem_singleton.1 hmem]
    obtain ⟨rows, hanswer, hsublist⟩ := exists_answer hpair htime hroom
    have hnodup := (h rows (.read hname hanswer)).once.sublist (hsublist.map _)
    exact (nodup_cons.1 hnodup).1 mem_cons_self
  · refine fun h rows hrows => ⟨?_, fun row hrow => latest_of_tallied hrows hrow⟩
    rw [List.Nodup, pairwise_map, pairwise_iff_forall_sublist]
    intro x y hpair heq
    have hx : x ∈ rows := hpair.subset (by simp)
    have hy : y ∈ rows := hpair.subset (by simp)
    cases hrows with
    | unnamed => cases hx
    | failed => cases hx
    | read hname hanswer =>
      have hne : x ≠ y := by
        obtain ⟨nodup, hperm, hsub⟩ := hanswer.subperm
        have hnodup := (hperm.nodup_iff.1 (nodup_outcomeRows.sublist hsub)).sublist hpair
        exact fun hxy => (nodup_cons.1 hnodup).1 (mem_singleton.2 hxy)
      obtain ⟨ha, hpr, houtcome, hlogin, hcovers, hwindow, hlatest⟩ :=
        mem_outcomeRows.1 (hanswer.subperm.subset hx)
      obtain ⟨hb, -, houtcome', -, -, -, hlatest'⟩ := mem_outcomeRows.1 (hanswer.subperm.subset hy)
      rw [← heq] at houtcome'
      have htime := time_eq ha hb houtcome houtcome' hlatest hlatest'
      have houtcomes : x.outcome ≠ y.outcome := fun hxy => hne (by
        cases x
        cases y
        rw [OutcomeRow.mk.injEq]
        exact ⟨hxy, heq⟩)
      rcases h _ hname _ hpr hlogin hcovers _ ha _ hb houtcomes houtcome houtcome' htime
        hwindow with hnot | hfull
      · exact hnot hlatest
      · rw [← newer_outcomeRows] at hfull
        exact absurd (room_of_answer hanswer hpair htime) (not_le.2 hfull)

end Tally

/-! ## A redelivered webhook -/

/-- The closing of a pull request is recorded twice at one time. -/
def redeliveredTables : Tables where
  reviewAudit :=
    [⟨"a", "octo/repo", "octo/repo#7", "pr_outcome", some "closed", none,
      "2026-07-01T10:00:00.000Z"⟩,
    ⟨"b", "octo/repo", "octo/repo#7", "pr_outcome", some "closed", none,
      "2026-07-01T10:00:00.000Z"⟩]
  pullRequests := [⟨"octo/repo", 7, some "mallory"⟩]
  repositories := [⟨"octo/repo", some 1⟩]
  ids := by decide
  numbers := by decide
  names := by decide

theorem redelivered_counts_twice :
    ¬∀ rows, TalliedRows redeliveredTables (.project "octo/repo") "2026-06-01 00:00:00"
    (some "mallory") rows → CountsOnce redeliveredTables rows := by
  intro h
  have hrows : TalliedRows redeliveredTables (.project "octo/repo") "2026-06-01 00:00:00"
      (some "mallory")
      (redeliveredTables.reviewAudit.map fun po => ⟨po, ⟨"octo/repo", 7, some "mallory"⟩⟩) :=
    .read rfl ⟨outcomeRows redeliveredTables (.project "octo/repo") "2026-06-01 00:00:00" "mallory",
      ⟨List.Perm.refl _, by decide⟩, by decide⟩
  exact absurd (h _ hrows).once (by decide)

end LoopOver.SubmitterReputation
