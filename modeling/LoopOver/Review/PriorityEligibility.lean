import LoopOver.Number
import LoopOver.Text

/-!
# The priority eligibility window

`src/review/priority-eligibility-window.ts` holds a pull request that was opened before one of the
priority issues which it links was open for work: an issue opens a window of minutes after its label
first landed. The hold names that moment.

* `evaluatePriorityEligibilityWindow` compares the opening instant of one issue with the creation of
  the pull request, and `resolvePriorityEligibilityHold` walks the linked issues up to the first
  hold.
* `lates` are the linked issues that were not yet open, in the order of the links; `resolve_eq` says
  that the first of them decides.
* `HoldKept` is what a hold promises: the latest of their instants, and freedom from then on.
* **`hold_kept_iff`**: the promise is kept exactly where there is no hold. `states_latest_iff` is
  the half about the moment, which is right exactly where the first of them opens last.

What the reader of the labels found is a function from issues to times. A date beyond the range of
the host throws.
-/

namespace LoopOver.PriorityEligibility

open List

/-! ## The window -/

/-- The functions of the host, with the text of a date. -/
structure Host extends Runtime where
  isoText : ℤ → String

inductive HoldError
  | rangeError
  deriving DecidableEq

structure PriorityEligibilityInput where
  windowMinutes : JsNumber
  labeledAt : Option String
  prCreatedAt : Option String

/-- Whether the pull request proceeds. -/
inductive PriorityEligibilityResult
  | eligible
  | held (reason eligibleAt : String)
  deriving DecidableEq

/-- `PRIORITY_ELIGIBILITY_RULE_ID`. -/
def priorityEligibilityRuleId : String := "priority-eligibility-window"

/-- Whole minutes, and none where the window is off. -/
def wholeMinutes : JsNumber → ℤ
  | .finite minutes => max 0 (JsNumber.truncate minutes)
  | _ => 0

section Window

variable (host : Host)

/-- `new Date(ms).toISOString()`. -/
def toISOString (ms : ℤ) : Except HoldError String :=
  if InDateRange ms then .ok (host.isoText ms) else .error .rangeError

def parsedTime (value : Option String) : Option ℤ := (truthy value).bind host.dateParse

def heldReason (labeledAt : String) (windowMinutes : ℤ) (eligibleAt : String) : String :=
  "This issue's `gittensor:priority` label was applied at " ++ labeledAt ++
    ", and priority issues open for work " ++
    toString windowMinutes ++
      " minutes later so everyone watching the repo gets the same chance to see them. " ++
    "This PR is held until " ++ eligibleAt ++
      ", then continues normally — nothing else about it is affected and no " ++
    "action is needed from you."

def evaluatePriorityEligibilityWindow (input : PriorityEligibilityInput) :
    Except HoldError PriorityEligibilityResult :=
  let windowMinutes := wholeMinutes input.windowMinutes
  if windowMinutes ≤ 0 then .ok .eligible
  else
    match parsedTime host input.labeledAt, parsedTime host input.prCreatedAt with
    | some labeledAt, some prCreatedAt =>
      let eligibleAtMs := labeledAt + windowMinutes * 60000
      if eligibleAtMs ≤ prCreatedAt then .ok .eligible
      else do
        let eligibleAt ← toISOString host eligibleAtMs
        let labeled ← toISOString host labeledAt
        return .held (heldReason labeled windowMinutes eligibleAt) eligibleAt
    | _, _ => .ok .eligible

end Window

/-! ## The hold -/

/-- What a pass knows of a pull request and the issues that it links. -/
structure HoldInput where
  linkedIssues : List ℕ
  prCreatedAt : Option String
  windowMinutes : JsNumber
  priorityLabel : Option String
  token : Option String
  /-- When the label first landed on an issue; `none` also where the read fails. -/
  fetchLabeledAt : ℕ → Option String
  /-- The labels of the issues that the caller knows. -/
  issueLabels : ℕ → Option (List String)

structure PriorityHold where
  reason : String
  comment : String
  deriving DecidableEq

def holdReason (issueNumber : ℕ) (eligibleAt : String) : String :=
  priorityEligibilityRuleId ++ ": issue #" ++ toString issueNumber ++
    " opens for work at " ++ eligibleAt

section Hold

variable (host : Host)

/-- The caller knows the labels of the issue, and the wanted one is not among them. -/
def ruledOut (input : HoldInput) (wanted : String) (issueNumber : ℕ) : Bool :=
  match input.issueLabels issueNumber with
  | some known => !known.any fun label => host.toLowerCase label == wanted
  | none => false

/-- The walk over the linked issues. -/
def holdOnFirst (input : HoldInput) (wanted : String) :
    List ℕ → Except HoldError (Option PriorityHold)
  | [] => .ok none
  | issueNumber :: rest =>
    if ruledOut host input wanted issueNumber then holdOnFirst input wanted rest
    else
      match input.fetchLabeledAt issueNumber with
      | none => holdOnFirst input wanted rest
      | some labeledAt => do
        let verdict ← evaluatePriorityEligibilityWindow host ⟨input.windowMinutes, some labeledAt,
          input.prCreatedAt⟩
        match verdict with
        | .eligible => holdOnFirst input wanted rest
        | .held reason eligibleAt => return some ⟨holdReason issueNumber eligibleAt, reason⟩

def resolvePriorityEligibilityHold (input : HoldInput) : Except HoldError (Option PriorityHold) :=
  match input.windowMinutes with
  | .finite minutes =>
    if minutes ≤ 0 then .ok none
    else if input.linkedIssues = [] ∨ truthy input.prCreatedAt = none ∨
      truthy input.token = none then .ok none
    else
      match truthy input.priorityLabel with
      | none => .ok none
      | some priorityLabel =>
        holdOnFirst host input (host.toLowerCase priorityLabel) input.linkedIssues
  | _ => .ok none

/-- What a pass at an instant resolves for the pull request: it is told the same facts, and no
time. -/
def holdAt (_nowMs : ℤ) (input : HoldInput) : Except HoldError (Option PriorityHold) :=
  resolvePriorityEligibilityHold host input

end Hold

/-! ## Promises -/

/-- A linked priority issue with the instants of its label and of its opening. -/
structure Opening where
  issueNumber : ℕ
  labeledAt : ℤ
  opensAt : ℤ
  deriving DecidableEq

section Promises

variable (host : Host) (input : HoldInput)

/-- When an issue opens for work, where it is a priority issue and the time of its label is
known. -/
def openingOf (wanted : String) (issueNumber : ℕ) : Option Opening :=
  if ruledOut host input wanted issueNumber then none
  else (parsedTime host (input.fetchLabeledAt issueNumber)).map fun labeledAt =>
    ⟨issueNumber, labeledAt, labeledAt + wholeMinutes input.windowMinutes * 60000⟩

/-- The linked priority issues that were not yet open when the pull request was created. -/
def lates : List Opening :=
  match truthy input.priorityLabel, truthy input.token, parsedTime host input.prCreatedAt with
  | some priorityLabel, some _, some prCreatedAt =>
    if wholeMinutes input.windowMinutes ≤ 0 then []
    else (input.linkedIssues.filterMap
      (openingOf host input (host.toLowerCase priorityLabel))).filter
      (prCreatedAt < ·.opensAt)
  | _, _, _ => []

/-- The hold names the instant. -/
def States (hold : PriorityHold) (ms : ℤ) : Prop :=
  ∃ issueNumber, hold.reason = holdReason issueNumber (host.isoText ms)

/-- **What a hold promises**: it names the latest opening instant, and from that instant on there is
no hold. -/
structure HoldKept : Prop where
  latest : ∀ hold, resolvePriorityEligibilityHold host input = .ok (some hold) →
    ∃ late ∈ lates host input, States host hold late.opensAt ∧ ∀ other ∈ lates host input,
      other.opensAt ≤ late.opensAt
  ends : ∀ hold, resolvePriorityEligibilityHold host input = .ok (some hold) →
    ∀ ms, States host hold ms → ∀ nowMs, ms ≤ nowMs → holdAt host nowMs input = .ok none

/-- The hold on account of an issue. -/
def holdFor (late : Opening) : Except HoldError (Option PriorityHold) := do
  let eligibleAt ← toISOString host late.opensAt
  let labeled ← toISOString host late.labeledAt
  return some ⟨holdReason late.issueNumber eligibleAt,
    heldReason labeled (wholeMinutes input.windowMinutes) eligibleAt⟩

/-- Both dates of the hold can be written. -/
def Opening.Writable (late : Opening) : Prop :=
  InDateRange late.opensAt ∧ InDateRange late.labeledAt

end Promises

section Walk

variable (host : Host) (input : HoldInput) (wanted : String)

/-- Without a window or a time of creation every issue is open. -/
theorem holdOnFirst_open
    (h : wholeMinutes input.windowMinutes ≤ 0 ∨ parsedTime host input.prCreatedAt = none)
    (issues : List ℕ) : holdOnFirst host input wanted issues = .ok none := by
  have heligible (labeledAt : Option String) :
      evaluatePriorityEligibilityWindow host ⟨input.windowMinutes, labeledAt, input.prCreatedAt⟩ =
        .ok .eligible := by
    unfold evaluatePriorityEligibilityWindow
    rcases h with h | h
    · exact if_pos h
    · simp only [h]
      split
      · rfl
      · cases parsedTime host labeledAt <;> rfl
  induction issues with
  | nil => rfl
  | cons issueNumber rest ih =>
    rw [holdOnFirst, ih]
    split
    · rfl
    · cases input.fetchLabeledAt issueNumber with
      | none => rfl
      | some labeledAt => simp only [heligible]; rfl

/-- The verdict on an issue that the caller does not rule out. -/
theorem evaluate_openingOf {created : ℤ} (hwindow : ¬wholeMinutes input.windowMinutes ≤ 0)
    (hcreated : parsedTime host input.prCreatedAt = some created) {issueNumber : ℕ}
    (hruled : ¬ruledOut host input wanted issueNumber) :
    evaluatePriorityEligibilityWindow host
        ⟨input.windowMinutes, input.fetchLabeledAt issueNumber, input.prCreatedAt⟩ =
      match (openingOf host input wanted issueNumber).filter (created < ·.opensAt) with
      | none => .ok .eligible
      | some late => do
        let eligibleAt ← toISOString host late.opensAt
        let labeled ← toISOString host late.labeledAt
        return .held (heldReason labeled (wholeMinutes input.windowMinutes) eligibleAt)
          eligibleAt := by
  unfold evaluatePriorityEligibilityWindow openingOf
  rw [if_neg hruled]
  simp only [hcreated, if_neg hwindow]
  cases parsedTime host (input.fetchLabeledAt issueNumber) with
  | none => rfl
  | some labeledAt =>
    by_cases hopen : labeledAt + wholeMinutes input.windowMinutes * 60000 ≤ created
    · simp [Option.filter, hopen, not_lt.2 hopen]
    · simp [Option.filter, hopen, not_le.1 hopen]

/-- The first issue that was not yet open decides. -/
theorem holdOnFirst_eq {created : ℤ} (hwindow : ¬wholeMinutes input.windowMinutes ≤ 0)
    (hcreated : parsedTime host input.prCreatedAt = some created) (issues : List ℕ) :
    holdOnFirst host input wanted issues =
      match ((issues.filterMap (openingOf host input wanted)).filter
        (created < ·.opensAt)).head? with
      | none => .ok none
      | some late => holdFor host input late := by
  induction issues with
  | nil => rfl
  | cons issueNumber rest ih =>
    rw [holdOnFirst, ih]
    by_cases hruled : ruledOut host input wanted issueNumber
    · rw [if_pos hruled, filterMap_cons, openingOf, if_pos hruled]
    · have hverdict := evaluate_openingOf host input wanted hwindow hcreated hruled
      rw [if_neg hruled]
      cases hfetch : input.fetchLabeledAt issueNumber with
      | none =>
        have hnone : openingOf host input wanted issueNumber = none := by
          rw [openingOf, if_neg hruled, hfetch]
          rfl
        rw [filterMap_cons, hnone]
      | some labeledAt =>
        rw [hfetch] at hverdict
        simp only [hverdict]
        rw [filterMap_cons]
        cases hopening : openingOf host input wanted issueNumber with
        | none => rfl
        | some late =>
          by_cases hlate : created < late.opensAt
          · have hissue : late.issueNumber = issueNumber := by
              rw [openingOf, if_neg hruled, Option.map_eq_some_iff] at hopening
              obtain ⟨_, -, rfl⟩ := hopening
              rfl
            simp only [Option.filter, hlate, decide_true, if_true, filter_cons,
              List.head?_cons, holdFor, hissue]
            unfold toISOString
            split <;> split <;> rfl
          · simp only [Option.filter, hlate, decide_false, filter_cons]
            rfl

end Walk

section Kept

variable (host : Host) (input : HoldInput)

theorem lates_eq_nil (h : wholeMinutes input.windowMinutes ≤ 0) : lates host input = [] := by
  unfold lates
  split
  · rw [if_pos h]
  · rfl

theorem wholeMinutes_nonpos {minutes : ℚ} (h : minutes ≤ 0) :
    wholeMinutes (.finite minutes) ≤ 0 := by
  rw [wholeMinutes, JsNumber.truncate]
  split
  · next hnonneg => rw [le_antisymm h hnonneg, Int.floor_zero, max_self]
  · exact max_le le_rfl (Int.ceil_le.2 (by exact_mod_cast h))

/-- A window of a positive number, whole minutes or not. -/
theorem resolve_finite {minutes : ℚ} (hminutes : input.windowMinutes = .finite minutes)
    (hpositive : ¬minutes ≤ 0) :
    resolvePriorityEligibilityHold host input =
      match (lates host input).head? with
      | none => .ok none
      | some late => holdFor host input late := by
  unfold resolvePriorityEligibilityHold
  rw [hminutes]
  simp only [if_neg hpositive]
  cases hlabel : truthy input.priorityLabel with
  | none => simp [lates, hlabel]
  | some priorityLabel =>
    cases htoken : truthy input.token with
    | none => simp [lates, hlabel, htoken]
    | some token =>
      by_cases hopen : wholeMinutes input.windowMinutes ≤ 0 ∨
        parsedTime host input.prCreatedAt = none
      · have hnil : lates host input = [] := by
          rcases hopen with hopen | hopen
          · exact lates_eq_nil host input hopen
          · simp [lates, hlabel, htoken, hopen]
        simp only [holdOnFirst_open host input _ hopen, hnil, List.head?_nil, ite_self]
      · obtain ⟨hwindow, hcreated⟩ := not_or.1 hopen
        obtain ⟨created, hcreated⟩ := Option.ne_none_iff_exists'.1 hcreated
        have htruthy : truthy input.prCreatedAt ≠ none := by
          intro hnone
          simp [parsedTime, hnone] at hcreated
        simp only [lates, hlabel, htoken, hcreated, if_neg hwindow, htruthy, reduceCtorEq, or_false]
        rw [holdOnFirst_eq host input _ hwindow hcreated]
        split
        · next hnil => simp [hnil]
        · rfl

/-- **The first linked issue that was not yet open decides**, wherever it opens among the others. -/
theorem resolve_eq : resolvePriorityEligibilityHold host input =
    match (lates host input).head? with
    | none => .ok none
    | some late => holdFor host input late := by
  have hoff (hwindow : wholeMinutes input.windowMinutes ≤ 0)
      (hnone : resolvePriorityEligibilityHold host input =
        .ok none) : resolvePriorityEligibilityHold host input =
        match (lates host input).head? with
        | none => .ok none
        | some late => holdFor host input late := by
    rw [hnone, lates_eq_nil host input hwindow]
    rfl
  cases hminutes : input.windowMinutes with
  | infinite negative =>
    exact hoff (hminutes ▸ le_rfl) (by rw [resolvePriorityEligibilityHold, hminutes])
  | nan => exact hoff (hminutes ▸ le_rfl) (by rw [resolvePriorityEligibilityHold, hminutes])
  | finite minutes =>
    by_cases hpositive : minutes ≤ 0
    · exact hoff (hminutes ▸ wholeMinutes_nonpos hpositive)
        (by simp only [resolvePriorityEligibilityHold, hminutes, if_pos hpositive])
    · exact resolve_finite host input hminutes hpositive

theorem holdFor_eq_ok {late : Opening} {hold : Option PriorityHold} :
    holdFor host input late = .ok hold ↔ late.Writable ∧ hold = some ⟨holdReason late.issueNumber
      (host.isoText late.opensAt),
        heldReason (host.isoText late.labeledAt) (wholeMinutes input.windowMinutes)
        (host.isoText late.opensAt)⟩ := by
  unfold holdFor toISOString Opening.Writable
  by_cases hopens : InDateRange late.opensAt
  · by_cases hlabeled : InDateRange late.labeledAt
    · simp only [hopens, hlabeled, true_and]
      exact ⟨fun h => (Except.ok.inj h).symm, fun h => h ▸ rfl⟩
    · simp only [if_pos hopens, hlabeled, and_false, false_and, iff_false]
      exact nofun
  · simp only [hopens, false_and, iff_false]
    exact nofun

/-- **A hold keeps what it promises exactly where there is none**: where every linked priority issue
was open when the pull request was created, or the first that was not opens at no date that can be
written. -/
theorem hold_kept_iff (host : Host) (input : HoldInput) :
    HoldKept host input ↔ ∀ late ∈ (lates host input).head?, ¬late.Writable := by
  constructor
  · intro hkept late hlate hwritable
    have hresolve : resolvePriorityEligibilityHold host input = holdFor host input late := by
      rw [resolve_eq, Option.mem_def.1 hlate]
    have hheld := hresolve.trans ((holdFor_eq_ok host input).2 ⟨hwritable, rfl⟩)
    have hfreed := hkept.ends _ hheld late.opensAt ⟨_, rfl⟩ late.opensAt le_rfl
    rw [holdAt, hheld] at hfreed
    cases hfreed
  · intro hnone
    have hfree (hold : PriorityHold) : resolvePriorityEligibilityHold host input ≠
        .ok (some hold) := by
      rw [resolve_eq]
      cases hlates : (lates host input).head? with
      | none => exact nofun
      | some late => exact fun h => hnone late hlates ((holdFor_eq_ok host input).1 h).1
    exact ⟨fun hold h => absurd h (hfree hold), fun hold h => absurd h (hfree hold)⟩

/-- A pull request that links two issues, the first of which opens a minute before the second. -/
def twoIssues : HoldInput where
  linkedIssues := [1, 2]
  prCreatedAt := some "2026-07-07T10:05:00.000Z"
  windowMinutes := .finite 30
  priorityLabel := some "gittensor:priority"
  token := some "t"
  fetchLabeledAt issueNumber :=
    some (if issueNumber = 1 then "2026-07-07T09:59:00.000Z" else "2026-07-07T10:00:00.000Z")
  issueLabels _ := none

/-- The dates of half an hour, with their times. -/
def isoTexts : List (String × ℤ) :=
  [("2026-07-07T09:59:00.000Z", 1783418340000), ("2026-07-07T10:00:00.000Z", 1783418400000),
    ("2026-07-07T10:05:00.000Z", 1783418700000), ("2026-07-07T10:29:00.000Z", 1783420140000),
    ("2026-07-07T10:30:00.000Z", 1783420200000)]

def isoHost : Host where
  toRuntime := { asciiRuntime with dateParse := fun text => isoTexts.lookup text }
  isoText ms := ((isoTexts.find? (·.2 == ms)).map Prod.fst).getD (toString ms)

theorem two_issues_held : ¬HoldKept isoHost twoIssues := by
  rw [hold_kept_iff]
  intro hnone
  exact hnone ⟨1, 1783418340000, 1783420140000⟩ (show _ = _ by decide +kernel)
    ⟨by decide, by decide⟩

/-- The text of a hold gives its date back. -/
theorem holdReason_inj {m n : ℕ} {s t : String} (h : holdReason m s = holdReason n t) : s = t := by
  have hdigits (k : ℕ) : ∀ c ∈ k.repr.toList, c.isDigit = true := by
    intro c hc
    rw [Nat.toList_repr] at hc
    exact Nat.isDigit_of_mem_toDigits (by decide) (by decide) hc
  simp only [holdReason, String.append_assoc, String.append_right_inj, Nat.toString_eq_repr] at h
  -- Behind the digits of the number stands a blank, which is none.
  have hbehind := congrArg (fun text => text.toList.dropWhile Char.isDigit) h
  have hblank (rest : List Char) : (" opens for work at ".toList ++ rest).dropWhile Char.isDigit =
      " opens for work at ".toList ++ rest := rfl
  simp only [String.toList_append, dropWhile_append_of_pos (hdigits _), hblank] at hbehind
  exact String.toList_inj.1 (append_cancel_left hbehind)

/-- **The moment that a hold names** is the latest exactly where the first issue that was not yet
open opens last. -/
theorem states_latest_iff (hiso : Function.Injective host.isoText) :
    (∀ hold, resolvePriorityEligibilityHold host input = .ok (some hold) →
      ∃ late ∈ lates host input, States host hold late.opensAt ∧ ∀ other ∈ lates host input,
        other.opensAt ≤ late.opensAt) ↔
    ∀ first ∈ (lates host input).head?, first.Writable →
      ∀ other ∈ lates host input, other.opensAt ≤ first.opensAt := by
  have hresolve := resolve_eq host input
  cases hfirst : (lates host input).head? with
  | none =>
    rw [hfirst] at hresolve
    simp [hresolve]
  | some first =>
    rw [hfirst] at hresolve
    simp only [hresolve, holdFor_eq_ok, Option.mem_some_iff, Option.some.injEq, forall_eq']
    constructor
    · intro hlatest hwritable
      obtain ⟨late, -, ⟨issueNumber, hreason⟩, hmax⟩ := hlatest _ ⟨hwritable, rfl⟩
      have heq : first.opensAt = late.opensAt := hiso (holdReason_inj hreason)
      rwa [heq]
    · rintro hlast hold ⟨hwritable, rfl⟩
      exact ⟨first, mem_of_mem_head? hfirst, ⟨_, rfl⟩, hlast hwritable⟩

end Kept

end LoopOver.PriorityEligibility
