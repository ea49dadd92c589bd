import LoopOver.Miner.LoopReentry

/-!
# The bounds of re-entry

The loop re-enters at most so many times in an hour and in a session, although nothing counts its
re-entries but the events that it finds in its ledger at every call.

* `ReentryBounded` says it of a run, for any times at which the re-entries may be said to take place
  between the time of the call and the stamp of its event. It also has the kill switch, the events,
  and the breaker of a repository.
* `LoopHolds` is the invariant: the events of the completed calls are in the ledger, in their order.
* **`reentry_bounded`**: every run is bounded.
-/

namespace LoopOver.LoopReentry

open Queue (JsonValue)
open EventLedger (EventTable EventDbRow LedgerEntry)
open List

/-! ## What is bounded -/

section Definitions

variable (host : LoopHost)

/-- A time between that of the call and the stamp of its event. -/
def CompletedCall.Spans (call : CompletedCall) (time : ℚ) : Prop :=
  call.nowMs ≤ time ∧ ∃ stamp : ℤ, host.dateParse call.result.event.createdAt = some stamp ∧
    time ≤ stamp

/-- The re-entries that were granted at times with a property. -/
def grantedAt (calls : List CompletedCall) (time : CompletedCall → ℚ) (P : ℚ → Prop)
    [DecidablePred P] :
    List CompletedCall :=
  calls.filter fun call => call.Granted ∧ P (time call)

/-- The latest pull requests of a repository with an outcome, all of them closed. -/
def LatestClosed (repoFullName : String) (prs : List ℕ) (table : EventTable) : Prop :=
  Recency.MostRecent isDisengagedOutcome (prs.map fun pr => (repoFullName, pr))
    (recordedOutcomes host repoFullName table)

def decisionEvents (table : EventTable) : List EventDbRow :=
  table.rows.filter fun row => row.eventType == loopReentryDecisionEvent

/-- A run from `start` to `s` keeps to its caps. -/
structure ReentryBounded (caps : ReentryCaps) (sessionStartMs : ℚ) (start : EventTable)
    (actions : List Action) (s : LoopState) : Prop where
  hourly : ∀ time : CompletedCall → ℚ, (∀ call ∈ s.calls, call.Spans host (time call)) → ∀ first,
    (grantedAt s.calls time fun t => first ≤ t ∧ t ≤ first + hourMs).length ≤ caps.hourly
  session : ∀ time : CompletedCall → ℚ, (∀ call ∈ s.calls, call.Spans host (time call)) →
    (grantedAt s.calls time fun t => sessionStartMs ≤ t).length ≤ caps.session
  killSwitch : ∀ call ∈ s.calls, call.Granted → call.input.killSwitchScope = .text "none"
  /-- A call that is completed appends one event, its decision. -/
  oneEvent : ∀ before input deps after result,
    Runs.Occurs (step host caps sessionStartMs) ⟨start,
      []⟩ actions before (.attemptLoopReentry input deps) after →
    (attemptLoopReentry host caps input deps before.table).1 = .ok result →
    ∃ row, after.table.rows = before.table.rows ++ [row] ∧
      row.eventType = loopReentryDecisionEvent ∧
      result.event = EventLedger.rowToEntry host.toLedgerHost row
  /-- Nothing else appends a decision. -/
  events : (decisionEvents s.table).length = (decisionEvents start).length + s.calls.length
  /-- The breaker of a repository. -/
  paused : ∀ before input deps after result repoFullName prs,
    Runs.Occurs (step host caps sessionStartMs) ⟨start,
      []⟩ actions before (.attemptLoopReentry input deps) after →
    (attemptLoopReentry host caps input deps before.table).1 = .ok result →
      input.outcome = .text "disengaged" →
    normalizeRepoFullName input.repoFullName = .ok repoFullName → prs.length = caps.consecutive →
    LatestClosed host repoFullName prs before.table → result.decision.reenter = false

/-- The ledger has the events of the calls, and the calls kept to the caps. -/
structure LoopHolds (caps : ReentryCaps) (sessionStartMs : ℚ) (start : EventTable) (s : LoopState) :
    Prop where
  inOrder : s.table.InOrder
  recorded : (s.calls.map fun call => call.result.event).Sublist
    (s.table.rows.map (EventLedger.rowToEntry host.toLedgerHost))
  marked : ∀ call ∈ s.calls, call.result.event.type = loopReentryDecisionEvent ∧
    (call.result.event.payload.field "reentered").isTrue = call.result.decision.reenter
  hourly : ∀ time : CompletedCall → ℚ, (∀ call ∈ s.calls, call.Spans host (time call)) → ∀ first,
    (grantedAt s.calls time fun t => first ≤ t ∧ t ≤ first + hourMs).length ≤ caps.hourly
  session : ∀ time : CompletedCall → ℚ, (∀ call ∈ s.calls, call.Spans host (time call)) →
    (grantedAt s.calls time fun t => sessionStartMs ≤ t).length ≤ caps.session
  killSwitch : ∀ call ∈ s.calls, call.Granted → call.input.killSwitchScope = .text "none"
  events : (decisionEvents s.table).length = (decisionEvents start).length + s.calls.length

end Definitions

/-! ## Steps -/

section Steps

variable {host : LoopHost} {caps : ReentryCaps} {sessionStartMs : ℚ} {start : EventTable}
  {s s' : LoopState}
  {action : Action} {time : CompletedCall → ℚ} {P : ℚ →
    Prop} [DecidablePred P] {call : CompletedCall}
  {calls : List CompletedCall}

theorem grantedAt_concat (calls : List CompletedCall) (call : CompletedCall)
    (time : CompletedCall → ℚ) (P : ℚ → Prop) [DecidablePred P] :
    grantedAt (calls ++ [call]) time P =
      grantedAt calls time P ++ if call.Granted ∧ P (time call) then [call] else [] := by
  rw [grantedAt, filter_append]
  refine congrArg _ ?_
  split
  · next h => simp [h]
  · next h => simpa using h

/-- One more re-entry stays within a cap if it was granted below the cap only. -/
theorem grantedAt_concat_le {cap : ℕ} (hle : (grantedAt calls time P).length ≤ cap)
    (hless : call.Granted → P (time call) → (grantedAt calls time P).length < cap) :
    (grantedAt (calls ++ [call]) time P).length ≤ cap := by
  rw [grantedAt_concat, length_append]
  split
  · next h => exact hless h.1 h.2
  · exact hle

/-- **What is granted is counted**: the events of the re-entries at times from `sinceMs` on are
found in the ledger. -/
theorem LoopHolds.granted_le (h : LoopHolds host caps sessionStartMs start s)
    (hspans : ∀ call ∈ s.calls, call.Spans host (time call)) {sinceMs : ℚ}
    (hP : ∀ t, P t → sinceMs ≤ t) :
    (grantedAt s.calls time P).length ≤
      ((s.table.rows.map (EventLedger.rowToEntry host.toLedgerHost)).filter
        (isReentrySince host sinceMs)).length := by
  have hcounted : ∀ call ∈ grantedAt s.calls time P,
      isReentrySince host sinceMs call.result.event = true := by
    intro call hcall
    obtain ⟨hcall, hat⟩ := mem_filter.1 hcall
    obtain ⟨hgranted, hat⟩ := of_decide_eq_true hat
    obtain ⟨htype, hreentered⟩ := h.marked call hcall
    obtain ⟨-, stamp, hstamp, hle⟩ := hspans call hcall
    have hsince : decide (sinceMs ≤ (stamp : ℚ)) = true := decide_eq_true ((hP _ hat).trans hle)
    rw [isReentrySince, htype, hreentered, hstamp, Option.any_some, hsince,
      show call.result.decision.reenter = true from hgranted]
    rfl
  have hsublist : ((grantedAt s.calls time P).map fun call => call.result.event).Sublist
      (s.table.rows.map (EventLedger.rowToEntry host.toLedgerHost)) :=
    (filter_sublist.map _).trans h.recorded
  have hfiltered := hsublist.filter (isReentrySince host sinceMs)
  rw [filter_eq_self.2 fun event hevent => ?_] at hfiltered
  · simpa using hfiltered.length_le
  · obtain ⟨call, hcall, rfl⟩ := mem_map.1 hevent
    exact hcounted call hcall

/-- The event that a call has appended. -/
structure Appended (host : LoopHost) (caps : ReentryCaps) (input : LoopReentryCandidateInput)
    (deps : LoopReentryDeps) (table : EventTable) (result : LoopReentryResult) (row : EventDbRow) :
    Prop where
  candidate : ∃ candidate, candidateOf host caps input deps table = .ok candidate ∧
    result.decision = shouldReenter candidate
  event : result.event = EventLedger.rowToEntry host.toLedgerHost row
  type : row.eventType = loopReentryDecisionEvent
  reentered : (result.event.payload.field "reentered").isTrue = result.decision.reenter
  createdAt : result.event.createdAt = deps.createdAt

variable {input : LoopReentryCandidateInput}

/-- A call that is completed appends its decision to the ledger. -/
theorem attemptLoopReentry_ok {deps : LoopReentryDeps} {table : EventTable}
    {result : LoopReentryResult}
    (h : (attemptLoopReentry host caps input deps table).1 = .ok result) :
    ∃ prepared, (attemptLoopReentry host caps input deps table).2 =
      EventLedger.appendRow prepared table ∧
      Appended host caps input deps table result
        { prepared with id := table.lastId + 1, seq := EventLedger.nextSeq table } := by
  rcases attemptLoopReentry_cases host caps input deps table with
    ⟨e, heq⟩ | ⟨candidate, dequeued, prepared, hcandidate, hprepared, heq⟩
  · rw [heq] at h
    cases h
  · rw [heq] at h
    obtain rfl := Except.ok.inj h
    obtain ⟨htype, -, hequal, hcreated⟩ := EventLedger.prepareEvent_ok hprepared
    refine ⟨prepared, by rw [heq], ⟨candidate, hcandidate, rfl⟩, rfl, ?_, ?_, hcreated⟩
    · have hevent : EventLedger.normalizeEventType (.text loopReentryDecisionEvent) =
          .ok loopReentryDecisionEvent := by
        decide
      exact Except.ok.inj (htype.symm.trans hevent)
    · exact (host.deepEqual_isTrue "reentered" hequal).trans rfl

/-- A step that is a call leaves the ledger as the call does. -/
theorem table_of_step {deps : LoopReentryDeps}
    (hstep : step host caps sessionStartMs s (.attemptLoopReentry input deps) = some s') :
    s'.table = (attemptLoopReentry host caps input deps s.table).2 := by
  rw [step] at hstep
  split at hstep
  · split at hstep
    · next heq =>
      obtain rfl := Option.some.inj hstep
      rw [heq]
    · next heq =>
      obtain rfl := Option.some.inj hstep
      rw [heq]
  · cases hstep

theorem length_decisionEvents_appendRow (prepared : EventDbRow) (table : EventTable) :
    (decisionEvents (EventLedger.appendRow prepared table)).length =
      (decisionEvents table).length + if prepared.eventType = loopReentryDecisionEvent then 1
        else 0 := by
  simp only [decisionEvents, EventLedger.appendRow, filter_append, length_append]
  split
  · next h => simp [h]
  · next h => simp [h]

/-- **What a step does**: a call is completed, or no call is and no decision is appended. -/
theorem step_cases (hstep : step host caps sessionStartMs s action = some s') :
    (∃ input deps result prepared, action = .attemptLoopReentry input deps ∧ Stamped host deps ∧
        deps.sessionStartMs.getD 0 = sessionStartMs ∧
        Appended host caps input deps s.table result
          { prepared with id := s.table.lastId + 1, seq := EventLedger.nextSeq s.table } ∧
        s' = ⟨EventLedger.appendRow prepared s.table, s.calls ++ [⟨input, deps.now, result⟩]⟩) ∨
      s'.calls = s.calls ∧ (s'.table = s.table ∨
        ∃ prepared, prepared.eventType ≠ loopReentryDecisionEvent ∧
          s'.table = EventLedger.appendRow prepared s.table) := by
  cases action with
  | attemptLoopReentry input deps =>
    rw [step] at hstep
    split at hstep
    · next hwhen =>
      obtain ⟨hstamped, hsession⟩ := hwhen
      split at hstep
      · next e table heq =>
        obtain rfl := Option.some.inj hstep
        refine Or.inr ⟨rfl, Or.inl ?_⟩
        rcases attemptLoopReentry_cases host caps input deps s.table with ⟨e', heq'⟩ |
          ⟨_, _, _, -, -, heq'⟩
        · exact (congrArg Prod.snd (heq.symm.trans heq'))
        · rw [heq'] at heq
          cases heq
      · next result table heq =>
        obtain rfl := Option.some.inj hstep
        obtain ⟨prepared, htable, happended⟩ := attemptLoopReentry_ok (congrArg Prod.fst heq)
        rw [heq] at htable
        obtain rfl : table = _ := htable
        exact Or.inl ⟨input, deps, result, prepared, rfl, hstamped, hsession, happended, rfl⟩
    · cases hstep
  | recordPrOutcomeSnapshot input createdAt =>
    obtain rfl := Option.some.inj hstep
    refine Or.inr ⟨rfl, ?_⟩
    show (LoopOver.recordPrOutcomeSnapshot host input createdAt s.table).2 = _ ∨ _
    unfold LoopOver.recordPrOutcomeSnapshot
    split
    · next trimmed payload _ _ =>
      rcases EventLedger.appendEvent_cases host.toLedgerHost
        ⟨.text minerPrOutcomeEvent, .text trimmed, payload.json⟩ createdAt s.table with
        ⟨e, _, heq⟩ | ⟨prepared, entry, hok, _, heq⟩
      · exact Or.inl (by rw [heq])
      · refine Or.inr ⟨prepared, ?_, by rw [heq]⟩
        have hevent : EventLedger.normalizeEventType (.text minerPrOutcomeEvent) =
            .ok minerPrOutcomeEvent := by decide
        rw [← Except.ok.inj (hevent.symm.trans (EventLedger.prepareEvent_ok hok).1)]
        decide
    · exact Or.inl rfl

/-- **What one step keeps.** -/
theorem step_holds (h : LoopHolds host caps sessionStartMs start s)
    (hstep : step host caps sessionStartMs s action = some s') :
    LoopHolds host caps sessionStartMs start s' := by
  rcases step_cases hstep with ⟨input, deps, result, prepared, rfl, hstamped, hsession,
    happended, rfl⟩ |
    ⟨hcalls, htable⟩
  · obtain ⟨candidate, hcandidate, hdecision⟩ := happended.candidate
    have hcounted := counted_of_candidateOf h.inOrder hcandidate
    have hallowed : (shouldReenter candidate).reenter = true → candidate.killSwitchScope = .none ∧
        candidate.reentriesThisHour < caps.hourly ∧
          candidate.reentriesThisSession < caps.session := by
      intro hreenter
      obtain ⟨hscope, -, hhour, hcap⟩ := shouldReenter_eq_true hreenter
      rw [hcounted.caps] at hhour hcap
      exact ⟨hscope, hhour, hcap⟩
    have hbefore : ∀ {time : CompletedCall → ℚ}, (∀ call ∈ s.calls ++ [⟨input, deps.now, result⟩],
        call.Spans host (time call)) → ∀ call ∈ s.calls, call.Spans host (time call) :=
      fun hspans call hcall => hspans call (mem_append_left _ hcall)
    refine ⟨h.inOrder.appendRow prepared, ?_, ?_, fun time hspans first => ?_,
      fun time hspans => ?_, ?_, ?_⟩
    · simp only [EventLedger.appendRow, map_append, map_singleton]
      rw [happended.event]
      exact h.recorded.append (List.Sublist.refl _)
    · rw [forall_mem_append, forall_mem_singleton]
      refine ⟨h.marked, ?_, happended.reentered⟩
      rw [happended.event]
      exact happended.type
    · refine grantedAt_concat_le (h.hourly time (hbefore hspans) first) fun hgranted hin => ?_
      -- What was granted in this hour before is in the hour that ends with the call.
      obtain ⟨hnow, -⟩ := hspans _ (mem_append_right _ mem_cons_self)
      have hless := (hallowed (hdecision ▸ hgranted)).2.1
      rw [hcounted.hour] at hless
      refine (h.granted_le (hbefore hspans) fun t ht => ?_).trans_lt hless
      have hlast := hin.2
      have hfirst := ht.1
      linarith
    · refine grantedAt_concat_le (h.session time (hbefore hspans)) fun hgranted _ => ?_
      have hless := (hallowed (hdecision ▸ hgranted)).2.2
      rw [hcounted.session, hsession] at hless
      exact (h.granted_le (hbefore hspans) fun _ => id).trans_lt hless
    · rw [forall_mem_append, forall_mem_singleton]
      refine ⟨h.killSwitch, fun hgranted => ?_⟩
      rw [hcounted.scope, (hallowed (hdecision ▸ hgranted)).1]
      rfl
    · have hevents := h.events
      rw [length_decisionEvents_appendRow, if_pos happended.type, length_append, length_singleton]
      omega
  · have hevents := h.events
    rcases htable with htable | ⟨prepared, htype, htable⟩
    · refine ⟨htable ▸ h.inOrder, ?_, hcalls ▸ h.marked, hcalls ▸ h.hourly, hcalls ▸ h.session,
        hcalls ▸ h.killSwitch, ?_⟩
      · rw [hcalls, htable]
        exact h.recorded
      · rw [hcalls, htable]
        exact hevents
    · refine ⟨htable ▸ h.inOrder.appendRow prepared, ?_, hcalls ▸ h.marked, hcalls ▸ h.hourly,
        hcalls ▸ h.session,
        hcalls ▸ h.killSwitch, ?_⟩
      · rw [hcalls, htable]
        simp only [EventLedger.appendRow, map_append]
        exact h.recorded.trans (sublist_append_left _ _)
      · rw [hcalls, htable, length_decisionEvents_appendRow, if_neg htype]
        exact hevents

theorem start_holds (h : start.InOrder) : LoopHolds host caps sessionStartMs start ⟨start, []⟩ where
  inOrder := h
  recorded := nil_sublist _
  marked _ hcall := absurd hcall not_mem_nil
  hourly _ _ _ := Nat.zero_le _
  session _ _ := Nat.zero_le _
  killSwitch _ hcall := absurd hcall not_mem_nil
  events := rfl

/-- **Re-entry is bounded**: in every run of calls and recorded outcomes, from a ledger of which
nothing was deleted, at most so many re-entries are granted in any hour and in the session, none
with a kill switch, every call leaves one event, and a repository of which the latest pull requests
were closed is not re-entered. -/
theorem reentry_bounded (host : LoopHost) (caps : ReentryCaps) (sessionStartMs : ℚ)
    {start : EventTable} {actions : List Action} {s : LoopState} (horder : start.InOrder)
    (hrun : Runs.run (step host caps sessionStartMs) ⟨start, []⟩ actions = some s) :
    ReentryBounded host caps sessionStartMs start actions s := by
  have hholds := Runs.run_invariant step_holds hrun (start_holds horder)
  refine ⟨hholds.hourly, hholds.session, hholds.killSwitch, ?_, hholds.events, ?_⟩
  · intro before input deps after result hoccurs hanswer
    obtain ⟨front, back, -, -, hstep⟩ := hoccurs
    obtain ⟨prepared, htable, happended⟩ := attemptLoopReentry_ok hanswer
    refine ⟨_, ?_, happended.type, happended.event⟩
    rw [table_of_step hstep, htable, EventLedger.appendRow]
  · intro before input deps after result repoFullName prs hoccurs hanswer hdisengaged hname
      hlength hclosed
    obtain ⟨front, back, -, hfront, -⟩ := hoccurs
    have hbefore := Runs.run_invariant step_holds hfront (start_holds horder)
    obtain ⟨prepared, -, happended⟩ := attemptLoopReentry_ok hanswer
    obtain ⟨candidate, hcandidate, hdecision⟩ := happended.candidate
    have hcounted := counted_of_candidateOf hbefore.inOrder hcandidate
    rw [hdecision, Bool.eq_false_iff]
    intro hreenter
    obtain ⟨-, hpaused, -⟩ := shouldReenter_eq_true hreenter
    obtain ⟨name, hname', hcount⟩ := hcounted.consecutive
    obtain rfl := Except.ok.inj (hname.symm.trans hname')
    have houtcome : candidate.outcome = .disengaged := by
      have htext := Untyped.text.inj (hcounted.outcome.symm.trans hdisengaged)
      revert htext
      cases candidate.outcome <;> decide
    have hless := hpaused houtcome
    rw [hcount, hcounted.caps, ← hlength] at hless
    have hle := Recency.length_le_rtakeWhile hclosed
    rw [length_map] at hle
    omega

end Steps

/-! ## A run -/

/-- Equality of two objects, up to what is inside their arrays and objects. -/
def shallowEqual : JsonValue → JsonValue → Bool
  | .object a, .object b => (a ++ b).all fun field =>
      untyped ((JsonValue.object a).property? field.1) == untyped
        ((JsonValue.object b).property? field.1) &&
        ((JsonValue.object a).field field.1).isTrue == ((JsonValue.object b).field field.1).isTrue
  | _, _ => false

theorem shallowEqual_fields {a b : JsonValue} (key : String) (h : shallowEqual a b = true) :
    untyped (a.property? key) = untyped (b.property? key) ∧
      (a.field key).isTrue = (b.field key).isTrue := by
  cases a with
  | object a =>
    cases b with
    | object b =>
      simp only [shallowEqual, all_eq_true, Bool.and_eq_true, beq_iff_eq] at h
      have hmiss : ∀ fields : List (String × JsonValue), (∀ field ∈ fields, field.1 ≠ key) →
          fields.find? (·.1 == key) = none := fun fields hfields =>
        List.find?_eq_none.2 fun field hfield heq => hfields field hfield (beq_iff_eq.1 heq)
      by_cases hkey : ∃ field ∈ a ++ b, field.1 = key
      · obtain ⟨field, hfield, rfl⟩ := hkey
        exact h field hfield
      · have hnone : ∀ field ∈ a ++ b, field.1 ≠ key :=
          fun field hfield heq => hkey ⟨field, hfield, heq⟩
        have ha := hmiss a fun field hfield => hnone field (mem_append_left _ hfield)
        have hb := hmiss b fun field hfield => hnone field (mem_append_right _ hfield)
        simp only [JsonValue.property?, JsonValue.field, ha, hb, and_self]
    | _ => cases h
  | _ => cases h

/-- The payloads of the run: two pull requests that were closed, a re-entry, and one that is
refused. -/
def samplePayloads : List JsonValue :=
  [NormalizedPrOutcomePayload.json ⟨1, .closed, none, none, none⟩,
    decisionPayload ⟨⟨none, none, none⟩, .none, "acme/widgets", .disengaged, 1, 0, 0⟩ ⟨true,
      []⟩ none none,
    NormalizedPrOutcomePayload.json ⟨2, .closed, none, none, none⟩,
    decisionPayload ⟨⟨none, none, none⟩, .none, "acme/widgets", .disengaged, 2, 1, 1⟩
      ⟨false, ["repo_paused_after_consecutive_disengagements:2>=2",
        "hourly_reentry_cap_reached:1>=1"]⟩ none none]

def scalarText : JsonValue → String
  | .bool value => toString value
  | .number value => toString value.num
  | .string value => "\"" ++ value ++ "\""
  | _ => "null"

/-- `JSON.stringify` of a flat object without escapes, whose numbers are integers. -/
def payloadText : JsonValue → Option String
  | .object fields =>
    some ("\x7b" ++ ",".intercalate (fields.map fun field => "\"" ++ field.1 ++ "\":" ++
      match field.2 with
      | .array items => "[" ++ ",".intercalate (items.map scalarText) ++ "]"
      | value => scalarText value) ++ "\x7d")
  | _ => none

def sampleHost : LoopHost where
  toISOString _ := none
  isRecord
    | .object _ => true
    | _ => false
  stringify := payloadText
  parse text := (samplePayloads.find? fun payload => payloadText payload == some text).getD .null
  isDeepStrictEqual := shallowEqual
  dateParse text := if text = "2026-01-01T00:00:00.000Z" then some 1767225600000
    else if text = "2026-01-01T00:30:00.000Z" then some 1767227400000 else none
  deepEqual_untyped key h := (shallowEqual_fields key h).1
  deepEqual_isTrue key h := (shallowEqual_fields key h).2

def sampleCall (nowMs : ℚ) (createdAt : String) : Action :=
  .attemptLoopReentry ⟨.text "none", .text "acme/widgets", .text "disengaged"⟩
    ⟨.ok none, none, some nowMs, none, none, nowMs, createdAt⟩

def sampleClose (prNumber : ℚ) (createdAt : String) : Action :=
  .recordPrOutcomeSnapshot ⟨⟨.number (.finite prNumber), .text "closed", .undefined, .undefined,
    .undefined⟩,
    .text "acme/widgets"⟩ createdAt

/-- A pull request is closed, the loop re-enters, another one is closed, and the loop asks again. -/
def sampleRun : List Action :=
  [sampleClose 1 "2026-01-01T00:00:00.000Z", sampleCall 1767225600000 "2026-01-01T00:00:00.000Z",
    sampleClose 2 "2026-01-01T00:30:00.000Z", sampleCall 1767227400000 "2026-01-01T00:30:00.000Z"]

/-- The second call meets the cap of an hour and the breaker. -/
theorem reentry_bounded_refused : ∃ s,
    Runs.run (step sampleHost ⟨some 2, some 1, none⟩ 0) ⟨⟨[], 0⟩, []⟩ sampleRun = some s ∧
    s.calls.map (fun call => call.result.decision) = [⟨true, []⟩,
      ⟨false,
        ["repo_paused_after_consecutive_disengagements:2>=2", "hourly_reentry_cap_reached:1>=1"]⟩] ∧
    ReentryBounded sampleHost ⟨some 2, some 1, none⟩ 0 ⟨[], 0⟩ sampleRun s := by
  have hcheck : (Runs.run (step sampleHost ⟨some 2, some 1, none⟩ 0) ⟨⟨[], 0⟩, []⟩ sampleRun).any
      (fun s => s.calls.map (fun call => call.result.decision) == [⟨true, []⟩,
        ⟨false, ["repo_paused_after_consecutive_disengagements:2>=2",
          "hourly_reentry_cap_reached:1>=1"]⟩]) =
      true := by
    decide +kernel
  obtain ⟨s, hrun, hdecisions⟩ := (Option.any_eq_true _ _).1 hcheck
  exact ⟨s, hrun, beq_iff_eq.1 hdecisions, reentry_bounded sampleHost _ 0 List.Pairwise.nil hrun⟩

end LoopOver.LoopReentry
