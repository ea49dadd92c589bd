import LoopOver.Tuning.Tightening

/-!
# Shadow overrides that are over

An operator can give a shadow override an expiry. From then on a tick is to treat it as cleared: it
does not promote it, queues what it would queue without it, and merges nothing of it into that. But
the tick loads the shadow row without telling the time, both times, and so does the write that
merges a new override into the row.

* `ExpiredUnheeded` is what a tick has to keep to once the row is over.
* `Harmless` is the condition on what the row still says: its override does not pass the gate of a
  promotion, no recommendation tightens where the row is found, and a recommendation that is queued
  all the same has a value of its own for each one of the row.
* **`expired_unheeded_iff`**: a tick keeps to it exactly under that condition. In `expired_promoted`
  a floor is promoted a day after it was over.
-/

namespace LoopOver.Tuning

section Definitions

variable (clock : IsoClock) (ctx : AutoApplyContext) (reads : Reads) (tunables : Tunables)

/-- The shadow row has an expiry that is not later than the tick. -/
def ShadowExpired : Prop :=
  ∃ row, tunables.shadow = some row ∧
    clearAtIsExpired row.clearAt (some (clock.toISOString ctx.nowMs)) = true

/-- The row that the tick writes for what it queues. -/
def queuedRow : Option ShadowRow :=
  (runAutoApplyRecommendations clock ctx reads tunables).queued.bind fun payload =>
    (queueRecommendation clock ctx reads tunables (some payload)).shadow

/-- The tick takes no notice of the override in the shadow row. -/
structure ExpiredUnheeded : Prop where
  /-- What is promoted can only be what was queued. -/
  promotes : (runAutoApplyRecommendations clock ctx reads tunables).queued = none →
    (runAutoApplyRecommendations clock ctx reads tunables).promoted = none
  blocks : (runAutoApplyRecommendations clock ctx reads tunables).queued =
    if ctx.autoTune then recommended clock ctx reads tunables else none
  merges : ∀ payload, (runAutoApplyRecommendations clock ctx reads tunables).queued = some payload →
    ∀ row ∈ queuedRow clock ctx reads tunables, row.toOverrideRow = overrideRow payload row.clearAt

/-- Each value of the first override is replaced by one of the second. -/
structure Replaces (o payload : TunableOverride) : Prop where
  floor : o.confidenceFloor ≠ none → payload.confidenceFloor ≠ none
  cap : o.scopeCap ≠ none → payload.scopeCap ≠ none

/-- What the shadow row still says makes no difference. -/
structure Harmless (shadow : ShadowOverride) : Prop where
  gate : reads.shadow = true ∨ reads.shadowAgain = true ∧
    recommended clock ctx reads tunables = none →
    (promotionGate clock ctx reads tunables shadow).promote = false
  alone : reads.shadow = true → recommended clock ctx reads tunables = none
  replaced : reads.shadow = false → reads.shadowRow = true →
    ∀ payload, recommended clock ctx reads tunables = some payload →
      Replaces shadow.override payload

/-- Either the tick is off, or the row says nothing, or it makes no difference. -/
def StoredHarmless : Prop := ctx.autoTune = true →
  ∀ shadow, loadShadowOverride true none tunables = some shadow →
    Harmless clock ctx reads tunables shadow

end Definitions

section Ticks

variable (clock : IsoClock) {ctx : AutoApplyContext} {reads : Reads} {tunables : Tunables}
  {shadow : ShadowOverride}
  {o payload : TunableOverride}

theorem mergeOverride_eq_iff : mergeOverride (some o) payload = payload ↔ Replaces o payload := by
  obtain ⟨floor, cap⟩ := payload
  constructor
  · intro h
    obtain ⟨hfloor, hcap⟩ := TunableOverride.mk.inj h
    refine ⟨?_, ?_⟩
    · rintro hne rfl
      exact hne (by simpa using hfloor)
    · rintro hne rfl
      exact hne (by simpa using hcap)
  · rintro ⟨hfloor, hcap⟩
    refine TunableOverride.mk.injEq _ _ _ _ ▸ ⟨?_, ?_⟩
    · cases floor with
      | none => simpa using hfloor
      | some floor => rfl
    · cases cap with
      | none => simpa using hcap
      | some cap => rfl

theorem overrideRow_inj {clearAt : Option String}
    (h : overrideRow o clearAt = overrideRow payload clearAt) :
    o = payload := by
  obtain ⟨floor, cap⟩ := o
  obtain ⟨floor', cap'⟩ := payload
  obtain ⟨hfloor, hfiles, hlines, -⟩ := OverrideRow.mk.inj h
  obtain rfl : floor = floor' := hfloor
  cases cap with
  | none =>
    cases cap' with
    | none => rfl
    | some cap' => cases hfiles
  | some cap =>
    cases cap' with
    | none => cases hfiles
    | some cap' =>
      obtain ⟨files, lines⟩ := cap
      obtain rfl : files = cap'.files := Option.some.inj hfiles
      obtain rfl : lines = cap'.lines := Option.some.inj hlines
      rfl

/-- What is queued is merged into the override of the row that is read. -/
theorem queuedRow_override (ctx : AutoApplyContext) (reads : Reads) (tunables : Tunables)
    (payload : TunableOverride) :
    ∃ row, (queueRecommendation clock ctx reads tunables (some payload)).shadow = some row ∧
      row.toOverrideRow = overrideRow
        (mergeOverride ((loadShadowOverride reads.shadowRow none tunables).map (·.override))
          payload) row.clearAt := by
  have hread : rowToOverride ((find reads.shadowRow tunables.shadow).map ShadowRow.toOverrideRow)
      none =
      (loadShadowOverride reads.shadowRow none tunables).map (·.override) := by
    unfold loadShadowOverride
    cases find reads.shadowRow tunables.shadow with
    | none => rfl
    | some row => cases h : rowToOverride (some row.toOverrideRow) none <;> simp [h]
  exact ⟨_, rfl, hread ▸ rfl⟩

theorem tick_off (reads : Reads) (tunables : Tunables) (h : ctx.autoTune = false) :
    runAutoApplyRecommendations clock ctx reads tunables = ⟨tunables, none, none⟩ := by
  rw [runAutoApplyRecommendations, h]
  rfl

/-- A tick that finds a shadow override. -/
theorem tick_of_found (h : ctx.autoTune = true)
    (hfound : loadShadowOverride reads.shadow none tunables = some shadow) :
    (runAutoApplyRecommendations clock ctx reads tunables).queued = none ∧
      ((runAutoApplyRecommendations clock ctx reads tunables).promoted = none ↔
        (promotionGate clock ctx reads tunables shadow).promote = false) := by
  have hresult : runAutoApplyRecommendations clock ctx reads tunables =
      if (promotionGate clock ctx reads tunables shadow).promote then
        ⟨deleteShadowOverride
          (writeLiveOverride reads.liveRow (some (clock.toISOString ctx.nowMs)) tunables
          shadow.override), none, some shadow.override⟩
      else ⟨tunables, none, none⟩ := by
    rw [runAutoApplyRecommendations, h, hfound]
    rfl
  rw [hresult]
  cases (promotionGate clock ctx reads tunables shadow).promote <;> simp

/-- A tick that finds none queues the recommendation. -/
theorem tick_of_not_found (h : ctx.autoTune = true)
    (hfound : loadShadowOverride reads.shadow none tunables = none) :
    (runAutoApplyRecommendations clock ctx reads tunables).queued =
      recommended clock ctx reads tunables ∧
      (recommended clock ctx reads tunables = none →
        ((runAutoApplyRecommendations clock ctx reads tunables).promoted = none ↔
          ∀ shadow, loadShadowOverride reads.shadowAgain none tunables = some shadow →
            (promotionGate clock ctx reads tunables shadow).promote = false)) := by
  simp only [runAutoApplyRecommendations, h, hfound, Bool.not_true, Bool.false_eq_true, if_false,
    Option.isNone_none, if_true]
  constructor
  · split
    · rfl
    · split <;> rfl
  · intro hnone
    simp only [hnone, queueRecommendation]
    cases loadShadowOverride reads.shadowAgain none tunables with
    | none => simp
    | some shadow =>
      cases hgate : (promotionGate clock ctx reads tunables shadow).promote <;> simp [hgate]

theorem expiredUnheeded_of_found (h : ctx.autoTune = true)
    (hfound : loadShadowOverride reads.shadow none tunables = some shadow) :
    ExpiredUnheeded clock ctx reads tunables ↔ Harmless clock ctx reads tunables shadow := by
  obtain ⟨hqueued, hpromoted⟩ := tick_of_found clock h hfound
  have hread := (answered_of_loadShadowOverride hfound).1
  constructor
  · intro hunheeded
    have hblocks := hunheeded.blocks
    rw [hqueued, h, if_pos rfl] at hblocks
    exact ⟨fun _ => hpromoted.1 (hunheeded.promotes hqueued), fun _ => hblocks.symm,
      fun hmissed => absurd (hread.symm.trans hmissed) (Bool.false_ne_true ∘ Eq.symm)⟩
  · intro hharmless
    refine ⟨fun _ => hpromoted.2 (hharmless.gate (Or.inl hread)), ?_, fun payload hpayload => ?_⟩
    · rw [hqueued, h, if_pos rfl, hharmless.alone hread]
    · exact nomatch hqueued.symm.trans hpayload

theorem expiredUnheeded_of_not_found (h : ctx.autoTune = true)
    (hfound : loadShadowOverride reads.shadow none tunables = none) :
    ExpiredUnheeded clock ctx reads tunables ↔
      (recommended clock ctx reads tunables = none → ∀ shadow,
        loadShadowOverride reads.shadowAgain none tunables = some shadow →
          (promotionGate clock ctx reads tunables shadow).promote = false) ∧
      ∀ payload, recommended clock ctx reads tunables = some payload → ∀ shadow,
        loadShadowOverride reads.shadowRow none tunables = some shadow →
          Replaces shadow.override payload := by
  obtain ⟨hqueued, hpromoted⟩ := tick_of_not_found clock h hfound
  have hmerge (payload : TunableOverride) (hpayload : recommended clock ctx reads tunables =
      some payload) :
      (∀ row ∈ queuedRow clock ctx reads tunables,
        row.toOverrideRow = overrideRow payload row.clearAt) ↔
        ∀ shadow, loadShadowOverride reads.shadowRow none tunables = some shadow →
          Replaces shadow.override payload := by
    obtain ⟨row, hrow, hoverride⟩ := queuedRow_override clock ctx reads tunables payload
    have hqueuedRow : queuedRow clock ctx reads tunables = some row := by
      rw [queuedRow, hqueued, hpayload]
      exact hrow
    rw [hqueuedRow]
    constructor
    · intro hall shadow hshadow
      rw [hall row rfl, hshadow] at hoverride
      exact mergeOverride_eq_iff.1 (overrideRow_inj hoverride).symm
    · rintro hall _ ⟨⟩
      refine hoverride.trans (congrArg (overrideRow · row.clearAt) ?_)
      cases hshadow : loadShadowOverride reads.shadowRow none tunables with
      | none => cases payload with | mk floor cap => cases floor <;> cases cap <;> rfl
      | some shadow => exact mergeOverride_eq_iff.2 (hall shadow hshadow)
  constructor
  · intro hunheeded
    refine ⟨fun hnone => (hpromoted hnone).1 (hunheeded.promotes (hqueued.trans hnone)),
      fun payload hpayload => ?_⟩
    exact (hmerge payload hpayload).1 (hunheeded.merges payload (hqueued.trans hpayload))
  · rintro ⟨hgate, hreplaced⟩
    refine ⟨fun hnone => ?_, by rw [hqueued, h, if_pos rfl], fun payload hpayload => ?_⟩
    · have hnone' := hqueued.symm.trans hnone
      exact (hpromoted hnone').2 (hgate hnone')
    · have hpayload' := hqueued.symm.trans hpayload
      exact (hmerge payload hpayload').2 (hreplaced payload hpayload')

end Ticks

/-- **A tick takes no notice of an expired shadow override** exactly where what the row still says
makes no difference. -/
theorem expired_unheeded_iff (clock : IsoClock) (ctx : AutoApplyContext) (reads : Reads)
    (tunables : Tunables) :
    (ShadowExpired clock ctx tunables → ExpiredUnheeded clock ctx reads tunables) ↔
      (ShadowExpired clock ctx tunables → StoredHarmless clock ctx reads tunables) := by
  refine imp_congr_right fun _ => ?_
  cases hauto : ctx.autoTune with
  | false =>
    have htick := tick_off clock reads tunables hauto
    refine iff_of_true ⟨fun _ => ?_, ?_, fun payload hpayload => ?_⟩ fun hon => ?_
    · rw [htick]
    · rw [htick, hauto]
      rfl
    · rw [htick] at hpayload
      cases hpayload
    · exact absurd (hauto.symm.trans hon) Bool.false_ne_true
  | true =>
    cases hfound : loadShadowOverride reads.shadow none tunables with
    | some shadow =>
      have hstored := (answered_of_loadShadowOverride hfound).2
      rw [expiredUnheeded_of_found clock hauto hfound]
      refine ⟨fun hharmless _ shadow' hstored' => ?_, fun hstores => hstores hauto shadow hstored⟩
      obtain rfl := Option.some.inj (hstored.symm.trans hstored')
      exact hharmless
    | none =>
      rw [expiredUnheeded_of_not_found clock hauto hfound]
      constructor
      · rintro ⟨hgate, hreplaced⟩ _ shadow hstored
        have hmissed : reads.shadow = false := by
          by_contra hread
          rw [Bool.not_eq_false] at hread
          rw [hread, hstored] at hfound
          cases hfound
        refine ⟨?_, fun hread => ?_, fun _ hrow payload hpayload => ?_⟩
        · rintro (hread | ⟨hagain, hnone⟩)
          · exact absurd (hmissed.symm.trans hread) Bool.false_ne_true
          · exact hgate hnone shadow (hagain ▸ hstored)
        · exact absurd (hmissed.symm.trans hread) Bool.false_ne_true
        · exact hreplaced payload hpayload shadow (hrow ▸ hstored)
      · intro hstores
        refine ⟨fun hnone shadow hagain => ?_, fun payload hpayload shadow hrow => ?_⟩
        · obtain ⟨hread, hstored⟩ := answered_of_loadShadowOverride hagain
          exact (hstores hauto shadow hstored).gate (Or.inr ⟨hread, hnone⟩)
        · obtain ⟨hread, hstored⟩ := answered_of_loadShadowOverride hrow
          have hharmless := hstores hauto shadow hstored
          by_cases hshadow : reads.shadow = true
          · exact nomatch (hharmless.alone hshadow).symm.trans hpayload
          · exact hharmless.replaced (eq_false_of_ne_true hshadow) hread payload hpayload

/-- A floor that was queued a day ago, and was over at once. -/
def expiredTunables : Tunables where
  live := none
  shadow := some ⟨⟨some (19 / 20), none, none, some (sampleClock.toISOString firstDayMs)⟩,
    some (sampleClock.toISOString firstDayMs)⟩

/-- **The floor that was over is promoted.** -/
theorem expired_promoted :
    ¬(ShadowExpired sampleClock (sampleContext (firstDayMs + shadowSoakMs)) expiredTunables →
      ExpiredUnheeded sampleClock (sampleContext (firstDayMs + shadowSoakMs)) ⟨true, true,
        true, true, true⟩
        expiredTunables) := by
  intro hunheeded
  have hpromoted := (hunheeded ⟨_, rfl, by decide +kernel⟩).promotes (by decide +kernel)
  revert hpromoted
  decide +kernel

end LoopOver.Tuning
