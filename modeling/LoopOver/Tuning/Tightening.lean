import LoopOver.Foundations.Runs
import LoopOver.Tuning.AutoApply

/-!
# Autonomous tuning only tightens

Ticks of one project, with overrides that an operator forces, deletes or gives another expiry. A
tick judges a shadow override by the live row that it reads first, and merges it into the row that
it reads last; either read may fail.

* `OnlyTightens` is what a tick has to keep to.
* `KeepsTight` is the condition: where one of these reads fails, the shadow override that the tick
  is about to promote is not looser than the row that is stored.
* `promotes_iff` says when a tick promotes, and `live_of_promotes` what it leaves then.
* **`only_tightens_iff`**: the ticks of a run keep to it exactly if they meet the condition.
* `tuning_loosened` is a run in which the first read fails.
-/

namespace LoopOver.Tuning

open List

/-! ## Runs -/

/-- A tick, at a time that is written with a year of four digits, as is the end of a soak that
begins then. -/
structure Tick where
  ctx : AutoApplyContext
  reads : Reads
  dated : InFourDigitYear ctx.nowMs
  soakDated : InFourDigitYear (ctx.nowMs + shadowSoakMs)

/-- What happens to the overrides of one gate. -/
inductive Action
  | tick (tick : Tick)
  /-- An operator forces an override; the read of the write may fail. -/
  | force (payload : TunableOverride) (nowMs : ℤ) (answered : Bool)
  | deleteLiveOverride
  | setClearAt (clearAt : Option String)

/-- The rows, and the shadow rows that ticks have written, with the times of these ticks. -/
structure TuningState where
  tunables : Tunables
  written : List (ℤ × ShadowRow)

section Definitions

variable (clock : IsoClock)

def tickResult (tick : Tick) (s : TuningState) : TickResult :=
  runAutoApplyRecommendations clock tick.ctx tick.reads s.tunables

/-- The shadow row that the tick writes. -/
def writtenBy (tick : Tick) (s : TuningState) : Option ShadowRow :=
  (tickResult clock tick s).queued.bind fun payload =>
    (queueRecommendation clock tick.ctx tick.reads s.tunables (some payload)).shadow

def step (s : TuningState) : Action → Option TuningState
  | .tick tick =>
    some ⟨(tickResult clock tick s).tunables,
      s.written ++ (writtenBy clock tick s).toList.map (tick.ctx.nowMs, ·)⟩
  | .force payload nowMs answered =>
    some { s with
      tunables := applyOverrideRecommendation clock answered payload ⟨true, 0, nowMs⟩ s.tunables }
  | .deleteLiveOverride => some { s with tunables := Tuning.deleteLiveOverride s.tunables }
  | .setClearAt clearAt =>
    some { s with tunables :=
      { s.tunables with live := s.tunables.live.map ({ · with clearAt := clearAt }) } }

/-- The floor and the cap that are in force: those of the stored live override, unless it is over,
else the base. -/
def effective (ctx : AutoApplyContext) (tunables : Tunables) : GateConfig :=
  ctx.base.under (rowToOverride tunables.live (some (clock.toISOString ctx.nowMs)))

/-- The first cap is within the second one, where no cap is no bound. -/
def CapWithin (cap of : Option ScopeCap) : Prop :=
  ∀ bound ∈ of, ∃ c ∈ cap, c.files ≤ bound.files ∧ c.lines ≤ bound.lines

structure NotLooser (before after : GateConfig) : Prop where
  floor : before.confidenceFloor ≤ after.confidenceFloor
  cap : CapWithin after.scopeCap before.scopeCap

/-- What holds of a tick. -/
structure TickTightens (tick : Tick) (s : TuningState) : Prop where
  tightens : ∀ o, (tickResult clock tick s).promoted = some o →
    NotLooser (effective clock tick.ctx s.tunables)
      (effective clock tick.ctx (tickResult clock tick s).tunables)
  unchanged : (tickResult clock tick s).promoted = none →
    (tickResult clock tick s).tunables.live = s.tunables.live
  soaked : ∀ o, (tickResult clock tick s).promoted = some o →
    ∃ written ∈ s.written, written.1 + shadowSoakMs ≤ tick.ctx.nowMs ∧
      rowToOverride (some written.2.toOverrideRow) none = some o
  evidence : ∀ o, (tickResult clock tick s).promoted = some o →
    shadowPromotionMinDecided ≤ tick.ctx.decided
  warranted : ∀ o, (tickResult clock tick s).promoted = some o →
    ∀ precision ∈ tick.ctx.weightedMergePrecision, precision < riskMergePrecision

def OnlyTightens (s : TuningState) : Action → Prop
  | .tick tick => TickTightens clock tick s
  | _ => True

/-- The stored shadow override is one that the tick finds and that passes its gate. -/
structure Promotes (tick : Tick) (tunables : Tunables) (shadow : ShadowOverride) : Prop where
  enabled : tick.ctx.autoTune = true
  stored : loadShadowOverride true none tunables = some shadow
  found : tick.reads.shadow = true ∨
    tick.reads.shadowAgain = true ∧ recommended clock tick.ctx tick.reads tunables = none
  passes : (promotionGate clock tick.ctx tick.reads tunables shadow).promote = true

/-- The override has no field that is looser. -/
structure Covers (config : GateConfig) (o : TunableOverride) : Prop where
  floor : ∀ floor ∈ o.confidenceFloor, config.confidenceFloor ≤ floor
  cap : o.scopeCap ≠ none → CapWithin o.scopeCap config.scopeCap

/-- Where the override has no field, the base is not looser. -/
structure BaseCovers (base config : GateConfig) (o : TunableOverride) : Prop where
  floor : o.confidenceFloor = none → config.confidenceFloor ≤ base.confidenceFloor
  cap : o.scopeCap = none → CapWithin base.scopeCap config.scopeCap

/-- Where the tick is about to promote an override and a read of the live row fails, nothing gets
looser. -/
def KeepsTight (s : TuningState) : Action → Prop
  | .tick tick => ∀ shadow, Promotes clock tick s.tunables shadow →
      (tick.reads.live = false → Covers (effective clock tick.ctx s.tunables) shadow.override) ∧
      (tick.reads.liveRow = false →
        BaseCovers tick.ctx.base (effective clock tick.ctx s.tunables) shadow.override)
  | _ => True

end Definitions

/-! ## Overrides -/

section Overrides

variable {o : TunableOverride} {row : OverrideRow} {nowIso : Option String}
  {config before after : GateConfig}
  {a b : Option ScopeCap}

theorem CapWithin.refl (cap : Option ScopeCap) : CapWithin cap cap := fun bound hbound =>
  ⟨bound, hbound, le_rfl, le_rfl⟩

/-- An override that a row can have: it says something, and its values are in their ranges. -/
structure Valid (o : TunableOverride) : Prop where
  floor : ∀ floor ∈ o.confidenceFloor, 0 ≤ floor ∧ floor ≤ 1
  cap : ∀ cap ∈ o.scopeCap, 0 < cap.files ∧ 0 < cap.lines
  nonempty : o.confidenceFloor ≠ none ∨ o.scopeCap ≠ none

theorem valid_of_rowToOverride {row : Option OverrideRow} (h : rowToOverride row nowIso = some o) :
    Valid o := by
  obtain ⟨row, -, h⟩ := Option.bind_eq_some_iff.1 h
  split at h
  · cases h
  · dsimp only at h
    split at h
    · next hsome =>
      obtain rfl := Option.some.inj h
      refine ⟨fun floor hfloor => ?_, fun cap hcap => ?_, ?_⟩
      · have hrange := (Option.filter_eq_some_iff.1 hfloor).2
        rwa [Bool.and_eq_true, decide_eq_true_iff, decide_eq_true_iff] at hrange
      · obtain ⟨files, hfiles, hcap⟩ := Option.bind_eq_some_iff.1 hcap
        obtain ⟨lines, hlines, hcap⟩ := Option.bind_eq_some_iff.1 hcap
        obtain rfl := Option.some.inj hcap
        exact ⟨of_decide_eq_true (Option.filter_eq_some_iff.1 hfiles).2,
          of_decide_eq_true (Option.filter_eq_some_iff.1 hlines).2⟩
      · rw [Bool.or_eq_true, Option.isSome_iff_ne_none, Option.isSome_iff_ne_none] at hsome
        exact hsome
    · cases h

/-- A valid override is read from its row as it was written. -/
theorem rowToOverride_overrideRow (h : Valid o) {clearAt : Option String}
    (hclear : clearAtIsExpired clearAt nowIso = false) :
    rowToOverride (some (overrideRow o clearAt)) nowIso = some o := by
  obtain ⟨confidenceFloor, scopeCap⟩ := o
  have hfloor : (overrideRow ⟨confidenceFloor, scopeCap⟩ clearAt).confidenceFloor.filter
      (fun floor => decide (0 ≤ floor) && decide (floor ≤ 1)) = confidenceFloor := by
    cases confidenceFloor with
    | none => rfl
    | some floor =>
      refine Option.filter_eq_some_iff.2 ⟨rfl, ?_⟩
      rw [Bool.and_eq_true, decide_eq_true_iff, decide_eq_true_iff]
      exact h.floor floor rfl
  have hcap : ((overrideRow ⟨confidenceFloor, scopeCap⟩ clearAt).scopeCapFiles.filter
      (fun files => decide (0 < files))).bind
        (fun files => ((overrideRow ⟨confidenceFloor, scopeCap⟩ clearAt).scopeCapLines.filter
        fun lines => decide (0 < lines)).bind fun lines => some (ScopeCap.mk files lines)) =
          scopeCap := by
    cases scopeCap with
    | none => rfl
    | some cap =>
      obtain ⟨hfiles, hlines⟩ := h.cap cap rfl
      simp [overrideRow, Option.filter, hfiles, hlines]
  have hsome : (confidenceFloor.isSome || scopeCap.isSome) = true := by
    rw [Bool.or_eq_true, Option.isSome_iff_ne_none, Option.isSome_iff_ne_none]
    exact h.nonempty
  show (if clearAtIsExpired clearAt nowIso then none else _) = _
  rw [hclear, if_neg Bool.false_ne_true]
  simp only [Option.bind_eq_bind, Option.pure_def]
  rw [hfloor, hcap, if_pos hsome]

theorem Valid.merge {base : Option TunableOverride} (hbase : ∀ old ∈ base, Valid old)
    (h : Valid o) :
    Valid (mergeOverride base o) := by
  refine ⟨fun floor hfloor => ?_, fun cap hcap => ?_, ?_⟩
  · rcases (Option.orElse_eq_some _ _ _).1 hfloor with hnew | ⟨-, hold⟩
    · exact h.floor floor hnew
    · obtain ⟨old, hmem, hold⟩ := Option.bind_eq_some_iff.1 hold
      exact (hbase old hmem).floor floor hold
  · rcases (Option.orElse_eq_some _ _ _).1 hcap with hnew | ⟨-, hold⟩
    · exact h.cap cap hnew
    · obtain ⟨old, hmem, hold⟩ := Option.bind_eq_some_iff.1 hold
      exact (hbase old hmem).cap cap hold
  · refine h.nonempty.imp (fun hne hnone => ?_) (fun hne hnone => ?_)
    · exact hne ((Option.orElse_eq_none _ _).1 hnone).1
    · exact hne ((Option.orElse_eq_none _ _).1 hnone).1

/-- What a tightening override does not loosen. -/
theorem covers_of_isStrictlyTightening
    (h : isStrictlyTightening o (some config.confidenceFloor) config.scopeCap = true) :
    Covers config o := by
  rw [isStrictlyTightening, Bool.and_eq_true, Bool.and_eq_true, Bool.not_eq_true',
    Bool.not_eq_true'] at h
  obtain ⟨⟨hfloor, hcap⟩, -⟩ := h
  refine ⟨fun floor hmem => ?_, fun hne bound hbound => ?_⟩
  · rw [Option.any_eq_false] at hfloor
    have hnot := hfloor floor hmem
    rw [Option.any_some, decide_eq_false_iff_not, not_lt] at hnot
    exact hnot
  · obtain ⟨cap, hmem⟩ := Option.ne_none_iff_exists'.1 hne
    rw [Option.any_eq_false] at hcap
    have hnot := hcap cap hmem
    rw [Option.any_eq_false] at hnot
    have hbound' := hnot bound hbound
    rw [Bool.or_eq_false_iff, decide_eq_false_iff_not, decide_eq_false_iff_not, not_lt,
      not_lt] at hbound'
    exact ⟨cap, hmem, hbound'⟩

/-- To merge two overrides is to apply one after the other. -/
theorem under_mergeOverride (base : GateConfig) (old : Option TunableOverride)
    (o : TunableOverride) :
    base.under (some (mergeOverride old o)) = (base.under old).under (some o) := by
  obtain ⟨floor, cap⟩ := o
  cases floor <;> cases cap <;> rfl

/-- What a configuration under an override has to be, not to be looser. -/
theorem notLooser_under_iff {base : GateConfig} :
    NotLooser before (base.under (some o)) ↔ Covers before o ∧ BaseCovers base before o := by
  obtain ⟨floor, cap⟩ := o
  constructor
  · rintro ⟨hfloor, hcap⟩
    refine ⟨⟨?_, fun hne => ?_⟩, ⟨fun hnone => ?_, fun hnone => ?_⟩⟩
    · rintro _ ⟨⟩
      exact hfloor
    · obtain ⟨cap, rfl⟩ := Option.ne_none_iff_exists'.1 hne
      exact hcap
    · obtain rfl : floor = none := hnone
      exact hfloor
    · obtain rfl : cap = none := hnone
      exact hcap
  · rintro ⟨hcovers, hbase⟩
    constructor
    · cases floor with
      | none => exact hbase.floor rfl
      | some floor => exact hcovers.floor floor rfl
    · cases cap with
      | none => exact hbase.cap rfl
      | some cap => exact hcovers.cap (Option.some_ne_none cap)

end Overrides

/-! ## Ticks -/

section Ticks

variable {clock : IsoClock} {ctx : AutoApplyContext} {reads : Reads} {tunables : Tunables}
  {tick : Tick}
  {shadow : ShadowOverride} {o : TunableOverride} {s s' : TuningState} {action : Action}

theorem evaluateShadowPromotion_promote {args : PromotionArgs} :
    (evaluateShadowPromotion args).promote = true ↔
      isStrictlyTightening args.override args.liveFloor args.liveScopeCap = true ∧
        shadowPromotionMinDecided ≤ args.decided ∧
        (∃ validated ∈ truthy args.validatedUntilIso, ¬args.nowIso < validated) ∧
        ∀ precision ∈ args.currentMergePrecision, precision < riskMergePrecision := by
  unfold evaluateShadowPromotion
  split
  · next h => simp_all
  · next htighter =>
    rw [Bool.not_eq_true', Bool.not_eq_false] at htighter
    split
    · next h => simp [Nat.not_le.2 h]
    · next hdecided =>
      rw [Nat.not_lt] at hdecided
      split
      · next h =>
        rw [Option.all_eq_true] at h
        simp only [Bool.false_eq_true, false_iff]
        rintro ⟨-, -, ⟨validated, hmem, hnot⟩, -⟩
        exact hnot (of_decide_eq_true (h validated hmem))
      · next hsoaked =>
        have hsoaked' : ∃ validated ∈ truthy args.validatedUntilIso, ¬args.nowIso < validated := by
          rw [Bool.not_eq_true, Option.all_eq_false] at hsoaked
          obtain ⟨validated, hmem, hnot⟩ := hsoaked
          exact ⟨validated, hmem, of_decide_eq_false hnot⟩
        split
        · next h =>
          obtain ⟨precision, hmem, hle⟩ := (Option.any_eq_true _ _).1 h
          simp only [Bool.false_eq_true, false_iff]
          rintro ⟨-, -, -, hlow⟩
          exact absurd (hlow precision hmem) (not_lt.2 (of_decide_eq_true hle))
        · next h =>
          rw [Bool.not_eq_true, Option.any_eq_false] at h
          refine ⟨fun _ => ⟨htighter, hdecided, hsoaked', fun precision hmem => ?_⟩, fun _ => rfl⟩
          exact not_le.1 (of_decide_eq_false (h precision hmem))

variable {answered : Bool}

/-- A read that is not answered finds nothing. -/
theorem answered_of_loadShadowOverride {nowIso : Option String}
    (h : loadShadowOverride answered nowIso tunables = some shadow) :
    answered = true ∧ loadShadowOverride true nowIso tunables = some shadow := by
  cases answered with
  | true => exact ⟨rfl, h⟩
  | false => cases h

theorem validated_of_queue {payload : TunableOverride}
    (h : loadShadowOverride answered none
      (queueRecommendation clock ctx reads tunables (some payload)) = some shadow) :
    shadow.validatedUntil = some (clock.toISOString (ctx.nowMs + shadowSoakMs)) := by
  obtain ⟨-, h⟩ := answered_of_loadShadowOverride h
  -- The row that was just written is the one that is found.
  obtain ⟨override, -, h⟩ := Option.bind_eq_some_iff.1 h
  obtain rfl := Option.some.inj h
  rfl

theorem live_queueRecommendation (payload : Option TunableOverride) :
    (queueRecommendation clock ctx reads tunables payload).live = tunables.live := by
  cases payload <;> rfl

/-- What is queued in a tick is not promoted in it. -/
theorem not_promote_of_queue (tick : Tick) {payload : TunableOverride}
    (h : loadShadowOverride answered none
      (queueRecommendation clock tick.ctx tick.reads tunables (some payload)) = some shadow) :
    ¬(promotionGate clock tick.ctx tick.reads tunables shadow).promote = true := by
  intro hpromote
  obtain ⟨-, -, ⟨validated, hmem, hnot⟩, -⟩ := evaluateShadowPromotion_promote.1 hpromote
  rw [validated_of_queue h] at hmem
  have hvalidated : clock.toISOString (tick.ctx.nowMs + shadowSoakMs) = validated :=
    Option.some.inj (Option.filter_eq_some_iff.1 hmem).1
  refine hnot (hvalidated ▸ clock.ordered tick.dated tick.soakDated ?_)
  unfold shadowSoakMs
  omega

/-- **A tick that promotes** queues nothing, and merges the override into the live row that it
reads. -/
theorem tick_of_promotes (h : Promotes clock tick tunables shadow) :
    runAutoApplyRecommendations clock tick.ctx tick.reads tunables =
      ⟨deleteShadowOverride
        (writeLiveOverride tick.reads.liveRow (some (clock.toISOString tick.ctx.nowMs)) tunables
        shadow.override), none, some shadow.override⟩ := by
  have henabled : ¬(!tick.ctx.autoTune) = true := by rw [h.enabled]; exact Bool.false_ne_true
  rw [runAutoApplyRecommendations, if_neg henabled]
  by_cases hread : tick.reads.shadow = true
  · rw [hread, h.stored]
    simp only [Option.isNone_some, Bool.false_eq_true, if_false, queueRecommendation]
    show (if (promotionGate clock tick.ctx tick.reads tunables shadow).promote = true then
      _ else _) = _
    rw [if_pos h.passes]
  · obtain ⟨hagain, hnone⟩ := h.found.resolve_left hread
    have hmissed : loadShadowOverride tick.reads.shadow none tunables = none := by
      rw [eq_false_of_ne_true hread]
      rfl
    simp only [hmissed, hnone, queueRecommendation, hagain, h.stored, ite_self]
    show (if (promotionGate clock tick.ctx tick.reads tunables shadow).promote = true then
      _ else _) = _
    rw [if_pos h.passes]

/-- A tick that does not promote queues an override, or none. -/
theorem tick_of_not_promotes (h : ∀ shadow, ¬Promotes clock tick tunables shadow) :
    ∃ payload, runAutoApplyRecommendations clock tick.ctx tick.reads tunables =
      ⟨queueRecommendation clock tick.ctx tick.reads tunables payload, payload, none⟩ := by
  unfold runAutoApplyRecommendations
  split
  · exact ⟨none, rfl⟩
  · next henabled =>
    rw [Bool.not_eq_true', Bool.not_eq_false] at henabled
    simp only
    split
    · exact ⟨_, rfl⟩
    · next shadow hfound =>
      rw [if_neg]
      · exact ⟨_, rfl⟩
      · intro hpromote
        cases hread : loadShadowOverride tick.reads.shadow none tunables with
        | some stored =>
          obtain ⟨hanswered, hstored⟩ := answered_of_loadShadowOverride hread
          rw [hread] at hfound
          obtain rfl := Option.some.inj hfound
          exact h _ ⟨henabled, hstored, Or.inl hanswered, hpromote⟩
        | none =>
          rw [hread] at hfound
          cases hpayload : recommended clock tick.ctx tick.reads tunables with
          | none =>
            rw [hpayload] at hfound
            change loadShadowOverride tick.reads.shadowAgain none tunables = some shadow at hfound
            obtain ⟨hanswered, hstored⟩ := answered_of_loadShadowOverride hfound
            exact h _ ⟨henabled, hstored, Or.inr ⟨hanswered, hpayload⟩, hpromote⟩
          | some payload =>
            rw [hpayload] at hfound
            change loadShadowOverride tick.reads.shadowAgain none
              (queueRecommendation clock tick.ctx tick.reads tunables (some payload)) =
                some shadow at hfound
            exact not_promote_of_queue tick hfound hpromote

/-- The configuration after a promotion: the override over what was read of the live one. -/
theorem effective_of_promotes (h : Promotes clock tick tunables shadow) :
    effective clock tick.ctx
      (runAutoApplyRecommendations clock tick.ctx tick.reads tunables).tunables =
      (tick.ctx.base.under (rowToOverride (find tick.reads.liveRow tunables.live)
        (some (clock.toISOString tick.ctx.nowMs)))).under (some shadow.override) := by
  have hvalid : Valid shadow.override := by
    obtain ⟨row, -, hrow⟩ := Option.bind_eq_some_iff.1 h.stored
    obtain ⟨override, hoverride, hshadow⟩ := Option.bind_eq_some_iff.1 hrow
    obtain rfl := Option.some.inj hshadow
    exact valid_of_rowToOverride hoverride
  have hclear : clearAtIsExpired ((find tick.reads.liveRow tunables.live).bind
      (keptClearAt (some (clock.toISOString tick.ctx.nowMs))))
        (some (clock.toISOString tick.ctx.nowMs)) = false := by
    cases find tick.reads.liveRow tunables.live with
    | none => rfl
    | some row =>
      rw [Option.bind_some, keptClearAt]
      split
      · rfl
      · next hkept => exact eq_false_of_ne_true hkept
  rw [tick_of_promotes h, effective]
  show tick.ctx.base.under (rowToOverride (some (overrideRow (mergeOverride _ _) _)) _) = _
  rw [rowToOverride_overrideRow (Valid.merge (fun old hold => valid_of_rowToOverride hold) hvalid)
    hclear,
    under_mergeOverride]

/-- **When a promotion does not loosen**: a read of the live row that is answered is enough on its
side. -/
theorem notLooser_iff (h : Promotes clock tick tunables shadow) :
    NotLooser (effective clock tick.ctx tunables)
        (effective clock tick.ctx
          (runAutoApplyRecommendations clock tick.ctx tick.reads tunables).tunables) ↔
      (tick.reads.live = false → Covers (effective clock tick.ctx tunables) shadow.override) ∧
        (tick.reads.liveRow = false →
          BaseCovers tick.ctx.base (effective clock tick.ctx tunables) shadow.override) := by
  rw [effective_of_promotes h, notLooser_under_iff]
  refine and_congr ⟨fun hcovers _ => hcovers, fun hcovers => ?_⟩ ⟨fun hbase hread => ?_,
    fun hbase => ?_⟩
  · cases hread : tick.reads.live with
    | false => exact hcovers hread
    | true =>
      have htightening := (evaluateShadowPromotion_promote.1 h.passes).1
      have hlive : liveConfig clock tick.ctx tick.reads tunables =
          effective clock tick.ctx tunables := by
        rw [liveConfig, loadOverride, hread]
        rfl
      rw [hlive] at htightening
      exact covers_of_isStrictlyTightening htightening
  · rw [hread] at hbase
    exact hbase
  · cases hread : tick.reads.liveRow with
    | false => exact hbase hread
    | true => exact ⟨fun _ => le_rfl, fun _ => CapWithin.refl _⟩

/-- The stored shadow row is one that a tick has written, to be promoted a soak later. -/
def Soaking (clock : IsoClock) (s : TuningState) : Prop :=
  ∀ row ∈ s.tunables.shadow, ∃ writtenAt, (writtenAt, row) ∈ s.written ∧
    InFourDigitYear (writtenAt + shadowSoakMs) ∧
    row.validatedUntil = some (clock.toISOString (writtenAt + shadowSoakMs))

theorem step_soaking (h : Soaking clock s) (hstep : step clock s action = some s') :
    Soaking clock s' := by
  cases action with
  | tick tick =>
    obtain rfl := Option.some.inj hstep
    intro row hrow
    by_cases hpromotes : ∃ shadow, Promotes clock tick s.tunables shadow
    · obtain ⟨shadow, hpromotes⟩ := hpromotes
      simp only [tickResult, tick_of_promotes hpromotes] at hrow
      cases hrow
    · obtain ⟨payload, htick⟩ :=
        tick_of_not_promotes fun shadow hshadow => hpromotes ⟨shadow, hshadow⟩
      simp only [tickResult, htick] at hrow
      cases payload with
      | none =>
        obtain ⟨writtenAt, hwritten, hrest⟩ := h row hrow
        exact ⟨writtenAt, mem_append_left _ hwritten, hrest⟩
      | some payload =>
        refine ⟨tick.ctx.nowMs, mem_append_right _ (mem_map.2 ⟨row, ?_, rfl⟩), tick.soakDated, ?_⟩
        · rw [Option.mem_toList, writtenBy, tickResult, htick]
          exact hrow
        · obtain rfl := Option.some.inj hrow
          rfl
  | force payload nowMs answered =>
    obtain rfl := Option.some.inj hstep
    exact h
  | deleteLiveOverride =>
    obtain rfl := Option.some.inj hstep
    exact h
  | setClearAt clearAt =>
    obtain rfl := Option.some.inj hstep
    exact h

/-- **What a tick keeps to**, when it was all in order until then. -/
theorem onlyTightens_iff (h : Soaking clock s) :
    OnlyTightens clock s action ↔ KeepsTight clock s action := by
  cases action with
  | tick tick =>
    constructor
    · intro htightens shadow hpromotes
      have hpromoted : (tickResult clock tick s).promoted = some shadow.override := by
        rw [tickResult, tick_of_promotes hpromotes]
      exact (notLooser_iff hpromotes).1 (htightens.tightens _ hpromoted)
    · intro hkeeps
      by_cases hpromotes : ∃ shadow, Promotes clock tick s.tunables shadow
      · obtain ⟨shadow, hpromotes⟩ := hpromotes
        obtain ⟨-, hdecided, ⟨validated, hvalidated, hsoaked⟩, hprecision⟩ :=
          evaluateShadowPromotion_promote.1 hpromotes.passes
        have hpromoted : (tickResult clock tick s).promoted = some shadow.override := by
          rw [tickResult, tick_of_promotes hpromotes]
        refine ⟨fun _ _ => (notLooser_iff hpromotes).2 (hkeeps shadow hpromotes), fun hnone => ?_,
          fun o ho => ?_,
          fun _ _ => hdecided, fun _ _ => hprecision⟩
        · rw [hpromoted] at hnone
          cases hnone
        · obtain rfl := Option.some.inj (hpromoted.symm.trans ho)
          obtain ⟨row, hrow, hload⟩ := Option.bind_eq_some_iff.1 hpromotes.stored
          obtain ⟨override, hoverride, hshadow⟩ := Option.bind_eq_some_iff.1 hload
          obtain rfl := Option.some.inj hshadow
          obtain ⟨writtenAt, hwritten, hdated, huntil⟩ := h row hrow
          refine ⟨(writtenAt, row), hwritten, ?_, hoverride⟩
          -- The text of now is not before that of the end of the soak, so now is not.
          by_contra hearly
          have hsame : clock.toISOString (writtenAt + shadowSoakMs) = validated := by
            rw [huntil] at hvalidated
            exact Option.some.inj (Option.filter_eq_some_iff.1 hvalidated).1
          exact hsoaked (hsame ▸ clock.ordered tick.dated hdated (not_le.1 hearly))
      · obtain ⟨payload, htick⟩ :=
          tick_of_not_promotes fun shadow hshadow => hpromotes ⟨shadow, hshadow⟩
        have hnone : (tickResult clock tick s).promoted = none := by rw [tickResult, htick]
        refine ⟨fun o ho => ?_, fun _ => ?_, fun o ho => ?_, fun o ho => ?_, fun o ho => ?_⟩
        · rw [hnone] at ho
          cases ho
        · rw [tickResult, htick]
          exact live_queueRecommendation payload
        · rw [hnone] at ho
          cases ho
        · rw [hnone] at ho
          cases ho
        · rw [hnone] at ho
          cases ho
  | _ => exact Iff.rfl

/-- **Autonomous tuning only tightens, exactly where no failed read hides that it does not.** In a
run of ticks, forced overrides, deletions and changes of the expiry that starts without a shadow
override, every tick loosens nothing, leaves the live row if it promotes nothing, and promotes only
what soaked and is still backed, exactly if in every tick that finds a shadow override which passes
its gate this one is not looser than the row that is stored, in its own fields if the tick could not
read that row before, and for the base in the others if it could not read it again. -/
theorem only_tightens_iff (clock : IsoClock) (live : Option OverrideRow) (actions : List Action) :
    Runs.AllSteps (step clock) (OnlyTightens clock) ⟨⟨live, none⟩, []⟩ actions ↔
      Runs.AllSteps (step clock) (KeepsTight clock) ⟨⟨live, none⟩, []⟩ actions :=
  Runs.allSteps_congr (Soaking clock) (fun _ _ hsoaking => onlyTightens_iff hsoaking)
    (fun _ _ _ hsoaking _ hstep => step_soaking hsoaking hstep) nofun

end Ticks

/-! ## A tick that loosens -/

/-- Of two texts that begin differently, at the same length, the order is that of their
beginnings. -/
theorem append_lt_append {xs ys : List Char} (as bs : List Char) (h : xs < ys)
    (hlength : xs.length = ys.length) :
    xs ++ as < ys ++ bs := by
  induction xs generalizing ys with
  | nil =>
    obtain rfl := length_eq_zero_iff.1 hlength.symm
    exact absurd h (List.lt_irrefl _)
  | cons x xs ih =>
    cases ys with
    | nil => cases hlength
    | cons y ys =>
      rw [cons_append, cons_append, cons_lt_cons_iff]
      rw [cons_lt_cons_iff] at h
      exact h.imp_right fun hrest => ⟨hrest.1, ih hrest.2 (Nat.succ.inj hlength)⟩

theorem replicate_lt {m n : ℕ} (h : m < n) : List.replicate m '0' < List.replicate n '0' := by
  induction m generalizing n with
  | zero =>
    obtain ⟨n, rfl⟩ := Nat.exists_eq_add_of_lt h
    exact nil_lt_cons _ _
  | succ m ih =>
    obtain ⟨n, rfl⟩ := Nat.exists_eq_add_of_lt h
    rw [replicate_succ, replicate_succ, cons_lt_cons_iff]
    exact Or.inr ⟨rfl, ih (by omega)⟩

def firstDayMs : ℤ := 1767225600000

/-- A text that begins with a day. -/
def dayText (day : List Char) (ms : ℤ) : List Char :=
  day ++ ("T00:00:00.000Z".toList ++ List.replicate ms.toNat '0')

def firstDay : List Char := ['2', '0', '2', '6', '-', '0', '1', '-', '0', '1']

def secondDay : List Char := ['2', '0', '2', '6', '-', '0', '1', '-', '0', '2']

def zerothYear : List Char := ['0', '0', '0', '0', '-', '0', '1', '-', '0', '1']

/-- The texts of two days, and texts between them for the other times. -/
def sampleText (ms : ℤ) : List Char :=
  if ms < firstDayMs then dayText zerothYear (ms + 62167219200000)
  else if ms < firstDayMs + shadowSoakMs then dayText firstDay (ms - firstDayMs)
  else dayText secondDay (ms - firstDayMs - shadowSoakMs)

theorem dayText_lt (day : List Char) {s t : ℤ} (hs : 0 ≤ s) (hlt : s < t) :
    dayText day s < dayText day t :=
  append_left_lt (append_left_lt (replicate_lt (by omega)))

theorem sampleText_lt {s t : ℤ} (hs : InFourDigitYear s) (hlt : s < t) :
    sampleText s < sampleText t := by
  have hdays : zerothYear < firstDay ∧ zerothYear < secondDay ∧ firstDay < secondDay := by decide
  obtain ⟨hfirst, -⟩ := hs
  by_cases hbefore : s < firstDayMs
  · rw [sampleText, if_pos hbefore, sampleText]
    split
    · exact dayText_lt _ (by omega) (by omega)
    · split
      · exact append_lt_append _ _ hdays.1 rfl
      · exact append_lt_append _ _ hdays.2.1 rfl
  · have hafter : ¬t < firstDayMs := by omega
    rw [sampleText, if_neg hbefore, sampleText, if_neg hafter]
    by_cases hday : s < firstDayMs + shadowSoakMs
    · rw [if_pos hday]
      split
      · exact dayText_lt _ (by omega) (by omega)
      · exact append_lt_append _ _ hdays.2.2 rfl
    · have hlater : ¬t < firstDayMs + shadowSoakMs := by omega
      rw [if_neg hday, if_neg hlater]
      exact dayText_lt _ (by omega) (by omega)

def sampleClock : IsoClock where
  toISOString ms := String.ofList (sampleText ms)
  ordered {s t} hs _ hlt := by
    rw [String.lt_iff, String.toList_ofList, String.toList_ofList]
    exact sampleText_lt hs hlt

/-- A project with a floor of one half, of which the merges are not precise. -/
def sampleContext (nowMs : ℤ) : AutoApplyContext where
  autoTune := true
  base := ⟨1 / 2, none⟩
  decided := 20
  weightedMergePrecision := some (1 / 2)
  recs := [⟨some ⟨some (19 / 20), none⟩⟩]
  nowMs := nowMs

def queueTick : Tick where
  ctx := sampleContext firstDayMs
  reads := ⟨true, true, true, true, true⟩
  dated := ⟨by decide, by decide⟩
  soakDated := ⟨by decide, by decide⟩

/-- A day later, the tick cannot read the live row. -/
def promotingTick : Tick where
  ctx := sampleContext (firstDayMs + shadowSoakMs)
  reads := ⟨false, true, true, true, true⟩
  dated := ⟨by decide, by decide⟩
  soakDated := ⟨by decide, by decide⟩

/-- **A tick that cannot read the live row loosens it**: an operator has forced a floor of 0.99 in
the meantime, and the one of 0.95 that was queued before takes its place. -/
theorem tuning_loosened :
    ∃ actions, ¬Runs.AllSteps (step sampleClock) (OnlyTightens sampleClock) ⟨⟨none, none⟩, []⟩
    actions := by
  refine ⟨[.tick queueTick, .force ⟨some (99 / 100), none⟩ firstDayMs true, .tick promotingTick],
    fun hall => ?_⟩
  have hcheck : (Runs.run (step sampleClock) ⟨⟨none, none⟩, []⟩
      [.tick queueTick, .force ⟨some (99 / 100), none⟩ firstDayMs true]).any (fun s =>
        (tickResult sampleClock promotingTick s).promoted.isSome &&
          decide ((effective sampleClock promotingTick.ctx
            (tickResult sampleClock promotingTick s).tunables).confidenceFloor <
              (effective sampleClock promotingTick.ctx s.tunables).confidenceFloor)) = true := by
    decide +kernel
  obtain ⟨s, hrun, hcheck⟩ := (Option.any_eq_true _ _).1 hcheck
  rw [Bool.and_eq_true, decide_eq_true_iff, Option.isSome_iff_exists] at hcheck
  obtain ⟨⟨o, hpromoted⟩, hless⟩ := hcheck
  have htick : OnlyTightens sampleClock s (.tick promotingTick) :=
    Runs.allSteps_iff.1 hall _ _ [] s rfl hrun
  exact absurd (htick.tightens o hpromoted).floor (not_le.2 hless)

end LoopOver.Tuning
