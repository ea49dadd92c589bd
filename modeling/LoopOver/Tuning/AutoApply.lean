import LoopOver.Text
import Mathlib.Data.Rat.Defs
import Mathlib.Algebra.Order.Ring.Rat

/-!
# Tuning that applies itself

`src/review/auto-apply.ts` keeps, for a project, an override of its confidence floor and of the cap
on the scope of a change. A recommendation that tightens is queued as a shadow override first; a
later tick promotes it to the live one.

* `rowToOverride`, `mergeOverride` and `isStrictlyTightening` are about overrides, and
  `evaluateShadowPromotion` is the gate of a promotion.
* `writeLiveOverride` and `writeShadowOverride` merge an override into the row that they read.
* `runAutoApplyRecommendations` is a tick.

A read that fails is one that found no row: `Reads` says which of the reads of a tick are answered.
The texts of times are compared, and `IsoClock` says that those of `toISOString` are in the order of
their times.
-/

namespace LoopOver.Tuning

/-! ## Overrides -/

/-- How times are written, in the order of their texts. -/
structure IsoClock where
  toISOString : ℤ → String
  ordered : ∀ {s t : ℤ}, InFourDigitYear s → InFourDigitYear t → s < t →
    toISOString s < toISOString t

/-- The largest change that passes without a hold. -/
structure ScopeCap where
  files : ℚ
  lines : ℚ
  deriving DecidableEq

/-- What tuning may override. -/
structure TunableOverride where
  confidenceFloor : Option ℚ
  scopeCap : Option ScopeCap
  deriving DecidableEq

/-- A row of `tunables_overrides`. -/
structure OverrideRow where
  confidenceFloor : Option ℚ
  scopeCapFiles : Option ℚ
  scopeCapLines : Option ℚ
  clearAt : Option String
  deriving DecidableEq

/-- A row of `tunables_overrides_shadow`. -/
structure ShadowRow extends OverrideRow where
  validatedUntil : Option String
  deriving DecidableEq

/-- An override that is tried out, and until when. -/
structure ShadowOverride where
  override : TunableOverride
  validatedUntil : Option String

/-- Without a time nothing is expired. -/
def clearAtIsExpired (clearAt nowIso : Option String) : Bool :=
  (truthy clearAt).any fun clearAt => (truthy nowIso).any fun nowIso => decide (clearAt ≤ nowIso)

/-- What a row overrides: values out of range count as absent. -/
def rowToOverride (row : Option OverrideRow) (nowIso : Option String) : Option TunableOverride := do
  let row ← row
  if clearAtIsExpired row.clearAt nowIso then none
  else
    let confidenceFloor := row.confidenceFloor.filter fun floor => 0 ≤ floor && floor ≤ 1
    let scopeCap := do
      let files ← row.scopeCapFiles.filter fun files => 0 < files
      let lines ← row.scopeCapLines.filter fun lines => 0 < lines
      return ScopeCap.mk files lines
    if confidenceFloor.isSome || scopeCap.isSome then some ⟨confidenceFloor, scopeCap⟩ else none

/-- The newer override wins field by field. -/
def mergeOverride (base : Option TunableOverride) (next : TunableOverride) : TunableOverride where
  confidenceFloor := next.confidenceFloor <|> base.bind (·.confidenceFloor)
  scopeCap := next.scopeCap <|> base.bind (·.scopeCap)

/-- Nothing gets looser, and something gets tighter. -/
def isStrictlyTightening (o : TunableOverride) (liveFloor : Option ℚ)
    (liveScopeCap : Option ScopeCap) : Bool :=
  let dropsFloor := o.confidenceFloor.any fun floor => liveFloor.any fun live => floor < live
  let raisesFloor := o.confidenceFloor.any fun floor => liveFloor.all fun live => live < floor
  let raisesCap := o.scopeCap.any fun cap => liveScopeCap.any fun live =>
    live.files < cap.files || live.lines < cap.lines
  let shrinksCap := o.scopeCap.any fun cap => liveScopeCap.all fun live =>
    cap.files < live.files || cap.lines < live.lines
  !dropsFloor && !raisesCap && (raisesFloor || shrinksCap)

/-! ## Promotion -/

/-- `SHADOW_PROMOTION_MIN_DECIDED`. -/
def shadowPromotionMinDecided : ℕ := 10

/-- From this precision on nothing needs to be tightened. -/
def riskMergePrecision : ℚ := 9 / 10

/-- A day. -/
def shadowSoakMs : ℤ := 24 * 60 * 60 * 1000

/-- What the gate of a promotion reads. -/
structure PromotionArgs where
  override : TunableOverride
  liveFloor : Option ℚ
  liveScopeCap : Option ScopeCap
  decided : ℕ
  validatedUntilIso : Option String
  nowIso : String
  currentMergePrecision : Option ℚ

/-- Why an override is promoted or not. -/
inductive PromotionReason
  | notTightening
  | insufficientEvidence
  | stillSoaking
  | recovered
  | promoted
  deriving DecidableEq

/-- The answer of the gate. -/
structure PromotionGate where
  promote : Bool
  reason : PromotionReason
  deriving DecidableEq

/-- A promotion tightens, on evidence, after the soak, while the risk lasts. -/
def evaluateShadowPromotion (args : PromotionArgs) : PromotionGate :=
  if !isStrictlyTightening args.override args.liveFloor args.liveScopeCap then
    ⟨false, .notTightening⟩
  else if args.decided < shadowPromotionMinDecided then ⟨false, .insufficientEvidence⟩
  else if (truthy args.validatedUntilIso).all fun until_ => args.nowIso < until_ then
    ⟨false, .stillSoaking⟩
  else if args.currentMergePrecision.any fun precision => riskMergePrecision ≤ precision then
    ⟨false, .recovered⟩
  else ⟨true, .promoted⟩

/-! ## The two rows of a project -/

/-- The live row of a project and its shadow row. -/
structure Tunables where
  live : Option OverrideRow
  shadow : Option ShadowRow
  deriving DecidableEq

section Rows

variable (answered : Bool) (nowIso : Option String) (tunables : Tunables)

/-- The row that a read finds. -/
def find {Row : Type} (row : Option Row) : Option Row := if answered then row else none

/-- The override that is in force. -/
def loadOverride : Option TunableOverride := rowToOverride (find answered tunables.live) nowIso

/-- The override that is tried out. -/
def loadShadowOverride : Option ShadowOverride := do
  let row ← find answered tunables.shadow
  let override ← rowToOverride (some row.toOverrideRow) nowIso
  return ⟨override, row.validatedUntil⟩

/-- The row that an override is written to. -/
def overrideRow (merged : TunableOverride) (clearAt : Option String) : OverrideRow where
  confidenceFloor := merged.confidenceFloor
  scopeCapFiles := merged.scopeCap.map (·.files)
  scopeCapLines := merged.scopeCap.map (·.lines)
  clearAt := clearAt

/-- The `clear_at` of a row, unless it is over. -/
def keptClearAt (row : OverrideRow) : Option String :=
  if clearAtIsExpired row.clearAt nowIso then none else row.clearAt

/-- The override is merged into the live row that was read. -/
def writeLiveOverride (o : TunableOverride) : Tunables :=
  let existingRow := find answered tunables.live
  let merged := mergeOverride (rowToOverride existingRow nowIso) o
  { tunables with live := some (overrideRow merged (existingRow.bind (keptClearAt nowIso))) }

/-- `DELETE FROM tunables_overrides`. -/
def deleteLiveOverride : Tunables := { tunables with live := none }

/-- The override is merged into the shadow row that was read. -/
def writeShadowOverride (o : TunableOverride) (validatedUntilIso : String) : Tunables :=
  let existingRow := (find answered tunables.shadow).map ShadowRow.toOverrideRow
  let merged := mergeOverride (rowToOverride existingRow nowIso) o
  { tunables with
    shadow :=
      some ⟨overrideRow merged (existingRow.bind (keptClearAt nowIso)), some validatedUntilIso⟩ }

/-- `DELETE FROM tunables_overrides_shadow`. -/
def deleteShadowOverride : Tunables := { tunables with shadow := none }

end Rows

/-! ## Ticks -/

/-- How a recommendation is applied, and when. -/
structure ApplyOptions where
  force : Bool
  soakMs : ℤ
  nowMs : ℤ

/-- An override that is forced is live at once, and any other is queued. -/
def applyOverrideRecommendation (clock : IsoClock) (answered : Bool) (payload : TunableOverride)
    (opts : ApplyOptions) (tunables : Tunables) : Tunables :=
  if opts.force then writeLiveOverride answered (some (clock.toISOString opts.nowMs))
    tunables payload
  else writeShadowOverride answered none tunables payload
    (clock.toISOString (opts.nowMs + opts.soakMs))

/-- A recommendation, of which only the override counts. -/
structure TuningRec where
  overridePayload : Option TunableOverride

/-- The floor and the cap of a project. -/
structure GateConfig where
  confidenceFloor : ℚ
  scopeCap : Option ScopeCap
  deriving DecidableEq

/-- What an override makes of the configuration. -/
def GateConfig.under (base : GateConfig) (live : Option TunableOverride) : GateConfig where
  confidenceFloor := (live.bind (·.confidenceFloor)).getD base.confidenceFloor
  scopeCap := live.bind (·.scopeCap) <|> base.scopeCap

/-- What a tick knows of the project. -/
structure AutoApplyContext where
  autoTune : Bool
  base : GateConfig
  decided : ℕ
  weightedMergePrecision : Option ℚ
  recs : List TuningRec
  nowMs : ℤ

/-- Which reads of a tick are answered, in their order: the live override, the shadow override, the
row that the new shadow override is merged into, the shadow override again, and the row that a
promoted one is merged into. -/
structure Reads where
  live : Bool
  shadow : Bool
  shadowRow : Bool
  shadowAgain : Bool
  liveRow : Bool

/-- What a tick leaves, with the override that it queued and the one that it promoted. -/
structure TickResult where
  tunables : Tunables
  queued : Option TunableOverride
  promoted : Option TunableOverride

section Ticks

variable (clock : IsoClock) (ctx : AutoApplyContext) (reads : Reads) (tunables : Tunables)

/-- What the tick takes for the live configuration. -/
def liveConfig : GateConfig :=
  ctx.base.under (loadOverride reads.live (some (clock.toISOString ctx.nowMs)) tunables)

/-- The first recommendation that tightens. -/
def recommended : Option TunableOverride :=
  let live := liveConfig clock ctx reads tunables
  (ctx.recs.filterMap (·.overridePayload)).find? fun payload =>
    isStrictlyTightening payload (some live.confidenceFloor) live.scopeCap

/-- The recommendation becomes a shadow override that has to soak. -/
def queueRecommendation (payload : Option TunableOverride) : Tunables :=
  match payload with
  | none => tunables
  | some payload => applyOverrideRecommendation clock reads.shadowRow payload ⟨false, shadowSoakMs,
    ctx.nowMs⟩ tunables

/-- The gate, for a shadow override that was found. -/
def promotionGate (shadow : ShadowOverride) : PromotionGate :=
  let live := liveConfig clock ctx reads tunables
  evaluateShadowPromotion ⟨shadow.override, some live.confidenceFloor, live.scopeCap, ctx.decided,
    shadow.validatedUntil, clock.toISOString ctx.nowMs, ctx.weightedMergePrecision⟩

/-- A tick queues an override if none is tried out, and promotes one that passes the gate. -/
def runAutoApplyRecommendations : TickResult :=
  if !ctx.autoTune then ⟨tunables, none, none⟩
  else
    let alreadyShadowed := loadShadowOverride reads.shadow none tunables
    let payload := if alreadyShadowed.isNone then recommended clock ctx reads tunables else none
    let queued := queueRecommendation clock ctx reads tunables payload
    match alreadyShadowed <|> loadShadowOverride reads.shadowAgain none queued with
    | none => ⟨queued, payload, none⟩
    | some shadow =>
      if (promotionGate clock ctx reads tunables shadow).promote then
        ⟨deleteShadowOverride
          (writeLiveOverride reads.liveRow (some (clock.toISOString ctx.nowMs)) queued
          shadow.override), payload, some shadow.override⟩
      else ⟨queued, payload, none⟩

end Ticks

end LoopOver.Tuning
