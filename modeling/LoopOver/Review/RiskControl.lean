import LoopOver.Number
import Mathlib.Analysis.SpecialFunctions.Log.Basic
import Mathlib.Data.List.Sort

/-!
# Risk control

`src/review/risk-control.ts` chooses the confidence from which on the gate may act on a judgment. It
takes labelled decisions, tries each confidence that was observed from the lowest one on, and
returns the first at which an upper bound of the error rate is at most `alpha`.

* The bound is a parameter: `upperBound errors n delta` stands for `clopperPearsonUpperBound`.
* `minimumCalibrationLabels` is the number of labels that even a clean set needs.
* `calibrateActThreshold` is the choice, and `scanCandidates` its loop.
* `validateCalibrationPayload` is the check of a result that comes from elsewhere.

Numbers are exact: a confidence is a rational, and so are `alpha` and `delta`.
-/

namespace LoopOver.RiskControl

/-! ## Calibration -/

/-- A confidence, and whether the decision was correct. -/
structure CalibrationPair where
  confidence : ℚ
  correct : Bool
  backfilled : Bool

structure Calibration where
  lambda : ℚ
  coverageAtLambda : ℚ
  nAtLambda : ℕ
  errorsAtLambda : ℕ
  alpha : ℚ
  delta : ℚ
  totalPairs : ℕ
  backfilledPairs : ℕ

/-- The threshold, or why there is none. -/
inductive CalibrationResult
  | calibrated (calibration : Calibration)
  | insufficientLabels (needed : ℤ) (labels : ℕ) (alpha delta : ℚ)
  | noCertifiableThreshold (totalPairs bestN : ℕ) (bestLambda : Option ℚ)
      (bestUpperBound : WithTop ℝ) (alpha delta : ℚ)

noncomputable def minimumCalibrationLabels (alpha delta : ℚ) : ℤ :=
  ⌈Real.log delta / Real.log (1 - alpha)⌉

def errorCount (pairs : List CalibrationPair) : ℕ := pairs.countP (!·.correct)

/-- The variables of the loop; `remaining` is what is sorted behind `index`. -/
structure Scan where
  dropped : ℕ
  droppedErrors : ℕ
  remaining : List CalibrationPair
  bestLambda : Option ℚ
  bestN : ℕ
  bestUpperBound : WithTop ℝ

/-- The loop that drops the pairs at `lambda`. -/
def dropStratum (lambda : ℚ) (dropped droppedErrors : ℕ) :
    List CalibrationPair → ℕ × ℕ × List CalibrationPair
  | [] => (dropped, droppedErrors, [])
  | pair :: rest =>
    if pair.confidence ≤ lambda then
      dropStratum lambda (dropped + 1) (if pair.correct then droppedErrors
        else droppedErrors + 1) rest
    else (dropped, droppedErrors, pair :: rest)

def Scan.next (scan : Scan) (lambda : ℚ) : Scan :=
  let (dropped, droppedErrors, remaining) :=
    dropStratum lambda scan.dropped scan.droppedErrors scan.remaining
  { scan with dropped, droppedErrors, remaining }

/-- What does not change in the loop. -/
structure Calibrating where
  alpha : ℚ
  delta : ℚ
  testDelta : ℚ
  effectiveNeeded : ℤ
  totalPairs : ℕ
  totalErrors : ℕ
  backfilledPairs : ℕ

variable (upperBound : ℕ → ℕ → ℚ → ℝ)

noncomputable def scanCandidates (set : Calibrating) : List ℚ → Scan → CalibrationResult
  | [], scan =>
    .noCertifiableThreshold set.totalPairs scan.bestN scan.bestLambda scan.bestUpperBound
      set.alpha set.delta
  | lambda :: candidates, scan =>
    let n := set.totalPairs - scan.dropped
    let errors := set.totalErrors - scan.droppedErrors
    if set.effectiveNeeded ≤ n then
      let bound := upperBound errors n set.testDelta
      let scan := if bound < scan.bestUpperBound then
        { scan with bestUpperBound := bound, bestLambda := lambda, bestN := n } else scan
      if bound ≤ set.alpha then
        .calibrated ⟨lambda, n / set.totalPairs, n, errors, set.alpha, set.delta, set.totalPairs,
          set.backfilledPairs⟩
      else scanCandidates set candidates (scan.next lambda)
    else scanCandidates set candidates (scan.next lambda)

noncomputable def calibrateActThreshold (pairs : List CalibrationPair) (alpha delta : ℚ) :
    CalibrationResult :=
  let needed := minimumCalibrationLabels alpha delta
  if pairs.length < needed then .insufficientLabels needed pairs.length alpha delta
  else
    let sorted := pairs.insertionSort fun a b => a.confidence ≤ b.confidence
    let candidates := (sorted.map CalibrationPair.confidence).eraseDups
    let testDelta := delta / candidates.length
    let effectiveNeeded := minimumCalibrationLabels alpha testDelta
    if sorted.length < effectiveNeeded then
      .insufficientLabels effectiveNeeded sorted.length alpha delta
    else
      scanCandidates upperBound
        ⟨alpha, delta, testDelta, effectiveNeeded, sorted.length, errorCount sorted,
          sorted.countP CalibrationPair.backfilled⟩
        candidates ⟨0, 0, sorted, candidates.head?, sorted.length, ⊤⟩

/-! ## Payloads -/

/-- A field is `none` if it is no string, or no number. -/
structure CalibrationPayload where
  status : Option String
  alpha : Option JsNumber
  lambda : Option JsNumber
  coverageAtLambda : Option JsNumber
  delta : Option JsNumber
  nAtLambda : Option JsNumber

structure ValidCalibration where
  alpha : ℚ
  lambda : ℚ
  coverageAtLambda : ℚ
  nAtLambda : ℚ
  delta : ℚ

/-- A number that passes a check, which none passes that is not finite. -/
def checkedNumber (field : Option JsNumber) (check : ℚ → Bool) : Option ℚ :=
  match field with
  | some (.finite value) => if check value then some value else none
  | _ => none

/-- The double `0.05`. -/
def maxAlpha : ℚ := 3602879701896397 / 2 ^ 56

/-- A value that is no object is `none`. -/
noncomputable def validateCalibrationPayload (value : Option CalibrationPayload) :
    Option ValidCalibration := do
  let v ← value
  if v.status ≠ some "calibrated" then none
  let alpha ← checkedNumber v.alpha fun x => 0 < x && x ≤ maxAlpha
  let lambda ← checkedNumber v.lambda fun x => 0 ≤ x && x ≤ 1
  let coverageAtLambda ← checkedNumber v.coverageAtLambda fun x => 0 ≤ x && x ≤ 1
  let delta ← checkedNumber v.delta fun x => 0 < x && x ≤ 1
  let nAtLambda ← checkedNumber v.nAtLambda fun _ => true
  if nAtLambda < minimumCalibrationLabels alpha delta then none
  else some ⟨alpha, lambda, coverageAtLambda, nAtLambda, delta⟩

/-- The result as it is stored. -/
def Calibration.payload (calibration : Calibration) : CalibrationPayload where
  status := some "calibrated"
  alpha := some (.finite calibration.alpha)
  lambda := some (.finite calibration.lambda)
  coverageAtLambda := some (.finite calibration.coverageAtLambda)
  delta := some (.finite calibration.delta)
  nAtLambda := some (.finite calibration.nAtLambda)

end LoopOver.RiskControl
