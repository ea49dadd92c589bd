import LoopOver.Miner.Names

/-!
# The reliability curve of a rule

`packages/loopover-engine/src/calibration/reliability-curve.ts` sorts the decided cases of a rule
into buckets by the confidence that they claimed, counts how many of each were confirmed, and
suggests the loosest floor that the counts support.

* `bucketIndexFor` finds the bucket of a claim, and `computeReliabilityCurve` fills the buckets.
* `deriveThresholdSuggestion` pools the buckets from the top, and takes the first floor whose pool
  is large and precise enough.

Counts and confidences are exact.
-/

namespace LoopOver.Reliability

/-! ## The curve -/

/-- What became of a decision in the end. -/
inductive CaseLabel
  | reversed
  | confirmed
  deriving DecidableEq

/-- What the curve reads of a decided case; `confidence` is `metadata?.confidence`. -/
structure BacktestCase where
  label : CaseLabel
  confidence : Untyped

structure ReliabilityBucket where
  floor : ℚ
  ceiling : ℚ
  cases : ℕ
  confirmed : ℕ
  reversed : ℕ
  precision : Option ℚ
  deriving DecidableEq

structure ReliabilityCurve where
  sampleFloor : ℚ
  buckets : List ReliabilityBucket
  deriving DecidableEq

/-- The argument that is refused. -/
inductive ReliabilityError
  | tooFewEdges (count : ℕ)
  | edgeOutside (edge : ℚ)
  | notAscending (index : ℕ)
  | invalidSampleFloor (sampleFloor : ℚ)
  | invalidTargetPrecision (targetPrecision : ℚ)
  | invalidHardMinimum (hardMinimum : ℚ)
  deriving DecidableEq

/-- The message; `show_` is how a number is written. -/
def ReliabilityError.text (show_ : ℚ → String) : ReliabilityError → String
  | tooFewEdges count => "invalid_bucket_edges: need at least 2 edges, got " ++ toString count
  | edgeOutside edge => "invalid_bucket_edges: edge outside [0, 1]: " ++ show_ edge
  | notAscending index =>
    "invalid_bucket_edges: edges must be strictly ascending at index " ++ toString index
  | invalidSampleFloor sampleFloor => "invalid_sample_floor: " ++ show_ sampleFloor
  | invalidTargetPrecision targetPrecision => "invalid_target_precision: " ++ show_ targetPrecision
  | invalidHardMinimum hardMinimum => "invalid_hard_minimum: " ++ show_ hardMinimum

/-- The bucket of a claim; `none` is `-1`. -/
def bucketIndexFor (claimed : JsNumber) (bucketEdges : List ℚ) : Option ℕ :=
  if !(JsNumber.finite (bucketEdges.headD 0)).le claimed then none
  else
    match bucketEdges.tail.findIdx? fun edge => claimed.lt (.finite edge) with
    | some i => some i
    | none =>
      if claimed = .finite (bucketEdges.getLastD 0) then some (bucketEdges.length - 2) else none

/-- The loop over the edges. -/
def checkEdges (i : ℕ) (previous : Option ℚ) : List ℚ → Except ReliabilityError Unit
  | [] => .ok ()
  | edge :: rest =>
    if !(0 ≤ edge && edge ≤ 1) then .error (.edgeOutside edge)
    else if previous.any fun below => !(below < edge) then .error (.notAscending i)
    else checkEdges (i + 1) (some edge) rest

structure BucketCount where
  cases : ℕ
  confirmed : ℕ
  reversed : ℕ

def BucketCount.add (count : BucketCount) : CaseLabel → BucketCount
  | .confirmed => { count with cases := count.cases + 1, confirmed := count.confirmed + 1 }
  | .reversed => { count with cases := count.cases + 1, reversed := count.reversed + 1 }

/-- The bucket that a case counts for. -/
def claimedIndex (bucketEdges : List ℚ) (backtestCase : BacktestCase) : Option ℕ :=
  match backtestCase.confidence with
  | .number claimed => bucketIndexFor claimed bucketEdges
  | _ => none

/-- One turn of the loop over the cases. -/
def countCase (bucketEdges : List ℚ) (counts : List BucketCount) (backtestCase : BacktestCase) :
    List BucketCount :=
  match claimedIndex bucketEdges backtestCase with
  | none => counts
  | some index => counts.modify index (·.add backtestCase.label)

def bucketOf (sampleFloor : ℚ) (edges : ℚ × ℚ) (count : BucketCount) : ReliabilityBucket where
  floor := edges.1
  ceiling := edges.2
  cases := count.cases
  confirmed := count.confirmed
  reversed := count.reversed
  precision := if sampleFloor ≤ count.cases then some (count.confirmed / count.cases) else none

def computeReliabilityCurve (cases : List BacktestCase) (bucketEdges : List ℚ) (sampleFloor : ℚ) :
    Except ReliabilityError ReliabilityCurve :=
  if bucketEdges.length < 2 then .error (.tooFewEdges bucketEdges.length)
  else
    match checkEdges 0 none bucketEdges with
    | .error e => .error e
    | .ok () =>
      if !(1 ≤ sampleFloor) then .error (.invalidSampleFloor sampleFloor)
      else
        let counts :=
          cases.foldl (countCase bucketEdges) (bucketEdges.dropLast.map fun _ => ⟨0, 0, 0⟩)
        .ok ⟨sampleFloor,
          List.zipWith (bucketOf sampleFloor) (bucketEdges.zip bucketEdges.tail) counts⟩

/-! ## The suggestion -/

/-- The cases and the confirmed ones of each bucket with all buckets above it. -/
def pooled : List ReliabilityBucket → List (ℕ × ℕ)
  | [] => []
  | bucket :: rest =>
    let above := pooled rest
    ((above.headD (0, 0)).1 + bucket.cases, (above.headD (0, 0)).2 + bucket.confirmed) :: above

/-- Whether the loop returns at a bucket with its pool. -/
def qualifies (sampleFloor targetPrecision hardMinimum : ℚ)
    (candidate : ReliabilityBucket × ℕ × ℕ) :
    Bool :=
  !(candidate.1.floor < hardMinimum) && !(candidate.2.1 < sampleFloor) &&
    targetPrecision ≤ candidate.2.2 / candidate.2.1

def deriveThresholdSuggestion (curve : ReliabilityCurve) (targetPrecision hardMinimum : ℚ) :
    Except ReliabilityError (Option ℚ) :=
  if !(0 ≤ targetPrecision && targetPrecision ≤ 1) then
    .error (.invalidTargetPrecision targetPrecision)
  else if !(0 ≤ hardMinimum && hardMinimum ≤ 1) then .error (.invalidHardMinimum hardMinimum)
  else
    .ok (((curve.buckets.zip (pooled curve.buckets)).find?
      (qualifies curve.sampleFloor targetPrecision hardMinimum)).map (·.1.floor))

/-- A suggestion for the cases. -/
def suggestThreshold (cases : List BacktestCase) (bucketEdges : List ℚ)
    (sampleFloor targetPrecision hardMinimum : ℚ) : Except ReliabilityError (Option ℚ) := do
  let curve ← computeReliabilityCurve cases bucketEdges sampleFloor
  deriveThresholdSuggestion curve targetPrecision hardMinimum

end LoopOver.Reliability
