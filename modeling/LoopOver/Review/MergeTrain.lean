import LoopOver.Text
import Mathlib.Data.List.Sort

/-!
# The merge train

`src/review/merge-train.ts`: whether a merge waits for an older open pull request of the repository.
A sibling blocks only when it is older, overlaps with this pull request in a linked issue or in a
meaningful changed file, could still merge (it is neither conflicted, held for manual review nor a
draft) and has not been open for longer than a day (`mergeTrainBlocks`).

`shouldWaitForOlderSiblings` is the decision; `shouldWaitForOlderSiblings_eq_go_iff` says that a
merge goes ahead exactly when no sibling blocks it.
-/

namespace LoopOver

variable (rt : Runtime)

/-! ## Meaningful paths -/

/-- `LOCKFILE_NAMES`. -/
def lockfileNames : List String :=
  ["package-lock.json", "npm-shrinkwrap.json", "yarn.lock", "pnpm-lock.yaml", "bun.lock",
    "bun.lockb", "cargo.lock", "poetry.lock", "pipfile.lock", "composer.lock", "gemfile.lock",
    "go.sum", "go.work.sum", "uv.lock", "packages.lock.json", "flake.lock", "deno.lock",
    "pubspec.lock", "podfile.lock", "mix.lock", "package.resolved", "gradle.lockfile", "pdm.lock",
    "conan.lock", "pixi.lock", "cartfile.resolved", "gopkg.lock", "shard.lock", "rebar.lock",
    "renv.lock", "chart.lock"]

/-- The segments of a path between its slashes. -/
def pathSegments (path : List Char) : List (List Char) :=
  path.splitOn '/'

/-- Whether the last segment of the path, read with either kind of slash, names a lockfile. -/
def isLockfile (path : String) : Bool :=
  let slashed := path.toList.map fun c => if c = '\\' then '/' else c
  let norm := (rt.toLowerCase (String.ofList slashed)).toList
  lockfileNames.contains (String.ofList ((pathSegments norm).getLastD []))

/-- The directories of `LOW_SIGNAL_DIR_RE`: build output and vendored trees. -/
def lowSignalDirs : List String :=
  ["dist", "build", "out", "coverage", "node_modules", "vendor", "vendored", "third_party",
    "third-party", "bower_components", "jspm_packages"]

/-- `LOW_SIGNAL_DIR_RE`: some directory of the path is one of `lowSignalDirs`, up to case. -/
def inLowSignalDir (path : String) : Bool :=
  (pathSegments path.toList).dropLast.any fun segment =>
    lowSignalDirs.contains (rt.toLowerCase (String.ofList segment))

/-- A path whose change by two pull requests at once risks a conflict. -/
def isMeaningfulPath (path : String) : Bool := !isLockfile rt path && !inLowSignalDir rt path

/-! ## Siblings -/

/-- What the gate reads of another open pull request. -/
structure MergeTrainSibling where
  number : Nat
  createdAt : Option String := none
  mergeableState : Option String := none
  linkedIssues : List Nat := []
  changedFiles : Option (List String) := none
  heldForManualReview : Bool := false
  isDraft : Bool := false
  deriving DecidableEq, Repr

/-- `MERGE_TRAIN_MAX_WAIT_MS`: how long an open sibling can hold up a newer one. -/
def mergeTrainMaxWaitMs : Int := 24 * 60 * 60 * 1000

/-- The decision, with the siblings ahead in the order of their numbers. -/
inductive MergeTrainDecision
  | wait (blockingPr : Nat) (queueAhead : List Nat)
  | go
  deriving DecidableEq, Repr

/-- A shared linked issue, or a shared meaningful changed file. -/
def overlaps (thisPrLinkedIssues : List Nat) (thisPrChangedFiles : Option (List String))
    (sibling : MergeTrainSibling) : Bool :=
  thisPrLinkedIssues.any (fun issue => sibling.linkedIssues.contains issue) ||
    match thisPrChangedFiles, sibling.changedFiles with
    | some ours, some theirs => ours.any fun path =>
      theirs.contains path && isMeaningfulPath rt path
    | _, _ => false

structure ShouldWaitForOlderSiblingsInput where
  thisPrNumber : Nat
  thisPrCreatedAt : Option String
  thisPrLinkedIssues : List Nat
  thisPrChangedFiles : Option (List String)
  siblings : List MergeTrainSibling
  nowMs : Int

/-- The time a timestamp stands for; an absent or empty one has none. -/
def createdMs (createdAt : Option String) : Option Int := (truthy createdAt).bind rt.dateParse

/-- Older by creation time, or by number where the times are unknown or equal. -/
def isOlder (input : ShouldWaitForOlderSiblingsInput) (sibling : MergeTrainSibling) : Bool :=
  match createdMs rt sibling.createdAt, createdMs rt input.thisPrCreatedAt with
  | some theirs, some ours =>
    if theirs = ours then decide (sibling.number < input.thisPrNumber) else decide (theirs < ours)
  | _, _ => decide (sibling.number < input.thisPrNumber)

/-- Still within the waiting time; an unknown age keeps blocking. -/
def withinMaxWait (nowMs : Int) (sibling : MergeTrainSibling) : Bool :=
  match createdMs rt sibling.createdAt with
  | some theirs => decide (nowMs - theirs < mergeTrainMaxWaitMs)
  | none => true

/-- Whether the sibling holds up the merge: it passes every filter of the source. -/
def mergeTrainBlocks (input : ShouldWaitForOlderSiblingsInput) (sibling : MergeTrainSibling) :
    Bool :=
  sibling.number != input.thisPrNumber && sibling.mergeableState != some "dirty" &&
    !sibling.heldForManualReview && (!sibling.isDraft && sibling.mergeableState != some "draft") &&
    isOlder rt input sibling &&
    overlaps rt input.thisPrLinkedIssues input.thisPrChangedFiles sibling &&
    withinMaxWait rt input.nowMs sibling

/-- Wait for the lowest-numbered blocking sibling, or go ahead. -/
def shouldWaitForOlderSiblings (input : ShouldWaitForOlderSiblingsInput) : MergeTrainDecision :=
  let viable := (input.siblings.filter (mergeTrainBlocks rt input)).insertionSort
    fun a b => a.number ≤ b.number
  match viable with
  | [] => .go
  | blocker :: _ => .wait blocker.number (viable.map MergeTrainSibling.number)

/-- **The merge goes ahead exactly when no sibling blocks it.** -/
theorem shouldWaitForOlderSiblings_eq_go_iff (input : ShouldWaitForOlderSiblingsInput) :
    shouldWaitForOlderSiblings rt input = .go ↔
      ∀ sibling ∈ input.siblings, mergeTrainBlocks rt input sibling = false := by
  have hnil : shouldWaitForOlderSiblings rt input = .go ↔
      (input.siblings.filter (mergeTrainBlocks rt input)).insertionSort
        (fun a b => a.number ≤ b.number) = [] := by
    rw [shouldWaitForOlderSiblings]
    split
    · next h => simp [h]
    · next h => simp [h]
  rw [hnil, ← List.length_eq_zero_iff, List.length_insertionSort, List.length_eq_zero_iff,
    List.filter_eq_nil_iff]
  simp

end LoopOver
