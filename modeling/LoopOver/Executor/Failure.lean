import LoopOver.Text
import Mathlib.Data.List.Infix

/-!
# Failed calls

What the executor reads off an error that a call to GitHub or to the database threw, and the
classification of failed merges of `src/services/merge-failure.ts`. A regular expression of the
source that only lists phrases is `mentions`, the one with word boundaries is `mentionsWord`.
-/

namespace LoopOver

/-- An error as the source inspects it. -/
structure HostError where
  message : String
  status : Option Nat := none
  responseStatus : Option Nat := none
  /-- A `retry-after` header is present. -/
  retryAfter : Bool := false
  /-- The `x-ratelimit-remaining` header. -/
  rateLimitRemaining : Option String := none
  deriving DecidableEq, Repr

def errorMessage (error : HostError) : String :=
  if error.message = "" then "unknown error" else error.message

def githubErrorStatus (error : HostError) : Option Nat := error.status <|> error.responseStatus

section Messages

variable (rt : Runtime)

/-- Whether the message contains one of the phrases, up to case. -/
def mentions (message : String) (phrases : List String) : Bool :=
  phrases.any fun phrase => decide (phrase.toList <:+: (rt.toLowerCase message).toList)

/-- `\w`, on ASCII. -/
def isWordChar (c : Char) : Bool := c.isAlphanum || c == '_'

/-- `\bword\b` at some position; `inWord` says whether the character before is part of a word. -/
def hasWord (word : List Char) : Bool → List Char → Bool
  | _, [] => false
  | inWord, c :: rest =>
    (!inWord && word.isPrefixOf (c :: rest) &&
      !((c :: rest).drop word.length).head?.any isWordChar) ||
      hasWord word (isWordChar c) rest

/-- Whether the message contains the word, up to case. -/
def mentionsWord (message word : String) : Bool :=
  hasWord word.toList false (rt.toLowerCase message).toList

def isRateLimitedError (error : HostError) : Bool :=
  (error.status == some 403 || error.status == some 429) &&
    (error.retryAfter || error.rateLimitRemaining == some "0" ||
      mentions rt error.message ["secondary rate limit", "api rate limit exceeded"] ||
      mentionsWord rt error.message "abuse")

def isGitHubRateLimitedError (error : HostError) : Bool :=
  isRateLimitedError rt error ||
    (error.status.isNone &&
      (mentions rt error.message ["secondary rate limit", "api rate limit exceeded",
        "rate limit"] ||
        mentionsWord rt error.message "abuse"))

/-! ## Failed merges -/

/-- `MERGE_RETRY_CAP`. -/
def mergeRetryCap : Nat := 5

/-- `INFRA_MERGE_BLOCK_TTL_MS`. -/
def infraMergeBlockTtlMs : Int := 30 * 60 * 1000

def isMergeConflictMessage (message : String) : Bool :=
  mentions rt message ["merge conflict", "not mergeable", "cannot be merged", "has conflicts",
    "conflict with the base", "conflicts with the base"]

def isBaseBranchMovedMessage (message : String) : Bool :=
  mentions rt message ["base branch was modified"]

def isMergeAlreadyInProgressMessage (message : String) : Bool :=
  mentions rt message ["merge already in progress"]

def isConvergenceForbiddenMessage (message : String) : Bool :=
  mentions rt message ["resource not accessible by integration", "secondary rate limit",
    "api rate limit", "abuse detection"]

def isRateLimitMessage (message : String) : Bool :=
  mentions rt message ["secondary rate limit", "abuse", "api rate limit exceeded"]

/-- What a terminal failure is terminal about: the commit, or the installation for a while. -/
inductive MergeFailureScope
  | commit
  | infra
  deriving DecidableEq, Repr

structure MergeFailure where
  terminal : Bool
  reason : String
  scope : MergeFailureScope
  deriving DecidableEq, Repr

/-- Whether a failed merge can still complete for this commit, and why not. -/
def classifyMergeFailure (error : HostError) : MergeFailure :=
  let message := errorMessage error
  if error.status = some 401 then
    ⟨true, "installation token rejected: App suspended or key rotated (401): " ++ message, .infra⟩
  else if error.status = some 429 then
    ⟨false, "merge rate-limited (429 — secondary rate limit, self-healing window): " ++ message,
      .infra⟩
  else if error.status = some 403 && isRateLimitMessage rt message then
    ⟨false, "merge rate-limited (403 — secondary rate limit, self-healing window): " ++ message,
      .infra⟩
  else if error.status = some 403 && isConvergenceForbiddenMessage rt message then
    ⟨false, "merge forbidden for now (403 — branch protection or GitHub permission visibility " ++
      "may still be converging): " ++ message, .infra⟩
  else if error.status = some 403 then ⟨true, "merge forbidden (403): " ++ message, .commit⟩
  else if error.status = some 405 && isBaseBranchMovedMessage rt message then
    ⟨false, "base branch moved during merge — retrying: " ++ message, .commit⟩
  else if error.status = some 405 && isMergeAlreadyInProgressMessage rt message then
    ⟨false, "a merge for this PR was already in progress — retrying: " ++ message, .commit⟩
  else if error.status = some 405 then
    ⟨true, "merge not allowed (405 — repo merge policy forbids an automated merge): " ++ message,
      .commit⟩
  else if error.status = some 409 then
    ⟨true, "merge conflict / required check absent (409): " ++ message, .commit⟩
  else if isMergeConflictMessage rt message then
    ⟨true, "branch conflicts with base — contributor must rebase: " ++ message, .commit⟩
  else ⟨false, message, .commit⟩

end Messages

end LoopOver
