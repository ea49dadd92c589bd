import LoopOver.Text

/-!
# Hard-guardrail path matching

`packages/loopover-engine/src/signals/change-guardrail.ts`: whether a pull request touches a path
its repository guards. A guarded pull request is never merged without a human, so the matcher fails
towards guarding: an unknown or truncated file list and a glob too complex to compile both count as
a hit (`isGuardrailHit`, `matchesAny`).

Globs are compiled to the fragment of regular expressions the source emits: literals, `[^/]*` and
`.*`, anchored at both ends (`GlobRegExp`).
-/

namespace LoopOver

variable (text : Text)

/-! ## Canonical paths -/

/-- Drop one leading `./`. -/
def dropDotSlash : List Char → List Char
  | '.' :: '/' :: rest => rest
  | path => path

/-- Backslashes to `/`, a leading `./` and leading slashes dropped, then case-folded. -/
def canonicalize (value : String) : String :=
  let slashed := value.toList.map fun c => if c = '\\' then '/' else c
  text.toLowerCase (String.ofList ((dropDotSlash slashed).dropWhile (· == '/')))

/-! ## Glob complexity -/

/-- `MAX_GLOB_WILDCARD_GROUPS`. -/
def maxGlobWildcardGroups : Nat := 2

/-- The wildcard groups of a glob: `**`, with the `/` that follows it, is one. -/
def countWildcardGroups : List Char → Nat
  | '*' :: '*' :: '/' :: rest => countWildcardGroups rest + 1
  | '*' :: '*' :: rest => countWildcardGroups rest + 1
  | '*' :: rest => countWildcardGroups rest + 1
  | _ :: rest => countWildcardGroups rest
  | [] => 0

/-- Whether the glob has more groups than can be compiled without risking catastrophic
backtracking. -/
def hasUnsafeWildcardCount (glob : String) : Bool :=
  decide (maxGlobWildcardGroups < countWildcardGroups glob.toList)

/-! ## Compiled globs -/

/-- One piece of a compiled glob. -/
inductive GlobToken
  /-- `.*`, from `**` or `**/`. -/
  | globstar
  /-- `[^/]*`, from a single `*`. -/
  | star
  /-- A character matched as itself, escaped where the expression syntax needs it. -/
  | literal (c : Char)
  deriving DecidableEq, Repr

/-- The pieces a canonical glob is compiled to, left to right. -/
def globTokens : List Char → List GlobToken
  | '*' :: '*' :: '/' :: rest => .globstar :: globTokens rest
  | '*' :: '*' :: rest => .globstar :: globTokens rest
  | '*' :: rest => .star :: globTokens rest
  | c :: rest => .literal c :: globTokens rest
  | [] => []

/-- The expressions `globToRegExp` returns. -/
inductive GlobRegExp
  /-- `/^(?!)$/`, which matches nothing. -/
  | neverMatches
  /-- The pieces between `^` and `$`. -/
  | anchored (tokens : List GlobToken)
  deriving DecidableEq, Repr

/-- Compile a glob; one with too many wildcard groups never matches. -/
def globToRegExp (glob : String) : GlobRegExp :=
  if hasUnsafeWildcardCount glob then .neverMatches
  else .anchored (globTokens (canonicalize text glob).toList)

/-- The characters `.` does not match. -/
def isLineTerminator (c : Char) : Bool :=
  c == '\n' || c == '\r' || c == '\u2028' || c == '\u2029'

/-- Match a run of characters satisfying `accept`, then `rest`. -/
def matchRun (accept : Char → Bool) (rest : List Char → Bool) : List Char → Bool
  | [] => rest []
  | c :: cs => rest (c :: cs) || (accept c && matchRun accept rest cs)

/-- Whether the pieces match the whole of the input. -/
def matchTokens : List GlobToken → List Char → Bool
  | [], cs => cs.isEmpty
  | .literal _ :: _, [] => false
  | .literal c :: tokens, d :: cs => c == d && matchTokens tokens cs
  | .star :: tokens, cs => matchRun (· != '/') (matchTokens tokens) cs
  | .globstar :: tokens, cs => matchRun (fun c => !isLineTerminator c) (matchTokens tokens) cs

/-- `RegExp.prototype.test`. -/
def GlobRegExp.test : GlobRegExp → String → Bool
  | .neverMatches, _ => false
  | .anchored tokens, s => matchTokens tokens s.toList

/-! ## Guardrail hits -/

/-- Whether the path matches one of the globs; a glob too complex to compile matches every path. -/
def matchesAny (path : String) (globs : List String) : Bool :=
  let canonicalPath := canonicalize text path
  globs.any fun g => hasUnsafeWildcardCount g || (globToRegExp text g).test canonicalPath

/-- The changed paths that trip a hard guardrail. -/
def changedPathsHittingGuardrail (changedPaths hardGuardrailGlobs : List String) : List String :=
  if hardGuardrailGlobs.isEmpty then []
  else changedPaths.filter fun path => path != "" && matchesAny text path hardGuardrailGlobs

/-- `GUARDRAIL_UNVERIFIABLE_FILE_COUNT`: a list this long may have been truncated. -/
def guardrailUnverifiableFileCount : Nat := 1000

/-- Whether the diff trips a hard guardrail. A list that is empty or may have been truncated cannot
show that it does not. -/
def isGuardrailHit (changedPaths hardGuardrailGlobs : List String) : Bool :=
  if hardGuardrailGlobs.isEmpty then false
  else
    changedPaths.isEmpty || decide (guardrailUnverifiableFileCount ≤ changedPaths.length) ||
      !(changedPathsHittingGuardrail text changedPaths hardGuardrailGlobs).isEmpty

example : isGuardrailHit asciiText ["src\\App.ts", ".GitHub/Workflows/ci.yml"]
    [".github/**"] = true := by decide

example : isGuardrailHit asciiText ["src/github/ci.yml"] [".github/**"] = false := by decide

end LoopOver
