import LoopOver.Signals.ChangeGuardrail

/-!
# The language of a guardrail glob

What a glob guards, without regular expressions: a character stands for itself, `*` for any
characters other than `/`, and `**` or `**/` for any characters at all (`GlobMatches`). A glob with
more than two wildcard groups guards every path (`Guards`).

The compiled expressions match this language up to the runs of `**`, in which they take no line
terminator (`matchTokens_iff`). So a path is guarded as declared by all globs exactly if it is not
empty, which `changedPathsHittingGuardrail` passes over, and has no line terminator
(`guardrail_globs_iff`).
-/

namespace LoopOver

open List

/-! ## The language -/

/-- The path is in the language of the glob; `across` is what `**` may stand for. -/
inductive GlobMatches (across : Char → Bool) : List Char → List Char → Prop
  | nil : GlobMatches across [] []
  | literal {c : Char} {glob path : List Char} (hc : c ≠ '*')
      (hrest : GlobMatches across glob path) :
      GlobMatches across (c :: glob) (c :: path)
  | star {run glob path : List Char} (hrun : '/' ∉ run) (hnext : glob.head? ≠ some '*')
      (hrest : GlobMatches across glob path) : GlobMatches across ('*' :: glob) (run ++ path)
  | globstar {run glob path : List Char} (hrun : run.all across = true)
      (hnext : glob.head? ≠ some '/')
      (hrest : GlobMatches across glob path) : GlobMatches across ('*' :: '*' :: glob) (run ++ path)
  | globstarSlash {run glob path : List Char} (hrun : run.all across = true)
      (hrest : GlobMatches across glob path) : GlobMatches across ('*' :: '*' :: '/' :: glob)
        (run ++ path)

variable (text : Text)

/-- What the glob guards. -/
def Guards (glob path : String) : Prop :=
  maxGlobWildcardGroups < countWildcardGroups glob.toList ∨
    GlobMatches (fun _ => true) (canonicalize text glob).toList (canonicalize text path).toList

/-- All globs guard the path as declared. -/
structure GuardedAsDeclared (path : String) : Prop where
  matchesAny : ∀ globs, matchesAny text path globs = true ↔ ∃ glob ∈ globs, Guards text glob path
  hit : ∀ changedPaths globs glob, path ∈ changedPaths → glob ∈ globs → Guards text glob path →
    isGuardrailHit text changedPaths globs = true

/-! ## Wildcard groups -/

def GlobToken.isWildcard : GlobToken → Bool
  | literal _ => false
  | _ => true

/-- The count has a group for each wildcard of the compiled glob. -/
theorem countWildcardGroups_eq (glob : List Char) :
    countWildcardGroups glob = (globTokens glob).countP GlobToken.isWildcard := by
  fun_induction globTokens glob <;> simp_all [countWildcardGroups, countP_cons,
    GlobToken.isWildcard]

/-! ## Compiled globs -/

section Compiled

variable {across : Char → Bool} {glob path : List Char}

theorem matchRun_iff (accept : Char → Bool) (rest : List Char → Bool) (path : List Char) :
    matchRun accept rest path = true ↔
      ∃ run tail, path = run ++ tail ∧ run.all accept = true ∧ rest tail = true := by
  induction path with
  | nil =>
    rw [matchRun]
    constructor
    · intro h
      exact ⟨[], [], rfl, rfl, h⟩
    · rintro ⟨run, tail, hpath, -, h⟩
      rwa [(append_eq_nil_iff.1 hpath.symm).2] at h
  | cons c path ih =>
    rw [matchRun, Bool.or_eq_true, Bool.and_eq_true, ih]
    constructor
    · rintro (h | ⟨hc, run, tail, rfl, hrun, h⟩)
      · exact ⟨[], c :: path, rfl, rfl, h⟩
      · exact ⟨c :: run, tail, rfl, by simp [hc, hrun], h⟩
    · rintro ⟨run, tail, hpath, hrun, h⟩
      cases run with
      | nil => exact .inl (hpath ▸ h)
      | cons d run =>
        obtain ⟨rfl, rfl⟩ := cons_eq_cons.1 hpath
        rw [all_cons, Bool.and_eq_true] at hrun
        exact .inr ⟨hrun.1, run, tail, rfl, hrun.2, h⟩

/-- The compiled expressions match the language in which `**` does not go over line ends. -/
theorem matchTokens_iff (glob path : List Char) :
    matchTokens (globTokens glob) path = true ↔ GlobMatches (!isLineTerminator ·) glob path := by
  fun_induction globTokens glob generalizing path with
  | case1 rest ih =>
    rw [matchTokens, matchRun_iff]
    constructor
    · rintro ⟨run, tail, rfl, hrun, h⟩
      exact .globstarSlash hrun ((ih tail).1 h)
    · intro h
      cases h with
      | literal hc => exact absurd rfl hc
      | star _ hnext => exact absurd rfl hnext
      | globstar _ hnext => exact absurd rfl hnext
      | globstarSlash hrun hrest => exact ⟨_, _, rfl, hrun, (ih _).2 hrest⟩
  | case2 rest hslash ih =>
    rw [matchTokens, matchRun_iff]
    constructor
    · rintro ⟨run, tail, rfl, hrun, h⟩
      refine .globstar hrun (fun hnext => ?_) ((ih tail).1 h)
      obtain ⟨more, rfl⟩ := List.head?_eq_some_iff.1 hnext
      exact hslash more rfl
    · intro h
      cases h with
      | literal hc => exact absurd rfl hc
      | star _ hnext => exact absurd rfl hnext
      | globstar hrun _ hrest => exact ⟨_, _, rfl, hrun, (ih _).2 hrest⟩
      | globstarSlash => exact absurd rfl (hslash _)
  | case3 rest hslash hstar ih =>
    rw [matchTokens, matchRun_iff]
    constructor
    · rintro ⟨run, tail, rfl, hrun, h⟩
      refine .star (fun hmem => ?_) (fun hnext => ?_) ((ih tail).1 h)
      · exact absurd (all_eq_true.1 hrun _ hmem) (by decide)
      · obtain ⟨more, rfl⟩ := List.head?_eq_some_iff.1 hnext
        exact hstar more rfl
    · intro h
      cases h with
      | literal hc => exact absurd rfl hc
      | star hrun _ hrest =>
        refine ⟨_, _, rfl, all_eq_true.2 fun c hc => bne_iff_ne.2 ?_, (ih _).2 hrest⟩
        rintro rfl
        exact hrun hc
      | globstar => exact absurd rfl (hstar _)
      | globstarSlash => exact absurd rfl (hstar _)
  | case4 c rest _ _ hstar ih =>
    have hc : c ≠ '*' := hstar
    cases path with
    | nil =>
      refine iff_of_false Bool.false_ne_true fun h => ?_
      generalize hpath : [] = path at h
      cases h with
      | literal => cases hpath
      | _ => exact hc rfl
    | cons d path =>
      rw [matchTokens, Bool.and_eq_true, beq_iff_eq, ih]
      constructor
      · rintro ⟨rfl, h⟩
        exact .literal hc h
      · intro h
        generalize hpath : d :: path = path' at h
        cases h with
        | literal _ hrest =>
          cases hpath
          exact ⟨rfl, hrest⟩
        | _ => exact absurd rfl hc
  | case5 =>
    rw [matchTokens, List.isEmpty_iff]
    constructor
    · rintro rfl
      exact .nil
    · intro h
      cases h
      rfl

/-- What `**` stands for is a part of the path. -/
theorem GlobMatches.mono {across' : Char → Bool} (h : GlobMatches across glob path)
    (hacross : ∀ c ∈ path, across c = true → across' c = true) : GlobMatches across' glob path := by
  induction h with
  | nil => exact .nil
  | literal hc _ ih => exact .literal hc (ih fun c hmem => hacross c (mem_cons_of_mem _ hmem))
  | star hrun hnext _ ih =>
    exact .star hrun hnext (ih fun c hmem => hacross c (mem_append_right _ hmem))
  | globstar hrun hnext _ ih =>
    refine .globstar ?_ hnext (ih fun c hmem => hacross c (mem_append_right _ hmem))
    exact all_eq_true.2 fun c hmem =>
      hacross c (mem_append_left _ hmem) (all_eq_true.1 hrun c hmem)
  | globstarSlash hrun _ ih =>
    refine .globstarSlash ?_ (ih fun c hmem => hacross c (mem_append_right _ hmem))
    exact all_eq_true.2 fun c hmem =>
      hacross c (mem_append_left _ hmem) (all_eq_true.1 hrun c hmem)

/-- The language of `**`. -/
theorem globMatches_stars_iff : GlobMatches across ['*', '*'] path ↔ path.all across = true := by
  constructor
  · intro h
    cases h with
    | literal hc => exact absurd rfl hc
    | star _ hnext => exact absurd rfl hnext
    | globstar hrun _ hrest =>
      cases hrest
      rwa [append_nil]
  · intro h
    have hmatches := GlobMatches.globstar h (by decide) .nil
    rwa [append_nil] at hmatches

theorem GlobMatches.literals (h : GlobMatches across glob path) (word : List Char)
    (hword : '*' ∉ word) :
    GlobMatches across (word ++ glob) (word ++ path) := by
  induction word with
  | nil => exact h
  | cons c word ih =>
    exact .literal (ne_of_not_mem_cons hword).symm (ih (not_mem_of_not_mem_cons hword))

end Compiled

/-! ## Guarded paths -/

theorem matchesAny_iff (path : String) (globs : List String) :
    matchesAny text path globs = true ↔
      ∃ glob ∈ globs, maxGlobWildcardGroups < countWildcardGroups glob.toList ∨
        GlobMatches (!isLineTerminator ·) (canonicalize text glob).toList
          (canonicalize text path).toList := by
  simp only [matchesAny, any_eq_true, Bool.or_eq_true]
  refine exists_congr fun glob => and_congr_right fun _ => ?_
  rw [hasUnsafeWildcardCount, decide_eq_true_iff]
  refine or_congr_right' fun hsafe => ?_
  rw [globToRegExp, hasUnsafeWildcardCount, decide_eq_false hsafe, if_neg Bool.false_ne_true,
    GlobRegExp.test, matchTokens_iff]

theorem isGuardrailHit_of_matchesAny {path : String} {changedPaths globs : List String}
    (hpath : path ∈ changedPaths) (hne : path ≠ "") (h : matchesAny text path globs = true) :
    isGuardrailHit text changedPaths globs = true := by
  have hglobs : globs.isEmpty = false := by
    cases globs with
    | nil => cases h
    | cons => rfl
  have hhit : path ∈ changedPathsHittingGuardrail text changedPaths globs := by
    simp [changedPathsHittingGuardrail, hglobs, hpath, hne, h]
  rw [isGuardrailHit, hglobs, if_neg Bool.false_ne_true, Bool.or_eq_true, Bool.not_eq_true',
    isEmpty_eq_false_iff]
  exact .inr (ne_nil_of_mem hhit)

theorem guardrail_globs_iff (hstars : text.toLowerCase "**" = "**") (path : String) :
    GuardedAsDeclared text path ↔
      path ≠ "" ∧ ∀ c ∈ (canonicalize text path).toList, isLineTerminator c = false := by
  have hcanonical : (canonicalize text "**").toList = ['*', '*'] := congrArg String.toList hstars
  have hguards : Guards text "**" path := .inr (by simp [hcanonical, globMatches_stars_iff])
  constructor
  · intro h
    constructor
    · rintro rfl
      have hhit := h.hit [""] ["**"] "**" mem_cons_self mem_cons_self hguards
      exact absurd hhit (by simp [isGuardrailHit, changedPathsHittingGuardrail,
        guardrailUnverifiableFileCount])
    · have hmatches := (h.matchesAny ["**"]).2 ⟨"**", mem_cons_self, hguards⟩
      obtain ⟨glob, hglob, hgroups | hlanguage⟩ := (matchesAny_iff text path ["**"]).1 hmatches
      · obtain rfl := mem_singleton.1 hglob
        exact absurd hgroups (by decide)
      · obtain rfl := mem_singleton.1 hglob
        rw [hcanonical, globMatches_stars_iff, all_eq_true] at hlanguage
        simpa using hlanguage
  · rintro ⟨hne, hlines⟩
    have hmatches : ∀ globs, matchesAny text path globs = true ↔
        ∃ glob ∈ globs, Guards text glob path := by
      intro globs
      rw [matchesAny_iff]
      refine exists_congr fun glob => and_congr_right fun _ => or_congr_right ?_
      exact ⟨fun h => h.mono fun _ _ _ => rfl, fun h => h.mono fun c hc _ => by simp [hlines c hc]⟩
    exact ⟨hmatches, fun changedPaths globs glob hpath hglob hguards =>
      isGuardrailHit_of_matchesAny text hpath hne ((hmatches globs).2 ⟨glob, hglob, hguards⟩)⟩

theorem guardrail_globs_ascii : GuardedAsDeclared asciiText ".github/workflows/ci.yml" := by
  have hpath : canonicalize asciiText ".github/workflows/ci.yml" = ".github/workflows/ci.yml" := by
    decide
  refine (guardrail_globs_iff asciiText (by decide) _).2 ⟨by decide, ?_⟩
  simp [hpath, isLineTerminator]

/-- A file in `.github` whose name has a line break is not guarded. -/
theorem guardrail_misses_line_break :
    Guards asciiText ".github/**" ".github/a\nb.yml" ∧
      matchesAny asciiText ".github/a\nb.yml" [".github/**"] = false ∧
      isGuardrailHit asciiText [".github/a\nb.yml"] [".github/**"] = false := by
  refine ⟨.inr ?_, by decide, by decide⟩
  have hstars : GlobMatches (fun _ => true) ['*', '*'] "a\nb.yml".toList :=
    globMatches_stars_iff.2 rfl
  exact hstars.literals ".github/".toList (by decide)

end LoopOver
