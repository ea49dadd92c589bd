import LoopOver.Number
import LoopOver.Text

/-!
# Names that the miner's stores accept

The local stores of `packages/loopover-miner/lib/` check the names of their rows with the same few
functions before they bind them to a statement: `normalizeRepoFullName`, `normalizeApiBaseUrl` and
`isValidRepoSegment` of `repo-clone.ts`. The arguments come from callers that TypeScript does not
hold to their types, so they are `Untyped`.

* `normalizeRepoFullName_eq_ok` says which names of repositories are accepted, and
  `normalizeRepoFullName_normal` that an accepted one is accepted again as it is.
-/

namespace LoopOver

open List

/-- An argument of type `unknown`. -/
inductive Untyped
  | undefined
  | null
  | text (value : String)
  | number (value : JsNumber)
  | other
  deriving DecidableEq

/-- `REPO_SEGMENT_PATTERN`. -/
def isRepoSegmentChar (c : Char) : Bool :=
  c.isAlphanum || c == '.' || c == '_' || c == '-'

def isPathTraversalSegment (segment : List Char) : Bool := segment == ['.'] || segment == ['.', '.']

def isValidRepoSegment (segment : List Char) : Bool :=
  !segment.isEmpty && segment.all isRepoSegmentChar && !isPathTraversalSegment segment

/-- The trimmed `owner/repo`. -/
def normalizeRepoFullName : Untyped → Except String String
  | .text repoFullName =>
    match (trimText repoFullName).toList.splitOn '/' with
    | [owner, repo] =>
      if isValidRepoSegment owner &&
        isValidRepoSegment repo then .ok (String.ofList (owner ++ '/' :: repo))
      else .error "invalid_repo_full_name"
    | _ => .error "invalid_repo_full_name"
  | _ => .error "invalid_repo_full_name"

/-- `DEFAULT_FORGE_CONFIG.apiBaseUrl`. -/
def defaultApiBaseUrl : String := "https://api.github.com"

def normalizeApiBaseUrl : Untyped → Except String String
  | .undefined | .null => .ok defaultApiBaseUrl
  | .text apiBaseUrl =>
    if trimText apiBaseUrl = "" then .error "invalid_api_base_url" else .ok (trimText apiBaseUrl)
  | _ => .error "invalid_api_base_url"

/-- `Number.isInteger(value) && value >= 1`. -/
def positiveInteger (message : String) : Untyped → Except String ℕ
  | .number (.finite value) =>
    if value.den = 1 ∧ 1 ≤ value then .ok value.num.toNat else .error message
  | _ => .error message

/-- The forms that the normalised name of a repository has. -/
structure RepoName (name : String) : Prop where
  segments : ∃ owner repo, name.toList = owner ++ '/' :: repo ∧ isValidRepoSegment owner = true ∧
    isValidRepoSegment repo = true

/-- A computation that ends well has steps that do. -/
theorem exists_of_bind_ok {ε α β : Type} {x : Except ε α} {f : α → Except ε β} {b : β}
    (h : x >>= f = .ok b) :
    ∃ a, x = .ok a ∧ f a = .ok b := by
  cases x with
  | error e => cases h
  | ok a => exact ⟨a, rfl, h⟩

section Names

variable {argument : Untyped} {name : String} {segment : List Char}

theorem ne_nil_of_isValidRepoSegment (h : isValidRepoSegment segment = true) : segment ≠ [] := by
  rintro rfl
  cases h

theorem isRepoSegmentChar_of_mem (h : isValidRepoSegment segment = true) {c : Char}
    (hc : c ∈ segment) :
    isRepoSegmentChar c = true := by
  simp only [isValidRepoSegment, Bool.and_eq_true, all_eq_true] at h
  exact h.1.2 c hc

theorem toNat_of_isRepoSegmentChar {c : Char} (h : isRepoSegmentChar c = true) :
    45 ≤ c.toNat ∧ c.toNat ≤ 122 ∧ c.toNat ≠ 58 := by
  delta isRepoSegmentChar Char.isAlphanum Char.isAlpha Char.isUpper Char.isLower Char.isDigit at h
  simp only [Bool.or_eq_true, Bool.and_eq_true, decide_eq_true_eq, ge_iff_le,
    UInt32.le_iff_toNat_le, beq_iff_eq] at h
  rw [← Char.toNat_inj, ← Char.toNat_inj, ← Char.toNat_inj] at h
  have hval : c.val.toNat = c.toNat := rfl
  have hends : 'A'.val.toNat = 65 ∧ 'Z'.val.toNat = 90 ∧ 'a'.val.toNat = 97 ∧ 'z'.val.toNat = 122 ∧
    '0'.val.toNat = 48 ∧ '9'.val.toNat = 57 := by decide
  have hmarks : '.'.toNat = 46 ∧ '_'.toNat = 95 ∧ '-'.toNat = 45 := by decide
  omega

theorem isRegexSpace_of_isRepoSegmentChar {c : Char} (h : isRepoSegmentChar c = true) :
    isRegexSpace c = false := by
  have hrange := toNat_of_isRepoSegmentChar h
  rw [Bool.eq_false_iff]
  intro hspace
  simp only [isRegexSpace, Bool.or_eq_true, Bool.and_eq_true, decide_eq_true_eq,
    beq_iff_eq] at hspace
  omega

theorem ne_of_isRepoSegmentChar {c d : Char} (h : isRepoSegmentChar c = true)
    (hd : isRepoSegmentChar d = false) :
    c ≠ d := by
  rintro rfl
  rw [h] at hd
  cases hd

theorem slash_notMem (h : isValidRepoSegment segment = true) : '/' ∉ segment :=
  fun hmem => ne_of_isRepoSegmentChar (isRepoSegmentChar_of_mem h hmem) (by decide) rfl

theorem RepoName.trimmed (h : RepoName name) : Trimmed name.toList := by
  obtain ⟨owner, repo, hname, howner, hrepo⟩ := h.segments
  rw [hname]
  constructor
  · intro c hc
    rw [List.head?_append_of_ne_nil _ (ne_nil_of_isValidRepoSegment howner)] at hc
    exact isRegexSpace_of_isRepoSegmentChar
      (isRepoSegmentChar_of_mem howner (mem_of_mem_head? hc))
  · intro c hc
    have hne := ne_nil_of_isValidRepoSegment hrepo
    rw [List.getLast?_append_of_ne_nil _ (cons_ne_nil _ _), List.getLast?_cons_of_ne_nil hne] at hc
    exact isRegexSpace_of_isRepoSegmentChar
      (isRepoSegmentChar_of_mem hrepo (mem_of_mem_getLast? hc))

theorem RepoName.no_colon (h : RepoName name) : ':' ∉ name.toList := by
  obtain ⟨owner, repo, hname, howner, hrepo⟩ := h.segments
  rw [hname, mem_append, mem_cons]
  rintro (hmem | heq | hmem)
  · exact ne_of_isRepoSegmentChar (isRepoSegmentChar_of_mem howner hmem) (by decide) rfl
  · cases heq
  · exact ne_of_isRepoSegmentChar (isRepoSegmentChar_of_mem hrepo hmem) (by decide) rfl

theorem RepoName.ne_nil (h : RepoName name) : name.toList ≠ [] := by
  obtain ⟨owner, repo, hname, _⟩ := h.segments
  simp [hname]

/-- **Which names of repositories are accepted.** -/
theorem normalizeRepoFullName_eq_ok :
    normalizeRepoFullName argument = .ok name ↔
      RepoName name ∧ ∃ text, argument = .text text ∧ trimText text = name := by
  constructor
  · intro h
    cases argument with
    | text text =>
      rw [normalizeRepoFullName] at h
      split at h
      · next owner repo hsplit =>
        split at h
        · next hvalid =>
          rw [Bool.and_eq_true] at hvalid
          obtain rfl := Except.ok.inj h
          have hjoin : (trimText text).toList = owner ++ '/' :: repo := by
            have hinter : ['/'].intercalate ((trimText text).toList.splitOn '/') =
                (trimText text).toList :=
              intercalate_splitOn '/'
            rw [hsplit] at hinter
            simpa [List.intercalate] using hinter.symm
          refine ⟨⟨owner, repo, String.toList_ofList, hvalid⟩, text, rfl, ?_⟩
          rw [← hjoin, String.ofList_toList]
        · cases h
      · cases h
    | _ => cases h
  · rintro ⟨⟨owner, repo, hname, howner, hrepo⟩, text, rfl, htrim⟩
    have hsplit : name.toList.splitOn '/' = [owner, repo] := by
      rw [hname, splitOn_append_cons_self, splitOn_eq_singleton (slash_notMem howner),
        splitOn_eq_singleton (slash_notMem hrepo)]
      rfl
    rw [normalizeRepoFullName, htrim, hsplit]
    simp only [howner, hrepo, Bool.and_self, if_true, ← hname, String.ofList_toList]

theorem normalizeRepoFullName_normal (h : RepoName name) :
    normalizeRepoFullName (.text name) = .ok name :=
  normalizeRepoFullName_eq_ok.2 ⟨h, name, rfl, trimText_eq_self h.trimmed⟩

theorem normalizeApiBaseUrl_eq_ok (h : normalizeApiBaseUrl argument = .ok name) :
    name ≠ "" ∧ Trimmed name.toList := by
  have hdefault : defaultApiBaseUrl ≠ "" ∧ Trimmed defaultApiBaseUrl.toList := by
    refine ⟨by decide, ?_⟩
    rw [show defaultApiBaseUrl = trimText defaultApiBaseUrl from by decide]
    exact trimmed_trimText _
  cases argument with
  | text text =>
    rw [normalizeApiBaseUrl] at h
    split at h
    · cases h
    · next hne =>
      obtain rfl := Except.ok.inj h
      exact ⟨hne, trimmed_trimText text⟩
  | undefined =>
    obtain rfl := Except.ok.inj h
    exact hdefault
  | null =>
    obtain rfl := Except.ok.inj h
    exact hdefault
  | _ => cases h

theorem normalizeApiBaseUrl_normal (hne : name ≠ "") (h : Trimmed name.toList) :
    normalizeApiBaseUrl (.text name) = .ok name := by
  rw [normalizeApiBaseUrl, trimText_eq_self h, if_neg hne]

theorem one_le_of_positiveInteger {message : String} {n : ℕ}
    (h : positiveInteger message argument = .ok n) :
    1 ≤ n := by
  unfold positiveInteger at h
  split at h
  · next value =>
    split at h
    · next hvalue =>
      obtain rfl := Except.ok.inj h
      have hnum : (1 : ℤ) ≤ value.num := by
        have heq := Rat.coe_int_num_of_den_eq_one hvalue.1
        have hle := hvalue.2
        rw [← heq] at hle
        exact_mod_cast hle
      omega
    · cases h
  · cases h

theorem positiveInteger_natCast (message : String) {n : ℕ} (hn : 1 ≤ n) :
    positiveInteger message (.number (.finite n)) = .ok n := by
  have hle : (1 : ℚ) ≤ n := by exact_mod_cast hn
  rw [positiveInteger, if_pos ⟨Rat.den_natCast n, hle⟩, Rat.num_natCast, Int.toNat_natCast]

end Names

end LoopOver
