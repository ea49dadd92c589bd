import LoopOver.Signals.GlobLanguage
import Mathlib.Data.List.Forall2

/-!
# The cap on wildcard groups

`countWildcardGroups` counts on the glob as it is written, and `globToRegExp` compiles its canonical
form. The count is what matters only if the expression has no more groups that can be repeated
without bound.

* `GlobRegExp.source` is the text of the expression, and `unboundedGroups` reads the groups off such
  a text.
* `scanStars` counts the groups by the runs of stars alone. So the separators that `**` consumes
  make no difference (`countWildcardGroups_scan`), and canonical and written globs have the same
  groups (`scanStars_canonicalize`).
* **`unboundedGroups_le`**: no compiled expression is over the cap.
-/

namespace LoopOver

open List

/-! ## The text of the expression -/

/-- The characters that are written with a backslash: `/[.+?^${}()|[\]\\]/`. -/
def regExpSyntax : List Char := ['.', '+', '?', '^', '$', '{', '}', '(', ')', '|', '[', ']', '\\']

/-- What the loop appends for a piece. -/
def GlobToken.source : GlobToken → List Char
  | .globstar => ['.', '*']
  | .star => ['[', '^', '/', ']', '*']
  | .literal c => if c ∈ regExpSyntax then ['\\', c] else [c]

def GlobRegExp.source : GlobRegExp → List Char
  | .neverMatches => ['^', '(', '?', '!', ')', '$']
  | .anchored tokens => '^' :: tokens.flatMap GlobToken.source ++ ['$']

/-- The quantifiers without an upper bound, or that may have none. -/
def isUnboundedQuantifier (c : Char) : Bool := c == '*' || c == '+' || c == '{'

/-- The groups of an expression that can be repeated without bound. A backslash takes the next
character with it, and a class has no quantifiers in it. -/
def unboundedGroups (inClass escaped : Bool) : List Char → ℕ
  | [] => 0
  | c :: rest =>
    if escaped then unboundedGroups inClass false rest
    else if c = '\\' then unboundedGroups inClass true rest
    else if inClass then unboundedGroups (c != ']') false rest
    else (if isUnboundedQuantifier c then 1 else 0) + unboundedGroups (c == '[') false rest

/-! ## Runs of stars -/

/-- A run of stars has a group for every two of them, and one more for the last if it is alone. -/
def scanStars : Bool → List Char → ℕ
  | _, [] => 0
  | pending, c :: rest =>
    if c = '*' then (if pending then 0 else 1) + scanStars (!pending) rest else scanStars false rest

/-- What becomes of a character: a star stays one, and any other gives a text without stars. -/
def KeepsStars (c : Char) (piece : List Char) : Prop :=
  if c = '*' then piece = ['*'] else piece ≠ [] ∧ '*' ∉ piece

/-- Lower case is taken character by character, maybe with an eye on its neighbours, and no letter
is a star. -/
def Text.LowersLetters (text : Text) : Prop :=
  ∀ s, ∃ pieces, (text.toLowerCase s).toList = pieces.flatten ∧
    List.Forall₂ KeepsStars s.toList pieces

section Stars

variable {pending : Bool} {chars front : List Char} {pieces : List (List Char)}

theorem scanStars_star (pending : Bool) (chars : List Char) :
    scanStars pending ('*' :: chars) = (if pending then 0 else 1) + scanStars (!pending) chars :=
      if_pos rfl

theorem scanStars_other {c : Char} (hc : c ≠ '*') (pending : Bool) (chars : List Char) :
    scanStars pending (c :: chars) = scanStars false chars := if_neg hc

theorem countWildcardGroups_scan (chars : List Char) :
    countWildcardGroups chars = scanStars false chars := by
  fun_induction countWildcardGroups chars with
  | case1 rest ih =>
    rw [ih, scanStars_star, scanStars_star, scanStars_other (by decide), Nat.add_comm]
    exact congrArg (1 + ·) (Nat.zero_add _).symm
  | case2 rest _ ih =>
    rw [ih, scanStars_star, scanStars_star, Nat.add_comm]
    exact congrArg (1 + ·) (Nat.zero_add _).symm
  | case3 rest _ hstar ih =>
    -- The next character ends the run.
    rw [ih, scanStars_star, Nat.add_comm]
    cases rest with
    | nil => rfl
    | cons c rest =>
      have hc : c ≠ '*' := fun h => hstar rest (by rw [h])
      rw [scanStars_other hc, scanStars_other hc]
      rfl
  | case4 c rest _ _ hstar ih => rw [ih, scanStars_other hstar]
  | case5 => rfl

/-- Nothing is pending after a text without stars. -/
theorem scanStars_append (hne : front ≠ []) (hstars : '*' ∉ front) (pending : Bool)
    (chars : List Char) :
    scanStars pending (front ++ chars) = scanStars false chars := by
  induction front generalizing pending with
  | nil => exact absurd rfl hne
  | cons c front ih =>
    rw [cons_append, scanStars_other (ne_of_not_mem_cons hstars).symm]
    by_cases hnil : front = []
    · rw [hnil, nil_append]
    · exact ih hnil (not_mem_of_not_mem_cons hstars) false

theorem scanStars_prefix (hstars : '*' ∉ front) (chars : List Char) :
    scanStars false (front ++ chars) = scanStars false chars := by
  by_cases hnil : front = []
  · rw [hnil, nil_append]
  · exact scanStars_append hnil hstars false chars

/-- The groups are those of the stars that are kept. -/
theorem scanStars_flatten (h : List.Forall₂ KeepsStars chars pieces) :
    scanStars pending pieces.flatten = scanStars pending chars := by
  induction h generalizing pending with
  | nil => rfl
  | @cons c piece chars pieces hpiece _ ih =>
    rw [flatten_cons]
    by_cases hc : c = '*'
    · rw [KeepsStars, if_pos hc] at hpiece
      rw [hpiece, hc, singleton_append, scanStars_star, scanStars_star, ih]
    · rw [KeepsStars, if_neg hc] at hpiece
      rw [scanStars_append hpiece.1 hpiece.2, scanStars_other hc, ih]

theorem scanStars_map {f : Char → Char} (hstars : ∀ c, f c = '*' ↔ c = '*') :
    scanStars pending (chars.map f) = scanStars pending chars := by
  induction chars generalizing pending with
  | nil => rfl
  | cons c chars ih => rw [map_cons, scanStars, scanStars, ih, ih, if_congr (hstars c) rfl rfl]

theorem scanStars_dropDotSlash (chars : List Char) :
    scanStars false (dropDotSlash chars) = scanStars false chars := by
  unfold dropDotSlash
  split
  · rw [scanStars_other (by decide), scanStars_other (by decide)]
  · rfl

theorem scanStars_dropSlashes (chars : List Char) :
    scanStars false (chars.dropWhile (· == '/')) = scanStars false chars := by
  have hslashes : '*' ∉ chars.takeWhile (· == '/') :=
    fun hstar => absurd (mem_takeWhile_imp hstar) (by decide)
  rw [← scanStars_prefix hslashes (chars.dropWhile (· == '/')), takeWhile_append_dropWhile]

/-- Canonical and written globs have the same groups. -/
theorem scanStars_canonicalize {text : Text} (htext : text.LowersLetters) (glob : String) :
    scanStars false (canonicalize text glob).toList = scanStars false glob.toList := by
  have hslash : ∀ c : Char, (if c = '\\' then '/' else c) = '*' ↔ c = '*' := by
    intro c
    split_ifs with hc
    · exact iff_of_false (by decide) (hc ▸ by decide)
    · rfl
  obtain ⟨pieces, hlower, hpieces⟩ :=
    htext (String.ofList
      ((dropDotSlash (glob.toList.map fun c => if c = '\\' then '/' else c)).dropWhile (· == '/')))
  rw [canonicalize, hlower, scanStars_flatten hpieces, String.toList_ofList, scanStars_dropSlashes,
    scanStars_dropDotSlash, scanStars_map hslash]

end Stars

/-! ## Groups of the expression -/

section Groups

/-- A character that is matched as itself repeats nothing. -/
theorem unboundedGroups_literal {c : Char} (hc : c ≠ '*') (rest : List Char) :
    unboundedGroups false false ((GlobToken.literal c).source ++ rest) =
      unboundedGroups false false rest := by
  rw [GlobToken.source]
  split_ifs with hsyntax
  · rfl
  · have hne : ∀ d ∈ regExpSyntax, c ≠ d := fun d hd h => hsyntax (h ▸ hd)
    have hquantifier : isUnboundedQuantifier c = false := by
      simp [isUnboundedQuantifier, hc, hne '+' (by decide), hne '{' (by decide)]
    rw [singleton_append, unboundedGroups, if_neg Bool.false_ne_true, if_neg (hne '\\' (by decide)),
      if_neg Bool.false_ne_true, hquantifier, beq_eq_false_iff_ne.2 (hne '[' (by decide)),
      if_neg Bool.false_ne_true, Nat.zero_add]

theorem unboundedGroups_wildcard {token : GlobToken} (h : token.isWildcard = true)
    (rest : List Char) :
    unboundedGroups false false (token.source ++ rest) = 1 + unboundedGroups false false rest := by
  cases token with
  | globstar => exact Nat.zero_add _
  | star => exact Nat.zero_add _
  | literal => cases h

/-- The groups of the expression are the wildcards that it is compiled from. -/
theorem unboundedGroups_source (glob rest : List Char) :
    unboundedGroups false false ((globTokens glob).flatMap GlobToken.source ++ rest) =
      (globTokens glob).countP GlobToken.isWildcard + unboundedGroups false false rest := by
  fun_induction globTokens glob with
  | case1 glob ih | case2 glob _ ih | case3 glob _ _ ih =>
    rw [flatMap_cons, append_assoc, countP_cons_of_pos rfl, Nat.add_right_comm, ← ih, Nat.add_comm]
    exact unboundedGroups_wildcard rfl _
  | case4 c glob _ _ hc ih =>
    rw [flatMap_cons, append_assoc, countP_cons_of_neg Bool.false_ne_true, ← ih]
    exact unboundedGroups_literal hc _
  | case5 => exact (Nat.zero_add _).symm

theorem unboundedGroups_anchored (glob : List Char) :
    unboundedGroups false false (GlobRegExp.anchored (globTokens glob)).source =
      countWildcardGroups glob := by
  have hanchor : unboundedGroups false false (GlobRegExp.anchored (globTokens glob)).source =
      unboundedGroups false false ((globTokens glob).flatMap GlobToken.source ++ ['$']) :=
        Nat.zero_add _
  rw [hanchor, unboundedGroups_source, countWildcardGroups_eq]
  rfl

/-- The count on the written glob covers the compiled expression, which is never over the cap. -/
theorem unboundedGroups_le {text : Text} (htext : text.LowersLetters) (glob : String) :
    unboundedGroups false false
      (GlobRegExp.anchored (globTokens (canonicalize text glob).toList)).source ≤
        countWildcardGroups glob.toList ∧
      unboundedGroups false false (globToRegExp text glob).source ≤ maxGlobWildcardGroups := by
  have hgroups : unboundedGroups false false
      (GlobRegExp.anchored (globTokens (canonicalize text glob).toList)).source =
      countWildcardGroups glob.toList := by
    rw [unboundedGroups_anchored, countWildcardGroups_scan, countWildcardGroups_scan,
      scanStars_canonicalize htext]
  refine ⟨hgroups.le, ?_⟩
  rw [globToRegExp]
  split_ifs with hunsafe
  · exact Nat.zero_le _
  · rw [hgroups]
    exact not_lt.1 (decide_eq_true_iff.not.1 hunsafe)

theorem asciiText_lowersLetters : asciiText.LowersLetters := by
  have hstar : ∀ c : Char, c.toLower = '*' ↔ c = '*' := by
    intro c
    have hcode : '*'.toNat = 42 := rfl
    rw [← Char.toNat_inj, ← Char.toNat_inj, toNat_toLower, hcode]
    split_ifs <;> omega
  intro s
  refine ⟨s.toList.map fun c => [c.toLower], ?_,
    forall₂_map_right_iff.2 (forall₂_same.2 fun c _ => ?_)⟩
  · rw [← flatMap_def, ← map_eq_flatMap]
    exact String.toList_ofList
  · rw [KeepsStars]
    split_ifs with hc
    · rw [(hstar c).2 hc]
    · exact ⟨cons_ne_nil _ _, fun hmem => hc ((hstar c).1 (mem_singleton.1 hmem).symm)⟩

theorem unboundedGroups_le_public :
    unboundedGroups false false
        (GlobRegExp.anchored
          (globTokens (canonicalize asciiText "public/**/*.json").toList)).source ≤
          countWildcardGroups "public/**/*.json".toList ∧
      unboundedGroups false false (globToRegExp asciiText "public/**/*.json").source ≤
        maxGlobWildcardGroups :=
  unboundedGroups_le asciiText_lowersLetters "public/**/*.json"

end Groups

end LoopOver
