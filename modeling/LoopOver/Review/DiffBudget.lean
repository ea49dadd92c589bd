import LoopOver.Review.HunkSelection

/-!
# The budget of the review diff

The diff is to have at most as many characters as its budget. Each file that is cut down leaves room
for the notice that may follow, but a file that fits as a whole may use that room up, and so may one
that is listed without a patch. And where a header alone is too long, the notice about the patch is
put behind it all the same.

* `Breaks` is where the loop ends with its notice, and `HeaderFills` where a header leaves nothing
  for hunks.
* `LeavesRoom` is the condition, on the diff before a turn of the loop.
* **`review_diff_within_budget_iff`**: the result is within the budget exactly then, and
  `review_diff_over_budget` has one file that fits to the last character, and another.
-/

namespace LoopOver.ReviewDiff

open List

variable (numberText : JsNumber → Units) (diffFilePriority : Units → ℕ)

/-! ## The condition -/

/-- The loop ends at the file, with the notice. -/
def Breaks (budget : ℤ) (diff : Units) (file : ReviewDiffFile) : Prop :=
  budget - diff.length < 240 ∨ inlinePatch file = none ∧
    budget - diff.length < (fileHeader numberText file).length + noPatchSuffix.length

/-- The patch has to be cut, and its header leaves nothing for hunks. -/
def HeaderFills (budget : ℤ) (notice diff : Units) (file : ReviewDiffFile) : Prop :=
  ∃ patch, inlinePatch file = some patch ∧
    budget - diff.length < (fileHeader numberText file).length + patch.length + 2 ∧
    budget - diff.length ≤ (fileHeader numberText file).length + 4 + notice.length

/-- The diff of the first files. -/
def diffAfter (budget : ℤ) (notice : Units) (files : List ReviewDiffFile) : Option Units :=
  files.foldlM (appendFile numberText budget notice) []

/-- Where the loop ends with its notice, there is room for it, up to the line end that is trimmed;
and where the header of the last file leaves nothing for hunks, there is room for it with the notice
about the patch. -/
structure LeavesRoom (files : List ReviewDiffFile) (budget : ℤ) : Prop where
  notice : ∀ front file back diff, orderFiles diffFilePriority files = front ++ file :: back →
    diffAfter numberText budget (truncationNotice files.length) front = some diff →
      Breaks numberText budget diff file →
    diff.length + (truncationNotice files.length).length ≤ budget + 1
  header : ∀ front file diff, orderFiles diffFilePriority files = front ++ [file] →
    diffAfter numberText budget (truncationNotice files.length) front = some diff →
      ¬Breaks numberText budget diff file →
    HeaderFills numberText budget (truncationNotice files.length) diff file →
    diff.length + (fileHeader numberText file).length + truncatedNotice.length ≤ budget

/-! ## A turn of the loop -/

section Turns

variable {numberText} {budget : ℤ} {notice diff diff' : Units} {file : ReviewDiffFile}
  {files : List ReviewDiffFile}

theorem appendFile_eq_none_iff :
    appendFile numberText budget notice diff file = none ↔ Breaks numberText budget diff file := by
  unfold appendFile Breaks
  extract_lets header remaining
  by_cases hfloor : remaining < 240
  · rw [if_pos hfloor]
    exact iff_of_true rfl (Or.inl hfloor)
  · rw [if_neg hfloor]
    cases inlinePatch file with
    | none => simp [hfloor, remaining, header]
    | some patch => simp [hfloor, remaining]

/-- **What a turn appends**: a listed file or a patch that fit, or a cut patch that does unless its
header fills the budget. -/
theorem appendFile_eq_some (h : appendFile numberText budget notice diff file = some diff') :
    diff'.length ≤ budget ∧ ¬HeaderFills numberText budget notice diff file ∨
      diff' = diff ++ fileHeader numberText file ++ truncatedNotice ++ [10, 10] ∧
        HeaderFills numberText budget notice diff file := by
  unfold appendFile at h
  simp only at h
  split at h
  · cases h
  · cases hpatch : inlinePatch file with
    | none =>
      simp only [hpatch] at h
      split at h
      · cases h
      · next hroom =>
        obtain rfl := Option.some.inj h
        refine Or.inl ⟨?_, ?_⟩
        · simp only [length_append]
          omega
        · rintro ⟨patch, hsome, -⟩
          rw [hpatch] at hsome
          cases hsome
    | some patch =>
      simp only [hpatch] at h
      obtain rfl := Option.some.inj h
      unfold patchBody
      simp only
      by_cases hlong : budget - diff.length < (fileHeader numberText file).length + patch.length + 2
      · rw [if_pos hlong]
        by_cases hfills : budget - diff.length ≤ (fileHeader numberText file).length + 4 +
          notice.length
        · right
          rw [keepHighSignalHunks, if_pos (by omega)]
          exact ⟨rfl, patch, hpatch, hlong, hfills⟩
        · left
          have hbounded := (hunks_fit_and_keep_order patch
            (budget - diff.length - (fileHeader numberText file).length - 4 - notice.length)
              (by omega)).bounded
          refine ⟨?_, by rintro ⟨_, _, _, hother⟩; exact hfills hother⟩
          simp only [length_append, length_cons, length_nil]
          omega
      · rw [if_neg hlong]
        left
        refine ⟨?_, ?_⟩
        · simp only [length_append, length_cons, length_nil]
          omega
        · rintro ⟨patch', hpatch', hlong', -⟩
          obtain rfl := Option.some.inj (hpatch.symm.trans hpatch')
          exact hlong hlong'

/-- The loop goes through all files, or ends with the notice. -/
theorem appendFiles_cases (numberText : JsNumber → Units) (budget : ℤ) (notice : Units)
    (files : List ReviewDiffFile) (diff : Units) :
    files.foldlM (appendFile numberText budget notice) diff =
        some (appendFiles numberText budget notice diff files) ∨
      ∃ front file back before, files = front ++ file :: back ∧
        front.foldlM (appendFile numberText budget notice) diff = some before ∧
        appendFile numberText budget notice before file = none ∧
        appendFiles numberText budget notice diff files = before ++ notice := by
  induction files generalizing diff with
  | nil => exact Or.inl rfl
  | cons file files ih =>
    rw [appendFiles]
    cases hturn : appendFile numberText budget notice diff file with
    | none => exact Or.inr ⟨[], file, files, diff, rfl, rfl, hturn, rfl⟩
    | some next =>
      rcases ih next with hall | ⟨front, other, back, before, rfl, hfront, hother, heq⟩
      · left
        rw [foldlM_cons, hturn]
        exact hall
      · refine Or.inr ⟨file :: front, other, back, before, rfl, ?_, hother, heq⟩
        rw [foldlM_cons, hturn]
        exact hfront

/-- A run that comes to a file at which the loop ends. -/
theorem appendFiles_of_breaks {front back : List ReviewDiffFile} {before : Units}
    (hfront : front.foldlM (appendFile numberText budget notice) diff = some before)
    (hfile : appendFile numberText budget notice before file = none) :
    appendFiles numberText budget notice diff (front ++ file :: back) = before ++ notice := by
  induction front generalizing diff with
  | nil =>
    obtain rfl := Option.some.inj hfront
    rw [nil_append, appendFiles, hfile]
  | cons other front ih =>
    rw [foldlM_cons] at hfront
    obtain ⟨next, hnext, hrest⟩ := Option.bind_eq_some_iff.1 hfront
    rw [cons_append, appendFiles, hnext]
    exact ih hrest

theorem appendFiles_of_foldlM
    (hall : files.foldlM (appendFile numberText budget notice) diff = some diff') :
    appendFiles numberText budget notice diff files = diff' := by
  induction files generalizing diff with
  | nil => exact Option.some.inj hall
  | cons file files ih =>
    rw [foldlM_cons] at hall
    obtain ⟨next, hnext, hrest⟩ := Option.bind_eq_some_iff.1 hall
    rw [appendFiles, hnext]
    exact ih hrest

end Turns

/-! ## What is trimmed -/

section Trimming

variable {numberText} {budget : ℤ} {notice diff : Units} {file : ReviewDiffFile}
  {files : List ReviewDiffFile}

theorem length_trimUnits_le (text : Units) : (trimUnits text).length ≤ text.length :=
  (List.rdropWhile_prefix _ _).length_le.trans (dropWhile_suffix _).length_le

/-- Of a text that does not start with white space, only what follows its last character is
trimmed. -/
theorem trimUnits_eq {front spaces : Units} {c : ℕ}
    (hhead : ∀ first ∈ (front ++ [c]).head?, isSpaceUnit first = false) (hc : isSpaceUnit c = false)
    (hspaces : ∀ unit ∈ spaces, isSpaceUnit unit = true) :
    trimUnits (front ++ [c] ++ spaces) = front ++ [c] := by
  have hdrop : (front ++ [c] ++ spaces).dropWhile isSpaceUnit = front ++ [c] ++ spaces := by
    cases front with
    | nil => simp [hc]
    | cons first front => simp [hhead first rfl]
  have hreverse : (front ++ [c] ++ spaces).reverse = spaces.reverse ++ c :: front.reverse := by simp
  rw [trimUnits, hdrop, List.rdropWhile, hreverse, dropWhile_append_of_pos (by simpa using hspaces),
    dropWhile_cons_of_neg (by simp [hc])]
  simp

/-- The diff is empty, or starts with the mark of a header. -/
def StartsMarked (diff : Units) : Prop := ∀ first ∈ diff.head?, first = 35

theorem startsMarked_append {front back : Units} (hfront : StartsMarked front)
    (hback : StartsMarked back) :
    StartsMarked (front ++ back) := by
  cases front with
  | nil => exact hback
  | cons first front => exact hfront

theorem startsMarked_fileHeader (numberText : JsNumber → Units) (file : ReviewDiffFile) :
    StartsMarked (fileHeader numberText file) := by
  have hmark : utf16Units "### " = [35, 35, 35, 32] := by decide
  rintro first hfirst
  rw [fileHeader, hmark] at hfirst
  exact (Option.some.inj hfirst).symm

theorem startsMarked_appendFile (hdiff : StartsMarked diff) {diff' : Units}
    (h : appendFile numberText budget notice diff file = some diff') : StartsMarked diff' := by
  have hheader := startsMarked_append hdiff (startsMarked_fileHeader numberText file)
  have hnonempty : fileHeader numberText file ≠ [] := by simp [fileHeader]
  have hstays : ∀ back, StartsMarked (diff ++ fileHeader numberText file ++ back) := by
    intro back first hfirst
    rw [List.head?_append_of_ne_nil _ (by simp [hnonempty])] at hfirst
    exact hheader first hfirst
  unfold appendFile at h
  extract_lets header remaining at h
  split at h
  · cases h
  · split at h
    · split at h
      · cases h
      · obtain rfl := Option.some.inj h
        exact hstays _
    · obtain rfl := Option.some.inj h
      rw [append_assoc]
      exact hstays _

theorem startsMarked_foldlM (hdiff : StartsMarked diff) {diff' : Units}
    (h : files.foldlM (appendFile numberText budget notice) diff = some diff') :
    StartsMarked diff' := by
  induction files generalizing diff with
  | nil => exact Option.some.inj h ▸ hdiff
  | cons file files ih =>
    rw [foldlM_cons] at h
    obtain ⟨next, hnext, hrest⟩ := Option.bind_eq_some_iff.1 h
    exact ih (startsMarked_appendFile hdiff hnext) hrest

theorem StartsMarked.not_space (h : StartsMarked diff) :
    ∀ first ∈ diff.head?, isSpaceUnit first = false := by
  intro first hfirst
  rw [h first hfirst]
  decide

/-- The notice is one line. -/
theorem truncationNotice_eq (n : ℕ) :
    ∃ front, truncationNotice n = front ++ [41] ++ [10] ∧ front.head? = some 35 := by
  have hfront : utf16Units "### …diff truncated (" =
      35 :: (utf16Units "### …diff truncated (").tail := by decide
  have hback : utf16Units " files total)\n" = utf16Units " files total" ++ [41] ++ [10] := by decide
  refine ⟨utf16Units "### …diff truncated (" ++ utf16Units (toString n) ++
    utf16Units " files total", ?_, ?_⟩
  · rw [truncationNotice, hback]
    simp
  · rw [hfront]
    rfl

theorem length_trimUnits_notice (hdiff : StartsMarked diff) (n : ℕ) :
    (trimUnits (diff ++ truncationNotice n)).length + 1 = diff.length +
      (truncationNotice n).length := by
  obtain ⟨front, heq, hhead⟩ := truncationNotice_eq n
  have hmarked : StartsMarked (diff ++ front ++ [41]) := by
    have hfront : StartsMarked (front ++ [41]) := by
      intro first hfirst
      rw [List.head?_append, hhead] at hfirst
      exact (Option.some.inj hfirst).symm
    rw [append_assoc]
    exact startsMarked_append hdiff hfront
  have htext : diff ++ truncationNotice n = diff ++ front ++ [41] ++ [10] := by
    rw [heq]
    simp
  rw [htext, trimUnits_eq hmarked.not_space (by decide) (by decide), heq]
  simp only [length_append, length_cons, length_nil]
  omega

theorem length_trimUnits_header (hdiff : StartsMarked diff) (file : ReviewDiffFile) :
    (trimUnits (diff ++ fileHeader numberText file ++ truncatedNotice ++ [10, 10])).length =
      diff.length + (fileHeader numberText file).length + truncatedNotice.length := by
  obtain ⟨front, hnotice⟩ : ∃ front, truncatedNotice = front ++ [41] :=
    ⟨truncatedNotice.dropLast, by decide⟩
  have hmarked : StartsMarked (diff ++ fileHeader numberText file ++ front ++ [41]) := by
    have hheader := startsMarked_append hdiff (startsMarked_fileHeader numberText file)
    intro first hfirst
    rw [append_assoc, List.head?_append_of_ne_nil _ (by simp [fileHeader])] at hfirst
    exact hheader first hfirst
  have htext : diff ++ fileHeader numberText file ++ truncatedNotice ++ [10, 10] =
      diff ++ fileHeader numberText file ++ front ++ [41] ++ [10, 10] := by
    rw [hnotice]
    simp
  rw [htext, trimUnits_eq hmarked.not_space (by decide) (by decide), hnotice]
  simp only [length_append, length_cons, length_nil]
  omega

end Trimming

/-! ## The budget -/

/-- **The review diff is within its budget exactly where its notices have room.** -/
theorem review_diff_within_budget_iff (files : List ReviewDiffFile) (budget : ℤ)
    (hbudget : 240 ≤ budget) :
    (buildUnifiedReviewDiff numberText diffFilePriority files budget).length ≤ budget ↔
      LeavesRoom numberText diffFilePriority files budget := by
  have hempty : StartsMarked [] := nofun
  constructor
  · intro hwithin
    constructor
    · intro front file back diff hsplit hfront hbreaks
      rw [buildUnifiedReviewDiff, hsplit,
        appendFiles_of_breaks hfront (appendFile_eq_none_iff.2 hbreaks)] at hwithin
      have hlength := length_trimUnits_notice (startsMarked_foldlM hempty hfront) files.length
      omega
    · intro front file diff hsplit hfront hgoes hfills
      obtain ⟨next, hnext⟩ := Option.ne_none_iff_exists'.1 (appendFile_eq_none_iff.not.2 hgoes)
      have hall : (front ++ [file]).foldlM
          (appendFile numberText budget (truncationNotice files.length)) [] = some next := by
        rw [foldlM_append]
        exact Option.bind_eq_some_iff.2 ⟨diff, hfront, by rw [foldlM_cons, hnext]; rfl⟩
      rw [buildUnifiedReviewDiff, hsplit, appendFiles_of_foldlM hall] at hwithin
      rcases appendFile_eq_some hnext with ⟨-, hnot⟩ | ⟨rfl, -⟩
      · exact absurd hfills hnot
      · rw [length_trimUnits_header (startsMarked_foldlM hempty hfront)] at hwithin
        exact_mod_cast hwithin
  · intro hroom
    rw [buildUnifiedReviewDiff]
    rcases appendFiles_cases numberText budget (truncationNotice files.length)
      (orderFiles diffFilePriority files) []
      with hall | ⟨front, file, back, diff, hsplit, hfront, hfile, heq⟩
    · rcases eq_nil_or_concat (orderFiles diffFilePriority files) with hnil | ⟨front, file, hsplit⟩
      · rw [hnil, appendFiles]
        exact le_trans (by simp [trimUnits]) hbudget
      · rw [concat_eq_append] at hsplit
        rw [hsplit] at hall ⊢
        rw [foldlM_append] at hall
        obtain ⟨diff, hfront, hlast⟩ := Option.bind_eq_some_iff.1 hall
        rw [foldlM_cons] at hlast
        obtain ⟨next, hnext, hdone⟩ := Option.bind_eq_some_iff.1 hlast
        obtain rfl := Option.some.inj hdone
        rcases appendFile_eq_some hnext with ⟨hle, -⟩ | ⟨heq, hfills⟩
        · exact le_trans (by exact_mod_cast length_trimUnits_le _) hle
        · have hgoes : ¬Breaks numberText budget diff file := by
            intro hbreaks
            have hnone : appendFile numberText budget (truncationNotice files.length) diff
                file = none :=
              appendFile_eq_none_iff.2 hbreaks
            rw [hnext] at hnone
            cases hnone
          rw [heq, length_trimUnits_header (startsMarked_foldlM hempty hfront)]
          exact_mod_cast hroom.header front file diff hsplit hfront hgoes hfills
    · have hlength := length_trimUnits_notice (startsMarked_foldlM hempty hfront) files.length
      have hle := hroom.notice front file back diff hsplit hfront (appendFile_eq_none_iff.1 hfile)
      rw [heq]
      omega

/-! ## Two files that are too much -/

/-- Whole numbers in decimal. -/
def decimalText : JsNumber → Units
  | .finite value => utf16Units (toString value.num)
  | _ => []

/-- A source file with a removed line of so many characters. -/
def plainFile (length : ℕ) : ReviewDiffFile :=
  ⟨utf16Units "a.ts", some (List.replicate length 45), none, none, none⟩

theorem review_diff_leaves_room :
    LeavesRoom decimalText (fun _ => 0) [plainFile 100, plainFile 1] 240 :=
  (review_diff_within_budget_iff decimalText (fun _ => 0) _ 240 (by decide)).1 (by decide +kernel)

/-- **A file that fits to the last character leaves no room for the notice about the next one.** -/
theorem review_diff_over_budget :
    ¬(buildUnifiedReviewDiff decimalText (fun _ => 0) [plainFile 212, plainFile 1] 240).length ≤
      240 := by
  decide +kernel

end LoopOver.ReviewDiff
