import LoopOver.Contract.Digest
import LoopOver.Number
import LoopOver.Text
import Mathlib.Data.List.Sort

/-!
# The diff that the reviewers read

`src/review/review-diff.ts` puts the patches of a pull request into one text of a bounded size.
Files come in the order of their priority, and a patch that is too long for what is left is cut down
to its hunks with the most added lines.

* `splitHunks` and `keepHighSignalHunks` are about one patch. `selectHunks` fills the budget, and
  `trimChosen` gives hunks back until the notice fits too.
* `buildUnifiedReviewDiff` is the loop over the files, and `appendFile` a turn of it.

Lengths and budgets count UTF-16 code units, and so do the texts here. The priority of a path, and
how a number is written, are parameters.
-/

namespace LoopOver.ReviewDiff

open List

/-- A text as its code units. -/
abbrev Units : Type := List ℕ

/-- `text.split("\n")`. -/
def splitLines (text : Units) : List Units := text.splitOn 10

/-- `lines.join("\n")`. -/
def joinLines (lines : List Units) : Units := [10].intercalate lines

@[simp] theorem joinLines_singleton (line : Units) : joinLines [line] = line :=
  intercalate_singleton

theorem joinLines_cons (line : Units) {lines : List Units} (h : lines ≠ []) :
    joinLines (line :: lines) = line ++ 10 :: joinLines lines := by
  simp [joinLines, intercalate_cons_of_ne_nil h]

theorem joinLines_append {front back : List Units} (hfront : front ≠ []) (hback : back ≠ []) :
    joinLines (front ++ back) = joinLines front ++ 10 :: joinLines back := by
  induction front with
  | nil => exact absurd rfl hfront
  | cons line front ih =>
    cases front with
    | nil => simp [joinLines, intercalate_cons_of_ne_nil hback]
    | cons next front =>
      rw [cons_append, joinLines_cons line (by simp), ih (cons_ne_nil _ _),
        joinLines_cons line (cons_ne_nil _ _), append_assoc, cons_append]

/-- A number is written with a unit for each digit. -/
theorem utf16Units_toString (n : ℕ) :
    utf16Units (toString n) = (Nat.toDigits 10 n).map Char.toNat := by
  rw [utf16Units, Nat.toString_eq_ofList_toDigits, String.toList_ofList, map_eq_flatMap]
  refine flatMap_congr fun c hc => if_pos ?_
  have hdigit := Nat.isDigit_of_mem_toDigits (by decide) (by decide) hc
  rw [Char.isDigit, Bool.and_eq_true, decide_eq_true_eq, decide_eq_true_eq] at hdigit
  have hle : c.val.toNat ≤ 57 := hdigit.2
  exact lt_of_le_of_lt hle (by decide)

/-! ## Hunks -/

/-- A line that a patch adds. -/
def isAddedLine (line : Units) : Bool :=
  (utf16Units "+").isPrefixOf line && !(utf16Units "+++").isPrefixOf line

def addedLineCount (patch : Option Units) : ℕ :=
  match patch with
  | none | some [] => 0
  | some patch => (splitLines patch).countP isAddedLine

/-- The loop over the lines, with the lines of the current hunk. -/
def splitHunksFrom (cur : List Units) : List Units → List Units
  | [] => if cur.isEmpty then [] else [joinLines cur]
  | line :: rest =>
    if (utf16Units "@@").isPrefixOf line &&
      !cur.isEmpty then joinLines cur :: splitHunksFrom [line] rest
    else splitHunksFrom (cur ++ [line]) rest

def splitHunks (patch : Units) : List Units := splitHunksFrom [] (splitLines patch)

/-- `TRUNCATED_NOTICE`. -/
def truncatedNotice : Units := utf16Units "… (this file's diff truncated)"

def droppedNotice (dropped : ℕ) : Units :=
  utf16Units "\n… (" ++
    (utf16Units (toString dropped) ++ utf16Units " lower-signal hunk(s) dropped)")

/-- A hunk with its position. -/
structure RankedHunk where
  i : ℕ
  len : ℕ
  sig : ℕ

def rankHunks (hunks : List Units) : List RankedHunk :=
  (hunks.zipIdx.map fun (hunk, i) => ⟨i, hunk.length, addedLineCount (some hunk)⟩).insertionSort
    fun a b => b.sig ≤ a.sig

/-- So many hunks with so many characters fit the budget, joined and with the notice. -/
def fits (budget : ℤ) (hunkCount chars notice : ℕ) : Bool :=
  (chars + (hunkCount - 1 : ℕ) + notice : ℤ) ≤ budget

/-- The hunks that are chosen, the last one first, and their characters. -/
structure Selection where
  chosen : List ℕ
  usedChars : ℕ

def chooseHunk (budget : ℤ) (selection : Selection) (r : RankedHunk) : Selection :=
  if fits budget (selection.chosen.length + 1) (selection.usedChars + r.len) 0 then
    ⟨r.i :: selection.chosen, selection.usedChars + r.len⟩
  else selection

/-- The loop over the ranked hunks. -/
def selectHunks (budget : ℤ) (ranked : List RankedHunk) : Selection :=
  ranked.foldl (chooseHunk budget) ⟨[], 0⟩

/-- The loop that gives back the last chosen hunk until the notice fits, with how many are
dropped. -/
def trimChosen (hunks : List Units) (budget : ℤ) : List ℕ → ℕ → ℕ → Selection × ℕ
  | removed :: next :: rest, usedChars, droppedCount =>
    if !fits budget (rest.length + 2) usedChars (droppedNotice (droppedCount + 1)).length then
      trimChosen hunks budget (next :: rest) (usedChars - (hunks.getD removed []).length)
        (droppedCount + 1)
    else (⟨removed :: next :: rest, usedChars⟩, droppedCount)
  | chosen, usedChars, droppedCount => (⟨chosen, usedChars⟩, droppedCount)

/-- A patch of one hunk. -/
def cutPatch (patch : Units) (budget : ℤ) : Units :=
  if patch.length ≤ budget then patch
  else
    let room := budget - (truncatedNotice.length + 1)
    if 0 < room then patch.take room.toNat ++ (10 :: truncatedNotice)
      else truncatedNotice.take budget.toNat

/-- The hunk with the most added lines, cut so that the notice fits. -/
def cutTopHunk (hunks : List Units) (ranked : List RankedHunk) (budget : ℤ) : Units :=
  let notice := droppedNotice (hunks.length - 1)
  let room := budget - notice.length
  if 0 < room then (hunks.getD ((ranked.head?.map (·.i)).getD 0) []).take room.toNat ++ notice
  else notice.take budget.toNat

/-- The hunks that stay whole, with how many are dropped; `none` where not one fits beside the
notice. -/
def keepHunks (hunks : List Units) (budget : ℤ) : Option (List ℕ × ℕ) :=
  let selected := selectHunks budget (rankHunks hunks)
  let droppedCount := hunks.length - selected.chosen.length
  let (kept, droppedCount) :=
    if 0 < selected.chosen.length ∧ 0 < droppedCount then
      trimChosen hunks budget selected.chosen selected.usedChars droppedCount
    else (selected, droppedCount)
  if kept.chosen.length = 0 ∨
      (kept.chosen.length = 1 ∧
        !fits budget 1 kept.usedChars (droppedNotice droppedCount).length) then none
  else some (kept.chosen, droppedCount)

/-- The kept hunks in the order of the file. -/
def joinKept (hunks : List Units) (chosen : List ℕ) : Units :=
  joinLines ((chosen.insertionSort (· ≤ ·)).map fun i => hunks.getD i [])

def keepHighSignalHunks (patch : Units) (budget : ℤ) : Units :=
  if budget ≤ 0 then truncatedNotice
  else
    let hunks := splitHunks patch
    if hunks.length ≤ 1 then cutPatch patch budget
    else
      match keepHunks hunks budget with
      | none => cutTopHunk hunks (rankHunks hunks) budget
      | some (chosen, droppedCount) =>
        if 0 < droppedCount then joinKept hunks chosen ++ droppedNotice droppedCount
          else joinKept hunks chosen

/-! ## Files -/

structure ReviewDiffFile where
  path : Units
  patch : Option Units
  status : Option Units
  additions : Option JsNumber
  deletions : Option JsNumber

section Files

variable (numberText : JsNumber → Units) (diffFilePriority : Units → ℕ)

def fileHeader (file : ReviewDiffFile) : Units :=
  utf16Units "### " ++ file.path ++ utf16Units " (" ++ file.status.getD (utf16Units "modified") ++
    utf16Units ") +" ++
    numberText (file.additions.getD 0) ++ utf16Units "/-" ++
      numberText (file.deletions.getD 0) ++ [10]

def noPatchSuffix : Units := utf16Units "(no inline patch — binary or too large)\n\n"

def truncationNotice (fileCount : ℕ) : Units :=
  utf16Units "### …diff truncated (" ++ utf16Units (toString fileCount) ++
    utf16Units " files total)\n"

/-- `!file.patch` is false. -/
def inlinePatch (file : ReviewDiffFile) : Option Units := file.patch.filter (!·.isEmpty)

/-- The patch as it is, or cut down to what is left. -/
def patchBody (budget : ℤ) (notice diff : Units) (file : ReviewDiffFile) (patch : Units) : Units :=
  let header := fileHeader numberText file
  let remaining := budget - diff.length
  if remaining < header.length + patch.length + 2 then
    keepHighSignalHunks patch (remaining - header.length - 4 - notice.length)
  else patch

/-- What the diff becomes with a file; `none` where the loop ends with the notice. -/
def appendFile (budget : ℤ) (notice diff : Units) (file : ReviewDiffFile) : Option Units :=
  let header := fileHeader numberText file
  let remaining := budget - diff.length
  if remaining < 240 then none
  else
    match inlinePatch file with
    | none => if remaining < header.length + noPatchSuffix.length then none
      else some (diff ++ header ++ noPatchSuffix)
    | some patch =>
      some (diff ++ header ++ patchBody numberText budget notice diff file patch ++ [10, 10])

def appendFiles (budget : ℤ) (notice : Units) : Units → List ReviewDiffFile → Units
  | diff, [] => diff
  | diff, file :: rest =>
    match appendFile numberText budget notice diff file with
    | none => diff ++ notice
    | some diff => appendFiles budget notice diff rest

/-- The order of the files, by priority and then by their added lines. -/
def fileBefore (a b : ReviewDiffFile) : Prop :=
  diffFilePriority a.path < diffFilePriority b.path ∨
    diffFilePriority a.path = diffFilePriority b.path ∧
      addedLineCount b.patch ≤ addedLineCount a.patch

instance : DecidableRel (fileBefore diffFilePriority) :=
  fun _ _ => inferInstanceAs (Decidable (_ ∨ _ ∧ _))

def orderFiles (files : List ReviewDiffFile) : List ReviewDiffFile :=
  files.insertionSort (fileBefore diffFilePriority)

/-- What `trim` takes away. -/
def isSpaceUnit (unit : ℕ) : Bool := isRegexSpace (Char.ofNat unit)

def trimUnits (text : Units) : Units := (text.dropWhile isSpaceUnit).rdropWhile isSpaceUnit

def buildUnifiedReviewDiff (files : List ReviewDiffFile) (budget : ℤ) : Units :=
  trimUnits (appendFiles numberText budget (truncationNotice files.length) []
    (orderFiles diffFilePriority files))

end Files

end LoopOver.ReviewDiff
