import LoopOver.Review.SecretScan

/-!
# Where the scan finds a secret

Patches are made of hunks. `lineHits` numbers the lines that a hunk adds, and its parameter is what
a marker `\ No newline at end of file` counts: nothing in the file, and one line in the scan.

* `fileHits` is what a file adds, and `scanned` what the scan reports of a list of files.
* `scanFrom_lines`, `scanFrom_hunk` and `scanFrom_file` read a piece of the diff each.
* **`scan_build`**: the diff that `buildSecretScanDiff` makes is read so by every matcher that white
  space around a text does not matter to; `scanFrom_trimmed` is about the end that `trim` takes
  away.
-/

variable (file : SubmittedFile)

namespace LoopOver.SecretScan

open ReviewDiff (Units splitLines joinLines joinLines_singleton joinLines_cons joinLines_append
  trimUnits isSpaceUnit)
open List

/-! ## Patches -/

abbrev Line : Type := {text : Units // 10 ∉ text}

inductive PatchLine where
  | context (text : Line)
  | removed (text : Line)
  | added (text : Line)
  | noNewline

namespace PatchLine

def text : PatchLine → Units
  | context text => utf16Units " " ++ text.1
  | removed text => utf16Units "-" ++ text.1
  | added text => utf16Units "+" ++ text.1
  | noNewline => utf16Units "\\ No newline at end of file"

end PatchLine

/-- A hunk with the numbers of its header and what stands behind them. -/
structure Hunk where
  oldStart : ℕ
  oldCount : Option ℕ
  newStart : ℕ
  newCount : Option ℕ
  heading : Line
  lines : List PatchLine

def countText : Option ℕ → Units
  | none => []
  | some count => utf16Units "," ++ utf16Units (toString count)

def hunkHeader (hunk : Hunk) : Units :=
  utf16Units "@@ -" ++ utf16Units (toString hunk.oldStart) ++ countText hunk.oldCount ++
    utf16Units " +" ++
    utf16Units (toString hunk.newStart) ++ countText hunk.newCount ++ utf16Units " @@" ++
      hunk.heading.1

def hunkLines (hunk : Hunk) : List Units := hunkHeader hunk :: hunk.lines.map PatchLine.text

/-- The words of the host for what happened to a file. -/
inductive FileStatus where
  | added | removed | modified | renamed | copied | changed | unchanged
deriving DecidableEq

def FileStatus.word : FileStatus → Units
  | added => utf16Units "added"
  | removed => utf16Units "removed"
  | modified => utf16Units "modified"
  | renamed => utf16Units "renamed"
  | copied => utf16Units "copied"
  | changed => utf16Units "changed"
  | unchanged => utf16Units "unchanged"

/-- A file of a pull request. -/
structure SubmittedFile where
  path : Line
  status : Option FileStatus
  additions : Option ℕ
  deletions : Option ℕ
  /-- `none` where the host left the patch out. -/
  patch : Option (List Hunk)

namespace SubmittedFile

def hunks (file : SubmittedFile) : List Hunk := file.patch.getD []

/-- The path is new in the repository. -/
def NewPath (file : SubmittedFile) : Prop := file.status = some .added ∨ file.status = some .renamed

instance (file : SubmittedFile) : Decidable file.NewPath := inferInstanceAs (Decidable (_ ∨ _))

def toRecord (file : SubmittedFile) : PullRequestFileRecord where
  path := file.path.1
  status := file.status.map FileStatus.word
  additions := file.additions
  deletions := file.deletions
  patch := file.patch.map fun hunks => joinLines (hunks.flatMap hunkLines)

end SubmittedFile

/-! ## Hits -/

section Hits

variable (matchedKindsIn : Units → List Units)

/-- The hits of lines, the first of which has the number, where a marker counts so many lines. -/
def lineHits (markerWidth : ℤ) (path : Units) : ℤ → List PatchLine → List SecretScanLocationMatch
  | _, [] => []
  | n, .context _ :: rest => lineHits markerWidth path (n + 1) rest
  | n, .removed _ :: rest => lineHits markerWidth path n rest
  | n, .added text :: rest =>
    matchesAt matchedKindsIn text.1 path n ++ lineHits markerWidth path (n + 1) rest
  | n, .noNewline :: rest => lineHits markerWidth path (n + markerWidth) rest

def hunkHits (markerWidth : ℤ) (path : Units) (hunk : Hunk) : List SecretScanLocationMatch :=
  lineHits matchedKindsIn markerWidth path hunk.newStart hunk.lines

def pathHits (file : SubmittedFile) : List SecretScanLocationMatch :=
  if file.NewPath then matchesAt matchedKindsIn file.path.1 file.path.1 0 else []

/-- **What a file adds**, each line with its number in the file after the change. -/
def fileHits (file : SubmittedFile) : List SecretScanLocationMatch :=
  pathHits matchedKindsIn file ++ file.hunks.flatMap (hunkHits matchedKindsIn 0 file.path.1)

/-- `currentPath` after the header of the file. -/
def pathAfter (currentPath : Units) (file : SubmittedFile) : Units :=
  if HeaderPath file.path.1 then file.path.1 else currentPath

/-- What the scan reports of a file. -/
def scannedHits (currentPath : Units) (file : SubmittedFile) : List SecretScanLocationMatch :=
  (if HeaderPath file.path.1 then pathHits matchedKindsIn file else []) ++
    file.hunks.flatMap (hunkHits matchedKindsIn 1 (pathAfter currentPath file))

def scanned (currentPath : Units) : List SubmittedFile → List SecretScanLocationMatch
  | [] => []
  | file :: rest =>
    scannedHits matchedKindsIn currentPath file ++ scanned (pathAfter currentPath file) rest

end Hits

/-! ## Reading lines -/

section Lines

variable {matchedKindsIn : Units → List Units} {path : Units} {rest : List Units} {line : Units}

theorem startsWith_sign {sign : ℕ} (h : sign ∉ line.head?) : [sign].isPrefixOf line = false := by
  cases line with
  | nil => rfl
  | cons unit line =>
    rw [List.head?_cons, Option.mem_some_iff] at h
    rw [List.isPrefixOf, List.isPrefixOf, Bool.and_true, beq_eq_false_iff_ne]
    exact Ne.symm h

variable {n : ℤ}

/-- A line that is no header and begins with neither sign is counted. -/
theorem scanFrom_other (hfile : readFileHeader line = none) (hhunk : readHunkHeader line = none)
    (hplus : 43 ∉ line.head?) (hminus : 45 ∉ line.head?) :
    scanFrom matchedKindsIn ⟨path, n⟩ (line :: rest) =
      scanFrom matchedKindsIn ⟨path, n + 1⟩ rest := by
  have hplus' : (utf16Units "+").isPrefixOf line = false := startsWith_sign hplus
  have hminus' : (utf16Units "-").isPrefixOf line = false := startsWith_sign hminus
  simp [scanFrom, scanLine, hfile, hhunk, hplus', hminus']

variable {text : Units}

theorem scanFrom_removed :
    scanFrom matchedKindsIn ⟨path, n⟩ ((45 :: text) :: rest) =
      scanFrom matchedKindsIn ⟨path, n⟩ rest := by
  have hplus : (utf16Units "+").isPrefixOf (45 :: text) = false := rfl
  have hminus : (utf16Units "-").isPrefixOf (45 :: text) = true := by
    simp [utf16Units, List.isPrefixOf]
  simp [scanFrom, scanLine, readFileHeader_cons, readHunkHeader_cons, hplus, hminus]

theorem scanFrom_added :
    scanFrom matchedKindsIn ⟨path, n⟩ ((43 :: text) :: rest) =
      matchesAt matchedKindsIn text path (n + 1) ++ scanFrom matchedKindsIn ⟨path, n + 1⟩ rest := by
  have hplus : (utf16Units "+").isPrefixOf (43 :: text) = true := by
    simp [utf16Units, List.isPrefixOf]
  simp [scanFrom, scanLine, readFileHeader_cons, readHunkHeader_cons, hplus]

/-- A line that begins with a blank or a backslash. -/
theorem scanFrom_counted {unit : ℕ} (hunit : unit = 32 ∨ unit = 92) :
    scanFrom matchedKindsIn ⟨path, n⟩ ((unit :: text) :: rest) =
      scanFrom matchedKindsIn ⟨path, n + 1⟩ rest :=
  scanFrom_other (readFileHeader_cons (by omega)) (readHunkHeader_cons (by omega)) (by simp; omega)
    (by simp; omega)

/-- The lines of a hunk. -/
theorem scanFrom_lines (matchedKindsIn : Units → List Units) (path : Units) (rest : List Units)
    (lines : List PatchLine) (n : ℤ) : ∃ n', scanFrom matchedKindsIn ⟨path, n - 1⟩
    (lines.map PatchLine.text ++ rest) = lineHits matchedKindsIn 1 path n lines ++
      scanFrom matchedKindsIn ⟨path, n'⟩ rest := by
  induction lines generalizing n with
  | nil => exact ⟨n - 1, rfl⟩
  | cons line lines ih =>
    obtain ⟨n', hnext⟩ := ih (n + 1)
    rw [add_sub_cancel_right] at hnext
    rw [map_cons, cons_append]
    cases line with
    | context text =>
      refine ⟨n', (scanFrom_counted (Or.inl rfl)).trans ?_⟩
      rw [sub_add_cancel, lineHits]
      exact hnext
    | removed text =>
      obtain ⟨n', hnext⟩ := ih n
      exact ⟨n', scanFrom_removed.trans hnext⟩
    | added text =>
      refine ⟨n', scanFrom_added.trans ?_⟩
      rw [sub_add_cancel, lineHits, append_assoc]
      exact congrArg _ hnext
    | noNewline =>
      refine ⟨n', (scanFrom_counted (Or.inr rfl)).trans ?_⟩
      rw [sub_add_cancel, lineHits]
      exact hnext

theorem skipCount_countText (count : Option ℕ) {rest : Units} (h : ∀ unit ∈ rest.head?, unit = 32) :
    skipCount (countText count ++ rest) = some rest := by
  cases count with
  | none =>
    cases rest with
    | nil => rfl
    | cons unit rest =>
      obtain rfl := h unit rfl
      simp [skipCount, countText, literal, utf16Units, List.isPrefixOf]
  | some count =>
    obtain ⟨hne, hdigits⟩ := run1_digits count
    rw [skipCount, countText, append_assoc, literal_append]
    simp only
    rw [run1_append hne hdigits, Option.map_some]
    intro unit hunit
    rw [h unit hunit]
    rfl

theorem readHunkHeader_hunkHeader (hunk : Hunk) :
    readHunkHeader (hunkHeader hunk) = some hunk.newStart := by
  have hdigits (n : ℕ) (count : Option ℕ) (rest : Units) (h : ∀ unit ∈ rest.head?, unit = 32) :
      run1 isDigitUnit (utf16Units (toString n) ++ (countText count ++ rest)) =
        some (utf16Units (toString n), countText count ++ rest) := by
    refine run1_append (run1_digits n).1 (run1_digits n).2 fun unit hunit => ?_
    cases count with
    | none =>
      rw [h unit hunit]
      rfl
    | some count =>
      obtain rfl : 44 = unit := by simpa [countText, utf16Units] using hunit
      rfl
  have hplus (rest : Units) : ∀ unit ∈ (utf16Units " +" ++ rest).head?, unit = 32 := by
    intro unit hunit
    exact (Option.some.inj hunit).symm
  have hend (rest : Units) : ∀ unit ∈ (utf16Units " @@" ++ rest).head?, unit = 32 := by
    intro unit hunit
    exact (Option.some.inj hunit).symm
  simp only [readHunkHeader, hunkHeader, append_assoc, Option.bind_eq_bind, literal_append,
    Option.bind_some]
  rw [hdigits _ _ _ (hplus _), Option.bind_some, skipCount_countText _ (hplus _), Option.bind_some,
    literal_append, Option.bind_some, hdigits _ _ _ (hend _), Option.bind_some,
    skipCount_countText _ (hend _), Option.bind_some, literal_append, Option.bind_some,
    digitsValue_digits]
  rfl

/-- A hunk behind its header, wherever the counter stood. -/
theorem scanFrom_hunk (matchedKindsIn : Units → List Units) (path : Units) (rest : List Units)
    (hunk : Hunk) (n : ℤ) :
    ∃ n', scanFrom matchedKindsIn ⟨path, n⟩ (hunkLines hunk ++ rest) =
      hunkHits matchedKindsIn 1 path hunk ++ scanFrom matchedKindsIn ⟨path, n'⟩ rest := by
  obtain ⟨n', hlines⟩ := scanFrom_lines matchedKindsIn path rest hunk.lines hunk.newStart
  have hfile : readFileHeader (hunkHeader hunk) = none := readFileHeader_cons (by decide)
  refine ⟨n', ?_⟩
  rw [hunkLines, cons_append, scanFrom, scanLine, hfile, readHunkHeader_hunkHeader]
  exact hlines

theorem scanFrom_hunks (matchedKindsIn : Units → List Units) (path : Units) (rest : List Units)
    (hunks : List Hunk) (n : ℤ) :
    ∃ n', scanFrom matchedKindsIn ⟨path, n⟩ (hunks.flatMap hunkLines ++ rest) =
      hunks.flatMap (hunkHits matchedKindsIn 1 path) ++
      scanFrom matchedKindsIn ⟨path, n'⟩ rest := by
  induction hunks generalizing n with
  | nil => exact ⟨n, rfl⟩
  | cons hunk hunks ih =>
    obtain ⟨n₁, hhunk⟩ := scanFrom_hunk matchedKindsIn path (hunks.flatMap hunkLines ++ rest) hunk n
    obtain ⟨n₂, hhunks⟩ := ih n₁
    refine ⟨n₂, ?_⟩
    rw [flatMap_cons, append_assoc, hhunk, hhunks, flatMap_cons, append_assoc]

/-- The lines of a file's section. -/
def sectionLines (file : SubmittedFile) : List Units :=
  fileHeader file.toRecord :: file.hunks.flatMap hunkLines

theorem run1_statusWord (status : Option FileStatus) :
    Run1 isLowerUnit ((status.map FileStatus.word).getD (utf16Units "modified")) := by
  cases status with
  | none => exact ⟨by decide, by decide⟩
  | some status => cases status <;> exact ⟨by decide, by decide⟩

theorem readFileHeader_fileHeader : readFileHeader (fileHeader file.toRecord) =
    if HeaderPath file.path.1 then
      some (file.path.1, (file.status.map FileStatus.word).getD (utf16Units "modified"))
        else none :=
  readFileHeader_header (run1_statusWord file.status) (run1_digits _) (run1_digits _)

/-- The word in a header tells whether the path is new. -/
theorem statusWord_iff :
    ((file.status.map FileStatus.word).getD (utf16Units "modified") = utf16Units "added" ∨
      (file.status.map FileStatus.word).getD (utf16Units "modified") = utf16Units "renamed") ↔
        file.NewPath := by
  unfold SubmittedFile.NewPath
  cases file.status with
  | none => decide
  | some status => cases status <;> decide

theorem scanFrom_file (matchedKindsIn : Units → List Units) (path : Units) (rest : List Units)
    (file : SubmittedFile) (n : ℤ) :
    ∃ n', scanFrom matchedKindsIn ⟨path, n⟩ (sectionLines file ++ rest) =
      scannedHits matchedKindsIn path file ++
      scanFrom matchedKindsIn ⟨pathAfter path file, n'⟩ rest := by
  have hheader := readFileHeader_fileHeader file
  rw [sectionLines, cons_append]
  unfold scannedHits pathAfter
  by_cases hpath : HeaderPath file.path.1
  · rw [if_pos hpath] at hheader ⊢
    rw [if_pos hpath]
    obtain ⟨n', hhunks⟩ := scanFrom_hunks matchedKindsIn file.path.1 rest file.hunks 0
    refine ⟨n', ?_⟩
    rw [scanFrom, scanLine, hheader, append_assoc]
    simp only [statusWord_iff]
    rw [hhunks, pathHits]
  · rw [if_neg hpath] at hheader ⊢
    rw [if_neg hpath]
    obtain ⟨n', hhunks⟩ := scanFrom_hunks matchedKindsIn path rest file.hunks (n + 1)
    refine ⟨n', ?_⟩
    rw [scanFrom_other hheader (readHunkHeader_cons (by decide)) (by simp [fileHeader, utf16Units])
      (by simp [fileHeader, utf16Units]), hhunks, nil_append]

/-- The lines of all sections, with an empty line between two of them. -/
theorem scanFrom_sections (files : List SubmittedFile) (n : ℤ) : scanFrom matchedKindsIn ⟨path, n⟩
    ([[]].intercalate (files.map sectionLines)) = scanned matchedKindsIn path files := by
  induction files generalizing path n with
  | nil => rfl
  | cons file files ih =>
    cases files with
    | nil =>
      obtain ⟨n', hfile⟩ := scanFrom_file matchedKindsIn path [] file n
      simpa [scanFrom, scanned] using hfile
    | cons next files =>
      obtain ⟨n', hfile⟩ := scanFrom_file matchedKindsIn path
        ([] :: [[]].intercalate ((next :: files).map sectionLines)) file n
      have hblank : readFileHeader [] = none := rfl
      have hblank' : readHunkHeader [] = none := rfl
      rw [map_cons, map_cons, intercalate_cons_cons, append_assoc, singleton_append,
        ← map_cons, hfile, scanFrom_other hblank hblank' (by simp) (by simp), ih]
      rfl

/-! ## The text -/

theorem joinLines_cons_ne_nil (h : line ≠ []) (lines : List Units) :
    joinLines (line :: lines) ≠ [] := by
  cases lines with
  | nil => simpa [joinLines] using h
  | cons next lines => simp [joinLines, h]

theorem fileSection_eq : fileSection file.toRecord = joinLines (sectionLines file) := by
  have hpatch : file.toRecord.patch.getD [] = joinLines (file.hunks.flatMap hunkLines) := by
    unfold SubmittedFile.hunks SubmittedFile.toRecord
    cases file.patch <;> rfl
  rw [fileSection, hpatch, sectionLines]
  cases hhunks : file.hunks with
  | nil => simp [joinLines]
  | cons hunk hunks =>
    have hheader : hunkHeader hunk ≠ [] := by simp [hunkHeader, utf16Units]
    have hlines : (hunk :: hunks).flatMap hunkLines =
        hunkHeader hunk :: (hunk.lines.map PatchLine.text ++ hunks.flatMap hunkLines) := rfl
    have htext :=
      joinLines_cons_ne_nil hheader (hunk.lines.map PatchLine.text ++ hunks.flatMap hunkLines)
    rw [hlines, joinLines_cons _ (cons_ne_nil _ _)]
    simp [htext]

theorem joinLines_sections (sections : List (List Units)) (h : ∀ lines ∈ sections, lines ≠ []) :
    [10, 10].intercalate (sections.map joinLines) = joinLines ([[]].intercalate sections) := by
  induction sections with
  | nil => rfl
  | cons lines sections ih =>
    rw [forall_mem_cons] at h
    cases sections with
    | nil => simp
    | cons next sections =>
      have hne : [[]].intercalate (next :: sections) ≠ ([] : List Units) := by
        cases sections with
        | nil => simpa using h.2
        | cons other sections => simp
      rw [map_cons, map_cons, intercalate_cons_cons, ← map_cons, ih h.2, intercalate_cons_cons,
        append_assoc lines, joinLines_append h.1 (by simp), singleton_append, joinLines_cons _ hne]
      simp

/-! ## Trimming -/

/-- White space around a text does not change what it is matched for. -/
def Insensitive (matchedKindsIn : Units → List Units) : Prop := ∀ front text back : Units,
  (∀ unit ∈ front, isSpaceUnit unit) → (∀ unit ∈ back, isSpaceUnit unit) →
    matchedKindsIn (front ++ text ++ back) = matchedKindsIn text

theorem scanFrom_append (front back : List Units) (state : ScanState) :
    scanFrom matchedKindsIn state (front ++ back) = scanFrom matchedKindsIn state front ++
      scanFrom matchedKindsIn
        (front.foldl (fun state line => (scanLine matchedKindsIn state line).1) state) back := by
  induction front generalizing state with
  | nil => rfl
  | cons line front ih => rw [cons_append, scanFrom, scanFrom, ih, append_assoc, foldl_cons]

/-- A line that is no header of a file and does not begin with a plus brings nothing. -/
theorem scanFrom_silent (state : ScanState) (hfile : readFileHeader line = none)
    (hplus : 43 ∉ line.head?) : scanFrom matchedKindsIn state [line] = [] := by
  have hplus' : (utf16Units "+").isPrefixOf line = false := startsWith_sign hplus
  rw [scanFrom, scanLine, hfile]
  cases readHunkHeader line with
  | some start => rfl
  | none =>
    simp only [hplus', Bool.false_eq_true, if_false]
    split <;> rfl

theorem rdropWhile_append_of_not_all {front back : Units} (h : ¬∀ unit ∈ back, isSpaceUnit unit) :
    (front ++ back).rdropWhile isSpaceUnit = front ++ back.rdropWhile isSpaceUnit := by
  have hne : back.reverse.dropWhile isSpaceUnit ≠ [] := by
    rw [Ne, dropWhile_eq_nil_iff]
    simpa using h
  rw [List.rdropWhile, reverse_append, dropWhile_append]
  simp [hne, List.rdropWhile]

theorem rdropWhile_append_of_all {front back : Units} (h : ∀ unit ∈ back, isSpaceUnit unit) :
    (front ++ back).rdropWhile isSpaceUnit = front.rdropWhile isSpaceUnit := by
  rw [List.rdropWhile, reverse_append, dropWhile_append_of_pos (by simpa using h), List.rdropWhile]

theorem rdropWhile_cons_of_not_space {unit : ℕ} (h : isSpaceUnit unit = false) (text : Units) :
    (unit :: text).rdropWhile isSpaceUnit = unit :: text.rdropWhile isSpaceUnit := by
  by_cases hall : ∀ other ∈ text, isSpaceUnit other
  · rw [← singleton_append, rdropWhile_append_of_all hall, rdropWhile_eq_nil_iff.2 hall,
      rdropWhile_singleton, h]
    rfl
  · rw [← singleton_append, rdropWhile_append_of_not_all hall, singleton_append]

theorem mem_head?_of_rdropWhile {unit : ℕ} (h : unit ∈ (text.rdropWhile isSpaceUnit).head?) :
    unit ∈ text.head? := by
  obtain ⟨tail, htail⟩ := rdropWhile_prefix isSpaceUnit text
  rw [← htail, List.head?_append_of_ne_nil _ (by rintro hnil; simp [hnil] at h)]
  exact h

/-- White space at the end of a line brings no hit and takes none away. -/
theorem scanFrom_trimmed_line (h : Insensitive matchedKindsIn) (line : Units) (state : ScanState)
    (hheader : readFileHeader (line.rdropWhile isSpaceUnit) = readFileHeader line) :
    scanFrom matchedKindsIn state [line.rdropWhile isSpaceUnit] =
      scanFrom matchedKindsIn state [line] := by
  cases line with
  | nil => rfl
  | cons unit text =>
    by_cases hplus : unit = 43
    · subst hplus
      have hkinds : matchedKindsIn (text.rdropWhile isSpaceUnit) = matchedKindsIn text := by
        have hend : ∀ unit ∈ text.rtakeWhile isSpaceUnit, isSpaceUnit unit :=
          fun unit hunit => mem_rtakeWhile_imp hunit
        have htext := h [] (text.rdropWhile isSpaceUnit) _ (by simp) hend
        rwa [nil_append, rdropWhile_append_rtakeWhile, eq_comm] at htext
      rw [rdropWhile_cons_of_not_space (by decide), scanFrom_added, scanFrom_added, matchesAt,
        matchesAt, hkinds]
    · by_cases hfile : readFileHeader (unit :: text) = none
      · have hplus' : 43 ∉ ((unit :: text).rdropWhile isSpaceUnit).head? := by
          intro hmem
          exact hplus (Option.some.inj (mem_head?_of_rdropWhile hmem))
        rw [scanFrom_silent state (hheader.trans hfile) hplus',
          scanFrom_silent state hfile (by simpa using hplus)]
      · obtain ⟨⟨path, status⟩, hread⟩ := Option.ne_none_iff_exists'.1 hfile
        simp only [scanFrom, scanLine, hheader, hread]

/-- **The white space that `trim` takes from the end** is not missed. -/
theorem scanFrom_trimmed (h : Insensitive matchedKindsIn) (lines : List Units) (state : ScanState)
    (hline : ∀ line ∈ lines, 10 ∉ line)
    (hheader : ∀ line ∈ lines, readFileHeader (line.rdropWhile isSpaceUnit) = readFileHeader line) :
    scanFrom matchedKindsIn state (splitLines ((joinLines lines).rdropWhile isSpaceUnit)) =
      scanFrom matchedKindsIn state lines := by
  induction lines using List.reverseRecOn with
  | nil => exact scanFrom_silent state (show readFileHeader [] = none from rfl) (by simp)
  | append_singleton lines last ih =>
    rw [forall_mem_append] at hline hheader
    have hlast : scanFrom matchedKindsIn state (lines ++ [last.rdropWhile isSpaceUnit]) =
        scanFrom matchedKindsIn state (lines ++ [last]) := by
      rw [scanFrom_append, scanFrom_append,
        scanFrom_trimmed_line h last _ (hheader.2 last (mem_singleton_self _))]
    by_cases hall : ∀ unit ∈ last, isSpaceUnit unit
    · rw [rdropWhile_eq_nil_iff.2 hall] at hlast
      by_cases hlines : lines = []
      · subst hlines
        have htext : (joinLines ([] ++ [last])).rdropWhile isSpaceUnit = [] := by
          rw [nil_append, joinLines_singleton, rdropWhile_eq_nil_iff.2 hall]
        rw [htext]
        exact hlast
      · have htext : (joinLines (lines ++ [last])).rdropWhile isSpaceUnit =
            (joinLines lines).rdropWhile isSpaceUnit := by
          rw [joinLines_append hlines (cons_ne_nil _ _), joinLines_singleton]
          refine rdropWhile_append_of_all ?_
          rw [forall_mem_cons]
          exact ⟨by decide, hall⟩
        rw [htext, ih hline.1 hheader.1, ← hlast, scanFrom_append,
          scanFrom_silent _ (show readFileHeader [] = none from rfl) (by simp), append_nil]
    · have htext : (joinLines (lines ++ [last])).rdropWhile isSpaceUnit =
          joinLines (lines ++ [last.rdropWhile isSpaceUnit]) := by
        by_cases hlines : lines = []
        · subst hlines
          simp
        · rw [joinLines_append hlines (cons_ne_nil _ _), joinLines_append hlines (cons_ne_nil _ _),
            joinLines_singleton, joinLines_singleton, ← singleton_append, ← append_assoc,
            rdropWhile_append_of_not_all hall, append_assoc, singleton_append]
      rw [htext, splitLines, joinLines, splitOn_intercalate _ _ (by simp), hlast]
      rw [forall_mem_append]
      refine ⟨hline.1, ?_⟩
      intro line hmem hten
      rw [mem_singleton.1 hmem] at hten
      exact hline.2 last (mem_singleton_self _)
        ((List.rdropWhile_prefix isSpaceUnit last).subset hten)

theorem newline_not_mem_digits (n : ℕ) : 10 ∉ utf16Units (toString n) := fun h => by
  simpa [isDigitUnit] using (run1_digits n).2 10 h

theorem newline_not_mem_hunkLines (hunk : Hunk) : ∀ line ∈ hunkLines hunk, 10 ∉ line := by
  have hcount (count : Option ℕ) : 10 ∉ countText count := by
    cases count with
    | none => exact not_mem_nil
    | some count => simpa [countText, utf16Units] using newline_not_mem_digits count
  rw [hunkLines, forall_mem_cons]
  constructor
  · simp only [hunkHeader, mem_append, not_or]
    exact ⟨⟨⟨⟨⟨⟨⟨by decide, newline_not_mem_digits _⟩, hcount _⟩, by decide⟩,
      newline_not_mem_digits _⟩, hcount _⟩,
      by decide⟩, hunk.heading.2⟩
  · rw [forall_mem_map]
    intro line _
    cases line with
    | context text | removed text | added text => simpa [PatchLine.text, utf16Units] using text.2
    | noNewline => decide

theorem number_sign_not_head (hunk : Hunk) : ∀ line ∈ hunkLines hunk, 35 ∉ line.head? := by
  rw [hunkLines, forall_mem_cons]
  constructor
  · simp [hunkHeader, utf16Units]
  · rw [forall_mem_map]
    intro line _
    cases line <;> simp [PatchLine.text, utf16Units]

theorem readFileHeader_eq_none (h : 35 ∉ line.head?) : readFileHeader line = none := by
  cases line with
  | nil => rfl
  | cons unit line => exact readFileHeader_cons (by simpa using h)

theorem newline_not_mem_fileHeader : 10 ∉ fileHeader file.toRecord := by
  have hword : 10 ∉ (file.status.map FileStatus.word).getD (utf16Units "modified") := fun h => by
    simpa [isLowerUnit] using (run1_statusWord file.status).2 10 h
  simp only [fileHeader, mem_append, not_or]
  exact ⟨⟨⟨⟨⟨⟨⟨by decide, file.path.2⟩, by decide⟩, hword⟩, by decide⟩, newline_not_mem_digits _⟩,
    by decide⟩,
    newline_not_mem_digits _⟩

theorem rdropWhile_fileHeader :
    (fileHeader file.toRecord).rdropWhile isSpaceUnit = fileHeader file.toRecord := by
  obtain ⟨hne, hdigits⟩ := run1_digits (file.toRecord.deletions.getD 0)
  have hspace : ∀ digit : Fin 10, isSpaceUnit (48 + digit) = false := by decide
  have hlast : ∀ unit ∈ utf16Units (toString (file.toRecord.deletions.getD 0)),
      isSpaceUnit unit = false := by
    intro unit hunit
    have hdigit := hdigits unit hunit
    rw [isDigitUnit, Bool.and_eq_true, decide_eq_true_eq, decide_eq_true_eq] at hdigit
    obtain ⟨digit, rfl⟩ : ∃ digit : Fin 10, unit = 48 + digit :=
      ⟨⟨unit - 48, by omega⟩, by simp only; omega⟩
    exact hspace digit
  have hself : (utf16Units (toString (file.toRecord.deletions.getD 0))).rdropWhile isSpaceUnit =
      utf16Units (toString (file.toRecord.deletions.getD 0)) := by
    rw [rdropWhile_eq_self_iff]
    intro _
    rw [hlast _ (getLast_mem hne)]
    exact Bool.false_ne_true
  rw [fileHeader, rdropWhile_append_of_not_all, hself]
  intro hall
  obtain ⟨digit, hdigit⟩ := exists_mem_of_ne_nil _ hne
  exact Bool.false_ne_true ((hlast digit hdigit).symm.trans (hall digit hdigit))

theorem mem_intercalate_sections {files : List SubmittedFile}
    (h : line ∈ [[]].intercalate (files.map sectionLines)) :
    line = [] ∨ ∃ file ∈ files, line = fileHeader file.toRecord ∨
      ∃ hunk ∈ file.hunks, line ∈ hunkLines hunk := by
  rcases mem_intercalate h with hblank | ⟨lines, hlines, hmem⟩
  · exact Or.inl hblank
  · obtain ⟨file, hfile, rfl⟩ := mem_map.1 hlines
    rw [sectionLines, mem_cons, mem_flatMap] at hmem
    exact Or.inr ⟨file, hfile, hmem⟩

/-- **The diff is read as it was built**, up to what a marker counts and which header is
recognised. -/
theorem scan_build (h : Insensitive matchedKindsIn) (files : List SubmittedFile) :
    scanDiffForSecretsWithLocations matchedKindsIn
      (buildSecretScanDiff (files.map SubmittedFile.toRecord)) =
      scanned matchedKindsIn [] files := by
  have htext : [10, 10].intercalate ((files.map SubmittedFile.toRecord).map fileSection) =
      joinLines ([[]].intercalate (files.map sectionLines)) := by
    rw [← joinLines_sections _ (by simp [sectionLines]), map_map, map_map]
    exact congrArg _ (map_congr_left fun file _ => fileSection_eq file)
  have hfront : (joinLines ([[]].intercalate (files.map sectionLines))).dropWhile isSpaceUnit =
      joinLines ([[]].intercalate (files.map sectionLines)) := by
    rw [← htext]
    cases files with
    | nil => rfl
    | cons file files =>
      obtain ⟨tail, htail⟩ : ∃ tail, fileSection file.toRecord = 35 :: tail := by
        unfold fileSection
        simp only
        split <;> exact ⟨_, rfl⟩
      rw [map_cons, map_cons, htail]
      cases files with
      | nil => exact dropWhile_cons_of_neg (by decide)
      | cons next files => exact dropWhile_cons_of_neg (by decide)
  rw [buildSecretScanDiff, htext, trimUnits, hfront, scanDiffForSecretsWithLocations,
    scanFrom_trimmed h, scanFrom_sections]
  · intro line hline
    rcases mem_intercalate_sections hline with rfl | ⟨file, -, rfl | ⟨hunk, -, hmem⟩⟩
    · exact not_mem_nil
    · exact newline_not_mem_fileHeader file
    · exact newline_not_mem_hunkLines hunk line hmem
  · intro line hline
    rcases mem_intercalate_sections hline with rfl | ⟨file, -, rfl | ⟨hunk, -, hmem⟩⟩
    · rfl
    · rw [rdropWhile_fileHeader]
    · have hsign := number_sign_not_head hunk line hmem
      rw [readFileHeader_eq_none hsign,
        readFileHeader_eq_none fun h => hsign (mem_head?_of_rdropWhile h)]

end Lines

end LoopOver.SecretScan
