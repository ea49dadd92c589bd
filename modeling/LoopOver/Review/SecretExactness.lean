import LoopOver.Review.SecretLocations

/-!
# Whether the scan finds every secret at its place

A pull request adds lines, and the paths of its new and renamed files. The scan is to find what a
matcher finds in them, each with its file and its line number, and nothing else.

* `MarkersLast` is the condition on a hunk: no marker `\ No newline at end of file` stands before a
  line that it adds, for the scan takes the marker for a line of the file.
* `Located` adds what it takes that `.+` recognises the header of a file, which it does not where
  the path has a carriage return or a line separator.
* **`secret_scan_exact_iff`**: all matchers find everything at its place exactly under that
  condition. In `secret_scan_misplaced` a last line gets its newline, and the secret in it the wrong
  number.
-/

namespace LoopOver.SecretScan

open ReviewDiff (Units isSpaceUnit)
open List

/-- What the files add. -/
def addedHits (matchedKindsIn : Units → List Units) (files : List SubmittedFile) :
    List SecretScanLocationMatch :=
  files.flatMap (fileHits matchedKindsIn)

/-! ## The condition -/

/-- A hunk with lines that the pull request adds. -/
def AddsLine (lines : List PatchLine) : Prop := ∃ text, PatchLine.added text ∈ lines

/-- No marker stands before an added line. -/
def MarkersLast (lines : List PatchLine) : Prop :=
  lines.Pairwise fun line later => line = .noNewline → ∀ text, later ≠ .added text

/-- The file behind a header with the path: its own path is reported if it has to be, and its added
lines belong to it and have their numbers. -/
structure Located (currentPath : Units) (file : SubmittedFile) : Prop where
  path : file.NewPath → HeaderPath file.path.1
  lines : ∀ hunk ∈ file.hunks, AddsLine hunk.lines →
    (HeaderPath file.path.1 ∨ currentPath = file.path.1) ∧ MarkersLast hunk.lines

/-- Each file, behind the files before it. -/
def AllLocated (files : List SubmittedFile) : Prop :=
  ∀ front file back, files = front ++ file :: back → Located (front.foldl pathAfter []) file

/-! ## Lines -/

section Lines

variable {matchedKindsIn : Units → List Units} {path path' : Units} {lines : List PatchLine}

theorem addsLine_cons {line : PatchLine} :
    AddsLine (line :: lines) ↔ (∃ text, line = .added text) ∨ AddsLine lines := by
  simp only [AddsLine, mem_cons, exists_or, eq_comm]

theorem markersLast_cons {line : PatchLine} :
    MarkersLast (line :: lines) ↔ (line = .noNewline → ¬AddsLine lines) ∧ MarkersLast lines := by
  rw [MarkersLast, pairwise_cons]
  refine and_congr_left fun _ => ⟨?_, ?_⟩
  · rintro h hmarker ⟨text, htext⟩
    exact h _ htext hmarker text rfl
  · rintro h later hlater hmarker text rfl
    exact h hmarker ⟨text, hlater⟩

theorem markersLast_of_not_addsLine (h : ¬AddsLine lines) : MarkersLast lines :=
  pairwise_of_forall_mem_list fun _ _ _ hlater _ text htext => h ⟨text, htext ▸ hlater⟩

/-- Without an added line there is no hit. -/
theorem lineHits_eq_nil (h : ¬AddsLine lines) (w n : ℤ) :
    lineHits matchedKindsIn w path n lines = [] := by
  induction lines generalizing n with
  | nil => rfl
  | cons line lines ih =>
    rw [addsLine_cons, not_or, not_exists] at h
    cases line with
    | context text | removed text | noNewline => exact ih h.2 _
    | added text => exact absurd rfl (h.1 text)

/-- A marker width does not matter behind which there are no added lines. -/
theorem lineHits_eq (h : MarkersLast lines) (w w' n : ℤ) :
    lineHits matchedKindsIn w path n lines = lineHits matchedKindsIn w' path n lines := by
  induction lines generalizing n with
  | nil => rfl
  | cons line lines ih =>
    rw [markersLast_cons] at h
    cases line with
    | context text | removed text => exact ih h.2 _
    | added text => rw [lineHits, lineHits, ih h.2]
    | noNewline =>
      have hnone := h.1 rfl
      exact (lineHits_eq_nil hnone w _).trans (lineHits_eq_nil hnone w' _).symm

/-- The matcher that finds one thing in every text. -/
def matchEvery (_ : Units) : List Units := [[]]

theorem insensitive_matchEvery : Insensitive matchEvery := fun _ _ _ _ _ => rfl

theorem length_lineHits (w w' n n' : ℤ) :
    (lineHits matchEvery w path n lines).length =
      (lineHits matchEvery w' path' n' lines).length := by
  induction lines generalizing n n' with
  | nil => rfl
  | cons line lines ih =>
    cases line with
    | context text | removed text | noNewline => exact ih _ _
    | added text => simp [lineHits, matchesAt, matchEvery, ih (n + 1) (n' + 1)]

/-- **One step after the other**: if the hits are at their places although the counter is not
behind, it was never ahead. -/
theorem located_of_lineHits_eq {n n' : ℤ} (hle : n ≤ n')
    (h : lineHits matchEvery 1 path' n' lines = lineHits matchEvery 0 path n lines)
    (hadds : AddsLine lines) :
    path' = path ∧ n' = n ∧ MarkersLast lines := by
  induction lines generalizing n n' with
  | nil => simp [AddsLine] at hadds
  | cons line lines ih =>
    rw [addsLine_cons] at hadds
    cases line with
    | context text =>
      obtain ⟨hpath, hn, hmarkers⟩ := ih (add_le_add_left hle 1) h (by simpa using hadds)
      exact ⟨hpath, by omega, markersLast_cons.2 ⟨by rintro ⟨⟩, hmarkers⟩⟩
    | removed text =>
      obtain ⟨hpath, hn, hmarkers⟩ := ih hle h (by simpa using hadds)
      exact ⟨hpath, hn, markersLast_cons.2 ⟨by rintro ⟨⟩, hmarkers⟩⟩
    | added text =>
      obtain ⟨hhead, htail⟩ : (path' = path ∧ n' = n) ∧
          lineHits matchEvery 1 path' (n' + 1) lines =
            lineHits matchEvery 0 path (n + 1) lines := by
        simpa [lineHits, matchesAt, matchEvery] using h
      refine ⟨hhead.1, hhead.2, markersLast_cons.2 ⟨by rintro ⟨⟩, ?_⟩⟩
      by_cases hrest : AddsLine lines
      · exact (ih (by omega) htail hrest).2.2
      · exact markersLast_of_not_addsLine hrest
    | noNewline =>
      -- A marker puts the counter ahead, and nothing sets it back.
      obtain ⟨-, hn, -⟩ := ih (n := n + 0) (by omega) h (by simpa using hadds)
      omega

end Lines

/-! ## Files -/

section Files

variable {matchedKindsIn : Units → List Units} {currentPath : Units} {file : SubmittedFile}

/-- Lists made of pieces of the same lengths are equal piece by piece. -/
theorem flatMap_eq_flatMap_iff {α β : Type} {f g : α → List β} {l : List α}
    (h : ∀ x ∈ l, (f x).length = (g x).length) :
    l.flatMap f = l.flatMap g ↔ ∀ x ∈ l, f x = g x := by
  refine ⟨fun heq => ?_, fun heq => flatMap_congr heq⟩
  induction l with
  | nil => simp
  | cons x l ih =>
    rw [forall_mem_cons] at h ⊢
    rw [flatMap_cons, flatMap_cons] at heq
    obtain ⟨hx, hl⟩ := append_inj heq h.1
    exact ⟨hx, ih h.2 hl⟩

theorem scannedHits_eq (h : Located currentPath file) :
    scannedHits matchedKindsIn currentPath file = fileHits matchedKindsIn file := by
  have hpath : (if HeaderPath file.path.1 then pathHits matchedKindsIn file else []) =
      pathHits matchedKindsIn file := by
    by_cases hnew : file.NewPath
    · rw [if_pos (h.path hnew)]
    · simp [pathHits, hnew]
  rw [scannedHits, fileHits, hpath]
  congr 1
  refine flatMap_congr fun hunk hhunk => ?_
  by_cases hadds : AddsLine hunk.lines
  · obtain ⟨howner, hmarkers⟩ := h.lines hunk hhunk hadds
    have hafter : pathAfter currentPath file = file.path.1 := by
      unfold pathAfter
      split
      · rfl
      · next hheader => exact howner.resolve_left hheader
    rw [hafter]
    exact lineHits_eq hmarkers _ _ _
  · exact (lineHits_eq_nil hadds _ _).trans (lineHits_eq_nil hadds _ _).symm

theorem length_hunksHits (path path' : Units) (hunks : List Hunk) :
    (hunks.flatMap (hunkHits matchEvery 1 path)).length =
      (hunks.flatMap (hunkHits matchEvery 0 path')).length := by
  rw [length_flatMap, length_flatMap]
  exact congrArg _ (map_congr_left fun hunk _ => length_lineHits _ _ _ _)

theorem length_pathHits : (pathHits matchEvery file).length = if file.NewPath then 1 else 0 := by
  unfold pathHits
  split <;> rfl

theorem length_scannedHits_le (currentPath : Units) (file : SubmittedFile) :
    (scannedHits matchEvery currentPath file).length ≤ (fileHits matchEvery file).length := by
  rw [scannedHits, fileHits, length_append, length_append,
    length_hunksHits (pathAfter currentPath file) file.path.1]
  split <;> simp

theorem located_of_scannedHits_eq
    (h : scannedHits matchEvery currentPath file = fileHits matchEvery file) :
    Located currentPath file := by
  have hpath : (if HeaderPath file.path.1 then pathHits matchEvery file else []).length =
      (pathHits matchEvery file).length := by
    have hlength := congrArg List.length h
    rw [scannedHits, fileHits, length_append, length_append,
      length_hunksHits (pathAfter currentPath file) file.path.1] at hlength
    omega
  have hhunks :=
    (flatMap_eq_flatMap_iff fun hunk _ => length_lineHits _ _ _ _).1 (append_inj h hpath).2
  constructor
  · intro hnew
    by_contra hheader
    rw [if_neg hheader, length_pathHits, if_pos hnew] at hpath
    simp at hpath
  · intro hunk hhunk hadds
    obtain ⟨howner, -, hmarkers⟩ := located_of_lineHits_eq le_rfl (hhunks hunk hhunk) hadds
    refine ⟨?_, hmarkers⟩
    by_cases hheader : HeaderPath file.path.1
    · exact Or.inl hheader
    · rw [pathAfter, if_neg hheader] at howner
      exact Or.inr howner

variable {files : List SubmittedFile}

/-- Every file is behind the files before it. -/
theorem forall_split_cons {P : Units → SubmittedFile → Prop} :
    (∀ front next back, file :: files = front ++ next :: back →
      P (front.foldl pathAfter currentPath) next) ↔
      P currentPath file ∧
        ∀ front next back, files = front ++ next :: back →
          P (front.foldl pathAfter (pathAfter currentPath file)) next := by
  constructor
  · intro h
    exact ⟨h [] file files rfl, fun front next back hfiles =>
      h (file :: front) next back (by rw [hfiles]; rfl)⟩
  · rintro ⟨hfile, hrest⟩ front next back hfiles
    cases front with
    | nil =>
      obtain ⟨rfl, -⟩ := List.cons.inj hfiles
      exact hfile
    | cons first front =>
      obtain ⟨rfl, htail⟩ := List.cons.inj hfiles
      exact hrest front next back htail

theorem scanned_eq (h : ∀ front file back, files = front ++ file :: back →
    Located (front.foldl pathAfter currentPath) file) :
    scanned matchedKindsIn currentPath files = addedHits matchedKindsIn files := by
  induction files generalizing currentPath with
  | nil => rfl
  | cons file files ih =>
    obtain ⟨hfile, hrest⟩ := forall_split_cons.1 h
    rw [scanned, scannedHits_eq hfile, ih hrest]
    rfl

theorem length_scanned_le (files : List SubmittedFile) (currentPath : Units) :
    (scanned matchEvery currentPath files).length ≤ (addedHits matchEvery files).length := by
  induction files generalizing currentPath with
  | nil => exact le_rfl
  | cons file files ih =>
    rw [scanned, addedHits, flatMap_cons, length_append, length_append]
    exact Nat.add_le_add (length_scannedHits_le _ _) (ih _)

theorem located_of_scanned_eq
    (h : scanned matchEvery currentPath files = addedHits matchEvery files) :
    ∀ front file back, files = front ++ file :: back →
      Located (front.foldl pathAfter currentPath) file := by
  induction files generalizing currentPath with
  | nil => simp
  | cons file files ih =>
    have hlength := congrArg List.length h
    have hle := length_scanned_le files (pathAfter currentPath file)
    have hle' := length_scannedHits_le currentPath file
    rw [scanned, addedHits, flatMap_cons] at h hlength
    rw [length_append, length_append] at hlength
    rw [addedHits] at hle
    obtain ⟨hfile, hrest⟩ := append_inj h (by omega)
    exact forall_split_cons.2 ⟨located_of_scannedHits_eq hfile, ih hrest⟩

end Files

/-- **Every secret is found at its place** exactly where no marker `\ No newline at end of file`
stands before an added line of its hunk, and every file that brings something has a header that is
recognised. -/
theorem secret_scan_exact_iff (files : List SubmittedFile) :
    (∀ matchedKindsIn, Insensitive matchedKindsIn → scanDiffForSecretsWithLocations matchedKindsIn
      (buildSecretScanDiff (files.map SubmittedFile.toRecord)) = addedHits matchedKindsIn files) ↔
        AllLocated files := by
  constructor
  · intro h
    have hall := h matchEvery insensitive_matchEvery
    rw [scan_build insensitive_matchEvery] at hall
    exact located_of_scanned_eq hall
  · intro h matchedKindsIn hmatched
    rw [scan_build hmatched]
    exact scanned_eq h

/-- A patch whose last line changes and gets a newline. -/
def newlineFile : SubmittedFile where
  path := ⟨utf16Units "a.env", by decide⟩
  status := some .modified
  additions := some 1
  deletions := some 1
  patch := some [⟨1, none, 1, none, ⟨[], by decide⟩,
    [.removed ⟨utf16Units "KEY=", by decide⟩, .noNewline,
      .added ⟨utf16Units "KEY=hunter2", by decide⟩]⟩]

/-- A matcher for assignments. -/
def matchAssignment (text : Units) : List Units := if 61 ∈ text then [utf16Units "secret"] else []

theorem insensitive_matchAssignment : Insensitive matchAssignment := by
  intro front text back hfront hback
  have hspace : isSpaceUnit 61 = false := by decide
  have hne (blanks : Units) (h : ∀ unit ∈ blanks, isSpaceUnit unit) : 61 ∉ blanks := fun hmem => by
    simpa [hspace] using h 61 hmem
  simp [matchAssignment, hne front hfront, hne back hback]

/-- The secret stands in line 1, and the scan reports line 2. -/
theorem secret_scan_misplaced : Insensitive matchAssignment ∧
    addedHits matchAssignment [newlineFile] = [⟨utf16Units "secret", utf16Units "a.env", 1⟩] ∧
    scanDiffForSecretsWithLocations matchAssignment (buildSecretScanDiff [newlineFile.toRecord]) =
      [⟨utf16Units "secret", utf16Units "a.env", 2⟩] := by
  refine ⟨insensitive_matchAssignment, by decide, ?_⟩
  exact (scan_build insensitive_matchAssignment [newlineFile]).trans (by decide)

end LoopOver.SecretScan
