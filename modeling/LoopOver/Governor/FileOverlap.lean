import LoopOver.Foundations.Overlap
import LoopOver.Governor.SelfPlagiarism

/-!
# Fingerprints of changed files

A submission is told from earlier ones by the files that it changes. `fingerprintFromChangedFiles`
joins their paths by commas, and `fingerprintSimilarity` takes the fingerprints apart again, at
commas, colons and white space, in lower case.

* `fingerprintSimilarity_eq_jaccard`: the similarity is the index of the sets of tokens.
* `fingerprintTokens_changedFiles`: the tokens of a fingerprint are those of its paths.
* **`similarity_is_overlap_iff`**: the similarity is the overlap of the files exactly where the
  tokens of the paths are separable. A path with a separator in it, and paths that differ by their
  case only, are ways to break that.
-/

namespace LoopOver

open Overlap (jaccard Separable)
open List

/-! ## Tokens -/

/-- Text functions of the host: `trim` is the one of the language, and the case of a letter does not
depend on what is beyond a comma. -/
structure PathRuntime extends Runtime where
  trim_eq : ∀ text, trim text = trimText text
  lower_comma : ∀ front back, toLowerCase (front ++ "," ++ back) = toLowerCase front ++ "," ++
    toLowerCase back

def fingerprintFromChangedFiles (rt : Runtime) (paths : List String) : String :=
  let unique := ((paths.map rt.trim).filter (· ≠ "")).dedup
  ",".intercalate (unique.mergeSort fun a b => keyLe a b)

/-- The set that `fingerprintSimilarity` makes of a fingerprint. -/
def fingerprintTokens (rt : Runtime) (fingerprint : String) : Finset String :=
  (tokenSet rt ((normalizeFingerprint rt fingerprint).getD "")).toFinset

/-- The set of trimmed paths. -/
def pathSet (rt : Runtime) (paths : List String) : Finset String := (paths.map rt.trim).toFinset

/-- The tokens of one path. -/
def pathTokens (rt : Runtime) (path : String) : Finset String :=
  (tokenSet rt (rt.toLowerCase path)).toFinset

section Tokens

variable (rt : Runtime)

theorem fingerprintSimilarity_eq_jaccard (left right : String) :
    fingerprintSimilarity rt left right = jaccard (fingerprintTokens rt left)
      (fingerprintTokens rt right) := by
  have hnodup : ∀ text, (tokenSet rt text).Nodup := fun _ => nodup_dedup _
  unfold fingerprintSimilarity fingerprintTokens
  dsimp only
  generalize hleft : tokenSet rt ((normalizeFingerprint rt left).getD "") = setLeft
  generalize hright : tokenSet rt ((normalizeFingerprint rt right).getD "") = setRight
  have hnodupLeft : setLeft.Nodup := hleft ▸ hnodup _
  have hnodupRight : setRight.Nodup := hright ▸ hnodup _
  have hinter : (setLeft.filter (· ∈ setRight)).length =
      (setLeft.toFinset ∩ setRight.toFinset).card := by
    rw [← toFinset_card_of_nodup (hnodupLeft.filter _), toFinset_filter]
    congr 1
    ext token
    simp
  have hunion : ((setLeft.toFinset ∪ setRight.toFinset).card : ℚ) =
      (setLeft.length : ℚ) + setRight.length - (setLeft.toFinset ∩ setRight.toFinset).card := by
    rw [eq_sub_iff_add_eq, ← toFinset_card_of_nodup hnodupLeft,
      ← toFinset_card_of_nodup hnodupRight]
    exact_mod_cast Finset.card_union_add_card_inter setLeft.toFinset setRight.toFinset
  rw [jaccard, hinter, hunion]
  simp only [length_eq_zero_iff, toFinset_eq_empty_iff]
  split_ifs with hboth hone
  · rfl
  · rcases hone with rfl | rfl <;> simp
  · rfl

/-- Separators in a text take its tokens apart. -/
theorem tokenSet_comma (front back : String) :
    (tokenSet rt (front ++ "," ++ back)).toFinset =
      (tokenSet rt front).toFinset ∪ (tokenSet rt back).toFinset := by
  have hsplit : (front ++ "," ++ back).toList.splitOnP (fun c => isRegexSpace c ||
      c == ':' || c == ',') =
      front.toList.splitOnP (fun c => isRegexSpace c || c == ':' || c == ',') ++
        back.toList.splitOnP (fun c => isRegexSpace c || c == ':' || c == ',') := by
    rw [String.toList_append, String.toList_append, append_assoc]
    exact splitOnP_append_cons _ _ rfl
  ext token
  simp only [tokenSet, hsplit, map_append, filter_append, mem_toFinset, mem_dedup, mem_append,
    Finset.mem_union]

end Tokens

/-! ## The tokens of a fingerprint -/

section Paths

variable {rt : PathRuntime} {paths files : List String}

theorem trimmed_trim (rt : PathRuntime) (path : String) : Trimmed (rt.trim path).toList := by
  rw [rt.trim_eq]
  exact trimmed_trimText path

theorem trimmed_intercalate (hpaths : ∀ path ∈ paths, Trimmed path.toList ∧ path ≠ "") :
    Trimmed (",".intercalate paths).toList := by
  induction paths with
  | nil => exact ⟨nofun, nofun⟩
  | cons path paths ih =>
    cases paths with
    | nil =>
      rw [String.intercalate_singleton]
      exact (hpaths path mem_cons_self).1
    | cons next paths =>
      have hrest := ih fun other hother => hpaths other (mem_cons_of_mem _ hother)
      have hne : (",".intercalate (next :: paths)).toList ≠ [] := by
        have hnext : next.toList ≠ [] := fun h =>
          (hpaths next (mem_cons_of_mem _ mem_cons_self)).2 (String.toList_eq_nil_iff.1 h)
        rw [String.toList_intercalate, map_cons]
        cases paths with
        | nil => rwa [map_nil, intercalate_singleton]
        | cons => rw [map_cons, intercalate_cons_cons,
          append_assoc]; exact append_ne_nil_of_left_ne_nil hnext _
      obtain ⟨hpath, hpathne⟩ := hpaths path mem_cons_self
      rw [String.intercalate_cons_cons, String.toList_append, String.toList_append]
      exact hpath.between hrest (fun h => hpathne (String.toList_eq_nil_iff.1 h)) hne _

theorem fingerprintTokens_of_trimmed {text : String} (h : Trimmed text.toList) :
    fingerprintTokens rt.toRuntime text = pathTokens rt.toRuntime text := by
  have hlower : (normalizeFingerprint rt.toRuntime text).getD "" = rt.toLowerCase text := by
    rw [normalizeFingerprint, rt.trim_eq, trimText_eq_self h]
    split_ifs with hempty
    · exact hempty.symm
    · rfl
  rw [fingerprintTokens, hlower, pathTokens]

/-- The tokens of joined paths are those of the paths. -/
theorem pathTokens_intercalate (path : String) (paths : List String) :
    pathTokens rt.toRuntime (",".intercalate (path :: paths)) =
      (path :: paths).toFinset.biUnion (pathTokens rt.toRuntime) := by
  induction paths generalizing path with
  | nil => rw [String.intercalate_singleton, toFinset_cons, toFinset_nil, Finset.insert_empty,
      Finset.singleton_biUnion]
  | cons next paths ih =>
    rw [String.intercalate_cons_cons, pathTokens, rt.lower_comma, tokenSet_comma, toFinset_cons,
      Finset.biUnion_insert, ← ih]
    rfl

theorem fingerprintTokens_changedFiles (hblank : ∀ path ∈ paths, rt.trim path ≠ "")
    (hne : paths ≠ []) :
    fingerprintTokens rt.toRuntime (fingerprintFromChangedFiles rt.toRuntime paths) =
      (pathSet rt.toRuntime paths).biUnion (pathTokens rt.toRuntime) := by
  have hkeep : (paths.map rt.trim).filter (· ≠ "") = paths.map rt.trim := by
    refine filter_eq_self.2 fun path hpath => ?_
    obtain ⟨raw, hraw, rfl⟩ := mem_map.1 hpath
    exact decide_eq_true (hblank raw hraw)
  obtain ⟨unique, hunique⟩ : ∃ unique, unique = (paths.map rt.trim).dedup.mergeSort fun a b =>
      keyLe a b := ⟨_, rfl⟩
  have hmem : ∀ path, path ∈ unique ↔ path ∈ paths.map rt.trim := by
    intro path
    rw [hunique, (mergeSort_perm _ _).mem_iff, mem_dedup]
  have htrimmed : ∀ path ∈ unique, Trimmed path.toList ∧ path ≠ "" := by
    intro path hpath
    obtain ⟨raw, hraw, rfl⟩ := mem_map.1 ((hmem path).1 hpath)
    exact ⟨trimmed_trim rt raw, hblank raw hraw⟩
  have hset : unique.toFinset = pathSet rt.toRuntime paths := by
    ext path
    rw [mem_toFinset, hmem, pathSet, mem_toFinset]
  have hjoin : fingerprintFromChangedFiles rt.toRuntime paths = ",".intercalate unique := by
    rw [fingerprintFromChangedFiles, hkeep, hunique]
  rw [hjoin, fingerprintTokens_of_trimmed (trimmed_intercalate htrimmed), ← hset]
  cases unique with
  | nil =>
    obtain ⟨raw, hraw⟩ := exists_mem_of_ne_nil _ hne
    exact absurd ((hmem _).2 (mem_map_of_mem hraw)) not_mem_nil
  | cons path unique => exact pathTokens_intercalate path unique

/-- Paths without separators are tokens of their own, which are separable if no two differ by their
case only. -/
theorem separable_of_plain
    (hplain : ∀ path ∈ files, rt.toLowerCase path ≠ "" ∧
      ((rt.toLowerCase path).toList.any fun c => isRegexSpace c || c == ':' || c == ',') = false)
    (hcase : ∀ path ∈ files, ∀ other ∈ files, rt.toLowerCase path = rt.toLowerCase other →
      path = other) :
    Separable (pathTokens rt.toRuntime) files.toFinset := by
  have htokens : ∀ path ∈ files.toFinset, pathTokens rt.toRuntime path = {rt.toLowerCase path} := by
    intro path hpath
    obtain ⟨hne, hany⟩ := hplain path (mem_toFinset.1 hpath)
    have hchars := fun c hc => Bool.eq_false_iff.2 (any_eq_false.1 hany c hc)
    have htrimmed : Trimmed (rt.toLowerCase path).toList :=
      ⟨fun c hc =>
        (Bool.or_eq_false_iff.1 (Bool.or_eq_false_iff.1 (hchars c (mem_of_mem_head? hc))).1).1,
        fun c hc =>
          (Bool.or_eq_false_iff.1 (Bool.or_eq_false_iff.1 (hchars c (mem_of_mem_getLast? hc))).1).1⟩
    have hset : tokenSet rt.toRuntime (rt.toLowerCase path) = [rt.toLowerCase path] := by
      rw [tokenSet, splitOnP_eq_singleton hchars, map_singleton, String.ofList_toList, rt.trim_eq,
        trimText_eq_self htrimmed, filter_singleton, decide_eq_true hne]
      rfl
    rw [pathTokens, hset]
    rfl
  refine ⟨fun path hpath other hother hdiffer => ?_, fun path hpath other hother => ?_,
    fun path hpath _ _ _ => ?_⟩
  · rw [htokens path hpath, htokens other hother, Finset.disjoint_singleton]
    exact fun h => hdiffer (hcase path (mem_toFinset.1 hpath) other (mem_toFinset.1 hother) h)
  · rw [htokens path hpath, htokens other hother, Finset.card_singleton, Finset.card_singleton]
  · rw [htokens path hpath]
    exact Finset.singleton_nonempty _

/-- **The similarity of fingerprints is the overlap of the files**, for all lists of some paths,
exactly where the tokens of these paths are separable. -/
theorem similarity_is_overlap_iff (hblank : ∀ path ∈ files, rt.trim path ≠ "") :
    (∀ a b : List String, a ≠ [] → b ≠ [] → a ⊆ files → b ⊆ files →
      fingerprintSimilarity rt.toRuntime (fingerprintFromChangedFiles rt.toRuntime a)
          (fingerprintFromChangedFiles rt.toRuntime b) =
        jaccard (pathSet rt.toRuntime a) (pathSet rt.toRuntime b)) ↔
      Separable (pathTokens rt.toRuntime) (pathSet rt.toRuntime files) := by
  have hsimilarity : ∀ a b : List String, a ≠ [] → b ≠ [] → a ⊆ files → b ⊆ files →
      fingerprintSimilarity rt.toRuntime (fingerprintFromChangedFiles rt.toRuntime a)
          (fingerprintFromChangedFiles rt.toRuntime b) =
        jaccard ((pathSet rt.toRuntime a).biUnion (pathTokens rt.toRuntime))
          ((pathSet rt.toRuntime b).biUnion (pathTokens rt.toRuntime)) := by
    intro a b ha hb hafiles hbfiles
    rw [fingerprintSimilarity_eq_jaccard,
      fingerprintTokens_changedFiles (fun path hpath => hblank path (hafiles hpath)) ha,
      fingerprintTokens_changedFiles (fun path hpath => hblank path (hbfiles hpath)) hb]
  rw [← Overlap.jaccard_tokens_iff]
  constructor
  · intro h s t hs ht hsne htne
    -- Each set of trimmed paths is that of a list.
    have hlist : ∀ u : Finset String, u ⊆ pathSet rt.toRuntime files → u.Nonempty →
        ∃ list : List String, list ≠ [] ∧ list ⊆ files ∧ pathSet rt.toRuntime list = u := by
      intro u hu hne
      have hset : pathSet rt.toRuntime (files.filter fun path => rt.trim path ∈ u) = u := by
        ext path
        simp only [pathSet, mem_toFinset, mem_map, mem_filter, decide_eq_true_eq]
        constructor
        · rintro ⟨raw, ⟨-, hraw⟩, rfl⟩
          exact hraw
        · intro hpath
          obtain ⟨raw, hraw, rfl⟩ := mem_map.1 (mem_toFinset.1 (hu hpath))
          exact ⟨raw, ⟨hraw, hpath⟩, rfl⟩
      refine ⟨_, ?_, fun path hpath => (mem_filter.1 hpath).1, hset⟩
      intro hnil
      rw [hnil] at hset
      exact hne.ne_empty hset.symm
    obtain ⟨a, ha, hafiles, rfl⟩ := hlist s hs hsne
    obtain ⟨b, hb, hbfiles, rfl⟩ := hlist t ht htne
    rw [← hsimilarity a b ha hb hafiles hbfiles]
    exact h a b ha hb hafiles hbfiles
  · intro h a b ha hb hafiles hbfiles
    have hsubset : ∀ list : List String, list ⊆ files →
        pathSet rt.toRuntime list ⊆ pathSet rt.toRuntime files := by
      intro list hlist path hpath
      obtain ⟨raw, hraw, rfl⟩ := mem_map.1 (mem_toFinset.1 hpath)
      exact mem_toFinset.2 (mem_map_of_mem (hlist hraw))
    have hnonempty : ∀ list : List String, list ≠ [] → (pathSet rt.toRuntime list).Nonempty := by
      intro list hne
      obtain ⟨raw, hraw⟩ := exists_mem_of_ne_nil _ hne
      exact ⟨_, mem_toFinset.2 (mem_map_of_mem hraw)⟩
    rw [hsimilarity a b ha hb hafiles hbfiles]
    exact h _ _ (hsubset a hafiles) (hsubset b hbfiles) (hnonempty a ha) (hnonempty b hb)

/-! ## Paths of ASCII letters -/

def asciiPaths : PathRuntime where
  toRuntime := { asciiRuntime with trim := trimText }
  trim_eq _ := rfl
  lower_comma front back := by
    show String.ofList ((front ++ "," ++ back).toList.map Char.toLower) =
      String.ofList (front.toList.map Char.toLower) ++ "," ++
        String.ofList (back.toList.map Char.toLower)
    rw [String.toList_append, String.toList_append, map_append, map_append, String.ofList_append,
      String.ofList_append]
    rfl

/-- Two names of files, which are tokens of their own. -/
theorem similarity_is_overlap_two :
    Separable (pathTokens asciiPaths.toRuntime) (pathSet asciiPaths.toRuntime ["a.ts", "b.ts"]) ∧
      ∀ a b : List String, a ≠ [] → b ≠ [] → a ⊆ ["a.ts", "b.ts"] → b ⊆ ["a.ts", "b.ts"] →
        fingerprintSimilarity asciiPaths.toRuntime
          (fingerprintFromChangedFiles asciiPaths.toRuntime a)
            (fingerprintFromChangedFiles asciiPaths.toRuntime b) =
          jaccard (pathSet asciiPaths.toRuntime a) (pathSet asciiPaths.toRuntime b) := by
  have hseparable :
      Separable (pathTokens asciiPaths.toRuntime)
        (pathSet asciiPaths.toRuntime ["a.ts", "b.ts"]) := by
    have hpaths : pathSet asciiPaths.toRuntime ["a.ts", "b.ts"] = ["a.ts", "b.ts"].toFinset := by
      decide
    rw [hpaths]
    exact separable_of_plain (by decide) (by decide)
  exact ⟨hseparable, (@similarity_is_overlap_iff asciiPaths _ (by decide)).2 hseparable⟩

/-- A path with a blank in it shares a token with another one. -/
theorem similarity_of_blank_in_path :
    ¬∀ a b : List String, a ≠ [] → b ≠ [] → (∀ path ∈ a ++ b, asciiPaths.trim path ≠ "") →
      fingerprintSimilarity asciiPaths.toRuntime
        (fingerprintFromChangedFiles asciiPaths.toRuntime a)
          (fingerprintFromChangedFiles asciiPaths.toRuntime b) =
        jaccard (pathSet asciiPaths.toRuntime a) (pathSet asciiPaths.toRuntime b) := by
  intro h
  have hequal := h ["read me.md"] ["me.md"] (by decide) (by decide) (by decide)
  rw [fingerprintSimilarity_eq_jaccard, fingerprintTokens_changedFiles (by decide) (by decide),
    fingerprintTokens_changedFiles (by decide) (by decide)] at hequal
  have hleft : (pathSet asciiPaths.toRuntime ["read me.md"]).biUnion
      (pathTokens asciiPaths.toRuntime) =
      {"read", "me.md"} := by decide
  have hright : (pathSet asciiPaths.toRuntime ["me.md"]).biUnion (pathTokens asciiPaths.toRuntime) =
      {"me.md"} := by
    decide
  have hpaths : pathSet asciiPaths.toRuntime ["read me.md"] = {"read me.md"} := by decide
  have hpaths' : pathSet asciiPaths.toRuntime ["me.md"] = {"me.md"} := by decide
  rw [hleft, hright, hpaths, hpaths'] at hequal
  revert hequal
  rw [jaccard, jaccard, if_neg (by decide), if_neg (by decide)]
  have hshared : (({"read", "me.md"} : Finset String) ∩ {"me.md"}).card = 1 := by decide
  have hapart : (({"read me.md"} : Finset String) ∩ {"me.md"}).card = 0 := by decide
  have hall : (({"read", "me.md"} : Finset String) ∪ {"me.md"}).card = 2 := by decide
  rw [hshared, hapart, hall]
  norm_num

end Paths

end LoopOver
