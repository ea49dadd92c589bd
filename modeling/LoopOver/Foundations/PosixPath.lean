import Mathlib.Data.List.Basic

/-!
# Joined paths

The path functions of a POSIX host: `join` puts parts together with slashes and `normalize` resolves
the empty, `.` and `..` segments of the result.

* `Plain` segments are kept as they are by `normalize`.
* `exists_join_eq`: a path joined from a base and two plain segments ends in the second of them,
  after a part that does not depend on it; so two such paths differ when their last segments do
  (`join_injective`).
-/

namespace LoopOver.PosixPath

open List

/-- The characters of a path, or of a segment of one. -/
abbrev Path : Type := List Char

/-- The segments with a slash between them. -/
def joinSegments : List Path → Path
  | [] => []
  | [segment] => segment
  | segment :: rest => segment ++ '/' :: joinSegments rest

/-- Follow the segments from those kept so far, the last one first. `above` allows `..` to lead out
of the start. -/
def resolve (above : Bool) : List Path → List Path → List Path
  | kept, [] => kept
  | kept, segment :: rest =>
    if segment = [] ∨ segment = ['.'] then resolve above kept rest
    else if segment = ['.', '.'] then
      match kept with
      | [] => resolve above (if above then [segment] else []) rest
      | last :: kept' =>
        if last = ['.', '.'] then resolve above (if above then segment :: kept else kept) rest
        else resolve above kept' rest
    else resolve above (segment :: kept) rest

/-- `path.posix.normalize`. -/
def normalize (path : Path) : Path :=
  if path = [] then ['.']
  else
    let absolute : Bool := path.head? == some '/'
    let trailing : Bool := path.getLast? == some '/'
    let body := joinSegments (resolve (!absolute) [] (path.splitOn '/')).reverse
    if body = [] then
      if absolute then ['/'] else if trailing then ['.', '/'] else ['.']
    else
      (if absolute then ['/'] else []) ++ body ++ (if trailing then ['/'] else [])

/-- `path.posix.join`. -/
def join (parts : List Path) : Path :=
  match parts.filter (· ≠ []) with
  | [] => ['.']
  | parts => normalize (joinSegments parts)

example :
    join ["/srv//app/../repo/".toList, "work".toList, "a".toList] = "/srv/repo/work/a".toList := by
  decide

/-- A segment that `normalize` has nothing to do with. -/
structure Plain (segment : Path) : Prop where
  ne_nil : segment ≠ []
  no_slash : '/' ∉ segment
  ne_dot : segment ≠ ['.']
  ne_dots : segment ≠ ['.', '.']

theorem joinSegments_concat {segments : List Path} (h : segments ≠ []) (t : Path) :
    joinSegments (segments ++ [t]) = joinSegments segments ++ '/' :: t := by
  induction segments with
  | nil => exact absurd rfl h
  | cons s rest ih =>
    cases rest with
    | nil => rfl
    | cons r rest =>
      have hrest := ih (cons_ne_nil r rest)
      simp only [cons_append, joinSegments, append_assoc] at hrest ⊢
      rw [hrest]

theorem resolve_concat (above : Bool) {t : Path} (ht : Plain t) (kept segments : List Path) :
    resolve above kept (segments ++ [t]) = t :: resolve above kept segments := by
  induction segments generalizing kept with
  | nil => simp [resolve, ht.ne_nil, ht.ne_dot, ht.ne_dots]
  | cons s rest ih =>
    rw [cons_append]
    unfold resolve
    split
    · exact ih kept
    · split
      · split
        · exact ih _
        · split
          · exact ih _
          · exact ih _
      · exact ih _

/-- A plain last segment stays last, after what the rest normalises to. -/
theorem normalize_concat {q s : Path} (hs : Plain s) (hq : q ≠ []) (segments : List Path)
    (hsplit : q.splitOn '/' = segments ++ [s]) :
    ∃ parent, ∀ t, Plain t → normalize (q ++ '/' :: t) = parent ++ '/' :: t := by
  refine ⟨(if q.head? == some '/' then ['/'] else []) ++
    joinSegments (resolve (!(q.head? == some '/')) [] (segments ++ [s])).reverse, fun t ht => ?_⟩
  have hhead : (q ++ '/' :: t).head? = q.head? := by
    obtain ⟨c, q, rfl⟩ := exists_cons_of_ne_nil hq
    rfl
  have hlast : (q ++ '/' :: t).getLast? ≠ some '/' := by
    intro hslash
    have hmem : '/' ∈ t := by
      rw [List.getLast?_append, List.getLast?_cons_of_ne_nil ht.ne_nil] at hslash
      rw [List.getLast?_eq_some_getLast ht.ne_nil, Option.some_or] at hslash
      rw [← Option.some.inj hslash]
      exact getLast_mem ht.ne_nil
    exact ht.no_slash hmem
  have hsegments : (q ++ '/' :: t).splitOn '/' = (segments ++ [s]) ++ [t] := by
    rw [splitOn_append_cons_self, hsplit, splitOn_eq_singleton ht.no_slash]
  unfold normalize
  rw [if_neg (by simp), hhead, hsegments, beq_eq_false_iff_ne.2 hlast]
  dsimp only
  rw [resolve_concat _ ht, reverse_cons, joinSegments_concat (by simp [resolve_concat _ hs]),
    if_neg (by simp)]
  simp

/-- A path joined from a base and two plain segments ends in the second of them. -/
theorem exists_join_eq (base : Path) {s : Path} (hs : Plain s) :
    ∃ parent, ∀ t, Plain t → join [base, s, t] = parent ++ '/' :: t := by
  by_cases hbase : base = []
  · subst hbase
    obtain ⟨parent, hparent⟩ := normalize_concat hs hs.ne_nil []
      (splitOn_eq_singleton hs.no_slash)
    refine ⟨parent, fun t ht => ?_⟩
    rw [← hparent t ht]
    simp [join, joinSegments, hs.ne_nil, ht.ne_nil]
  · obtain ⟨parent, hparent⟩ := normalize_concat (q := base ++ '/' :: s) hs (by simp)
      (base.splitOn '/')
      (by rw [splitOn_append_cons_self, splitOn_eq_singleton hs.no_slash])
    refine ⟨parent, fun t ht => ?_⟩
    rw [← hparent t ht]
    simp [join, joinSegments, hbase, hs.ne_nil, ht.ne_nil]

/-- The second segment can be read off the path. -/
theorem join_injective (base : Path) {s t t' : Path} (hs : Plain s) (ht : Plain t) (ht' : Plain t')
    (h : join [base, s, t] = join [base, s, t']) : t = t' := by
  obtain ⟨parent, hparent⟩ := exists_join_eq base hs
  rw [hparent t ht, hparent t' ht'] at h
  exact tail_eq_of_cons_eq (append_cancel_left h)

end LoopOver.PosixPath
