import Mathlib.Data.List.Basic

/-!
# Two ways to insert a row that is already there

A statement lists columns and gives values for them. Where the new row has a key that another row
has, one database deletes the other row (`insertOrReplace`), and the other one changes the listed
columns of it (`insertOnConflict`). A column that is not listed gets its default in the first case,
and stays as it was in the second.

* `Stricter` is what two definitions of a table may differ in: what has to be there, and what has a
  default.
* `agreeOn` compares rows on a key, where `NULL` is like nothing.
* **`sameRows_iff`** says exactly when the two statements leave the same rows.
-/

namespace LoopOver.Upsert

open List

variable {κ V : Type*}

/-! ## Tables -/

/-- The values of the columns; nothing is `NULL`. -/
abbrev Row (κ V : Type*) := κ → Option V

structure TableDef (κ V : Type*) where
  columns : List κ
  /-- `NOT NULL`. -/
  required : κ → Bool
  /-- What the default is at the time of the statement. -/
  default : κ → Option V
  /-- The primary key and the unique constraints. -/
  keys : List (List κ)
  check : Row κ V → Bool

/-- A second definition of a table requires more columns, and may lack the default of one that it
requires. -/
structure Stricter (t strict : TableDef κ V) : Prop where
  columns : strict.columns = t.columns
  keys : strict.keys = t.keys
  check : strict.check = t.check
  required : ∀ c, t.required c = true → strict.required c = true
  default : ∀ c ∈ t.columns, strict.default c = t.default c ∨ strict.default c = none ∧
    strict.required c = true

section Proposed

variable {t strict : TableDef κ V} {row : Row κ V}

def TableDef.refuses (t : TableDef κ V) (row : Row κ V) : Bool :=
  t.columns.any (fun c => t.required c && (row c).isNone) || !t.check row

theorem not_refuses_iff :
    t.refuses row = false ↔
      (∀ c ∈ t.columns, t.required c = true → row c ≠ none) ∧ t.check row = true := by
  simp [TableDef.refuses]

theorem Stricter.takes (h : Stricter t strict) (htakes : strict.refuses row = false) :
    t.refuses row = false := by
  obtain ⟨hrequired, hcheck⟩ := not_refuses_iff.1 htakes
  exact not_refuses_iff.2 ⟨fun c hc hneeded => hrequired c (h.columns ▸ hc) (h.required c hneeded),
    h.check ▸ hcheck⟩

variable [DecidableEq κ] {listed : List κ} {values : Row κ V}

/-- The row of a statement: its values, and the defaults of the columns that it does not list. -/
def TableDef.given (t : TableDef κ V) (listed : List κ) (values : Row κ V) : Row κ V := fun c =>
  if c ∈ t.columns then if c ∈ listed then values c else t.default c else none

/-- A `NULL` that may not be there is replaced by the default. -/
def TableDef.filled (t : TableDef κ V) (row : Row κ V) : Row κ V := fun c =>
  if c ∈ t.columns ∧ t.required c = true ∧ row c = none then t.default c else row c

/-- A row that the second table takes is the row that the first one makes of the statement. -/
theorem Stricter.given_eq (h : Stricter t strict)
    (htakes : strict.refuses (strict.given listed values) = false) :
    t.filled (t.given listed values) = strict.given listed values := by
  have hrequired := (not_refuses_iff.1 htakes).1
  funext c
  by_cases hc : c ∈ t.columns
  · have hgiven : t.given listed values c = strict.given listed values c := by
      rw [TableDef.given, TableDef.given, h.columns, if_pos hc, if_pos hc]
      split
      · rfl
      · next hlisted =>
        rcases h.default c hc with hsame | ⟨hnone, hneeded⟩
        · exact hsame.symm
        · refine absurd ?_ (hrequired c (h.columns ▸ hc) hneeded)
          rw [TableDef.given, h.columns, if_pos hc, if_neg hlisted, hnone]
    rw [TableDef.filled, if_neg, hgiven]
    rintro ⟨_, hneeded, hnone⟩
    exact hrequired c (h.columns ▸ hc) (h.required c hneeded) (hgiven.symm.trans hnone)
  · rw [TableDef.filled, if_neg fun hfill => hc hfill.1, TableDef.given, TableDef.given, h.columns,
      if_neg hc, if_neg hc]

/-- What the first table refuses, the second one refuses. -/
theorem Stricter.refuses_of_refuses (h : Stricter t strict)
    (hrefuses : t.refuses (t.filled (t.given listed values)) = true) :
    strict.refuses (strict.given listed values) = true := by
  by_contra hnot
  have htakes := eq_false_of_ne_true hnot
  rw [h.given_eq htakes, h.takes htakes] at hrefuses
  cases hrefuses

end Proposed

/-! ## Keys -/

variable [DecidableEq V]

def agreeOn (key : List κ) (a b : Row κ V) : Bool := key.all fun c => (a c).isSome && a c == b c

/-- The rows have a key in common. -/
def TableDef.collides (t : TableDef κ V) (a b : Row κ V) : Bool :=
  t.keys.any fun key => agreeOn key a b

/-- No two rows have a key in common. -/
def TableDef.Distinct (t : TableDef κ V) (rows : List (Row κ V)) : Prop :=
  rows.Pairwise fun a b => t.collides a b = false

section Keys

variable {key target listed : List κ} {a b c row old other : Row κ V} {t strict : TableDef κ V}
  {rows : List (Row κ V)}

theorem agreeOn_iff : agreeOn key a b = true ↔ ∀ c ∈ key, (∃ v, a c = some v) ∧ a c = b c := by
  simp [agreeOn, Option.isSome_iff_exists]

theorem agreeOn_symm (h : agreeOn key a b = true) : agreeOn key b a = true := by
  rw [agreeOn_iff] at h ⊢
  intro c hc
  obtain ⟨hsome, hsame⟩ := h c hc
  exact ⟨hsame ▸ hsome, hsame.symm⟩

theorem agreeOn_trans (h : agreeOn key a b = true) (h' : agreeOn key b c = true) :
    agreeOn key a c = true := by
  rw [agreeOn_iff] at h h' ⊢
  intro column hcolumn
  exact ⟨(h column hcolumn).1, (h column hcolumn).2.trans (h' column hcolumn).2⟩

theorem collides_of_agreeOn (hkey : key ∈ t.keys) (h : agreeOn key a b = true) :
    t.collides a b = true :=
  any_eq_true.2 ⟨key, hkey, h⟩

theorem collides_symm (h : t.collides a b = true) : t.collides b a = true := by
  obtain ⟨key, hkey, hagree⟩ := any_eq_true.1 h
  exact collides_of_agreeOn hkey (agreeOn_symm hagree)

theorem Stricter.collides_eq (h : Stricter t strict) : strict.collides = t.collides := by
  funext a b
  rw [TableDef.collides, TableDef.collides, h.keys]

namespace TableDef.Distinct

/-- A row of a table, and the others, which have no key in common with it. -/
theorem split (hdistinct : t.Distinct rows) (hold : old ∈ rows) :
    ∃ front back, rows = front ++ old :: back ∧ ∀ other ∈ front ++ back,
      t.collides old other = false := by
  obtain ⟨front, back, rfl⟩ := append_of_mem hold
  refine ⟨front, back, rfl, fun other hother => ?_⟩
  rw [TableDef.Distinct, pairwise_append, pairwise_cons] at hdistinct
  rcases mem_append.1 hother with hfront | hback
  · have hnot := hdistinct.2.2 other hfront old mem_cons_self
    by_contra hcollides
    rw [collides_symm (Bool.not_eq_false _ ▸ hcollides)] at hnot
    cases hnot
  · exact hdistinct.2.1.1 other hback

/-- Rows of a table that collide are one. -/
theorem eq_of_collides (hdistinct : t.Distinct rows) (hold : old ∈ rows) (hother : other ∈ rows)
    (hcollides : t.collides old other = true) : other = old := by
  obtain ⟨front, back, rfl, hothers⟩ := hdistinct.split hold
  by_contra hne
  have hin : other ∈ front ++ back := by
    rw [mem_append, mem_cons] at hother
    rw [mem_append]
    tauto
  rw [hothers other hin] at hcollides
  cases hcollides

/-- A row that is there, and has a key, is the only one with that key. -/
theorem filter_collides_eq_iff (hdistinct : t.Distinct rows) :
    rows.filter (t.collides row) = [row] ↔ row ∈ rows ∧ t.collides row row = true := by
  constructor
  · intro hfilter
    exact mem_filter.1 (hfilter ▸ mem_cons_self)
  · rintro ⟨hrow, hself⟩
    obtain ⟨front, back, rfl, hothers⟩ := hdistinct.split hrow
    have hnone : ∀ part, part ⊆ front ++ back → part.filter (t.collides row) = [] :=
      fun part hpart =>
      filter_eq_nil_iff.2 fun other hother => by
        rw [hothers other (hpart hother)]
        exact Bool.false_ne_true
    rw [filter_append, filter_cons_of_pos hself, hnone front (subset_append_left _ _),
      hnone back (subset_append_right _ _), nil_append]

end TableDef.Distinct

/-- With the rows that collide with one taken away and that one added, the table is as before
exactly if it was the only one. -/
theorem replaced_perm_iff : (rows.filter (fun old => !t.collides row old) ++ [row]).Perm rows ↔
    rows.filter (t.collides row) = [row] := by
  have hsplit : (rows.filter (fun old => !t.collides row old) ++
      rows.filter (t.collides row)).Perm rows :=
    (perm_append_comm).trans (filter_append_perm (t.collides row) rows)
  rw [← perm_singleton]
  constructor
  · intro hperm
    exact (perm_append_left_iff _).1 (hsplit.trans hperm.symm)
  · intro hperm
    exact (hperm.symm.append_left _).trans hsplit

/-- To take away what collides and add the row, or to put the row in its place. -/
theorem updated_perm (hdistinct : t.Distinct rows) (htarget : target ∈ t.keys) (hold : old ∈ rows)
    (hagree : agreeOn target row old = true)
    (honly : ∀ other ∈ rows, t.collides row other = true → agreeOn target row other = true) :
    (rows.filter (fun old => !t.collides row old) ++ [row]).Perm
      (rows.map fun other => if agreeOn target row other then row else other) := by
  obtain ⟨front, back, rfl, hothers⟩ := hdistinct.split hold
  have hapart : ∀ other ∈ front ++ back, agreeOn target row other = false ∧
      t.collides row other = false := by
    intro other hother
    have hnot : ¬agreeOn target row other = true := fun hother' => by
      have hsame := collides_of_agreeOn htarget (agreeOn_trans (agreeOn_symm hagree) hother')
      rw [hothers other hother] at hsame
      cases hsame
    have hin : other ∈ front ++ old :: back := by
      rcases mem_append.1 hother with hfront | hback
      · exact mem_append_left _ hfront
      · exact mem_append_right _ (mem_cons_of_mem _ hback)
    exact ⟨eq_false_of_ne_true hnot, eq_false_of_ne_true fun hcollides =>
      hnot (honly other hin hcollides)⟩
  have hkept : ∀ part, part ⊆ front ++ back → part.filter (fun old => !t.collides row old) = part :=
    fun part hpart =>
    filter_eq_self.2 fun other hother => by rw [(hapart other (hpart hother)).2, Bool.not_false]
  have hmapped : ∀ part, part ⊆ front ++ back →
      part.map (fun other => if agreeOn target row other then row else other) = part := by
    intro part hpart
    conv_rhs => rw [← map_id part]
    refine map_congr_left fun other hother => ?_
    rw [(hapart other (hpart hother)).1, if_neg Bool.false_ne_true]
    rfl
  rw [filter_append, filter_cons_of_neg, map_append, map_cons, if_pos hagree,
    hkept front (subset_append_left _ _), hkept back (subset_append_right _ _),
    hmapped front (subset_append_left _ _), hmapped back (subset_append_right _ _)]
  · exact perm_append_singleton row (front ++ back) |>.trans perm_middle.symm
  · rw [collides_of_agreeOn htarget hagree]
    exact Bool.false_ne_true

/-- A row that collides only with rows of its key, which have the defaults of the columns that are
not listed. -/
def Renews (t : TableDef κ V) (target listed : List κ) (row : Row κ V) (rows : List (Row κ V)) :
    Prop :=
  ∀ old ∈ rows, t.collides row old = true →
    agreeOn target row old = true ∧ ∀ c ∈ t.columns, c ∉ listed → old c = row c

/-- A row that is there renews itself. -/
theorem renews_of_mem (hdistinct : t.Distinct rows) (hrow : row ∈ rows)
    (hself : agreeOn target row row = true) :
    Renews t target listed row rows := by
  intro old hold hcollides
  obtain rfl := hdistinct.eq_of_collides hrow hold hcollides
  exact ⟨hself, fun _ _ _ => rfl⟩

end Keys

/-! ## The two statements -/

section Statements

variable [DecidableEq κ]

/-- `INSERT OR REPLACE`. -/
def TableDef.insertOrReplace (t : TableDef κ V) (listed : List κ) (values : Row κ V)
    (rows : List (Row κ V)) :
    List (Row κ V) :=
  let row := t.filled (t.given listed values)
  if t.refuses row then rows else rows.filter (fun old => !t.collides row old) ++ [row]

/-- A row with the columns of a list taken from another one. -/
def overwrite (sets : List κ) (row old : Row κ V) : Row κ V :=
  fun c => if c ∈ sets then row c else old c

/-- `INSERT … ON CONFLICT (target) DO UPDATE SET …`. A row that is refused, or that has another key
in common with a row, fails the statement. -/
def TableDef.insertOnConflict (t : TableDef κ V) (target sets listed : List κ) (values : Row κ V)
    (rows : List (Row κ V)) : List (Row κ V) :=
  let row := t.given listed values
  if t.refuses row then rows
  else
    match rows.find? (agreeOn target row) with
    | none => if rows.any (t.collides row) then rows else rows ++ [row]
    | some old =>
      let new := overwrite sets row old
      if t.refuses new ||
        rows.any (fun other => !agreeOn target row other && t.collides new other) then rows
      else rows.map fun other => if agreeOn target row other then new else other

/-- The rows have nothing but the columns of the table. -/
def TableDef.Supports (t : TableDef κ V) (rows : List (Row κ V)) : Prop :=
  ∀ row ∈ rows, ∀ c ∉ t.columns, row c = none

/-- The rows of a table. -/
structure Contents (t : TableDef κ V) where
  rows : List (Row κ V)
  distinct : t.Distinct rows
  supports : t.Supports rows

variable {t strict : TableDef κ V} {target listed : List κ} {values row old : Row κ V}
  {rows : List (Row κ V)}

/-- What the two statements have to do with each other for one row: the first refuses it too, or it
is there already, or the second one takes it and renews what was there. -/
def ReplacesAlike (t strict : TableDef κ V) (target listed : List κ) (values : Row κ V)
    (rows : List (Row κ V)) :
    Prop :=
  t.refuses (t.filled (t.given listed values)) = true ∨
    (t.filled (t.given listed values) ∈ rows ∧
      t.collides (t.filled (t.given listed values)) (t.filled (t.given listed values)) = true) ∨
    strict.refuses (strict.given listed values) = false ∧
      Renews t target listed (strict.given listed values) rows

theorem overwrite_eq (hagree : agreeOn target row old = true)
    (hunlisted : ∀ c ∈ t.columns, c ∉ listed → old c = row c)
    (houtside : ∀ c ∉ t.columns, old c = row c) :
    overwrite (listed.filter (· ∉ target)) row old = row := by
  funext c
  rw [overwrite]
  split
  · rfl
  · next hset =>
    by_cases hc : c ∈ t.columns
    · by_cases hlisted : c ∈ listed
      · have htarget : c ∈ target := by
          by_contra hnot
          exact hset (mem_filter.2 ⟨hlisted, decide_eq_true hnot⟩)
        exact (agreeOn_iff.1 hagree c htarget).2.symm
      · exact hunlisted c hc hlisted
    · exact houtside c hc

/-- What a row leaves that renews what was there. -/
theorem insertOnConflict_of_renews (h : Stricter t strict) (htarget : target ∈ t.keys)
    (htakes : strict.refuses (strict.given listed values) = false) (hdistinct : t.Distinct rows)
    (hsupports : t.Supports rows)
    (hrenews : Renews t target listed (strict.given listed values) rows) :
    (rows.filter (fun old => !t.collides (strict.given listed values) old) ++
      [strict.given listed values]).Perm
      (strict.insertOnConflict target (listed.filter (· ∉ target)) listed values rows) := by
  rw [TableDef.insertOnConflict, if_neg (by rw [htakes]; exact Bool.false_ne_true), h.collides_eq]
  cases hfind : rows.find? (agreeOn target (strict.given listed values)) with
  | none =>
    have hnone : ∀ old ∈ rows, ¬t.collides (strict.given listed values) old = true :=
      fun old hold hcollides =>
      List.find?_eq_none.1 hfind old hold (hrenews old hold hcollides).1
    have hkept : rows.filter (fun old => !t.collides (strict.given listed values) old) = rows :=
      filter_eq_self.2 fun old hold => by rw [eq_false_of_ne_true (hnone old hold), Bool.not_false]
    rw [hkept, if_neg fun hany => ?_]
    obtain ⟨old, hold, hcollides⟩ := any_eq_true.1 hany
    exact hnone old hold hcollides
  | some old =>
    have hold := mem_of_find?_eq_some hfind
    have hagree : agreeOn target (strict.given listed values) old = true := List.find?_some hfind
    have hnew : overwrite (listed.filter (· ∉ target)) (strict.given listed values) old =
        strict.given listed values := by
      refine overwrite_eq hagree (hrenews old hold (collides_of_agreeOn htarget hagree)).2
        fun c hc => ?_
      rw [hsupports old hold c hc, TableDef.given, h.columns, if_neg hc]
    simp only [hnew]
    rw [if_neg]
    · exact updated_perm hdistinct htarget hold hagree fun other hother hcollides =>
        (hrenews other hother hcollides).1
    · intro hfails
      rw [Bool.or_eq_true, htakes] at hfails
      obtain ⟨other, hother, hbad⟩ := any_eq_true.1 (hfails.resolve_left Bool.false_ne_true)
      rw [Bool.and_eq_true, Bool.not_eq_true'] at hbad
      rw [(hrenews other hother hbad.2).1] at hbad
      cases hbad.1

/-- The second statement fails, or it renews what was there. -/
theorem failed_or_renews (h : Stricter t strict) (htarget : target ∈ t.keys)
    (htakes : strict.refuses (strict.given listed values) = false) (hdistinct : t.Distinct rows)
    (hself : agreeOn target (strict.given listed values) (strict.given listed values) = true)
    (hmem : strict.given listed values ∈
      strict.insertOnConflict target (listed.filter (· ∉ target)) listed values rows) :
    strict.insertOnConflict target (listed.filter (· ∉ target)) listed values rows = rows ∨
      Renews t target listed (strict.given listed values) rows := by
  rw [TableDef.insertOnConflict, if_neg (by rw [htakes]; exact Bool.false_ne_true),
    h.collides_eq] at hmem ⊢
  cases hfind : rows.find? (agreeOn target (strict.given listed values)) with
  | none =>
    by_cases hany : (rows.any (t.collides (strict.given listed values))) = true
    · exact Or.inl (if_pos hany)
    · refine Or.inr fun old hold hcollides => absurd ?_ hany
      exact any_eq_true.2 ⟨old, hold, hcollides⟩
  | some old =>
    have hold := mem_of_find?_eq_some hfind
    have hagree : agreeOn target (strict.given listed values) old = true := List.find?_some hfind
    simp only [hfind] at hmem ⊢
    split at hmem
    · next hfails => exact Or.inl (if_pos hfails)
    · next hworks =>
      refine Or.inr fun other hother hcollides => ?_
      have hnew : overwrite (listed.filter (· ∉ target)) (strict.given listed values) old =
          strict.given listed values := by
        obtain ⟨changed, _, hchanged⟩ := mem_map.1 hmem
        split at hchanged
        · exact hchanged
        · next hnot =>
          rw [hchanged] at hnot
          exact absurd hself hnot
      rw [hnew, Bool.or_eq_true, not_or] at hworks
      have hother' : agreeOn target (strict.given listed values) other = true := by
        by_contra hnot
        refine hworks.2 (any_eq_true.2 ⟨other, hother, ?_⟩)
        rw [eq_false_of_ne_true hnot, Bool.not_false, Bool.true_and]
        exact hcollides
      refine ⟨hother', fun c _ hlisted => ?_⟩
      obtain rfl := hdistinct.eq_of_collides hold hother
        (collides_of_agreeOn htarget (agreeOn_trans (agreeOn_symm hagree) hother'))
      have hcolumn := congrFun hnew c
      rwa [overwrite, if_neg fun hset => hlisted (mem_filter.1 hset).1] at hcolumn

/-- **The two statements leave the same rows exactly where they replace alike.** -/
theorem sameRows_iff (listed : List κ) (values : Row κ V) (h : Stricter t strict)
    (htarget : target ∈ t.keys) (hneeded : ∀ c ∈ target, c ∈ t.columns ∧ strict.required c = true)
    (contents : Contents t) :
    (t.insertOrReplace listed values contents.rows).Perm
        (strict.insertOnConflict target (listed.filter (· ∉ target)) listed values contents.rows) ↔
      ReplacesAlike t strict target listed values contents.rows := by
  obtain ⟨rows, hdistinct, hsupports⟩ := contents
  rw [ReplacesAlike]
  cases hrefuses : t.refuses (t.filled (t.given listed values)) with
  | true =>
    rw [TableDef.insertOrReplace, if_pos hrefuses, TableDef.insertOnConflict,
      if_pos (h.refuses_of_refuses hrefuses)]
    exact iff_of_true (List.Perm.refl _) (Or.inl rfl)
  | false =>
    -- A statement that changes nothing is like a replacement of a row by itself.
    have hfailed : (rows.filter (fun old => !t.collides (t.filled (t.given listed values)) old) ++
        [t.filled (t.given listed values)]).Perm rows ↔ t.filled (t.given listed values) ∈ rows ∧
          t.collides (t.filled (t.given listed values)) (t.filled (t.given listed values)) = true :=
      replaced_perm_iff.trans hdistinct.filter_collides_eq_iff
    rw [TableDef.insertOrReplace, if_neg (by rw [hrefuses]; exact Bool.false_ne_true)]
    cases hstrict : strict.refuses (strict.given listed values) with
    | true =>
      rw [TableDef.insertOnConflict, if_pos hstrict, hfailed]
      simp
    | false =>
      rw [h.given_eq hstrict] at hfailed ⊢
      have hself : agreeOn target (strict.given listed values)
          (strict.given listed values) = true :=
        agreeOn_iff.2 fun c hc => ⟨Option.ne_none_iff_exists'.1
          ((not_refuses_iff.1 hstrict).1 c (h.columns ▸ (hneeded c hc).1) (hneeded c hc).2), rfl⟩
      constructor
      · intro hperm
        rcases failed_or_renews h htarget hstrict hdistinct hself
          (hperm.subset (mem_append_right _ mem_cons_self)) with hfails | hrenews
        · rw [hfails] at hperm
          exact Or.inr (Or.inl (hfailed.1 hperm))
        · exact Or.inr (Or.inr ⟨rfl, hrenews⟩)
      · rintro (hbad | ⟨hthere, _⟩ | ⟨_, hrenews⟩)
        · cases hbad
        · exact insertOnConflict_of_renews h htarget hstrict hdistinct hsupports
            (renews_of_mem hdistinct hthere hself)
        · exact insertOnConflict_of_renews h htarget hstrict hdistinct hsupports hrenews

end Statements

end LoopOver.Upsert
