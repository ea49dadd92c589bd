import LoopOver.Foundations.Upsert
import LoopOver.Text
import Mathlib.Data.List.Basic
import Mathlib.Data.Rat.Defs

/-!
# Statements of SQLite for Postgres

`src/selfhost/pg-dialect.ts` rewrites the statements of the program for a Postgres database. An
`INSERT OR REPLACE` needs the key that rows may conflict on, which `replaceConflictKeys` has for the
tables that are written so.

* `translateInsertOr` is the rewriting of the two kinds of `INSERT OR`.
* `schemaOf` has the columns of these tables, after all migrations. `Schema.sqlite` and
  `Schema.postgres` are what the two databases make of them: for Postgres a primary key is `NOT
  NULL`, and an `INTEGER PRIMARY KEY` assigns nothing.
-/

namespace LoopOver.PgDialect

open Upsert (TableDef Row)

/-! ## Rewriting -/

/-- `REPLACE_CONFLICT_KEYS`. -/
def replaceConflictKeys : List (String × List String) :=
  [("system_flags", ["key"]),
    ("tunables_overrides", ["project"]),
    ("tunables_overrides_shadow", ["project"]),
    ("orb_export_cursor", ["instance_hash"]),
    ("orb_signals", ["instance_id", "repo_hash", "pr_hash"]),
    ("orb_reuse_counters", ["instance_id", "day"]),
    ("ai_review_verdict_flips", ["repo_full_name", "pull_number"]),
    ("ams_signals", ["instance_id", "pr_hash"])]

/-- `[A-Za-z0-9_]`. -/
def isWordChar (c : Char) : Bool :=
  let n := c.toNat
  (48 ≤ n && n ≤ 57) || (65 ≤ n && n ≤ 90) || n == 95 || (97 ≤ n && n ≤ 122)

theorem isWordChar_of_space {c : Char} (h : isRegexSpace c = true) : isWordChar c = false := by
  simp only [isRegexSpace, isWordChar, Bool.or_eq_true, Bool.and_eq_true, decide_eq_true_iff,
    beq_iff_eq, Bool.or_eq_false_iff, Bool.and_eq_false_iff, decide_eq_false_iff_not,
    beq_eq_false_iff_ne, ne_eq] at h ⊢
  omega

/-- A word of a pattern with the flag `i`: what follows it. -/
def keyword : List Char → List Char → Option (List Char)
  | [], rest => some rest
  | _ :: _, [] => none
  | letter :: word, c :: rest => if c.toUpper = letter then keyword word rest else none

/-- `\s+`. -/
def spaces : List Char → Option (List Char)
  | [] => none
  | c :: rest => if isRegexSpace c then some (rest.dropWhile isRegexSpace) else none

/-- `^\s*INSERT\s+OR\s+…\s+INTO`: the white space before it, and what follows it. -/
def insertOr (word sql : List Char) : Option (List Char × List Char) := do
  let rest ← keyword ['I', 'N', 'S', 'E', 'R', 'T'] (sql.dropWhile isRegexSpace)
  let rest ← spaces rest
  let rest ← keyword ['O', 'R'] rest
  let rest ← spaces rest
  let rest ← keyword word rest
  let rest ← spaces rest
  let rest ← keyword ['I', 'N', 'T', 'O'] rest
  return (sql.takeWhile isRegexSpace, rest)

/-- `\s+([A-Za-z0-9_]+)\s*\(([^)]+)\)`: the table, and the text of the list of columns. -/
def targetOf (sql : List Char) : Option (String × List Char) := do
  let rest ← spaces sql
  match (rest.dropWhile isWordChar).dropWhile isRegexSpace with
  | '(' :: list =>
    if rest.takeWhile isWordChar ≠ [] ∧ list.takeWhile (· != ')') ≠ [] ∧ ')' ∈ list then
      some (String.ofList (rest.takeWhile isWordChar), list.takeWhile (· != ')'))
    else none
  | _ => none

/-- `split(",")`, and `trim` of each part. -/
def columnsOf (list : List Char) : List String :=
  (list.splitOn ',').map fun part => trimText (String.ofList part)

/-- The clause that overwrites a row. -/
def onConflict (pk updated : List String) : String :=
  " ON CONFLICT (" ++ ", ".intercalate pk ++ ") DO UPDATE SET " ++
    ", ".intercalate (updated.map fun c => c ++ "=excluded." ++ c)

/-- `INSERT OR IGNORE` and `INSERT OR REPLACE`, in the words of Postgres. -/
def translateInsertOr (sql : String) : Except String String :=
  match insertOr ['I', 'G', 'N', 'O', 'R', 'E'] sql.toList with
  | some (lead, rest) =>
    .ok (String.ofList lead ++ "INSERT INTO" ++ String.ofList rest ++ " ON CONFLICT DO NOTHING")
  | none =>
    match insertOr ['R', 'E', 'P', 'L', 'A', 'C', 'E'] sql.toList with
    | none => .ok sql
    | some (lead, rest) =>
      match targetOf rest with
      | none => .ok sql
      | some (table, list) =>
        match replaceConflictKeys.lookup table with
        | none =>
          .error ("pg_dialect: INSERT OR REPLACE into '" ++ table ++ "' has no known conflict key")
        | some pk =>
          .ok (String.ofList lead ++ "INSERT INTO" ++ String.ofList rest ++
            onConflict pk ((columnsOf list).filter (· ∉ pk)))

/-- `toNumberedPlaceholders` from a character on. `n` is the largest number so far: an exact one,
since SQLite has no parameter whose number a double does not hold. -/
def numberFrom (n : ℕ) (inString : Bool) : List Char → List Char
  | [] => []
  | ch :: rest =>
    let inString := if ch = '\'' then !inString else inString
    if ch = '?' ∧ inString = false then
      let numbered := rest.takeWhile Char.isDigit
      if numbered = [] then '$' :: (Nat.toDigits 10 (n + 1) ++ numberFrom (n + 1) inString rest)
      else
        '$' :: (numbered ++
          numberFrom (max n (Nat.ofDigitChars 10 numbered 0)) inString
            (rest.dropWhile Char.isDigit))
    else ch :: numberFrom n inString rest
termination_by sql => sql.length
decreasing_by
  all_goals simp only [List.length_cons]
  · omega
  · exact Nat.lt_succ_of_le (List.length_dropWhile_le _ _)
  · omega

/-- `?` becomes `$1`, `$2` and so on. -/
def toNumberedPlaceholders (sql : String) : String := String.ofList (numberFrom 0 false sql.toList)

/-! ## Tables -/

/-- What a column may have. -/
inductive SqlValue
  | integer (value : ℤ)
  | real (value : ℚ)
  | text (value : String)
  deriving DecidableEq

/-- What a column has if nothing is given. -/
inductive ColumnDefault
  | absent
  | literal (value : SqlValue)
  | currentTimestamp
  /-- An `INTEGER PRIMARY KEY`, to which SQLite gives the next number. -/
  | rowid
  deriving DecidableEq

/-- A column of a migration. -/
structure ColumnDef where
  name : String
  notNull : Bool
  /-- It is, or belongs to, the primary key. -/
  primaryKey : Bool
  default : ColumnDefault
  deriving DecidableEq

/-- A table of a migration. -/
structure Schema where
  columns : List ColumnDef
  /-- The primary key and the unique constraints. -/
  keys : List (List String)
  /-- `CHECK (column IN (…))`. -/
  checks : List (String × List SqlValue)
  deriving DecidableEq

def nullable (name : String) : ColumnDef := ⟨name, false, false, .absent⟩

def notNull (name : String) : ColumnDef := ⟨name, true, false, .absent⟩

def keyColumn (name : String) : ColumnDef := ⟨name, true, true, .absent⟩

/-- `TEXT PRIMARY KEY`, which SQLite lets be `NULL`. -/
def textKey (name : String) : ColumnDef := ⟨name, false, true, .absent⟩

def rowidKey (name : String) : ColumnDef := ⟨name, false, true, .rowid⟩

def defaulted (name : String) (value : SqlValue) : ColumnDef := ⟨name, true, false, .literal value⟩

def stamped (name : String) : ColumnDef := ⟨name, true, false, .currentTimestamp⟩

def tunablesColumns : List ColumnDef :=
  [keyColumn "project", nullable "confidence_floor", nullable "scope_cap_files",
    nullable "scope_cap_lines",
    stamped "applied_at"]

/-- The tables that are replaced into, as the migrations leave them. -/
def schemas : List (String × Schema) :=
  [("system_flags", ⟨[textKey "key", nullable "value", stamped "updated_at"], [["key"]], []⟩),
    ("tunables_overrides", ⟨tunablesColumns ++ [nullable "clear_at"], [["project"]], []⟩),
    ("tunables_overrides_shadow",
      ⟨tunablesColumns ++ [nullable "validated_until", nullable "clear_at"], [["project"]], []⟩),
    ("orb_export_cursor",
      ⟨[textKey "instance_hash", defaulted "last_exported_at" (.text "2000-01-01T00:00:00Z"),
          stamped "updated_at",
          defaulted "last_exported_target_id" (.text "")],
        [["instance_hash"]], []⟩),
    ("orb_signals",
      ⟨[rowidKey "id", notNull "instance_id", notNull "repo_hash", notNull "pr_hash",
          nullable "gate_verdict",
          notNull "outcome", defaulted "reversal_flag" (.text "none"),
            nullable "gate_reasoncode_bucket",
          nullable "time_to_close_ms", nullable "decision_timestamp", nullable "outcome_timestamp",
            nullable "sent_at",
          stamped "received_at"],
        [["id"], ["instance_id", "repo_hash", "pr_hash"]],
        [("outcome", [.text "merged", .text "closed"]),
          ("reversal_flag",
            [.text "none", .text "reopened", .text "reverted", .text "superseded"])]⟩),
    ("orb_reuse_counters",
      ⟨[keyColumn "instance_id", keyColumn "day", defaulted "hits" (.integer 0),
          defaulted "misses" (.integer 0),
          stamped "received_at"],
        [["instance_id", "day"]], []⟩),
    ("ai_review_verdict_flips",
      ⟨[keyColumn "repo_full_name", keyColumn "pull_number", notNull "last_had_defect",
          defaulted "flip_count" (.integer 0), notNull "updated_at", nullable "last_fingerprint"],
        [["repo_full_name", "pull_number"]], []⟩),
    ("ams_signals",
      ⟨[rowidKey "id", notNull "instance_id", notNull "repo_hash", notNull "pr_hash",
          notNull "decision",
          nullable "reason_bucket", nullable "closed_at", stamped "received_at"],
        [["id"], ["instance_id", "pr_hash"]], [("decision", [.text "merged", .text "closed"])]⟩)]

def schemaOf (table : String) : Schema := (schemas.lookup table).getD ⟨[], [], []⟩

/-- When a statement runs: the time, and the number that a new row would get. -/
structure Occasion where
  now : String
  nextId : ℤ

namespace Schema

variable (schema : Schema) (occasion : Occasion)

def names : List String := schema.columns.map (·.name)

def column? (name : String) : Option ColumnDef :=
  schema.columns.find? fun column => column.name == name

/-- A check lets `NULL` pass. -/
def check (row : Row String SqlValue) : Bool :=
  schema.checks.all fun (name, allowed) => (row name).all (allowed.contains ·)

/-- The table as SQLite takes it. -/
def sqlite : TableDef String SqlValue where
  columns := schema.names
  required name := (schema.column? name).any fun column => column.notNull ||
    column.default == .rowid
  default name := (schema.column? name).bind fun column =>
    match column.default with
    | .absent => none
    | .literal value => some value
    | .currentTimestamp => some (.text occasion.now)
    | .rowid => some (.integer occasion.nextId)
  keys := schema.keys
  check := schema.check

/-- The table as Postgres takes it. -/
def postgres : TableDef String SqlValue where
  columns := schema.names
  required name := (schema.column? name).any fun column => column.notNull || column.primaryKey
  default name := (schema.column? name).bind fun column =>
    match column.default with
    | .absent => none
    | .literal value => some value
    | .currentTimestamp => some (.text occasion.now)
    | .rowid => none
  keys := schema.keys
  check := schema.check

end Schema

end LoopOver.PgDialect
