import LoopOver.Postgres.Dialect
import Mathlib.Tactic.Set

/-!
# The numbers of placeholders

A statement for SQLite has its parameters as `?` and `?7`, and SQLite gives each a number; for
Postgres the statement must say the number. This module compares `toNumberedPlaceholders` with what
SQLite does.

* `Piece` is a part of a statement: a literal, with its quotes doubled, a placeholder, or another
  character. `Lexed` says that pieces are as long as they can be. Whether double quotes enclose a
  piece too is a parameter: for SQLite they do, and the rewriting does not know them.
* `sqliteNumbers` has the numbers that SQLite gives to the placeholders.
* `NumberedBySqlite` says that the placeholders become these numbers, and that all other pieces
  stay. It holds of every statement that is read without double quotes (`placeholders_numbered`),
  and not of every one that is read with them (`placeholders_in_identifier`).
-/

namespace LoopOver.PgDialect

open List

/-! ## Pieces of a statement -/

inductive Piece
  | plain (c : Char)
  | literal (body : List Char)
  /-- A literal that the end of the statement cuts off. -/
  | unclosed (body : List Char)
  /-- `"…"` -/
  | identifier (body : List Char)
  /-- `?7` -/
  | numbered (digits : List Char)
  /-- `?` -/
  | bare

/-- How a text stands between quotes. -/
def doubled (mark : Char) (body : List Char) : List Char :=
  body.flatMap fun c => if c = mark then [c, c] else [c]

def Piece.source : Piece → List Char
  | plain c => [c]
  | literal body => '\'' :: (doubled '\'' body ++ ['\''])
  | unclosed body => '\'' :: doubled '\'' body
  | identifier body => '"' :: (doubled '"' body ++ ['"'])
  | numbered digits => '?' :: digits
  | bare => ['?']

def Piece.isPlaceholder : Piece → Bool
  | numbered _ => true
  | bare => true
  | _ => false

def text (pieces : List Piece) : List Char := pieces.flatMap Piece.source

/-- A piece may stand where `next` is the next character; `quotes` is whether double quotes enclose
a piece. -/
def Piece.Fits (quotes : Bool) (next : Option Char) : Piece → Prop
  | plain c => c ≠ '\'' ∧ c ≠ '?' ∧ (quotes = true → c ≠ '"')
  | literal _ => next ≠ some '\''
  | unclosed _ => next = none
  | identifier _ => quotes = true ∧ next ≠ some '"'
  | numbered digits => digits ≠ [] ∧ digits.all Char.isDigit = true ∧ next.all (!·.isDigit) = true
  | bare => next.all (!·.isDigit) = true

def Lexed (quotes : Bool) : List Piece → Prop
  | [] => True
  | piece :: rest => piece.Fits quotes (text rest).head? ∧ Lexed quotes rest

/-- The numbers of the placeholders, where `largest` is the largest one before, and SQLite has none
above `limit`. -/
def sqliteNumbers (limit : ℕ) : ℕ → List Piece → Option (List ℕ)
  | _, [] => some []
  | largest, .numbered digits :: rest =>
    let n := Nat.ofDigitChars 10 digits 0
    if 1 ≤ n ∧ n ≤ limit then (sqliteNumbers limit (max largest n) rest).map (n :: ·) else none
  | largest, .bare :: rest =>
    if largest + 1 ≤ limit then (sqliteNumbers limit (largest + 1) rest).map ((largest + 1) :: ·)
      else none
  | largest, _ :: rest => sqliteNumbers limit largest rest

/-- The statement with a numeral in the place of each placeholder. -/
def fill : List (List Char) → List Piece → List Char
  | numeral :: numerals, .numbered _ :: rest => '$' :: (numeral ++ fill numerals rest)
  | numeral :: numerals, .bare :: rest => '$' :: (numeral ++ fill numerals rest)
  | numerals, piece :: rest => piece.source ++ fill numerals rest
  | _, [] => []

/-- The pieces of a statement can be told apart; each placeholder becomes a `$` with a numeral,
which is that of the number SQLite gives to it, and nothing else changes. -/
def NumberedBySqlite (quotes : Bool) (sql : String) : Prop :=
  (∃ pieces, Lexed quotes pieces ∧ text pieces = sql.toList) ∧
    ∀ pieces, Lexed quotes pieces → text pieces = sql.toList →
      ∃ numerals : List (List Char), (toNumberedPlaceholders sql).toList = fill numerals pieces ∧
        numerals.length = pieces.countP Piece.isPlaceholder ∧
        (∀ numeral ∈ numerals, numeral ≠ [] ∧ numeral.all Char.isDigit = true) ∧
        ∀ limit numbers, sqliteNumbers limit 0 pieces = some numbers →
          numerals.map (Nat.ofDigitChars 10 · 0) = numbers

/-! ## A rewriting by pieces -/

section Characters

variable {n : ℕ} {c : Char} {rest : List Char}

theorem numberFrom_nil (n : ℕ) (inString : Bool) :
    numberFrom n inString [] = [] := by rw [numberFrom]

theorem numberFrom_plain (hquote : c ≠ '\'') (hmark : c ≠ '?') :
    numberFrom n false (c :: rest) = c :: numberFrom n false rest := by
  simp [numberFrom, hquote, hmark]

theorem numberFrom_quote (n : ℕ) (inString : Bool) (rest : List Char) :
    numberFrom n inString ('\'' :: rest) = '\'' :: numberFrom n (!inString) rest := by
  simp [numberFrom]

theorem numberFrom_inString (h : c ≠ '\'') :
    numberFrom n true (c :: rest) = c :: numberFrom n true rest := by
  simp [numberFrom, h]

/-- The doubled quotes of a literal close it and open it again. -/
theorem numberFrom_doubled (n : ℕ) (body rest : List Char) :
    numberFrom n true (doubled '\'' body ++ rest) = doubled '\'' body ++
      numberFrom n true rest := by
  induction body with
  | nil => rfl
  | cons c body ih =>
    simp only [doubled, flatMap_cons, append_assoc] at ih ⊢
    split
    · next hc =>
      subst hc
      simp only [cons_append, nil_append, numberFrom_quote, Bool.not_true, Bool.not_false, ih]
    · next hc => simp only [cons_append, nil_append, numberFrom_inString hc, ih]

variable {digits : List Char}

theorem takeWhile_digits (hdigits : digits.all Char.isDigit = true)
    (hnext : rest.head?.all (!·.isDigit) = true) :
    (digits ++ rest).takeWhile Char.isDigit = digits := by
  rw [takeWhile_append_of_pos (all_eq_true.1 hdigits)]
  cases rest with
  | nil => simp
  | cons c rest => simp_all

theorem dropWhile_digits (hdigits : digits.all Char.isDigit = true)
    (hnext : rest.head?.all (!·.isDigit) = true) :
    (digits ++ rest).dropWhile Char.isDigit = rest := by
  rw [dropWhile_append_of_pos (all_eq_true.1 hdigits)]
  cases rest with
  | nil => rfl
  | cons c rest => simp_all

theorem numberFrom_numbered (hne : digits ≠ []) (hdigits : digits.all Char.isDigit = true)
    (hnext : rest.head?.all (!·.isDigit) = true) :
    numberFrom n false ('?' :: (digits ++ rest)) =
      '$' :: (digits ++ numberFrom (max n (Nat.ofDigitChars 10 digits 0)) false rest) := by
  rw [numberFrom]
  simp [takeWhile_digits hdigits hnext, dropWhile_digits hdigits hnext, hne]

theorem numberFrom_bare (hnext : rest.head?.all (!·.isDigit) = true) :
    numberFrom n false ('?' :: rest) =
      '$' :: (Nat.toDigits 10 (n + 1) ++ numberFrom (n + 1) false rest) := by
  have hnone : rest.takeWhile Char.isDigit = [] := takeWhile_digits all_nil hnext
  rw [numberFrom]
  simp [hnone]

end Characters

/-- The numerals that are written, with `n` for the largest number before. -/
def numerals : ℕ → List Piece → List (List Char)
  | n, .numbered digits :: rest => digits :: numerals (max n (Nat.ofDigitChars 10 digits 0)) rest
  | n, .bare :: rest => Nat.toDigits 10 (n + 1) :: numerals (n + 1) rest
  | n, _ :: rest => numerals n rest
  | _, [] => []

variable {pieces : List Piece}

theorem numberFrom_text (h : Lexed false pieces) (n : ℕ) :
    numberFrom n false (text pieces) = fill (numerals n pieces) pieces := by
  induction pieces generalizing n with
  | nil => exact numberFrom_nil n false
  | cons piece rest ih =>
    obtain ⟨hfits, hrest⟩ := h
    rw [text, flatMap_cons, ← text]
    cases piece with
    | plain c => simp [Piece.source, numberFrom_plain hfits.1 hfits.2.1, numerals, fill, ih hrest]
    | literal body =>
      simp [Piece.source, numberFrom_quote, numberFrom_doubled, numerals, fill, ih hrest]
    | unclosed body =>
      have hnil : text rest = [] := List.head?_eq_none_iff.1 hfits
      have hquiet := numberFrom_doubled n body []
      rw [append_nil, numberFrom_nil, append_nil] at hquiet
      have hfill := ih hrest n
      rw [hnil, numberFrom_nil] at hfill
      simp [Piece.source, hnil, numberFrom_quote, hquiet, numerals, fill, ← hfill]
    | identifier body => exact absurd hfits.1 Bool.false_ne_true
    | numbered digits =>
      simp [Piece.source, numberFrom_numbered hfits.1 hfits.2.1 hfits.2.2, numerals, fill, ih hrest]
    | bare => simp [Piece.source, numberFrom_bare hfits, numerals, fill, ih hrest]

theorem length_numerals (n : ℕ) (pieces : List Piece) :
    (numerals n pieces).length = pieces.countP Piece.isPlaceholder := by
  induction pieces generalizing n with
  | nil => rfl
  | cons piece rest ih => cases piece <;> simp [numerals, Piece.isPlaceholder, countP_cons, ih]

theorem mem_numerals (h : Lexed false pieces) {n : ℕ} {numeral : List Char}
    (hmem : numeral ∈ numerals n pieces) : numeral ≠ [] ∧ numeral.all Char.isDigit = true := by
  induction pieces generalizing n with
  | nil => cases hmem
  | cons piece rest ih =>
    obtain ⟨hfits, hrest⟩ := h
    cases piece with
    | plain c => exact ih hrest hmem
    | literal body => exact ih hrest hmem
    | unclosed body => exact ih hrest hmem
    | identifier body => exact ih hrest hmem
    | numbered digits =>
      obtain rfl | hmem := mem_cons.1 hmem
      · exact ⟨hfits.1, hfits.2.1⟩
      · exact ih hrest hmem
    | bare =>
      obtain rfl | hmem := mem_cons.1 hmem
      · exact ⟨Nat.toDigits_ne_nil, all_eq_true.2 fun c hc =>
          Nat.isDigit_of_mem_toDigits (by decide) (by decide) hc⟩
      · exact ih hrest hmem

/-- The numerals are those of SQLite's numbers. -/
theorem numerals_value {limit n : ℕ} {numbers : List ℕ}
    (h : sqliteNumbers limit n pieces = some numbers) :
    (numerals n pieces).map (Nat.ofDigitChars 10 · 0) = numbers := by
  induction pieces generalizing n numbers with
  | nil => simpa [sqliteNumbers, numerals] using h
  | cons piece rest ih =>
    cases piece with
    | plain c => exact ih h
    | literal body => exact ih h
    | unclosed body => exact ih h
    | identifier body => exact ih h
    | numbered digits =>
      simp only [sqliteNumbers] at h
      split at h
      · obtain ⟨more, hmore, rfl⟩ := Option.map_eq_some_iff.1 h
        rw [numerals, map_cons, ih hmore]
      · cases h
    | bare =>
      simp only [sqliteNumbers] at h
      split at h
      · obtain ⟨more, hmore, rfl⟩ := Option.map_eq_some_iff.1 h
        rw [numerals, map_cons, ih hmore, Nat.ofDigitChars_toDigits (by decide) (by decide)]
      · cases h

/-! ## Every statement has pieces -/

/-- After a quote, the literal ends at a quote that no other one follows, or not at all. -/
theorem literal_or_unclosed (chars : List Char) :
    (∃ body rest, chars = doubled '\'' body ++ '\'' :: rest ∧ rest.head? ≠ some '\'') ∨
      ∃ body, chars = doubled '\'' body := by
  induction hlength : chars.length using Nat.strong_induction_on generalizing chars with
  | _ length ih =>
    subst hlength
    have hcons : ∀ (c : Char) (front more : List Char), chars = front ++ more → 0 < front.length →
        doubled '\'' [c] = front → (∃ body rest, chars = doubled '\'' body ++ '\'' :: rest ∧
          rest.head? ≠ some '\'') ∨ ∃ body, chars = doubled '\'' body := by
      intro c front more hchars hpos hfront
      have hless : more.length < chars.length := by simp [hchars, hpos]
      have happend : ∀ body, doubled '\'' (c :: body) = front ++ doubled '\'' body := by
        intro body
        rw [← hfront]
        simp [doubled]
      obtain ⟨body, rest, hmore, hnext⟩ | ⟨body, hmore⟩ := ih more.length hless more rfl
      · exact .inl ⟨c :: body, rest, by rw [hchars, hmore, happend, append_assoc], hnext⟩
      · exact .inr ⟨c :: body, by rw [hchars, hmore, happend]⟩
    match chars, hcons with
    | [], _ => exact .inr ⟨[], rfl⟩
    | c :: rest, hcons =>
      by_cases hc : c = '\''
      · subst hc
        by_cases hnext : rest.head? = some '\''
        · obtain ⟨more, rfl⟩ := List.head?_eq_some_iff.1 hnext
          exact hcons '\'' ['\'', '\''] more rfl (by decide) rfl
        · exact .inl ⟨[], rest, rfl, hnext⟩
      · exact hcons c [c] rest rfl Nat.one_pos (by simp [doubled, hc])

/-- A piece before pieces, if it fits there. -/
theorem lexed_cons {quotes : Bool} {chars rest : List Char} (piece : Piece)
    (hchars : piece.source ++ rest = chars) (hfits : piece.Fits quotes rest.head?)
    (h : ∃ pieces, Lexed quotes pieces ∧ text pieces = rest) :
    ∃ pieces, Lexed quotes pieces ∧ text pieces = chars := by
  obtain ⟨pieces, hlexed, rfl⟩ := h
  exact ⟨piece :: pieces, ⟨hfits, hlexed⟩, hchars⟩

theorem exists_lexed (chars : List Char) : ∃ pieces, Lexed false pieces ∧ text pieces = chars := by
  induction hlength : chars.length using Nat.strong_induction_on generalizing chars with
  | _ length ih =>
    subst hlength
    match chars with
    | [] => exact ⟨[], trivial, rfl⟩
    | c :: rest =>
      by_cases hquote : c = '\''
      · subst hquote
        obtain ⟨body, more, rfl, hnext⟩ | ⟨body, rfl⟩ := literal_or_unclosed rest
        · refine lexed_cons (.literal body) (by simp [Piece.source]) hnext
            (ih more.length ?_ more rfl)
          simp only [length_cons, length_append]
          omega
        · exact ⟨[.unclosed body], ⟨rfl, trivial⟩, append_nil _⟩
      · by_cases hmark : c = '?'
        · subst hmark
          have hsplit := takeWhile_append_dropWhile (p := Char.isDigit) (l := rest)
          have hhead : (rest.dropWhile Char.isDigit).head?.all (!·.isDigit) = true := by
            cases hdrop : (rest.dropWhile Char.isDigit).head? with
            | none => rfl
            | some d => simpa [hdrop] using List.head?_dropWhile_not Char.isDigit rest
          by_cases hdigits : rest.takeWhile Char.isDigit = []
          · rw [hdigits, nil_append] at hsplit
            rw [hsplit] at hhead
            exact lexed_cons .bare rfl hhead (ih rest.length (by simp) rest rfl)
          · refine lexed_cons (.numbered (rest.takeWhile Char.isDigit)) (congrArg ('?' :: ·) hsplit)
              ⟨hdigits, all_takeWhile, hhead⟩ (ih _ ?_ (rest.dropWhile Char.isDigit) rfl)
            exact Nat.lt_succ_of_le (length_dropWhile_le _ _)
        · refine lexed_cons (.plain c) rfl ⟨hquote, hmark, fun h => absurd h Bool.false_ne_true⟩ ?_
          exact ih rest.length (by simp) rest rfl

/-! ## Numbers -/

theorem placeholders_numbered (sql : String) : NumberedBySqlite false sql := by
  refine ⟨exists_lexed sql.toList, fun pieces hlexed htext =>
    ⟨numerals 0 pieces, ?_, length_numerals 0 pieces,
    fun numeral hmem => mem_numerals hlexed hmem, fun limit numbers h => numerals_value h⟩⟩
  rw [toNumberedPlaceholders, String.toList_ofList, ← htext, numberFrom_text hlexed]

/-- In `"a?b"=?` the first question mark belongs to a name, and the second one becomes `$2`. -/
theorem placeholders_in_identifier : ¬ ∀ sql, NumberedBySqlite true sql := by
  intro h
  have hlexed : Lexed true [.identifier ['a', '?', 'b'], .plain '=', .bare] := by
    simp [Lexed, Piece.Fits, text, Piece.source]
  obtain ⟨numerals, hfill, -, -, hvalue⟩ := (h "\"a?b\"=?").2 _ hlexed rfl
  have hout : (toNumberedPlaceholders "\"a?b\"=?").toList =
      ['"', 'a', '$', '1', 'b', '"', '=', '$', '2'] := by
    simp [toNumberedPlaceholders, numberFrom, Nat.toDigits_of_lt_base, Nat.digitChar]
  rw [hout] at hfill
  simp [fill, Piece.source, doubled] at hfill

end LoopOver.PgDialect
