import Mathlib.Data.List.DropRight

/-!
# Text primitives of the host

The source compares labels, logins, paths and states after JavaScript's `toLowerCase`, which folds
all of Unicode, and passes every public comment through `sanitizePublicComment` of
`src/github/commands.ts`, a chain of redactions over free text. The development is uniform in both:
they are the two fields of `Text`, and every result holds for whatever they compute.

The executor also trims commit hashes and reads timestamps; `Runtime` adds the two functions it uses
for that, `trim` and `Date.parse`. `truthy` and `sliceText` are the two idioms of JavaScript on
strings that the model computes. `trimText` is `trim` itself, where the names that it cleans are
taken apart again.

Names are also compared after trimming and folding them more than once. `LawfulRuntime` is what that
relies on: cleaning a clean text changes nothing.

`asciiText`, `asciiRuntime` and `asciiLawful` are the instances used to evaluate the model on
concrete inputs.
-/

namespace LoopOver

open List

/-- The two text functions the planner calls and does not look into. -/
structure Text where
  /-- `String.prototype.toLowerCase`. -/
  toLowerCase : String → String
  /-- `sanitizePublicComment`, the redaction of private terms from a public comment. -/
  sanitizePublicComment : String → String

namespace Text

variable (text : Text)

/-- `a.toLowerCase() === b.toLowerCase()`. -/
def sameText (a b : String) : Bool := text.toLowerCase a == text.toLowerCase b

@[simp] theorem sameText_self (a : String) : text.sameText a a = true := by simp [sameText]

theorem sameText_iff {a b : String} :
    text.sameText a b = true ↔ text.toLowerCase a = text.toLowerCase b := by simp [sameText]

theorem sameText_comm (a b : String) : text.sameText a b = text.sameText b a := by
  rw [Bool.eq_iff_iff, sameText_iff, sameText_iff, eq_comm]

end Text

/-- Lower case on ASCII letters, and comments with nothing to redact. -/
def asciiText : Text where
  toLowerCase s := String.ofList (s.toList.map Char.toLower)
  sanitizePublicComment s := s

example : asciiText.sameText "Manual-Review" "manual-review" = true := by decide

/-- The text functions together with those of the executor. -/
structure Runtime extends Text where
  /-- `String.prototype.trim`. -/
  trim : String → String
  /-- `Date.parse`, in milliseconds; `none` is its `NaN`. -/
  dateParse : String → Option Int

/-- ASCII text without surrounding blanks, and no timestamp that parses. -/
def asciiRuntime : Runtime where
  toText := asciiText
  trim s := String.ofList
    ((((s.toList.dropWhile (· == ' ')).reverse).dropWhile (· == ' ')).reverse)
  dateParse _ := none

example : asciiRuntime.trim "  abc " = "abc" := by decide

/-! ## Lawful text functions -/

/-- Text functions that leave alone what they made. -/
structure LawfulRuntime extends Runtime where
  trim_trim : ∀ text, trim (trim text) = trim text
  lower_lower : ∀ text, toLowerCase (toLowerCase text) = toLowerCase text
  trim_lower_trim : ∀ text, trim (toLowerCase (trim text)) = toLowerCase (trim text)

theorem toNat_toLower (c : Char) :
    c.toLower.toNat = if 65 ≤ c.toNat ∧ c.toNat ≤ 90 then c.toNat + 32 else c.toNat := by
  have hval : c.val.toNat = c.toNat := rfl
  delta Char.toLower
  split
  · next h =>
    have hle : 65 ≤ c.val.toNat ∧ c.val.toNat ≤ 90 := h
    rw [if_pos (hval ▸ hle)]
    show (c.val + 32).toNat = _
    rw [UInt32.toNat_add, ← hval]
    show (c.val.toNat + 32) % 2 ^ 32 = _
    omega
  · next h =>
    exact (if_neg h).symm

theorem toLower_toLower (c : Char) : c.toLower.toLower = c.toLower := by
  rw [← Char.toNat_inj, toNat_toLower, toNat_toLower]
  split_ifs <;> omega

theorem toLower_eq_blank (c : Char) : (c.toLower == ' ') = (c == ' ') := by
  rw [Bool.eq_iff_iff, beq_iff_eq, beq_iff_eq, ← Char.toNat_inj, ← Char.toNat_inj, toNat_toLower]
  have hblank : ' '.toNat = 32 := rfl
  rw [hblank]
  split_ifs <;> omega

theorem dropWhile_trim {α : Type} (p : α → Bool) (l : List α) :
    ((l.dropWhile p).rdropWhile p).dropWhile p = (l.dropWhile p).rdropWhile p := by
  cases htrimmed : (l.dropWhile p).rdropWhile p with
  | nil => rfl
  | cons first rest =>
    obtain ⟨blanks, hblanks⟩ := htrimmed ▸ rdropWhile_prefix p (l := l.dropWhile p)
    have hfirst : ¬p first := by
      have hhead := head_dropWhile_not p (l := l) (by rw [← hblanks]; exact cons_ne_nil _ _)
      simpa [← hblanks] using hhead
    rw [dropWhile_cons_of_neg hfirst]

theorem asciiRuntime_trim (s : String) :
    asciiRuntime.trim s = String.ofList ((s.toList.dropWhile (· == ' ')).rdropWhile (· == ' ')) :=
      rfl

/-- The ASCII functions are lawful. -/
def asciiLawful : LawfulRuntime where
  toRuntime := asciiRuntime
  trim_trim text := by
    rw [asciiRuntime_trim, asciiRuntime_trim, String.toList_ofList, dropWhile_trim,
      rdropWhile_idempotent]
  lower_lower text := by
    show String.ofList ((String.ofList (text.toList.map Char.toLower)).toList.map Char.toLower) = _
    rw [String.toList_ofList, map_map]
    exact congrArg String.ofList (map_congr_left fun c _ => toLower_toLower c)
  trim_lower_trim text := by
    have hlower : ((· == ' ') ∘ Char.toLower) = (· == ' ') := funext toLower_eq_blank
    show asciiRuntime.trim (String.ofList ((asciiRuntime.trim text).toList.map Char.toLower)) =
      String.ofList ((asciiRuntime.trim text).toList.map Char.toLower)
    rw [asciiRuntime_trim, asciiRuntime_trim, String.toList_ofList, String.toList_ofList,
      dropWhile_map, hlower, dropWhile_trim, List.rdropWhile, ← map_reverse, dropWhile_map, hlower,
      ← map_reverse]
    exact congrArg (fun l => String.ofList (List.map Char.toLower l)) (rdropWhile_idempotent _ _)

/-! ## Times -/

/-- The milliseconds of the years 0 to 9999, which `toISOString` writes with four digits. -/
def InFourDigitYear (ms : ℤ) : Prop := -62167219200000 ≤ ms ∧ ms ≤ 253402300799999

/-- The milliseconds that a `Date` can hold. -/
def InDateRange (ms : ℤ) : Prop := -8640000000000000 ≤ ms ∧ ms ≤ 8640000000000000

instance (ms : ℤ) : Decidable (InDateRange ms) := inferInstanceAs (Decidable (_ ∧ _))

/-! ## White space -/

/-- What `\s` of a regular expression matches. -/
def isRegexSpace (c : Char) : Bool :=
  let n := c.toNat
  (9 ≤ n && n ≤ 13) || n == 0x20 || n == 0xA0 || n == 0x1680 || (0x2000 ≤ n && n ≤ 0x200A) ||
    n == 0x2028 ||
    n == 0x2029 || n == 0x202F || n == 0x205F || n == 0x3000 || n == 0xFEFF

theorem isRegexSpace_of_graphic {c : Char} (h : 33 ≤ c.toNat ∧ c.toNat ≤ 126) :
    isRegexSpace c = false := by
  simp only [isRegexSpace, Bool.or_eq_false_iff, Bool.and_eq_false_iff, decide_eq_false_iff_not,
    beq_eq_false_iff_ne]
  omega

/-- `String.prototype.trim`. -/
def trimText (text : String) : String :=
  String.ofList ((text.toList.dropWhile isRegexSpace).rdropWhile isRegexSpace)

/-- Characters that do not start or end with white space. -/
structure Trimmed (chars : List Char) : Prop where
  head : ∀ c ∈ chars.head?, isRegexSpace c = false
  last : ∀ c ∈ chars.getLast?, isRegexSpace c = false

theorem Trimmed.dropWhile_eq {chars : List Char} (h : Trimmed chars) :
    chars.dropWhile isRegexSpace = chars := by
  cases chars with
  | nil => rfl
  | cons c rest => rw [dropWhile_cons_of_neg (by simp [h.head c rfl])]

theorem Trimmed.rdropWhile_eq {chars : List Char} (h : Trimmed chars) :
    chars.rdropWhile isRegexSpace = chars := by
  rw [rdropWhile_eq_self_iff]
  intro hne
  simp [h.last _ (List.getLast?_eq_some_getLast hne)]

theorem trimText_eq_self {text : String} (h : Trimmed text.toList) : trimText text = text := by
  rw [trimText, h.dropWhile_eq, h.rdropWhile_eq, String.ofList_toList]

theorem trimmed_trimText (text : String) : Trimmed (trimText text).toList := by
  rw [trimText, String.toList_ofList]
  constructor
  · intro c hc
    have hhead := List.head?_dropWhile_not isRegexSpace
      ((text.toList.dropWhile isRegexSpace).rdropWhile isRegexSpace)
    rw [dropWhile_trim, Option.mem_def.1 hc] at hhead
    simpa using hhead
  · intro c hc
    have hne : (text.toList.dropWhile isRegexSpace).rdropWhile isRegexSpace ≠ [] := by
      intro hnil
      simp [hnil] at hc
    have hlast := rdropWhile_last_not isRegexSpace (text.toList.dropWhile isRegexSpace) hne
    rw [List.getLast?_eq_some_getLast hne, Option.mem_some_iff] at hc
    simpa [← hc] using hlast

@[simp] theorem trimText_trimText (text : String) : trimText (trimText text) = trimText text :=
  trimText_eq_self (trimmed_trimText text)

/-- Text between trimmed ends is trimmed. -/
theorem Trimmed.between {front back : List Char} (hfront : Trimmed front) (hback : Trimmed back)
    (hne : front ≠ []) (hne' : back ≠ []) (middle : List Char) :
    Trimmed (front ++ middle ++ back) := by
  constructor
  · rw [append_assoc, List.head?_append_of_ne_nil _ hne]
    exact hfront.head
  · rw [List.getLast?_append_of_ne_nil _ hne']
    exact hback.last

/-- What stands in joined pieces is of one of them, or it is what they are joined with. -/
theorem mem_intercalate {α : Type} {sep c : α} {pieces : List (List α)}
    (h : c ∈ [sep].intercalate pieces) :
    c = sep ∨ ∃ piece ∈ pieces, c ∈ piece := by
  induction pieces with
  | nil => cases h
  | cons piece pieces ih =>
    cases pieces with
    | nil => exact Or.inr ⟨piece, mem_singleton_self piece, by simpa using h⟩
    | cons next pieces =>
      rw [intercalate_cons_cons, mem_append, mem_append, mem_singleton] at h
      rcases h with (h | h) | h
      · exact Or.inr ⟨piece, mem_cons_self, h⟩
      · exact Or.inl h
      · rcases ih h with hsep | ⟨other, hother, hc⟩
        · exact Or.inl hsep
        · exact Or.inr ⟨other, mem_cons_of_mem _ hother, hc⟩

/-! ## Strings as values -/

/-- `value ? value : undefined`: JavaScript reads the empty string as absent. -/
def truthy (value : Option String) : Option String := value.filter (· != "")

/-- `text.slice(0, n)`, which counts UTF-16 code units; half of a surrogate pair is left out. -/
def sliceText (n : Nat) (text : String) : String := String.ofList (go n text.toList)
where
  go : Nat → List Char → List Char
    | _, [] => []
    | n, c :: rest =>
      let width := if c.toNat < 0x10000 then 1 else 2
      if width ≤ n then c :: go (n - width) rest else []

example : sliceText 6 "record:acme" = "record" := by decide

end LoopOver
