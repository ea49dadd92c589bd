import Mathlib.Data.List.Sort
import Mathlib.Data.String.Basic

/-!
# Canonical JSON

The serialization under which every digest is computed, `packages/loopover-contract/src/digest.ts`:
keys in the order of their UTF-16 code units, no whitespace, strings and numbers as `JSON.stringify`
writes them. The hash itself, SHA-256 of the UTF-8 text in lower-case hex, is a parameter of
everything built on it.

* `canonicalJson` is the serialization.
* `jsonString_append_inj` says that an encoded string shows where it ends and what it encodes, and
  `intText_inj` that the text of an integer determines it.
-/

namespace LoopOver

open List

/-- A JSON value. A number is given by the text that `JSON.stringify` writes for it. -/
inductive Json
  | null
  | bool (value : Bool)
  | number (text : String)
  | string (value : String)
  | array (items : List Json)
  | object (fields : List (String × Json))

/-! ## Strings -/

/-- A hexadecimal digit, lower case. -/
def hexDigit (n : ℕ) : Char := Nat.digitChar n

/-- The characters that `JSON.stringify` writes for one character of a string. -/
def escapeChar (c : Char) : List Char :=
  if c = '"' then ['\\', '"']
  else if c = '\\' then ['\\', '\\']
  else if c = '\x08' then ['\\', 'b']
  else if c = '\x0c' then ['\\', 'f']
  else if c = '\n' then ['\\', 'n']
  else if c = '\r' then ['\\', 'r']
  else if c = '\t' then ['\\', 't']
  else if c.toNat < 0x20 then
    ['\\', 'u', '0', '0', hexDigit (c.toNat / 16), hexDigit (c.toNat % 16)]
  else [c]

/-- `JSON.stringify` of a string. -/
def jsonString (s : String) : String :=
  String.ofList ('"' :: (s.toList.flatMap escapeChar ++ ['"']))

/-! ## The serialization -/

/-- The UTF-16 code units of a string, which JavaScript sorts by. -/
def utf16Units (s : String) : List ℕ :=
  s.toList.flatMap fun c =>
    if c.toNat < 0x10000 then [c.toNat]
    else [0xD800 + (c.toNat - 0x10000) / 0x400, 0xDC00 + (c.toNat - 0x10000) % 0x400]

/-- `text.length`. -/
def textLength (text : String) : ℕ := (utf16Units text).length

/-- The order of `keys.sort()`. -/
def keyLe (a b : String) : Prop := utf16Units a ≤ utf16Units b

instance : DecidableRel keyLe := fun a b =>
  inferInstanceAs (Decidable (utf16Units a ≤ utf16Units b))

mutual

/-- Deterministic JSON: sorted keys, no whitespace. -/
def canonicalJson : Json → String
  | .null => "null"
  | .bool value => if value then "true" else "false"
  | .number text => text
  | .string value => jsonString value
  | .array items => "[" ++ ",".intercalate (canonicalItems items) ++ "]"
  | .object fields =>
    let sorted := (canonicalFields fields).insertionSort fun a b => keyLe a.1 b.1
    "\x7b" ++ ",".intercalate (sorted.map fun field => jsonString field.1 ++ ":" ++ field.2) ++
      "\x7d"

def canonicalItems : List Json → List String
  | [] => []
  | item :: items => canonicalJson item :: canonicalItems items

/-- Each key with the text of its value. -/
def canonicalFields : List (String × Json) → List (String × String)
  | [] => []
  | (key, value) :: fields => (key, canonicalJson value) :: canonicalFields fields

end

example : canonicalJson (.object [("b", .array [.null, .bool true]), ("a", .string "x\"y")]) =
    "\x7b\"a\":\"x\\\"y\",\"b\":[null,true]\x7d" := by decide

/-! ## Reading a string back -/

/-- The value of a hexadecimal digit. -/
def hexValue (c : Char) : ℕ := if c.isDigit then c.toNat - 48 else c.toNat - 87

/-- Reads an encoded string up to its closing quote. -/
def readString : List Char → Option (List Char × List Char)
  | [] => none
  | '"' :: rest => some ([], rest)
  | '\\' :: '"' :: rest => (readString rest).map fun r => ('"' :: r.1, r.2)
  | '\\' :: '\\' :: rest => (readString rest).map fun r => ('\\' :: r.1, r.2)
  | '\\' :: 'b' :: rest => (readString rest).map fun r => ('\x08' :: r.1, r.2)
  | '\\' :: 'f' :: rest => (readString rest).map fun r => ('\x0c' :: r.1, r.2)
  | '\\' :: 'n' :: rest => (readString rest).map fun r => ('\n' :: r.1, r.2)
  | '\\' :: 'r' :: rest => (readString rest).map fun r => ('\r' :: r.1, r.2)
  | '\\' :: 't' :: rest => (readString rest).map fun r => ('\t' :: r.1, r.2)
  | '\\' :: 'u' :: '0' :: '0' :: h :: l :: rest =>
    (readString rest).map fun r => (Char.ofNat (16 * hexValue h + hexValue l) :: r.1, r.2)
  | c :: rest => (readString rest).map fun r => (c :: r.1, r.2)

theorem control_hex (n : ℕ) (h : n < 0x20) :
    16 * hexValue (hexDigit (n / 16)) + hexValue (hexDigit (n % 16)) = n := by
  revert h
  revert n
  decide

theorem readString_escapeChar (c : Char) (rest : List Char) :
    readString (escapeChar c ++ rest) = (readString rest).map fun r => (c :: r.1, r.2) := by
  unfold escapeChar
  split_ifs with h₁ h₂ h₃ h₄ h₅ h₆ h₇ h₈
  · subst h₁
    rfl
  · subst h₂
    rfl
  · subst h₃
    rfl
  · subst h₄
    rfl
  · subst h₅
    rfl
  · subst h₆
    rfl
  · subst h₇
    rfl
  · simp only [cons_append, nil_append, readString, control_hex _ h₈, Char.ofNat_toNat]
  · simp [readString, h₂]

theorem readString_encoded (s rest : List Char) :
    readString (s.flatMap escapeChar ++ '"' :: rest) = some (s, rest) := by
  induction s with
  | nil => rfl
  | cons c s ih =>
    rw [flatMap_cons, append_assoc, readString_escapeChar, ih]
    rfl

/-- **An encoded string shows where it ends and what it encodes.** -/
theorem jsonString_append_inj {s s' t t' : String}
    (h : jsonString s ++ t = jsonString s' ++ t') : s = s' ∧ t = t' := by
  have hchars := congrArg String.toList h
  simp only [jsonString, String.toList_append, String.toList_ofList, cons_append,
    append_assoc, nil_append, List.cons.injEq, true_and] at hchars
  have hread := congrArg readString hchars
  rw [readString_encoded, readString_encoded] at hread
  obtain ⟨hs, ht⟩ := Prod.mk.inj (Option.some.inj hread)
  exact ⟨String.toList_inj.1 hs, String.toList_inj.1 ht⟩

/-! ## Integers -/

theorem natText_inj {m n : ℕ} (h : m.repr = n.repr) : m = n := by
  have hdigits := congrArg String.toList h
  rw [Nat.toList_repr, Nat.toList_repr] at hdigits
  have hvalue := congrArg (fun digits => Nat.ofDigitChars 10 digits 0) hdigits
  simpa [Nat.ofDigitChars_toDigits] using hvalue

theorem natText_ne_minus {m : ℕ} {t : String} : m.repr ≠ "-" ++ t := by
  intro h
  have hmem : '-' ∈ Nat.toDigits 10 m := by
    rw [← Nat.toList_repr, h]
    simp
  exact absurd (Nat.isDigit_of_mem_toDigits (by decide) (by decide) hmem) (by decide)

/-- The text of an integer determines it. -/
theorem intText_inj {m n : ℤ} (h : toString m = toString n) : m = n := by
  rw [Int.toString_eq_repr, Int.toString_eq_repr, Int.repr_eq_if, Int.repr_eq_if] at h
  split_ifs at h with hm hn hn
  · have := natText_inj h
    omega
  · exact absurd h natText_ne_minus
  · exact absurd h.symm natText_ne_minus
  · have := natText_inj ((String.append_right_inj "-").1 h)
    omega

end LoopOver
