import Mathlib.Data.Fintype.Basic
import Mathlib.Data.Nat.Basic

/-!
# How the addresses of hosts are written

A URL parser writes an IPv4 address with four decimal numbers, and an IPv6 address with eight pieces
in hexadecimal, of which it leaves out the longest run of zeros, the first one if there are several.

* `searchRuns` and `serializePieces` are the two loops over the pieces.
* `serialize_of_head_ne_zero`: an address that does not begin with a zero begins with its first
  piece.
* `serialize_mapped` and `serialize_compatible` are the addresses with an IPv4 address in their last
  two pieces.
* `hex_fourDigits` has the digits of a piece, and `hexText_toDigits` reads them again.
-/

namespace LoopOver.HostText

open List

/-- Sixteen bits of an IPv6 address. -/
abbrev Piece : Type := Fin 65536

instance neZero_piece : @NeZero ℕ Zero.ofOfNat0 65536 := ⟨by decide⟩

structure Ipv6 where
  pieces : List Piece
  size : pieces.length = 8

def hex (piece : Piece) : List Char := Nat.toDigits 16 piece.val

/-! ## The longest run of zeros -/

/-- The longest run so far and the one that goes on, each with its size. -/
structure RunSearch where
  longestIndex : Option ℕ
  longestSize : ℕ
  foundIndex : Option ℕ
  foundSize : ℕ

/-- A run of zeros ends. -/
def RunSearch.close (s : RunSearch) : RunSearch :=
  if s.longestSize < s.foundSize then ⟨s.foundIndex, s.foundSize, none, 0⟩
  else ⟨s.longestIndex, s.longestSize, none, 0⟩

def searchRuns (s : RunSearch) (index : ℕ) : List Piece → RunSearch
  | [] => s.close
  | piece :: rest =>
    if piece ≠ 0 then searchRuns s.close (index + 1) rest
    else searchRuns ⟨s.longestIndex, s.longestSize, s.foundIndex <|> some index,
      s.foundSize + 1⟩ (index + 1) rest

/-- Where the longest run begins that is longer than one piece. -/
def compressedIndex (pieces : List Piece) : Option ℕ :=
  (searchRuns ⟨none, 1, none, 0⟩ 0 pieces).longestIndex

/-! ## The text -/

def serializePieces (compress : Option ℕ) (index : ℕ) (ignoreZeros : Bool) : List Piece → List Char
  | [] => []
  | piece :: rest =>
    if ignoreZeros && piece == 0 then serializePieces compress (index + 1) true rest
    else if compress = some index then
      (if index = 0 then [':', ':'] else [':']) ++ serializePieces compress (index + 1) true rest
    else hex piece ++ (if index = 7 then [] else [':']) ++
      serializePieces compress (index + 1) false rest

def Ipv6.serialize (address : Ipv6) : List Char :=
  serializePieces (compressedIndex address.pieces) 0 false address.pieces

example : Ipv6.serialize ⟨[0x2001, 0xdb8, 0, 0, 1, 0, 0, 1], rfl⟩ = "2001:db8::1:0:0:1".toList := by
  decide

/-! ## What it begins with -/

section Runs

variable {s : RunSearch} {index bound : ℕ} {pieces : List Piece}

/-- The runs begin at the bound or later. -/
def RunSearch.From (s : RunSearch) (bound : ℕ) : Prop :=
  (∀ i ∈ s.longestIndex, bound ≤ i) ∧ ∀ i ∈ s.foundIndex, bound ≤ i

theorem RunSearch.From.close (h : s.From bound) : s.close.From bound := by
  unfold RunSearch.close
  split
  · exact ⟨h.2, nofun⟩
  · exact ⟨h.1, nofun⟩

theorem searchRuns_from (h : s.From bound) (hindex : bound ≤ index) :
    (searchRuns s index pieces).From bound := by
  induction pieces generalizing s index with
  | nil => exact h.close
  | cons piece pieces ih =>
    rw [searchRuns]
    split
    · exact ih h.close (by omega)
    · refine ih ⟨h.1, fun i hi => ?_⟩ (by omega)
      rcases (Option.orElse_eq_some _ _ _).1 hi with hfound | ⟨-, hnew⟩
      · exact h.2 i hfound
      · obtain rfl := Option.some.inj hnew
        exact hindex

theorem compressedIndex_ne_zero {piece : Piece} (h : piece ≠ 0) :
    compressedIndex (piece :: pieces) ≠ some 0 := by
  intro hzero
  rw [compressedIndex, searchRuns, if_pos h] at hzero
  have hfrom : RunSearch.From (searchRuns (RunSearch.close ⟨none, 1, none, 0⟩) 1 pieces) 1 :=
    searchRuns_from ⟨nofun, nofun⟩ le_rfl
  exact absurd (hfrom.1 0 hzero) (by omega)

/-- An address whose first piece is no zero begins with it. -/
theorem serialize_of_head_ne_zero {piece : Piece} (address : Ipv6)
    (h : address.pieces.head? = some piece) (hne : piece ≠ 0) :
    ∃ rest, address.serialize = hex piece ++ ':' :: rest := by
  obtain ⟨pieces, hsize⟩ := address
  obtain ⟨tail, rfl⟩ : ∃ tail, pieces = piece :: tail := by
    cases pieces with
    | nil => cases h
    | cons first tail => exact ⟨tail, by rw [Option.some.inj h]⟩
  refine ⟨serializePieces (compressedIndex (piece :: tail)) 1 false tail, ?_⟩
  rw [Ipv6.serialize, serializePieces, if_neg (by simp), if_neg (compressedIndex_ne_zero hne)]
  simp

/-- `::ffff:` in front of two pieces. -/
theorem serialize_mapped (hi lo : Piece) (h : [0, 0, 0, 0, 0, 0xffff, hi, lo].length = 8) :
    Ipv6.serialize ⟨[0, 0, 0, 0, 0, 0xffff, hi, lo], h⟩ = "::ffff:".toList ++ hex hi ++
      ':' :: hex lo := by
  have hcompress : compressedIndex [0, 0, 0, 0, 0, 0xffff, hi, lo] = some 0 := by
    by_cases hhi : hi = 0 <;> by_cases hlo : lo = 0 <;>
      simp [compressedIndex, searchRuns, RunSearch.close, hhi, hlo]
  have hhex : hex 0xffff = ['f', 'f', 'f', 'f'] := by decide
  simp [Ipv6.serialize, hcompress, serializePieces, hhex]

/-- `::` in front of two pieces. -/
theorem serialize_compatible (hi lo : Piece) (hne : hi ≠ 0)
    (h : [0, 0, 0, 0, 0, 0, hi, lo].length = 8) :
    Ipv6.serialize ⟨[0, 0, 0, 0, 0, 0, hi, lo], h⟩ = [':', ':'] ++ hex hi ++ ':' :: hex lo := by
  have hcompress : compressedIndex [0, 0, 0, 0, 0, 0, hi, lo] = some 0 := by
    by_cases hlo : lo = 0 <;> simp [compressedIndex, searchRuns, RunSearch.close, hne, hlo]
  simp [Ipv6.serialize, hcompress, serializePieces, hne]

end Runs

/-! ## Digits -/

/-- The value of a hexadecimal digit in lower case. -/
def hexDigit (c : Char) : ℕ := if c.isDigit then c.toNat - 48 else c.toNat - 87

/-- The number that hexadecimal digits are. -/
def hexText (digits : List Char) : ℕ := digits.foldl (fun n c => 16 * n + hexDigit c) 0

def IsHexLower (c : Char) : Prop := c.isDigit = true ∨ 'a' ≤ c ∧ c ≤ 'f'

instance (c : Char) : Decidable (IsHexLower c) := inferInstanceAs (Decidable (_ ∨ _))

theorem digitChar_facts :
    ∀ d : Fin 16, hexDigit (Nat.digitChar d) = d ∧ IsHexLower (Nat.digitChar d) := by decide

theorem toDigits_succ_digit (n : ℕ) : Nat.toDigits 16 n =
    (if n < 16 then [] else Nat.toDigits 16 (n / 16)) ++ [Nat.digitChar (n % 16)] := by
  rw [Nat.toDigits_eq_if (by decide)]
  split
  · next h => rw [Nat.mod_eq_of_lt h, nil_append]
  · rfl

/-- A number is read as it was written. -/
theorem hexText_toDigits (n : ℕ) : hexText (Nat.toDigits 16 n) = n := by
  induction n using Nat.strongRecOn with
  | ind n ih =>
    have hlast := (digitChar_facts ⟨n % 16, Nat.mod_lt _ (by decide)⟩).1
    rw [toDigits_succ_digit]
    split
    · next h =>
      rw [nil_append, hexText, foldl_cons, foldl_nil, hlast]
      simp only [Nat.mod_eq_of_lt h]
      omega
    · next h =>
      have hrest := ih (n / 16) (by omega)
      rw [hexText] at hrest ⊢
      rw [foldl_append, hrest, foldl_cons, foldl_nil, hlast]
      simp only
      omega

theorem isHexLower_of_mem_toDigits (n : ℕ) : ∀ c ∈ Nat.toDigits 16 n, IsHexLower c := by
  induction n using Nat.strongRecOn with
  | ind n ih =>
    rw [toDigits_succ_digit, forall_mem_append]
    refine ⟨?_, by simpa using (digitChar_facts ⟨n % 16, Nat.mod_lt _ (by decide)⟩).2⟩
    split
    · exact nofun
    · exact ih (n / 16) (by omega)

theorem length_hex (piece : Piece) : 1 ≤ (hex piece).length ∧ (hex piece).length ≤ 4 :=
  ⟨Nat.length_toDigits_pos, (Nat.length_toDigits_le_iff (by decide) (by decide)).2 piece.isLt⟩

/-- A piece that is not less than `0x1000` has four digits. -/
theorem hex_fourDigits (piece : Piece) (h : 0x1000 ≤ piece.val) : hex piece =
    [Nat.digitChar (piece.val / 4096), Nat.digitChar (piece.val / 256 % 16),
      Nat.digitChar (piece.val / 16 % 16),
      Nat.digitChar (piece.val % 16)] := by
  have hlt := piece.isLt
  rw [hex, toDigits_succ_digit, if_neg (by omega), toDigits_succ_digit, if_neg (by omega),
    toDigits_succ_digit, if_neg (by omega), toDigits_succ_digit, if_pos (by omega)]
  simp only [nil_append, cons_append, Nat.div_div_eq_div_mul, Nat.reduceMul]
  rw [Nat.mod_eq_of_lt (show piece.val / 4096 < 16 by omega)]

/-- The characters of an address. -/
theorem mem_serializePieces {compress : Option ℕ} {index : ℕ} {ignoreZeros : Bool}
    {pieces : List Piece} {c : Char} (h : c ∈ serializePieces compress index ignoreZeros pieces) :
    c = ':' ∨ IsHexLower c := by
  induction pieces generalizing index ignoreZeros with
  | nil => cases h
  | cons piece pieces ih =>
    rw [serializePieces] at h
    split at h
    · exact ih h
    · split at h
      · rcases mem_append.1 h with h | h
        · left
          split at h <;> simpa using h
        · exact ih h
      · rcases mem_append.1 h with h | h
        · rcases mem_append.1 h with h | h
          · exact Or.inr (isHexLower_of_mem_toDigits _ c h)
          · left
            split at h
            · cases h
            · simpa using h
        · exact ih h

theorem Ipv6.mem_serialize {address : Ipv6} {c : Char} (h : c ∈ address.serialize) :
    c = ':' ∨ IsHexLower c :=
  mem_serializePieces h

end LoopOver.HostText
