import Mathlib.Data.Rat.Floor
import Mathlib.Tactic.Linarith
import Mathlib.Tactic.NormNum
import Mathlib.Tactic.Ring

/-!
# Numbers of the host

The counts, scores, caps and durations of the source are JavaScript numbers, and its guards tell the
finite ones from infinities and from what is not a number. `JsNumber` keeps that difference; a
finite number is its exact value.
-/

namespace LoopOver

/-- A JavaScript number. Every finite one is a rational, and nothing here depends on which are. -/
inductive JsNumber
  | finite (value : ℚ)
  | infinite (negative : Bool)
  | nan
  deriving DecidableEq

namespace JsNumber

/-- `a < b`, which is false as soon as one side is not a number. -/
def lt : JsNumber → JsNumber → Bool
  | finite a, finite b => a < b
  | infinite true, finite _ => true
  | finite _, infinite false => true
  | infinite true, infinite false => true
  | _, _ => false

instance (n : ℕ) : OfNat JsNumber n := ⟨finite n⟩

/-- `Math.trunc` of a finite number. -/
def truncate (value : ℚ) : ℤ := if 0 ≤ value then ⌊value⌋ else ⌈value⌉

/-- `n <= cap`. -/
def Allows : JsNumber → ℕ → Prop
  | finite cap, n => (n : ℚ) ≤ cap
  | infinite negative, _ => negative = false
  | nan, _ => False

/-- `finiteNonNegativeInt`: rounded down and not below zero; what is no finite number is zero. -/
def finiteNonNegativeInt : JsNumber → ℕ
  | finite value => ⌊value⌋.toNat
  | _ => 0

/-- The value, if it is finite, and else another. -/
def finiteOr (fallback : ℚ) : JsNumber → ℚ
  | finite value => value
  | _ => fallback

/-- `a <= b`. -/
def le (a b : JsNumber) : Bool := a.lt b || (a == b && a != nan)

/-- `a + b`, without the rounding. -/
def add : JsNumber → JsNumber → JsNumber
  | finite a, finite b => finite (a + b)
  | infinite a, finite _ => infinite a
  | finite _, infinite b => infinite b
  | infinite a, infinite b => if a = b then infinite a else nan
  | _, _ => nan

/-- `a - b`, without the rounding. -/
def sub (a : JsNumber) : JsNumber → JsNumber
  | finite b => a.add (finite (-b))
  | infinite b => a.add (infinite (!b))
  | nan => nan

/-- `Math.floor`. -/
def floor : JsNumber → JsNumber
  | finite value => finite ⌊value⌋
  | value => value

/-- `Math.max`. -/
def max (a b : JsNumber) : JsNumber :=
  if a = nan ∨ b = nan then nan else if a.lt b then b else a

/-- `Math.min`. -/
def min (a b : JsNumber) : JsNumber :=
  if a = nan ∨ b = nan then nan else if b.lt a then b else a

/-- `Math.round` of a finite number. -/
def round (value : ℚ) : ℤ := ⌊value + 1 / 2⌋

@[simp] theorem finiteNonNegativeInt_natCast (n : ℕ) : (finite n).finiteNonNegativeInt = n := by
  rw [finiteNonNegativeInt, Int.floor_natCast, Int.toNat_natCast]

theorem le_finite (a b : ℚ) : (finite a).le (finite b) = decide (a ≤ b) := by
  rw [Bool.eq_iff_iff, decide_eq_true_iff, le_iff_lt_or_eq]
  simp [le, lt]

theorem max_zero_floor_finite (value : ℚ) :
    max 0 (finite value).floor = finite (finite value).finiteNonNegativeInt := by
  have hzero : (0 : JsNumber) = finite 0 := congrArg finite Nat.cast_zero
  have hlt : (finite 0).lt (finite ⌊value⌋) = decide (0 < ⌊value⌋) :=
    decide_eq_decide.2 Int.cast_pos
  rw [hzero, floor, max, if_neg (by simp), hlt, finiteNonNegativeInt]
  by_cases hpos : 0 < ⌊value⌋
  · rw [if_pos (decide_eq_true hpos), ← Int.cast_natCast, Int.toNat_of_nonneg hpos.le]
  · rw [decide_eq_false hpos, if_neg Bool.false_ne_true, Int.toNat_of_nonpos (not_lt.1 hpos),
      Nat.cast_zero]

theorem max_zero_floor (n : ℕ) : max 0 (finite n).floor = finite n := by
  rw [max_zero_floor_finite, finiteNonNegativeInt_natCast]

/-- The result is too large for a number, and becomes infinity. -/
def overflows (value : ℚ) : Bool := 2 ^ 1024 - 2 ^ 970 ≤ value

/-- `a + b`, where a sum that is too large becomes infinity. -/
def plus (a b : JsNumber) : JsNumber :=
  match a.add b with
  | finite sum =>
    if overflows sum then infinite false else if overflows (-sum) then infinite true else finite sum
  | sum => sum

/-- `a * b`, without the rounding. -/
def mul : JsNumber → JsNumber → JsNumber
  | finite a, finite b => finite (a * b)
  | finite a, infinite b => if a = 0 then nan else infinite (b != decide (a < 0))
  | infinite a, finite b => if b = 0 then nan else infinite (a != decide (b < 0))
  | infinite a, infinite b => infinite (a != b)
  | _, _ => nan

/-- `a / b`, without the rounding; a divisor that is zero counts as `+0`. -/
def div : JsNumber → JsNumber → JsNumber
  | finite a, finite b => if b = 0 then if a = 0 then nan else infinite (a < 0) else finite (a / b)
  | finite _, infinite _ => 0
  | infinite a, finite b => infinite (a != decide (b < 0))
  | _, _ => nan

/-- `Math.round`. -/
def mathRound : JsNumber → JsNumber
  | finite value => finite (round value)
  | value => value

/-- The nearest multiple of a thousandth; of two, the one that is further from zero. -/
def nearestThousandth (value : ℚ) : ℚ :=
  if 0 ≤ value then round (value * 1000) / 1000 else -(round (-value * 1000) / 1000)

/-- Three decimals, where numbers from `1e21` on are left as they are. -/
def threeDecimals (value : ℚ) : ℚ := if 10 ^ 21 ≤ |value| then value else nearestThousandth value

/-- `Number(value.toFixed(3))`. -/
def toFixed3 : JsNumber → JsNumber
  | finite value => finite (threeDecimals value)
  | value => value

/-! ## Rounding -/

theorem round_mono {a b : ℚ} (hle : a ≤ b) : round a ≤ round b := Int.floor_mono (by linarith)

theorem round_intCast (n : ℤ) : round n = n := by
  rw [round, Int.floor_intCast_add]
  norm_num

theorem nearestThousandth_intCast (n : ℤ) : nearestThousandth n = n := by
  have hround : ∀ k : ℤ, (round ((k : ℚ) * 1000) : ℚ) / 1000 = k := by
    intro k
    have hcast : (k : ℚ) * 1000 = (k * 1000 : ℤ) := by push_cast; rfl
    rw [hcast, round_intCast]
    push_cast
    ring
  rw [nearestThousandth]
  split
  · exact hround n
  · have hneg := hround (-n)
    push_cast at hneg
    rw [hneg, neg_neg]

theorem nearestThousandth_mono {a b : ℚ} (hle : a ≤ b) :
    nearestThousandth a ≤ nearestThousandth b := by
  have hnonneg : ∀ {x : ℚ}, 0 ≤ x → (0 : ℚ) ≤ round (x * 1000) / 1000 := by
    intro x hx
    have hround := round_mono (mul_nonneg hx (by norm_num : (0 : ℚ) ≤ 1000))
    rw [← Int.cast_zero, round_intCast] at hround
    have hcast : (0 : ℚ) ≤ round (x * 1000) := mod_cast hround
    exact div_nonneg hcast (by norm_num)
  have hmono : ∀ {x y : ℚ}, x ≤ y → (round (x * 1000) : ℚ) / 1000 ≤ round (y * 1000) / 1000 := by
    intro x y hxy
    have hround : (round (x * 1000) : ℚ) ≤ round (y * 1000) :=
      mod_cast round_mono (mul_le_mul_of_nonneg_right hxy (by norm_num))
    linarith
  rw [nearestThousandth, nearestThousandth]
  split_ifs with ha hb hb
  · exact hmono hle
  · exact absurd (ha.trans hle) hb
  · have := hnonneg (x := -a) (by linarith)
    have := hnonneg hb
    linarith
  · exact neg_le_neg (hmono (by linarith))

theorem threeDecimals_mono {a b : ℚ} (hle : a ≤ b) : threeDecimals a ≤ threeDecimals b := by
  have htop : nearestThousandth (10 ^ 21) = 10 ^ 21 := by
    have hcast := nearestThousandth_intCast ((10 : ℤ) ^ (21 : ℕ))
    rwa [Int.cast_pow, Int.cast_ofNat] at hcast
  have hbottom : nearestThousandth (-10 ^ 21) = -10 ^ 21 := by
    have hcast := nearestThousandth_intCast (-(10 : ℤ) ^ (21 : ℕ))
    rwa [Int.cast_neg, Int.cast_pow, Int.cast_ofNat] at hcast
  rw [threeDecimals, threeDecimals]
  split_ifs with ha hb hb
  · exact hle
  · -- Only a number below every rounded one is left as it is.
    obtain habove | hbelow := le_abs.1 ha
    · exact absurd (le_abs.2 (Or.inl (habove.trans hle))) hb
    · have hbound :=
        nearestThousandth_mono (a := -10 ^ 21) (b := b) (by linarith [abs_lt.1 (not_le.1 hb)])
      linarith
  · obtain habove | hbelow := le_abs.1 hb
    · have hbound :=
        nearestThousandth_mono (a := a) (b := 10 ^ 21) (by linarith [abs_lt.1 (not_le.1 ha)])
      linarith
    · exact absurd (le_abs.2 (Or.inr (by linarith))) ha
  · exact nearestThousandth_mono hle

theorem threeDecimals_one : threeDecimals 1 = 1 := by
  have hone : nearestThousandth 1 = 1 := mod_cast nearestThousandth_intCast 1
  rw [threeDecimals, if_neg (by norm_num), hone]

/-- What is not rounded to zero is not below a thousandth. -/
theorem thousandth_le_threeDecimals {value : ℚ} (hpositive : 0 < threeDecimals value) :
    1 / 1000 ≤ threeDecimals value := by
  rw [threeDecimals] at hpositive ⊢
  split_ifs at hpositive ⊢ with hlarge
  · rw [abs_of_pos hpositive] at hlarge
    exact le_trans (by norm_num) hlarge
  · rw [nearestThousandth] at hpositive ⊢
    split_ifs at hpositive ⊢ with hsign
    · have hround : 0 < round (value * 1000) := by
        by_contra hnot
        have hcast : (round (value * 1000) : ℚ) ≤ 0 := mod_cast not_lt.1 hnot
        linarith
      have hcast : (1 : ℚ) ≤ round (value * 1000) := mod_cast hround
      linarith
    · have hround := round_mono (a := 0) (b := -value * 1000) (by linarith)
      have hzero : round 0 = 0 := mod_cast round_intCast 0
      rw [hzero] at hround
      have hcast : (0 : ℚ) ≤ round (-value * 1000) := mod_cast hround
      linarith

end JsNumber

end LoopOver
