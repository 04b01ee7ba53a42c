import Mathlib.Data.Int.Log
import Mathlib.Data.Rat.Floor
import Mathlib.Algebra.Order.Field.Power
import Mathlib.Tactic.Linarith
import Mathlib.Tactic.NormNum
import Mathlib.Tactic.Positivity

/-! Binary64 over the rationals: the nearest value, ties to even. A rounding is off by one
part in 2 ^ 53, so a decimal that is scaled back to a whole number is short of it by less
than one. -/

/-- Nothing here tells the sign of a zero. -/
inductive Binary64 where
  | nan
  | infinite (negative : Bool)
  | finite (value : ℚ)

namespace Binary64

/-- The nearest integer, of two the even one. -/
def nearest (q : ℚ) : ℤ :=
  if 2 * Int.fract q < 1 ∨ (2 * Int.fract q = 1 ∧ ⌊q⌋ % 2 = 0) then ⌊q⌋ else ⌊q⌋ + 1

/-- The exponent of the last of 53 bits, which is never below that of the subnormals. -/
def lastPlace (q : ℚ) : ℤ := max (Int.log 2 |q| - 52) (-1074)

def round (q : ℚ) : ℚ := nearest (q / 2 ^ lastPlace q) * 2 ^ lastPlace q

def ofRat (q : ℚ) : Binary64 :=
  if |round q| < 2 ^ 1024 then finite (round q) else infinite (decide (q < 0))

def mul : Binary64 → Binary64 → Binary64
  | nan, _ | _, nan => nan
  | infinite s, infinite t => infinite (s ^^ t)
  | infinite s, finite y => if y = 0 then nan else infinite (s ^^ decide (y < 0))
  | finite x, infinite t => if x = 0 then nan else infinite (decide (x < 0) ^^ t)
  | finite x, finite y => ofRat (x * y)

def isFinite : Binary64 → Bool
  | finite _ => true
  | nan | infinite _ => false

/-- Towards zero, and to the bounds where there is no such integer. -/
def toUInt64 : Binary64 → UInt64
  | nan | infinite true => 0
  | infinite false => .ofNat (2 ^ 64 - 1)
  | finite q => .ofNat (min ⌊q⌋.toNat (2 ^ 64 - 1))

theorem nearest_near (q : ℚ) : |nearest q - q| ≤ 1 / 2 := by
  have parts : (⌊q⌋ : ℚ) + Int.fract q = q := Int.floor_add_fract q
  have low : 0 ≤ Int.fract q := Int.fract_nonneg q
  unfold nearest
  split
  · rename_i down
    have half : 2 * Int.fract q ≤ 1 := by
      rcases down with below | ⟨tie, _⟩
      · exact below.le
      · exact tie.le
    rw [abs_le]
    constructor <;> linarith
  · rename_i up
    have half : 1 ≤ 2 * Int.fract q := by
      rw [not_or, not_lt] at up
      exact up.1
    have high : Int.fract q < 1 := Int.fract_lt_one q
    rw [Int.cast_add, Int.cast_one, abs_le]
    constructor <;> linarith

theorem nearest_intCast (n : ℤ) : nearest n = n := by
  rw [nearest, Int.fract_intCast, Int.floor_intCast]
  exact if_pos (.inl (by norm_num))

/-- Half of a unit in the last place. -/
theorem round_near (q : ℚ) : |round q - q| ≤ 2 ^ lastPlace q / 2 := by
  have place : (0 : ℚ) < 2 ^ lastPlace q := by positivity
  have scaled : round q - q = (nearest (q / 2 ^ lastPlace q) - q / 2 ^ lastPlace q) * 2 ^ lastPlace q := by
    rw [sub_mul, div_mul_cancel₀ _ place.ne', round]
  rw [scaled, abs_mul, abs_of_pos place]
  have near := mul_le_mul_of_nonneg_right (nearest_near (q / 2 ^ lastPlace q)) place.le
  linarith

/-- A value that is no subnormal. -/
theorem round_relative {q : ℚ} (normal : 2 ^ (-1022 : ℤ) ≤ |q|) : |round q - q| ≤ |q| / 2 ^ 53 := by
  have positive : (0 : ℚ) < |q| := lt_of_lt_of_le (by positivity) normal
  have top : (-1022 : ℤ) ≤ Int.log 2 |q| :=
    (Int.zpow_le_iff_le_log (by decide) positive).mp (by exact_mod_cast normal)
  have place : lastPlace q = Int.log 2 |q| - 52 := max_eq_left (by omega)
  have unit : (2 : ℚ) ^ lastPlace q / 2 = 2 ^ Int.log 2 |q| / 2 ^ 53 := by
    rw [place, zpow_sub₀ (by norm_num), zpow_ofNat, div_div]
    norm_num
  have below : (2 : ℚ) ^ Int.log 2 |q| ≤ |q| := by
    exact_mod_cast Int.zpow_log_le_self (b := 2) (by decide) positive
  calc |round q - q| ≤ 2 ^ lastPlace q / 2 := round_near q
    _ = 2 ^ Int.log 2 |q| / 2 ^ 53 := unit
    _ ≤ |q| / 2 ^ 53 := by gcongr

/-- A whole number with a significand of its own. -/
theorem round_natCast {n : Nat} (small : n < 2 ^ 53) : round n = n := by
  have place : lastPlace n ≤ 0 := by
    rw [lastPlace, Nat.abs_cast, Int.log_natCast]
    have bits : Nat.log 2 n < 53 ∨ n = 0 := by
      by_cases zero : n = 0
      · exact .inr zero
      · exact .inl (Nat.log_lt_of_lt_pow zero small)
    rcases bits with bits | rfl
    · omega
    · simp
  obtain ⟨k, exponent⟩ : ∃ k : Nat, lastPlace n = -k := ⟨(-lastPlace n).toNat, by omega⟩
  have whole : (n : ℚ) / 2 ^ lastPlace n = ((n * 2 ^ k : ℤ) : ℚ) := by
    rw [exponent, zpow_neg, zpow_natCast, div_inv_eq_mul]
    push_cast
    rfl
  rw [round, whole, nearest_intCast, ← whole, div_mul_cancel₀]
  positivity

theorem round_zero : round 0 = 0 := by
  exact_mod_cast round_natCast (n := 0) (by decide)

theorem normal_of_le {q : ℚ} (large : 2 ^ (-64 : ℤ) ≤ q) : 2 ^ (-1022 : ℤ) ≤ |q| :=
  (zpow_le_zpow_right₀ (by norm_num) (by norm_num)).trans (large.trans (le_abs_self q))

section
variable {n d : Nat}

/-- A rounded quotient that is multiplied back. -/
theorem quotient_near (divisor : 0 < d) (scale : d ≤ 2 ^ 64) :
    |round (n / d) * d - n| ≤ n / 2 ^ 53 := by
  have d_pos : (0 : ℚ) < d := by exact_mod_cast divisor
  have d_small : (d : ℚ) ≤ 2 ^ 64 := by exact_mod_cast scale
  obtain rfl | positive := Nat.eq_zero_or_pos n
  · simp [round_zero]
  have n_pos : (1 : ℚ) ≤ n := by exact_mod_cast positive
  have quotient : (2 : ℚ) ^ (-64 : ℤ) ≤ n / d := by
    rw [le_div_iff₀ d_pos]
    calc (2 : ℚ) ^ (-64 : ℤ) * d ≤ 2 ^ (-64 : ℤ) * 2 ^ 64 := by gcongr
      _ = 1 := by norm_num
      _ ≤ n := n_pos
  have scaled : round (n / d) * d - n = (round (n / d) - n / d) * d := by
    rw [sub_mul, div_mul_cancel₀ _ d_pos.ne']
  rw [scaled, abs_mul, Nat.abs_cast]
  calc |round (n / d) - n / d| * d ≤ |(n : ℚ) / d| / 2 ^ 53 * d := by
        gcongr
        exact round_relative (normal_of_le quotient)
    _ = n / 2 ^ 53 := by
      rw [abs_of_nonneg (by positivity), div_right_comm, div_mul_cancel₀ _ d_pos.ne']

/-- Both roundings together are off by less than one. -/
theorem scaled_near (divisor : 0 < d) (scale : d ≤ 2 ^ 64) (small : n ≤ 2 ^ 51) :
    |round (round (n / d) * d) - n| < 1 := by
  have n_small : (n : ℚ) ≤ 2 ^ 51 := by exact_mod_cast small
  obtain ⟨low, high⟩ := abs_le.mp (quotient_near (n := n) divisor scale)
  obtain rfl | positive := Nat.eq_zero_or_pos n
  · rw [Nat.cast_zero, zero_div, round_zero, zero_mul, round_zero]
    norm_num
  have n_pos : (1 : ℚ) ≤ n := by exact_mod_cast positive
  have size : |round (n / d) * d| = round (n / d) * d := abs_of_nonneg (by linarith)
  have large : (2 : ℚ) ^ (-64 : ℤ) ≤ round (n / d) * d := by
    have tiny : (2 : ℚ) ^ (-64 : ℤ) ≤ 1 / 2 := by norm_num
    linarith
  have second := round_relative (normal_of_le large)
  rw [size] at second
  obtain ⟨lower, upper⟩ := abs_le.mp second
  rw [abs_lt]
  constructor <;> linarith

theorem ofRat_small {q : ℚ} (small : |round q| ≤ 2 ^ 64) : ofRat q = finite (round q) :=
  if_pos (small.trans_lt (pow_lt_pow_right₀ (by norm_num) (by norm_num)))

theorem toUInt64_near {q : ℚ} (near : |q - n| < 1) (small : n < 2 ^ 64) :
    n ≤ (finite q).toUInt64.toNat + 1 ∧ (finite q).toUInt64.toNat ≤ n := by
  obtain ⟨low, high⟩ := abs_lt.mp near
  have lower : (n : ℤ) - 1 ≤ ⌊q⌋ := Int.le_floor.mpr (by push_cast; linarith)
  have upper : ⌊q⌋ < (n : ℤ) + 1 := Int.floor_lt.mpr (by push_cast; linarith)
  have value : (finite q).toUInt64.toNat = ⌊q⌋.toNat := by
    rw [toUInt64, UInt64.toNat_ofNat', Nat.mod_eq_of_lt] <;> omega
  rw [value]
  omega

/-- The quotient's decimal, scaled back and cut off to an integer, is at most one less. -/
theorem scaled_back (divisor : 0 < d) (scale : d ≤ 2 ^ 64) (small : n ≤ 2 ^ 51) :
    n ≤ (mul (ofRat (n / d)) (finite d)).toUInt64.toNat + 1 ∧
      (mul (ofRat (n / d)) (finite d)).toUInt64.toNat ≤ n := by
  have n_small : (n : ℚ) ≤ 2 ^ 51 := by exact_mod_cast small
  have d_pos : (1 : ℚ) ≤ d := by exact_mod_cast divisor
  have near := scaled_near divisor scale small
  have first : |round (n / d)| ≤ 2 ^ 64 := by
    obtain ⟨low, high⟩ := abs_le.mp (quotient_near (n := n) divisor scale)
    calc |round (n / d)| ≤ |round (n / d)| * d := le_mul_of_one_le_right (abs_nonneg _) d_pos
      _ = |round (n / d) * d| := by rw [abs_mul, Nat.abs_cast]
      _ ≤ 2 ^ 64 := by rw [abs_le]; constructor <;> linarith
  have second : |round (round (n / d) * d)| ≤ 2 ^ 64 := by
    obtain ⟨low, high⟩ := abs_lt.mp near
    rw [abs_le]
    constructor <;> linarith
  have product : mul (ofRat (n / d)) (finite d) = finite (round (round (n / d) * d)) := by
    rw [ofRat_small first, mul, ofRat_small second]
  rw [product]
  exact toUInt64_near near (by omega)

end
end Binary64
