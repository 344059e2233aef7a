import Mathlib.Algebra.Order.Ring.Rat
import Mathlib.Data.Rat.Floor
import Mathlib.Tactic.Linarith

/-! Decimal numbers read as double-precision floats. -/

set_option autoImplicit false

def Double.maxExponent : Nat := 1024

/-- A double without the sign of its zero. -/
inductive Double where
  | finite (value : { value : ℚ // |value| < 2 ^ Double.maxExponent })
  | infinite (negative : Bool)
  | nan
  deriving DecidableEq

namespace Double

/-- A quotient to the nearest integer, and from halfway to the even one. -/
def roundHalfEven (numerator denominator : Nat) : Nat :=
  let quotient := numerator / denominator
  let twice := 2 * (numerator % denominator)
  if denominator < twice ∨ (denominator = twice ∧ quotient % 2 = 1) then quotient + 1 else quotient

/-- The power of two that the last of a double's 53 bits counts, which is never below -1074. -/
def lastPlace (numerator denominator : Nat) : Int :=
  let size : Int := numerator.log2 - denominator.log2
  let reached := denominator * 2 ^ size.toNat ≤ numerator * 2 ^ (-size).toNat
  max ((if reached then size else size - 1) - 52) (-1074)

def nearest (numerator denominator : Nat) : ℚ :=
  let place := lastPlace numerator denominator
  let count := roundHalfEven (numerator * 2 ^ (-place).toNat) (denominator * 2 ^ place.toNat)
  (count * 2 ^ place.toNat : Nat) / (2 ^ (-place).toNat : Nat)

def ofDecimal (negative : Bool) (digits : Nat) (scale : Int) : Double :=
  let magnitude := nearest (digits * 10 ^ scale.toNat) (10 ^ (-scale).toNat)
  let value := if negative then -magnitude else magnitude
  if small : |value| < 2 ^ maxExponent then .finite ⟨value, small⟩ else .infinite negative

/-- `int` of a finite float drops the fraction. -/
def truncate (value : ℚ) : Int := if value < 0 then -⌊-value⌋ else ⌊value⌋

theorem natAbs_truncate_lt {value : ℚ} {bound : Nat} (small : |value| < bound) :
    (truncate value).natAbs < bound := by
  have floored {value : ℚ} (small : value < bound) (proper : 0 ≤ value) : ⌊value⌋.natAbs < bound := by
    have positive : 0 ≤ ⌊value⌋ := Int.floor_nonneg.mpr proper
    have below : ⌊value⌋ < (bound : Int) := Int.floor_lt.mpr (by exact_mod_cast small)
    omega
  obtain ⟨above, below⟩ := abs_lt.mp small
  rw [truncate]
  split
  next negative =>
    rw [Int.natAbs_neg]
    exact floored (by linarith) (by linarith)
  next proper => exact floored below (not_lt.mp proper)

theorem natAbs_truncate_lt_pow {value : ℚ} (exponent : Nat) (small : |value| < 2 ^ exponent) :
    (truncate value).natAbs < 2 ^ exponent := by
  apply natAbs_truncate_lt
  rw [Nat.cast_pow]
  exact small

end Double
