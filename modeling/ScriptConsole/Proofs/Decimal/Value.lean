import ScriptConsole.Decimal.Basic
import ScriptConsole.Proofs.Double.Nearest

/-!
# The value of a decimal

Which double a decimal rounds to depends on its value alone, however it is written: a
decimal in the rounding interval of a double gives that double. In particular the early
answers of `Decimal.toDouble` are never given to such a decimal.
-/

namespace ScriptConsole

open Double

/-- The number that a decimal denotes. -/
def Decimal.value (number : Decimal) : ℚ :=
  number.coefficient * 10 ^ number.exponent

namespace Decimal

variable {number : Double} {decimal : Decimal}

/-- The value as a quotient of whole numbers. -/
theorem value_eq_div (decimal : Decimal) :
    decimal.value = (decimal.coefficient * Nat.pow 10 decimal.exponent.toNat : ℕ) /
      (Nat.pow 10 (-decimal.exponent).toNat : ℕ) := by
  rw [value, zpow_eq_div 10]
  push_cast [Nat.pow_eq]
  rw [mul_div_assoc]

theorem ten_pow_pos {exponent : ℕ} : 0 < Nat.pow 10 exponent :=
  Nat.pow_pos (by norm_num)

/-- The coefficient has no more digits than it shows. -/
theorem coefficient_lt (decimal : Decimal) :
    decimal.coefficient < 10 ^ decimal.digits.length :=
  (Nat.length_toDigits_le_iff (by norm_num) Nat.length_toDigits_pos).1 le_rfl

/-- A decimal is below the power of ten after its leading digit. -/
theorem value_lt (decimal : Decimal) :
    decimal.value < 10 ^ ((decimal.digits.length : ℤ) + decimal.exponent) := by
  rw [zpow_add₀ (by norm_num), zpow_natCast, value]
  gcongr
  exact_mod_cast decimal.coefficient_lt

/-- What rounds to a double other than zero has digits. -/
theorem coefficient_pos_of_owns (nonzero : 0 < number.significand)
    (owns : number.Owns decimal.value) : 0 < decimal.coefficient := by
  have positive := owns.pos nonzero
  refine Nat.pos_of_ne_zero fun zero => ?_
  simp [value, zero] at positive

/-- The bounds of the finite doubles: `2 ^ 1024` above, and half of the smallest one
below. -/
theorem bounds_of_owns (finite : number.isFinite = true) (nonzero : 0 < number.significand)
    {quotient : ℚ} (owns : number.Owns quotient) :
    (2 : ℚ) ^ (-1075 : ℤ) ≤ quotient ∧ quotient < 2 ^ (1024 : ℤ) := by
  obtain ⟨low, high, -⟩ := owns.near nonzero
  have unit : (0 : ℚ) < 2 ^ number.scale := zpow_pos two_pos _
  rw [le_div_iff₀ unit] at low
  rw [div_le_iff₀ unit] at high
  constructor
  · have one : (1 : ℚ) ≤ number.significand := by exact_mod_cast nonzero
    have least : (2 : ℚ) ^ (-1074 : ℤ) ≤ 2 ^ number.scale :=
      zpow_le_zpow_right₀ one_le_two number.scale_ge
    have split : (2 : ℚ) ^ (-1075 : ℤ) = 1 / 2 * 2 ^ (-1074 : ℤ) := by
      rw [show (-1075 : ℤ) = -1 + -1074 by norm_num, zpow_add₀ two_ne_zero]
      norm_num
    rw [split]
    nlinarith
  · have small : (number.significand : ℚ) + 1 ≤ 2 ^ 53 := by
      have := number.significand_lt
      simp only [hiddenBit] at this
      exact_mod_cast (show number.significand + 1 ≤ 2 ^ 53 by omega)
    have most : (2 : ℚ) ^ number.scale ≤ 2 ^ (971 : ℤ) :=
      zpow_le_zpow_right₀ one_le_two (scale_le finite)
    have split : (2 : ℚ) ^ (1024 : ℤ) = 2 ^ 53 * 2 ^ (971 : ℤ) := by
      rw [show (1024 : ℤ) = (53 : ℕ) + 971 by norm_num, zpow_add₀ two_ne_zero, zpow_natCast]
    calc quotient ≤ (number.significand + 1 / 2) * 2 ^ number.scale := high
      _ < 2 ^ 53 * 2 ^ number.scale := by
          gcongr
          linarith
      _ ≤ 2 ^ 53 * 2 ^ (971 : ℤ) := by gcongr
      _ = 2 ^ (1024 : ℤ) := split.symm

theorem two_pow_le_ten_pow : (2 : ℚ) ^ (1024 : ℤ) ≤ 10 ^ (401 : ℤ) := by
  have : (2 : ℕ) ^ 1024 ≤ 10 ^ 401 := by decide +kernel
  exact_mod_cast this

theorem ten_pow_lt_two_pow : (10 : ℚ) ^ (-401 : ℤ) < 2 ^ (-1075 : ℤ) := by
  have : (2 : ℕ) ^ 1075 < 10 ^ 401 := by decide +kernel
  rw [zpow_neg, zpow_neg]
  refine inv_strictAnti₀ (zpow_pos two_pos _) ?_
  exact_mod_cast this

/-- A decimal in the rounding interval of a double is read as that double. -/
theorem toDouble_of_owns (finite : number.isFinite = true) (nonzero : 0 < number.significand)
    (owns : number.Owns decimal.value) : decimal.toDouble number.isNegative = number := by
  obtain ⟨low, high⟩ := bounds_of_owns finite nonzero owns
  have positive := coefficient_pos_of_owns nonzero owns
  have notLarge : ¬400 < decimal.exponent := by
    intro large
    have one : (1 : ℚ) ≤ decimal.coefficient := by exact_mod_cast positive
    have power : (10 : ℚ) ^ (401 : ℤ) ≤ 10 ^ decimal.exponent :=
      zpow_le_zpow_right₀ (by norm_num) large
    have : (10 : ℚ) ^ (401 : ℤ) ≤ decimal.value := by
      calc (10 : ℚ) ^ (401 : ℤ) ≤ 1 * 10 ^ decimal.exponent := by rwa [one_mul]
        _ ≤ decimal.value := by
            unfold value
            gcongr
    exact absurd high (not_lt.2 (two_pow_le_ten_pow.trans this))
  have notSmall : ¬decimal.exponent + decimal.digits.length < -400 := by
    intro small
    have power : (10 : ℚ) ^ (decimal.digits.length + decimal.exponent) ≤ 10 ^ (-401 : ℤ) :=
      zpow_le_zpow_right₀ (by norm_num) (by omega)
    have : decimal.value < 10 ^ (-401 : ℤ) := decimal.value_lt.trans_le power
    exact absurd (this.trans ten_pow_lt_two_pow) (not_lt.2 low)
  rw [toDouble, if_neg positive.ne', if_neg notLarge, if_neg notSmall, nearest,
    nearestMagnitude_of_owns nonzero ten_pow_pos (by rwa [← value_eq_div]),
    ofMagnitude_magnitudeBits finite]

end Decimal

end ScriptConsole
