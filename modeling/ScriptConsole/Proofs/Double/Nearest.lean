import Mathlib
import ScriptConsole.Double

/-!
# Rounding to the nearest double

The quotients that round to a finite double other than zero form an interval around it:
`Owns` describes it in quarters of the double's last place, with the shorter half below
the first double of a binade. That `Double.nearestMagnitude` rounds like that is shown
over the rational numbers, where powers of two may have any exponent.
-/

namespace ScriptConsole.Double

/-- A power with an exponent of either sign is a quotient of whole powers. -/
theorem zpow_eq_div (base : ℚ) (place : ℤ) :
    base ^ place = base ^ place.toNat / base ^ (-place).toNat := by
  rcases le_total 0 place with up | down
  · have none : (-place).toNat = 0 := by omega
    rw [none, pow_zero, div_one, ← zpow_natCast, Int.toNat_of_nonneg up]
  · have none : place.toNat = 0 := by omega
    rw [none, pow_zero, one_div, ← zpow_natCast, Int.toNat_of_nonneg (by omega), zpow_neg,
      inv_inv]

/-- Scaling a quotient by a power of two, with whole numbers only. -/
theorem div_scaled (numerator denominator : ℕ) (place : ℤ) :
    ((numerator * Nat.pow 2 (-place).toNat : ℕ) : ℚ) / (denominator * Nat.pow 2 place.toNat : ℕ) =
      numerator / denominator / 2 ^ place := by
  rw [zpow_eq_div 2 place]
  push_cast [Nat.pow_eq]
  field_simp

/-! ## Whole numbers -/

/-- The whole number that a quotient is at most a half away from is the one it rounds to,
at exactly a half if it is even. -/
theorem roundHalfEven_eq {numerator denominator whole : ℕ} (positive : 0 < denominator)
    (low : 2 * whole * denominator ≤ 2 * numerator + denominator)
    (high : 2 * numerator ≤ 2 * whole * denominator + denominator)
    (tie : whole % 2 = 1 -> 2 * whole * denominator < 2 * numerator + denominator ∧
      2 * numerator < 2 * whole * denominator + denominator) :
    roundHalfEven numerator denominator = whole := by
  have split := Nat.div_add_mod numerator denominator
  have small := Nat.mod_lt numerator positive
  unfold roundHalfEven
  simp only
  generalize numerator / denominator = quotient at *
  generalize numerator % denominator = rest at *
  subst split
  have noLess : quotient ≤ whole := by
    by_contra less
    have := Nat.mul_le_mul_right denominator (show whole + 1 ≤ quotient by omega)
    nlinarith
  have noMore : whole ≤ quotient + 1 := by
    by_contra more
    have := Nat.mul_le_mul_right denominator (show quotient + 2 ≤ whole by omega)
    nlinarith
  obtain rfl | rfl : whole = quotient ∨ whole = quotient + 1 := by omega
  · have below : 2 * rest ≤ denominator := by nlinarith
    have odd : whole % 2 = 1 -> 2 * rest < denominator := by
      intro isOdd
      have := (tie isOdd).2
      nlinarith
    split_ifs <;> omega
  · have above : denominator ≤ 2 * rest := by nlinarith
    have odd : (quotient + 1) % 2 = 1 -> denominator < 2 * rest := by
      intro isOdd
      have := (tie isOdd).1
      nlinarith
    split_ifs <;> omega

/-- The same in terms of the quotient itself. -/
theorem roundHalfEven_of_near {numerator denominator whole : ℕ} (positive : 0 < denominator)
    (low : (whole : ℚ) - 1 / 2 ≤ numerator / denominator)
    (high : (numerator : ℚ) / denominator ≤ whole + 1 / 2)
    (tie : whole % 2 = 1 -> (whole : ℚ) - 1 / 2 < numerator / denominator ∧
      (numerator : ℚ) / denominator < whole + 1 / 2) :
    roundHalfEven numerator denominator = whole := by
  have positive' : (0 : ℚ) < denominator := by exact_mod_cast positive
  rw [le_div_iff₀ positive'] at low
  rw [div_le_iff₀ positive'] at high
  refine roundHalfEven_eq positive ?_ ?_ fun odd => ?_
  · have : (2 * whole * denominator : ℚ) ≤ 2 * numerator + denominator := by linarith
    exact_mod_cast this
  · have : (2 * numerator : ℚ) ≤ 2 * whole * denominator + denominator := by linarith
    exact_mod_cast this
  · obtain ⟨above, below⟩ := tie odd
    rw [lt_div_iff₀ positive'] at above
    rw [div_lt_iff₀ positive'] at below
    constructor
    · have : (2 * whole * denominator : ℚ) < 2 * numerator + denominator := by linarith
      exact_mod_cast this
    · have : (2 * numerator : ℚ) < 2 * whole * denominator + denominator := by linarith
      exact_mod_cast this

/-! ## Powers of two -/

/-- A quotient is below a power of two, with whole numbers only. -/
theorem mul_pow_lt_mul_pow_iff {numerator denominator : ℕ} (positive : 0 < denominator)
    (place : ℤ) :
    numerator * Nat.pow 2 (-place).toNat < denominator * Nat.pow 2 place.toNat ↔
      (numerator : ℚ) / denominator < 2 ^ place := by
  have positive' : (0 : ℚ) < denominator := by exact_mod_cast positive
  have down : (0 : ℚ) < 2 ^ (-place).toNat := by positivity
  rw [zpow_eq_div 2 place, div_lt_div_iff₀ positive' down, Nat.pow_eq, Nat.pow_eq,
    mul_comm _ (denominator : ℚ)]
  exact_mod_cast Iff.rfl

/-- `floorLog2` brackets a positive quotient by powers of two. -/
theorem floorLog2_spec {numerator denominator : ℕ} (above : 0 < numerator)
    (positive : 0 < denominator) :
    (2 : ℚ) ^ floorLog2 numerator denominator ≤ numerator / denominator ∧
      (numerator : ℚ) / denominator < 2 ^ (floorLog2 numerator denominator + 1) := by
  have positive' : (0 : ℚ) < denominator := by exact_mod_cast positive
  have twoNe : (2 : ℚ) ≠ 0 := two_ne_zero
  have topLow : (2 : ℚ) ^ numerator.log2 ≤ numerator := by
    exact_mod_cast Nat.log2_self_le (by omega)
  have topHigh : (numerator : ℚ) < 2 ^ (numerator.log2 + 1) := by
    exact_mod_cast Nat.lt_log2_self
  have bottomLow : (2 : ℚ) ^ denominator.log2 ≤ denominator := by
    exact_mod_cast Nat.log2_self_le (by omega)
  have bottomHigh : (denominator : ℚ) < 2 ^ (denominator.log2 + 1) := by
    exact_mod_cast Nat.lt_log2_self
  have notBelow : (2 : ℚ) ^ ((numerator.log2 : ℤ) - denominator.log2 - 1) ≤
      numerator / denominator := by
    rw [le_div_iff₀ positive']
    calc (2 : ℚ) ^ ((numerator.log2 : ℤ) - denominator.log2 - 1) * denominator
        ≤ 2 ^ ((numerator.log2 : ℤ) - denominator.log2 - 1) * 2 ^ (denominator.log2 + 1) := by
          gcongr
      _ = 2 ^ numerator.log2 := by
          rw [← zpow_natCast, ← zpow_natCast, ← zpow_add₀ twoNe]
          congr 1
          push_cast
          ring
      _ ≤ numerator := topLow
  have notAbove : (numerator : ℚ) / denominator <
      2 ^ ((numerator.log2 : ℤ) - denominator.log2 + 1) := by
    rw [div_lt_iff₀ positive']
    calc (numerator : ℚ) < 2 ^ (numerator.log2 + 1) := topHigh
      _ = 2 ^ ((numerator.log2 : ℤ) - denominator.log2 + 1) * 2 ^ denominator.log2 := by
          rw [← zpow_natCast, ← zpow_natCast, ← zpow_add₀ twoNe]
          congr 1
          push_cast
          ring
      _ ≤ 2 ^ ((numerator.log2 : ℤ) - denominator.log2 + 1) * denominator := by gcongr
  unfold floorLog2
  simp only [mul_pow_lt_mul_pow_iff positive]
  split_ifs with smaller
  · exact ⟨notBelow, by simpa using smaller⟩
  · exact ⟨not_lt.1 smaller, notAbove⟩

theorem floorLog2_eq {numerator denominator : ℕ} {exponent : ℤ} (above : 0 < numerator)
    (positive : 0 < denominator) (low : (2 : ℚ) ^ exponent ≤ numerator / denominator)
    (high : (numerator : ℚ) / denominator < 2 ^ (exponent + 1)) :
    floorLog2 numerator denominator = exponent := by
  obtain ⟨atLeast, below⟩ := floorLog2_spec above positive
  have two : (1 : ℚ) < 2 := by norm_num
  have first := (zpow_lt_zpow_iff_right₀ two).1 (atLeast.trans_lt high)
  have second := (zpow_lt_zpow_iff_right₀ two).1 (low.trans_lt below)
  omega

/-! ## The parts of a double -/

section Parts

variable (number : Double)

theorem fractionField_lt : number.fractionField < hiddenBit :=
  Nat.mod_lt _ (by decide)

/-- The fields make up the magnitude. -/
theorem magnitudeBits_eq_fields :
    number.magnitudeBits = number.exponentField * hiddenBit + number.fractionField := by
  simp only [exponentField, fractionField, magnitudeBits, hiddenBit, signBit]
  omega

/-- The magnitude counts the doubles: a binade starts with every power of two, and the
significand says how far it is from there. -/
theorem magnitudeBits_eq :
    number.magnitudeBits = (number.scale + 1074).toNat * hiddenBit + number.significand := by
  rw [magnitudeBits_eq_fields]
  unfold significand scale
  split_ifs with subnormal
  · simp [subnormal]
  · have places : (((max number.exponentField 1 : ℕ) : ℤ) - 1075 + 1074).toNat =
        number.exponentField - 1 := by omega
    have carried : number.exponentField * hiddenBit =
        (number.exponentField - 1) * hiddenBit + hiddenBit := by
      rw [← Nat.succ_mul]
      congr 1
      omega
    rw [places]
    omega

theorem significand_lt : number.significand < 2 * hiddenBit := by
  have small := number.fractionField_lt
  unfold significand
  split_ifs <;> omega

theorem scale_ge : -1074 ≤ number.scale := by
  unfold scale
  omega

variable {number}

theorem scale_le (finite : number.isFinite = true) : number.scale ≤ 971 := by
  simp only [isFinite, decide_eq_true_eq] at finite
  simp only [infinityBits, hiddenBit] at finite
  simp only [scale, exponentField, hiddenBit]
  omega

/-- Above the smallest scale the hidden bit is set. -/
theorem hiddenBit_le_significand (normal : -1074 < number.scale) :
    hiddenBit ≤ number.significand := by
  unfold scale at normal
  unfold significand
  split_ifs <;> omega

theorem startsBinade_iff :
    number.startsBinade = true ↔ number.significand = hiddenBit ∧ -1074 < number.scale := by
  have small := number.fractionField_lt
  simp only [startsBinade, Bool.and_eq_true, decide_eq_true_eq, scale]
  unfold significand
  split_ifs <;> omega

theorem significand_eq_zero_iff : number.significand = 0 ↔ number.isZero = true := by
  have same := number.magnitudeBits_eq
  have positive : 0 < hiddenBit := by decide
  simp only [isZero, decide_eq_true_eq]
  constructor
  · intro nothing
    have lowest : number.scale = -1074 := by
      by_contra higher
      have := number.scale_ge
      have := hiddenBit_le_significand (show -1074 < number.scale by omega)
      omega
    rw [same, nothing, lowest]
    rfl
  · omega

theorem significand_pos (nonzero : ¬number.isZero = true) : 0 < number.significand :=
  Nat.pos_of_ne_zero fun none => nonzero (significand_eq_zero_iff.1 none)

theorem isNaN_eq_false (finite : number.isFinite = true) : number.isNaN = false := by
  simp only [isFinite, isNaN, decide_eq_true_eq, decide_eq_false_iff_not] at finite ⊢
  omega

theorem isInfinite_eq_false (finite : number.isFinite = true) : number.isInfinite = false := by
  simp only [isFinite, isInfinite, decide_eq_true_eq, decide_eq_false_iff_not] at finite ⊢
  omega

/-- A finite double is its magnitude with its sign. -/
theorem ofMagnitude_magnitudeBits (finite : number.isFinite = true) :
    ofMagnitude number.isNegative number.magnitudeBits = number := by
  obtain ⟨bits, small⟩ := number
  simp only [isFinite, decide_eq_true_eq] at finite
  simp only [magnitudeBits] at finite
  simp only [ofMagnitude, isNegative, magnitudeBits, Double.mk.injEq, decide_eq_true_eq]
  rw [Nat.min_eq_left (Nat.le_of_lt finite)]
  split_ifs with negative
  · simp only [signBit] at negative ⊢
    omega
  · simp only [signBit] at negative ⊢
    omega

end Parts

/-! ## Rounding intervals -/

/-- The lower end of the rounding interval, in quarters of the last place: halfway to the
next smaller double, which below a power of two is only half as far away. -/
def lowerEnd (number : Double) : ℕ :=
  4 * number.significand - if number.startsBinade then 1 else 2

/-- The upper end of the rounding interval, in quarters of the last place. -/
def upperEnd (number : Double) : ℕ :=
  4 * number.significand + 2

/-- A quarter of the last place. -/
def quarter (number : Double) : ℚ :=
  2 ^ (number.scale - 2)

/-- The quotient is in the rounding interval of the double's magnitude. Only an even
significand has its ends. -/
structure Owns (number : Double) (quotient : ℚ) : Prop where
  atLeast : number.lowerEnd * number.quarter ≤ quotient
  atMost : quotient ≤ number.upperEnd * number.quarter
  within : number.significand % 2 = 1 ->
    number.lowerEnd * number.quarter < quotient ∧ quotient < number.upperEnd * number.quarter

section Rounding

variable {number : Double} {numerator denominator : ℕ}

theorem quarter_pos (number : Double) : 0 < number.quarter :=
  zpow_pos two_pos _

theorem quarter_eq (number : Double) : number.quarter = 2 ^ number.scale / 4 := by
  rw [quarter, zpow_sub₀ two_ne_zero]
  norm_num

theorem upperEnd_eq (number : Double) : (number.upperEnd : ℚ) = 4 * number.significand + 2 := by
  simp [upperEnd]

/-- Below the first double of a binade the interval is shorter. -/
theorem lowerEnd_of_startsBinade (starts : number.startsBinade = true) :
    (number.lowerEnd : ℚ) = 4 * number.significand - 1 := by
  have whole := (startsBinade_iff.1 starts).1
  rw [lowerEnd, if_pos starts, Nat.cast_sub (by simp only [whole, hiddenBit]; omega)]
  push_cast
  ring

theorem lowerEnd_of_not_startsBinade (inside : number.startsBinade = false)
    (positive : 0 < number.significand) :
    (number.lowerEnd : ℚ) = 4 * number.significand - 2 := by
  rw [lowerEnd, inside, if_neg Bool.false_ne_true, Nat.cast_sub (by omega)]
  push_cast
  ring

theorem le_lowerEnd (positive : 0 < number.significand) :
    (4 : ℚ) * number.significand - 2 ≤ number.lowerEnd := by
  cases starts : number.startsBinade with
  | true =>
    rw [lowerEnd_of_startsBinade starts]
    linarith
  | false => rw [lowerEnd_of_not_startsBinade starts positive]

/-- The double itself is between the ends. -/
theorem lowerEnd_lt (positive : 0 < number.significand) :
    number.lowerEnd < 4 * number.significand := by
  unfold lowerEnd
  split_ifs <;> omega

theorem lt_upperEnd (number : Double) : 4 * number.significand < number.upperEnd := by
  unfold upperEnd
  omega

/-- What rounds to a double other than zero is not zero. -/
theorem Owns.pos {quotient : ℚ} (owns : number.Owns quotient)
    (positive : 0 < number.significand) : 0 < quotient := by
  have atLeast := le_lowerEnd positive
  have one : (1 : ℚ) ≤ number.significand := by exact_mod_cast positive
  have : 0 < (number.lowerEnd : ℚ) * number.quarter :=
    mul_pos (by linarith) number.quarter_pos
  exact this.trans_le owns.atLeast

/-- Below a power of two the quotient is counted in places of the binade below, and rounds
up to the power. -/
theorem nearestMagnitude_below_binade (starts : number.startsBinade = true)
    (above : 0 < numerator) (positive : 0 < denominator)
    (owns : number.Owns (numerator / denominator))
    (below : (numerator : ℚ) / denominator < number.significand * 2 ^ number.scale) :
    nearestMagnitude numerator denominator = number.magnitudeBits := by
  obtain ⟨whole, normal⟩ := startsBinade_iff.1 starts
  have unit : (0 : ℚ) < 2 ^ number.scale := zpow_pos two_pos _
  have low := owns.atLeast
  rw [lowerEnd_of_startsBinade starts, quarter_eq, whole] at low
  rw [whole] at below
  have bit : (hiddenBit : ℚ) = 2 ^ 52 := by norm_num [hiddenBit]
  rw [bit] at low below
  have exponent : floorLog2 numerator denominator = number.scale + 51 := by
    refine floorLog2_eq above positive ?_ ?_
    · rw [zpow_add₀ two_ne_zero]
      norm_num
      linarith
    · rw [show number.scale + 51 + 1 = number.scale + 52 by ring, zpow_add₀ two_ne_zero]
      norm_num
      linarith
  have place : max (floorLog2 numerator denominator - 52) (-1074) = number.scale - 1 := by
    omega
  have half : (2 : ℚ) ^ (number.scale - 1) = 2 ^ number.scale / 2 := by
    rw [zpow_sub₀ two_ne_zero]
    norm_num
  have rounds : roundHalfEven (numerator * Nat.pow 2 (-(number.scale - 1)).toNat)
      (denominator * Nat.pow 2 (number.scale - 1).toNat) = 2 * hiddenBit := by
    refine roundHalfEven_of_near (Nat.mul_pos positive (Nat.pow_pos two_pos)) ?_ ?_ ?_
    · rw [div_scaled, half, le_div_iff₀ (by positivity)]
      push_cast
      rw [bit]
      linarith
    · rw [div_scaled, half, div_le_iff₀ (by positivity)]
      push_cast
      rw [bit]
      linarith
    · intro odd
      simp only [hiddenBit] at odd
      omega
  unfold nearestMagnitude
  simp only
  rw [if_neg (by omega), place, rounds, magnitudeBits_eq, whole]
  have : (number.scale + 1074).toNat = (number.scale - 1 + 1074).toNat + 1 := by omega
  rw [this, Nat.succ_mul]
  ring

/-- What a double owns is at most half a last place away from it. -/
theorem Owns.near {quotient : ℚ} (owns : number.Owns quotient)
    (nonzero : 0 < number.significand) :
    (number.significand : ℚ) - 1 / 2 ≤ quotient / 2 ^ number.scale ∧
      quotient / 2 ^ number.scale ≤ number.significand + 1 / 2 ∧
      (number.significand % 2 = 1 ->
        (number.significand : ℚ) - 1 / 2 < quotient / 2 ^ number.scale ∧
          quotient / 2 ^ number.scale < number.significand + 1 / 2) := by
  have unit : (0 : ℚ) < 2 ^ number.scale := zpow_pos two_pos _
  obtain ⟨atLeast, atMost, within⟩ := owns
  rw [quarter_eq, upperEnd_eq] at atMost within
  rw [quarter_eq] at atLeast
  have ends := mul_le_mul_of_nonneg_right (le_lowerEnd nonzero) unit.le
  refine ⟨?_, ?_, fun odd => ?_⟩
  · rw [le_div_iff₀ unit]
    linarith
  · rw [div_le_iff₀ unit]
    linarith
  · obtain ⟨more, less⟩ := within odd
    rw [lt_div_iff₀ unit, div_lt_iff₀ unit]
    exact ⟨by linarith, by linarith⟩

/-- Above a power of two the quotient is counted in the double's own last places. -/
theorem place_inside (above : 0 < numerator) (positive : 0 < denominator)
    (nonzero : 0 < number.significand) (owns : number.Owns (numerator / denominator))
    (inside : number.startsBinade = true ->
      (number.significand : ℚ) * 2 ^ number.scale ≤ numerator / denominator) :
    max (floorLog2 numerator denominator - 52) (-1074) = number.scale := by
  have unit : (0 : ℚ) < 2 ^ number.scale := zpow_pos two_pos _
  obtain ⟨low, high, -⟩ := owns.near nonzero
  rw [le_div_iff₀ unit] at low
  rw [div_le_iff₀ unit] at high
  have small : (number.significand : ℚ) + 1 ≤ 2 ^ 53 := by
    have := number.significand_lt
    simp only [hiddenBit] at this
    exact_mod_cast (show number.significand + 1 ≤ 2 ^ 53 by omega)
  have top : (numerator : ℚ) / denominator < 2 ^ (number.scale + 53) := by
    rw [zpow_add₀ two_ne_zero]
    norm_num at small ⊢
    nlinarith
  obtain ⟨atLeast, -⟩ := floorLog2_spec above positive
  have notAbove := (zpow_lt_zpow_iff_right₀ (by norm_num : (1 : ℚ) < 2)).1 (atLeast.trans_lt top)
  have lowest := number.scale_ge
  by_cases normal : -1074 < number.scale
  · have bottom : (2 : ℚ) ^ (number.scale + 52) ≤ numerator / denominator := by
      have bit := hiddenBit_le_significand normal
      rw [zpow_add₀ two_ne_zero]
      rcases Nat.eq_or_lt_of_le bit with same | more
      · have starts := startsBinade_iff.2 ⟨same.symm, normal⟩
        have := inside starts
        rw [← same] at this
        norm_num [hiddenBit] at this ⊢
        linarith
      · have : (hiddenBit : ℚ) + 1 ≤ number.significand := by exact_mod_cast more
        have := mul_le_mul_of_nonneg_right this unit.le
        norm_num [hiddenBit] at this ⊢
        linarith
    have exponent : floorLog2 numerator denominator = number.scale + 52 :=
      floorLog2_eq above positive bottom (by rwa [add_assoc])
    omega
  · omega

theorem nearestMagnitude_inside (nonzero : 0 < number.significand) (above : 0 < numerator)
    (positive : 0 < denominator) (owns : number.Owns (numerator / denominator))
    (inside : number.startsBinade = true ->
      (number.significand : ℚ) * 2 ^ number.scale ≤ numerator / denominator) :
    nearestMagnitude numerator denominator = number.magnitudeBits := by
  obtain ⟨low, high, tie⟩ := owns.near nonzero
  have rounds : roundHalfEven (numerator * Nat.pow 2 (-number.scale).toNat)
      (denominator * Nat.pow 2 number.scale.toNat) = number.significand := by
    refine roundHalfEven_of_near (Nat.mul_pos positive (Nat.pow_pos two_pos)) ?_ ?_ ?_
    · rwa [div_scaled]
    · rwa [div_scaled]
    · rwa [div_scaled]
  unfold nearestMagnitude
  simp only
  rw [if_neg (by omega), place_inside above positive nonzero owns inside, rounds,
    magnitudeBits_eq]

/-- Whatever is in the rounding interval of a double other than zero rounds to it. -/
theorem nearestMagnitude_of_owns (nonzero : 0 < number.significand) (positive : 0 < denominator)
    (owns : number.Owns (numerator / denominator)) :
    nearestMagnitude numerator denominator = number.magnitudeBits := by
  have above : 0 < numerator := by
    rcases Nat.eq_zero_or_pos numerator with rfl | above
    · have := owns.pos nonzero
      simp at this
    · exact above
  by_cases below : number.startsBinade = true ∧
      (numerator : ℚ) / denominator < number.significand * 2 ^ number.scale
  · exact nearestMagnitude_below_binade below.1 above positive owns below.2
  · refine nearestMagnitude_inside nonzero above positive owns fun starts => ?_
    exact not_lt.1 fun less => below ⟨starts, less⟩

end Rounding

end ScriptConsole.Double
