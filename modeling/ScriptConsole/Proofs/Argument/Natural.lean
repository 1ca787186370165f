import ScriptConsole.HostValue
import ScriptConsole.Proofs.Argument.FloatText

/-!
# Whole numbers of 64 bits in messages

A number of a 64-bit type without sign is an integer up to `2 ^ 63` and a double from there on.
The doubles between `2 ^ 63` and `2 ^ 64` are the multiples of 2048, all of them below the limit
up to which whole numbers are shown exactly, so the text of a large number is that of the nearest
multiple.
-/

namespace ScriptConsole

/-! ## Multiples of a step -/

/-- No multiple of the step is nearer to the number, and of two that are equally near this is
the one that is an even number of steps. -/
structure IsNearestMultiple (step number multiple : ℕ) : Prop where
  divides : step ∣ multiple
  nearest : ∀ other : ℕ, step ∣ other -> |(multiple : ℤ) - number| ≤ |(other : ℤ) - number|
  tie : ∀ other : ℕ, step ∣ other -> other ≠ multiple ->
    |(multiple : ℤ) - number| = |(other : ℤ) - number| -> 2 * step ∣ multiple

namespace Double

/-- The rounded quotient is at most a half away, and at exactly a half it is even. -/
theorem roundHalfEven_near (numerator : ℕ) {denominator : ℕ} (positive : 0 < denominator) :
    2 * (roundHalfEven numerator denominator * denominator) ≤ 2 * numerator + denominator ∧
      2 * numerator ≤ 2 * (roundHalfEven numerator denominator * denominator) + denominator ∧
      (2 * (roundHalfEven numerator denominator * denominator) = 2 * numerator + denominator ∨
        2 * numerator = 2 * (roundHalfEven numerator denominator * denominator) + denominator ->
        roundHalfEven numerator denominator % 2 = 0) := by
  have split := Nat.div_add_mod' numerator denominator
  have small := Nat.mod_lt numerator positive
  have next : ∀ quotient, (quotient + 1) * denominator = quotient * denominator + denominator :=
    fun quotient => Nat.succ_mul quotient denominator
  unfold roundHalfEven
  simp only
  split_ifs with below above
  · omega
  · rw [next]
    omega
  · rcases Nat.mod_two_eq_zero_or_one (numerator / denominator) with even | odd
    · rw [even, add_zero]
      omega
    · rw [odd, next]
      omega

theorem roundHalfEven_mono {less more denominator : ℕ} (positive : 0 < denominator)
    (atMost : less ≤ more) : roundHalfEven less denominator ≤ roundHalfEven more denominator := by
  obtain ⟨low, -, -⟩ := roundHalfEven_near less positive
  obtain ⟨-, high, -⟩ := roundHalfEven_near more positive
  by_contra! greater
  have apart := Nat.mul_le_mul_right denominator (Nat.succ_le_of_lt greater)
  rw [Nat.succ_mul] at apart
  have same : less = more := by omega
  exact absurd greater (same ▸ lt_irrefl _)

theorem roundHalfEven_mul {whole denominator : ℕ} (positive : 0 < denominator) :
    roundHalfEven (whole * denominator) denominator = whole :=
  roundHalfEven_eq positive (by rw [mul_assoc]; omega) (by rw [mul_assoc]; omega) fun _ => by
    rw [mul_assoc]
    omega

/-- What a quotient rounds to is a number of steps away from every other multiple. -/
theorem isNearestMultiple_roundHalfEven {step : ℕ} (positive : 0 < step) (number : ℕ) :
    IsNearestMultiple step number (roundHalfEven number step * step) := by
  obtain ⟨low, high, tie⟩ := roundHalfEven_near number positive
  generalize roundHalfEven number step = rounded at *
  have apart : ∀ index : ℕ, index ≠ rounded ->
      index * step + step ≤ rounded * step ∨ rounded * step + step ≤ index * step := by
    intro index differs
    rw [← Nat.succ_mul, ← Nat.succ_mul]
    rcases Nat.lt_or_gt_of_ne differs with less | more
    · exact .inl (Nat.mul_le_mul_right step less)
    · exact .inr (Nat.mul_le_mul_right step more)
  refine ⟨Dvd.intro_left rounded rfl, ?_, ?_⟩
  · rintro _ ⟨index, rfl⟩
    rw [mul_comm step index]
    by_cases same : index = rounded
    · rw [same]
    · have far := apart index same
      generalize index * step = other at *
      generalize rounded * step = multiple at *
      rcases abs_cases ((multiple : ℤ) - number) with near | near <;>
        rcases abs_cases ((other : ℤ) - number) with away | away <;> omega
  · rintro _ ⟨index, rfl⟩ differs equally
    rw [mul_comm step index] at differs equally
    have far := apart index fun same => differs (by rw [same])
    have even : rounded % 2 = 0 := by
      refine tie ?_
      generalize index * step = other at *
      generalize rounded * step = multiple at *
      rcases abs_cases ((multiple : ℤ) - number) with near | near <;>
        rcases abs_cases ((other : ℤ) - number) with away | away <;> omega
    exact Nat.mul_dvd_mul_right (Nat.dvd_of_mod_eq_zero even) step

/-! ## The double of a large number -/

/-- The numbers of a binade, its end included, are the multiples of its last place. -/
theorem magnitude_ofMagnitude (negative : Bool) {place significand : ℕ}
    (normal : hiddenBit ≤ significand) (inside : significand ≤ 2 * hiddenBit)
    (small : place * hiddenBit + significand ≤ infinityBits) :
    (ofMagnitude negative (place * hiddenBit + significand)).magnitude =
      significand * 2 ^ ((place : ℤ) - 1074) := by
  have bits := magnitudeBits_ofMagnitude negative small
  rcases Nat.lt_or_eq_of_le inside with less | full
  · obtain ⟨scale, same⟩ := parts_eq bits less (.inr normal)
    rw [magnitude, scale, same]
  · -- the end of the binade is the start of the next one
    have carried : place * hiddenBit + significand = (place + 1) * hiddenBit + hiddenBit := by
      rw [full]
      ring
    obtain ⟨scale, same⟩ := parts_eq (bits.trans carried) (by decide) (.inr le_rfl)
    have up : (((place + 1 : ℕ) : ℤ) - 1074) = (place - 1074) + 1 := by
      push_cast
      ring
    rw [magnitude, scale, same, full, up, zpow_add₀ two_ne_zero]
    push_cast
    ring

section Large

variable {number : ℕ} (large : 2 ^ 63 ≤ number) (small : number < 2 ^ 64)
include large small

/-- A large number has a last place of 2048. -/
theorem nearestMagnitude_of_large :
    nearestMagnitude number 1 = 1085 * hiddenBit + roundHalfEven number 2048 := by
  have low : (2 : ℚ) ^ (63 : ℤ) ≤ (number : ℚ) / (1 : ℕ) := by
    rw [Nat.cast_one, div_one]
    exact_mod_cast large
  have high : (number : ℚ) / (1 : ℕ) < 2 ^ ((63 : ℤ) + 1) := by
    rw [Nat.cast_one, div_one]
    exact_mod_cast small
  have logarithm := floorLog2_eq (by omega) one_pos low high
  have place : max ((63 : ℤ) - 52) (-1074) = 11 := by decide
  have numerator : number * Nat.pow 2 (-11 : ℤ).toNat = number := Nat.mul_one number
  rw [nearestMagnitude, if_neg (by omega), logarithm]
  simp only [place, numerator]
  rfl

theorem roundHalfEven_of_large :
    hiddenBit ≤ roundHalfEven number 2048 ∧ roundHalfEven number 2048 ≤ 2 * hiddenBit := by
  have first : roundHalfEven (hiddenBit * 2048) 2048 = hiddenBit := roundHalfEven_mul (by decide)
  have last : roundHalfEven (2 * hiddenBit * 2048) 2048 = 2 * hiddenBit :=
    roundHalfEven_mul (by decide)
  constructor
  · rw [← first]
    refine roundHalfEven_mono (by decide) ?_
    simp only [hiddenBit]
    omega
  · rw [← last]
    refine roundHalfEven_mono (by decide) ?_
    simp only [hiddenBit]
    omega

theorem integer?_nearest_of_large :
    (nearest false number 1).integer? = some (roundHalfEven number 2048 * 2048) := by
  obtain ⟨normal, inside⟩ := roundHalfEven_of_large large small
  have finite : 1085 * hiddenBit + roundHalfEven number 2048 ≤ infinityBits := by
    simp only [infinityBits, hiddenBit] at *
    omega
  rw [integer?_eq_some_iff, nearest, nearestMagnitude_of_large large small,
    magnitude_ofMagnitude false normal inside finite]
  norm_num

/-- The double nearest to a large number is shown with all its digits. -/
theorem floatText_nearest_of_large :
    floatText (nearest false number 1) =
      Nat.toDigits 10 (roundHalfEven number 2048 * 2048) := by
  obtain ⟨normal, inside⟩ := roundHalfEven_of_large large small
  have below : 1085 * hiddenBit + roundHalfEven number 2048 < infinityBits := by
    simp only [infinityBits, hiddenBit] at *
    omega
  have finite : (nearest false number 1).isFinite = true := by
    rw [isFinite, nearest, nearestMagnitude_of_large large small,
      magnitudeBits_ofMagnitude false below.le]
    exact decide_eq_true below
  have positive : (nearest false number 1).isNegative = false := by
    rw [nearest, nearestMagnitude_of_large large small]
    exact isNegative_ofMagnitude false below.le
  have exact : roundHalfEven number 2048 * 2048 < exactLimit :=
    Nat.lt_of_le_of_lt (Nat.mul_le_mul_right 2048 inside) (by decide)
  have nonzero : 0 < roundHalfEven number 2048 * 2048 :=
    Nat.mul_pos (Nat.lt_of_lt_of_le (by decide) normal) (by decide)
  have text := integerText_signed false nonzero
  simp only [floatText, finite, integer?_nearest_of_large large small, if_true, if_pos exact,
    positive]
  exact text

end Large

end Double

/-! ## Texts -/

namespace Argument

/-- The number whose digits the text of a 64-bit natural number is. -/
def shownNatural (value : UInt64) : ℕ :=
  Nat.ofDigitChars 10 (ofNatural value).text.toList 0

variable {value : UInt64}

theorem toList_text_ofNatural_of_small (small : value.toNat < 2 ^ 63) :
    (ofNatural value).text.toList = Nat.toDigits 10 value.toNat := by
  have integer : (Int64.ofNat value.toNat).toInt = value.toNat := Int64.toInt_ofNat_of_lt small
  have positive : ¬(value.toNat : ℤ) < 0 := by omega
  rw [ofNatural, if_pos (show value.toNat < 0x8000000000000000 from small), text, integer,
    String.toList_ofList, Json.integerText, if_neg positive, Int.natAbs_natCast]

theorem toList_text_ofNatural_of_large (large : 2 ^ 63 ≤ value.toNat) :
    (ofNatural value).text.toList =
      Nat.toDigits 10 (Double.roundHalfEven value.toNat 2048 * 2048) := by
  rw [ofNatural, if_neg (show ¬value.toNat < 0x8000000000000000 from not_lt.2 large), text,
    String.toList_ofList]
  exact Double.floatText_nearest_of_large large value.toNat_lt

theorem shownNatural_of_small (small : value.toNat < 2 ^ 63) :
    shownNatural value = value.toNat := by
  rw [shownNatural, toList_text_ofNatural_of_small small, Nat.ofDigitChars_ten_toDigits]

theorem shownNatural_of_large (large : 2 ^ 63 ≤ value.toNat) :
    shownNatural value = Double.roundHalfEven value.toNat 2048 * 2048 := by
  rw [shownNatural, toList_text_ofNatural_of_large large, Nat.ofDigitChars_ten_toDigits]

/-- The text is the numeral of one number. -/
theorem text_ofNatural (value : UInt64) :
    (ofNatural value).text = toString (shownNatural value) := by
  rw [← String.toList_inj]
  rcases lt_or_ge value.toNat (2 ^ 63) with small | large
  · rw [toList_text_ofNatural_of_small small, shownNatural_of_small small]
    exact String.toList_ofList.symm
  · rw [toList_text_ofNatural_of_large large, shownNatural_of_large large]
    exact String.toList_ofList.symm

theorem text_integer (value : Int64) : (integer value).text = toString value.toInt := by
  rw [text, Json.integerText, ← String.toList_inj, String.toList_ofList]
  cases value.toInt with
  | ofNat size =>
    rw [if_neg (show ¬Int.ofNat size < 0 from not_lt.2 (Int.natCast_nonneg size))]
    exact String.toList_ofList.symm
  | negSucc size =>
    rw [if_pos (Int.negSucc_lt_zero size)]
    have sign : toString (Int.negSucc size) = "-" ++ toString (size + 1) := rfl
    rw [sign, String.toList_append]
    exact congrArg ('-' :: ·) String.toList_ofList.symm

/-- The rounded number lies in the range of the large numbers. -/
theorem le_shownNatural_of_large (large : 2 ^ 63 ≤ value.toNat) : 2 ^ 63 ≤ shownNatural value := by
  have normal := (Double.roundHalfEven_of_large large value.toNat_lt).1
  rw [shownNatural_of_large large]
  simp only [Double.hiddenBit] at normal
  omega

theorem shownNatural_mono {less more : UInt64} (atMost : less ≤ more) :
    shownNatural less ≤ shownNatural more := by
  have values := UInt64.le_iff_toNat_le.1 atMost
  rcases lt_or_ge more.toNat (2 ^ 63) with small | large
  · rw [shownNatural_of_small small, shownNatural_of_small (by omega)]
    exact values
  · rcases lt_or_ge less.toNat (2 ^ 63) with small | alsoLarge
    · have := le_shownNatural_of_large large
      rw [shownNatural_of_small small]
      omega
    · rw [shownNatural_of_large large, shownNatural_of_large alsoLarge]
      exact Nat.mul_le_mul_right 2048 (Double.roundHalfEven_mono (by decide) values)

theorem abs_shownNatural_sub_le (value : UInt64) :
    |(shownNatural value : ℤ) - value.toNat| ≤ 1024 := by
  rcases lt_or_ge value.toNat (2 ^ 63) with small | large
  · rw [shownNatural_of_small small, sub_self, abs_zero]
    decide
  · obtain ⟨low, high, -⟩ := Double.roundHalfEven_near value.toNat (show 0 < 2048 by decide)
    rw [shownNatural_of_large large, abs_le]
    omega

theorem shownNatural_of_dvd (multiple : 2048 ∣ value.toNat) :
    shownNatural value = value.toNat := by
  rcases lt_or_ge value.toNat (2 ^ 63) with small | large
  · exact shownNatural_of_small small
  · obtain ⟨steps, same⟩ := multiple
    rw [shownNatural_of_large large, same, mul_comm 2048 steps,
      Double.roundHalfEven_mul (by decide)]

/-- A number of a 64-bit type without sign is shown as one decimal numeral, without a fraction
or an exponent: its own below `2 ^ 63`, and from there on that of the nearest multiple of 2048,
which of two is the even one. So what is shown is at most 1024 away, is the number itself for all
multiples of 2048, and never decreases as the number grows. A number of a signed 64-bit type is
shown as it is. -/
theorem wide_integers_show_nearest :
    (∀ value : UInt64,
      (HostValue.natural value).toArgument.map text = .ok (toString (shownNatural value)) ∧
        (∀ letter ∈ (toString (shownNatural value)).toList, letter.isDigit = true) ∧
        (value.toNat < 2 ^ 63 -> shownNatural value = value.toNat) ∧
        (2 ^ 63 ≤ value.toNat -> IsNearestMultiple 2048 value.toNat (shownNatural value)) ∧
        |(shownNatural value : ℤ) - value.toNat| ≤ 1024 ∧
        (2048 ∣ value.toNat -> shownNatural value = value.toNat)) ∧
      (∀ less more : UInt64, less ≤ more -> shownNatural less ≤ shownNatural more) ∧
      ∀ value : Int64,
        (HostValue.integer value).toArgument.map text = .ok (toString value.toInt) := by
  refine ⟨fun value => ⟨?_, ?_, shownNatural_of_small, fun large => ?_,
    abs_shownNatural_sub_le value, shownNatural_of_dvd⟩, fun _ _ => shownNatural_mono, ?_⟩
  · exact congrArg Except.ok (text_ofNatural value)
  · intro letter member
    have digits : (toString (shownNatural value)).toList = Nat.toDigits 10 (shownNatural value) :=
      String.toList_ofList
    rw [digits] at member
    exact Nat.isDigit_of_mem_toDigits (by decide) (by decide) member
  · rw [shownNatural_of_large large]
    exact Double.isNearestMultiple_roundHalfEven (by decide) value.toNat
  · exact fun value => congrArg Except.ok (text_integer value)

/-- Two ties that go down and up, the carry at the upper end, and the last number before the
first multiple. -/
theorem wide_integers_show_nearest_at_ties :
    (HostValue.natural 0x8000000000000400).toArgument.map text = .ok "9223372036854775808" ∧
      IsNearestMultiple 2048 0x8000000000000400 0x8000000000000000 ∧
      IsNearestMultiple 2048 0x8000000000000c00 0x8000000000001000 ∧
      IsNearestMultiple 2048 0xffffffffffffffff 0x10000000000000000 ∧
      shownNatural 0x7fffffffffffffff = 0x7fffffffffffffff ∧
      shownNatural 0x8000000000000800 = 0x8000000000000800 ∧
      shownNatural 0x7fffffffffffffff ≤ shownNatural 0x8000000000000000 := by
  obtain ⟨each, mono, -⟩ := wide_integers_show_nearest
  have down : shownNatural 0x8000000000000400 = 0x8000000000000000 :=
    (shownNatural_of_large (by decide)).trans (by decide)
  have up : shownNatural 0x8000000000000c00 = 0x8000000000001000 :=
    (shownNatural_of_large (by decide)).trans (by decide)
  have carry : shownNatural 0xffffffffffffffff = 0x10000000000000000 :=
    (shownNatural_of_large (by decide)).trans (by decide)
  obtain ⟨message, -, -, tieDown, -, -⟩ := each 0x8000000000000400
  obtain ⟨-, -, -, tieUp, -, -⟩ := each 0x8000000000000c00
  obtain ⟨-, -, -, end64, -, -⟩ := each 0xffffffffffffffff
  obtain ⟨-, -, below, -, -, -⟩ := each 0x7fffffffffffffff
  obtain ⟨-, -, -, -, -, multiple⟩ := each 0x8000000000000800
  refine ⟨message.trans (by rw [down]; rfl), down ▸ tieDown (by decide), up ▸ tieUp (by decide),
    carry ▸ end64 (by decide), below (by decide), multiple (by decide), mono _ _ (by decide)⟩

end Argument

end ScriptConsole
