import ScriptConsole.Argument
import ScriptConsole.Proofs.Decimal.Fewest
import ScriptConsole.Proofs.Decimal.Positional

/-!
# Doubles in messages are read back

The text of a finite double is a plain numeral, and the number it denotes rounds to the
double again. A whole number below the limit is shown exactly, any other number with the
fewest digits that tell it from all other doubles. The text therefore tells doubles apart
unless they are equal.
-/

namespace ScriptConsole

namespace Double

/-- The double has no fraction. -/
def IsWhole (number : Double) : Prop :=
  ∃ whole : ℤ, number.value = whole

variable {number left right : Double}

/-! ## Kinds and equality -/

theorem kinds (number : Double) :
    number.isNaN = true ∨ number.isInfinite = true ∨ number.isFinite = true := by
  simp only [isNaN, isInfinite, isFinite, decide_eq_true_eq]
  omega

theorem eq_of_bits (same : left.bits = right.bits) : left = right := by
  cases left
  cases right
  cases same
  rfl

theorem equals_iff : left.equals right = true ↔
    (left.isNaN = false ∧ right.isNaN = false) ∧
      (left = right ∨ left.isZero = true ∧ right.isZero = true) := by
  have same : left.bits = right.bits ↔ left = right := ⟨eq_of_bits, congrArg Double.bits⟩
  simp [equals, same]

theorem equals_of_equals {number : Double} (first : number.equals left = true)
    (second : number.equals right = true) : left.equals right = true := by
  obtain ⟨⟨-, leftNumber⟩, sameLeft⟩ := equals_iff.1 first
  obtain ⟨⟨-, rightNumber⟩, sameRight⟩ := equals_iff.1 second
  refine equals_iff.2 ⟨⟨leftNumber, rightNumber⟩, ?_⟩
  rcases sameLeft with rfl | ⟨zero, leftZero⟩
  · exact sameRight
  · rcases sameRight with rfl | ⟨-, rightZero⟩
    · exact .inr ⟨leftZero, zero⟩
    · exact .inr ⟨leftZero, rightZero⟩

/-! ## Whole numbers -/

theorem abs_value (number : Double) : |number.value| = number.magnitude := by
  unfold value signed
  split_ifs
  · rw [abs_neg, abs_of_nonneg number.magnitude_nonneg]
  · exact abs_of_nonneg number.magnitude_nonneg

theorem isWhole_iff : number.IsWhole ↔ ∃ whole : ℕ, number.magnitude = whole := by
  constructor
  · rintro ⟨whole, same⟩
    refine ⟨whole.natAbs, ?_⟩
    rw [← abs_value, same, Nat.cast_natAbs, Int.cast_abs]
  · rintro ⟨whole, same⟩
    unfold IsWhole value signed
    rw [same]
    split_ifs
    · exact ⟨-whole, by push_cast; rfl⟩
    · exact ⟨whole, by push_cast; rfl⟩

/-- The magnitude as a quotient of whole numbers. -/
theorem magnitude_eq_div (number : Double) :
    number.magnitude = (number.significand * 2 ^ number.scale.toNat : ℕ) /
      (2 ^ (-number.scale).toNat : ℕ) := by
  rw [magnitude, zpow_eq_div 2]
  push_cast
  ring

theorem integer?_eq_some_iff {whole : ℕ} :
    number.integer? = some whole ↔ number.magnitude = whole := by
  have positive : (0 : ℚ) < (2 ^ (-number.scale).toNat : ℕ) := by positivity
  rw [magnitude_eq_div, div_eq_iff positive.ne']
  unfold integer?
  simp only [Nat.pow_eq]
  constructor
  · split_ifs with divides
    · intro some
      have exact : whole * 2 ^ (-number.scale).toNat =
          number.significand * 2 ^ number.scale.toNat := by
        rw [← Option.some.inj some]
        exact Nat.div_mul_cancel ((Nat.dvd_of_mod_eq_zero divides).mul_right _)
      exact_mod_cast exact.symm
    · exact nofun
  · intro same
    have exact : number.significand * 2 ^ number.scale.toNat =
        whole * 2 ^ (-number.scale).toNat := by exact_mod_cast same
    have divides : number.significand % 2 ^ (-number.scale).toNat = 0 := by
      rcases le_total 0 number.scale with up | down
      · rw [Int.toNat_of_nonpos (show -number.scale ≤ 0 by omega), pow_zero, Nat.mod_one]
      · rw [Int.toNat_of_nonpos down, pow_zero, mul_one] at exact
        rw [exact, Nat.mul_mod_left]
    rw [if_pos divides, exact, Nat.mul_div_cancel _ (by positivity)]

/-- A double of the limit or more has no places after the point. -/
theorem scale_nonneg_of_large (large : (exactLimit : ℚ) ≤ number.magnitude) :
    0 ≤ number.scale := by
  by_contra! down
  have small : (number.significand : ℚ) < exactLimit := by
    have limit : 2 * hiddenBit < exactLimit := by decide
    exact_mod_cast number.significand_lt.trans limit
  have unit : (2 : ℚ) ^ number.scale ≤ 1 := zpow_le_one_of_nonpos₀ one_le_two down.le
  have less : number.magnitude ≤ number.significand :=
    mul_le_of_le_one_right (Nat.cast_nonneg _) unit
  exact absurd (large.trans less) (not_le.2 small)

/-! ## The decimal that is shown -/

/-- The decimal whose digits are shown for a finite double other than zero. -/
def shown (number : Double) : Decimal :=
  match number.integer? with
  | some whole => if whole < exactLimit then ⟨whole, 0⟩ else number.shortest .up
  | none => number.shortest .up

/-- The number is shown with all its digits. -/
def IsExact (number : Double) : Prop :=
  number.IsWhole ∧ |number.value| < 10 ^ 21

theorem isExact_iff :
    number.IsExact ↔ ∃ whole, number.integer? = some whole ∧ whole < exactLimit := by
  have limit : (10 : ℚ) ^ 21 = exactLimit := by norm_num [exactLimit]
  rw [IsExact, isWhole_iff, abs_value, limit]
  constructor
  · rintro ⟨⟨whole, same⟩, small⟩
    refine ⟨whole, integer?_eq_some_iff.2 same, ?_⟩
    rw [same] at small
    exact_mod_cast small
  · rintro ⟨whole, some, small⟩
    have same := integer?_eq_some_iff.1 some
    refine ⟨⟨whole, same⟩, ?_⟩
    rw [same]
    exact_mod_cast small

theorem shown_of_isExact (exact : number.IsExact) :
    ∃ whole : ℕ, number.shown = ⟨whole, 0⟩ ∧ number.magnitude = whole := by
  obtain ⟨whole, some, small⟩ := isExact_iff.1 exact
  refine ⟨whole, ?_, integer?_eq_some_iff.1 some⟩
  simp only [shown, some, if_pos small]

theorem shown_of_not_isExact (shortened : ¬number.IsExact) :
    number.shown = number.shortest .up := by
  unfold shown
  split
  · next whole some =>
    exact if_neg fun small => shortened (isExact_iff.2 ⟨whole, some, small⟩)
  · rfl

section Shown

variable (nonzero : 0 < number.significand)
include nonzero

theorem owns_shown : number.Owns number.shown.value := by
  by_cases exact : number.IsExact
  · obtain ⟨whole, shown, same⟩ := shown_of_isExact exact
    have value : number.shown.value = number.magnitude := by
      rw [shown, Decimal.value, zpow_zero, mul_one, same]
    rw [value]
    exact owns_magnitude nonzero
  · rw [shown_of_not_isExact exact]
    exact owns_shortest nonzero .up

theorem coefficient_shown_pos : 0 < number.shown.coefficient :=
  Decimal.coefficient_pos_of_owns nonzero (owns_shown nonzero)

theorem coefficient_shown_mod_ten (down : number.shown.exponent < 0) :
    number.shown.coefficient % 10 ≠ 0 := by
  by_cases exact : number.IsExact
  · obtain ⟨whole, shown, -⟩ := shown_of_isExact exact
    rw [shown] at down
    exact absurd down (lt_irrefl 0)
  · rw [shown_of_not_isExact exact]
    exact coefficient_shortest_mod_ten nonzero .up

/-- Places after the point are shown exactly for numbers that have a fraction. -/
theorem exponent_shown_nonneg_iff : 0 ≤ number.shown.exponent ↔ number.IsWhole := by
  by_cases exact : number.IsExact
  · obtain ⟨whole, shown, -⟩ := shown_of_isExact exact
    rw [shown]
    exact iff_of_true le_rfl exact.1
  · have shortest := owns_shortest nonzero .up
    rw [shown_of_not_isExact exact]
    constructor
    · -- a whole number that rounds to a double with places after the point is the double
      intro up
      have whole : (number.shortest .up).value =
          ((number.shortest .up).coefficient * 10 ^ (number.shortest .up).exponent.toNat : ℕ) := by
        rw [Decimal.value, zpow_eq_div 10, Int.toNat_of_nonpos (show -_ ≤ (0 : ℤ) by omega)]
        push_cast
        ring
      rcases lt_or_ge number.scale 0 with down | atLeast
      · rw [whole] at shortest
        exact isWhole_iff.2 ⟨_, (eq_magnitude_of_owns nonzero down shortest).symm⟩
      · refine isWhole_iff.2 ⟨number.significand * 2 ^ number.scale.toNat, ?_⟩
        rw [magnitude_eq_div, Int.toNat_of_nonpos (show -number.scale ≤ 0 by omega)]
        simp
    · -- a whole number of the limit or more is a point of the grid of the ones
      intro whole
      have large : (exactLimit : ℚ) ≤ number.magnitude := by
        by_contra! small
        refine exact ⟨whole, ?_⟩
        rw [abs_value]
        exact small.trans_eq (by norm_num [exactLimit])
      have up := scale_nonneg_of_large large
      have last := number.exactPlace_le_exponent .up
      unfold exactPlace at last
      omega

end Shown

/-- The numeral that is shown for a finite double other than zero. -/
def numeral (number : Double) (nonzero : 0 < number.significand) : PlainNumeral :=
  number.shown.plain number.isNegative (coefficient_shown_pos nonzero)
    (coefficient_shown_mod_ten nonzero)

/-- What the text of a finite double other than zero says of it. -/
structure ReadsAs (number : Double) (numeral : PlainNumeral) : Prop where
  sign : numeral.negative = true ↔ number.value < 0
  point : numeral.fraction = [] ↔ number.IsWhole
  rounds : RoundsTo numeral.value number
  exact : number.IsExact -> numeral.value = number.value
  /-- No decimal that rounds to the double has fewer digits. -/
  fewest : ¬number.IsExact -> ∀ (quotient : ℚ) (other : Decimal), |quotient| = other.value ->
    RoundsTo quotient number -> numeral.significant.length ≤ other.digits.length

section Numeral

variable (nonzero : 0 < number.significand)
include nonzero

theorem value_neg_iff : number.isNegative = true ↔ number.value < 0 := by
  have positive := magnitude_pos nonzero
  unfold value signed
  split_ifs with negative
  · exact iff_of_true negative (neg_lt_zero.2 positive)
  · exact iff_of_false negative positive.not_gt

theorem value_numeral : (number.numeral nonzero).value = number.signed number.shown.value := by
  rw [PlainNumeral.value, numeral, Decimal.value_plain]
  rfl

/-- Only quotients of its own sign round to a double other than zero. -/
theorem owns_abs (finite : number.isFinite = true) {quotient : ℚ}
    (rounds : RoundsTo quotient number) : number.Owns |quotient| := by
  rw [← signed_signed number quotient, roundsTo_signed_iff finite nonzero] at rounds
  have own : |quotient| = number.signed quotient := by
    rw [← abs_of_pos (rounds.pos nonzero), signed]
    split_ifs
    · rw [abs_neg]
    · rfl
  rwa [own]

theorem readsAs_numeral (finite : number.isFinite = true) :
    number.ReadsAs (number.numeral nonzero) where
  sign := value_neg_iff nonzero
  point := Decimal.fraction_plain_eq_nil_iff.trans (exponent_shown_nonneg_iff nonzero)
  rounds := by
    rw [value_numeral]
    exact roundsTo_of_owns nonzero (owns_shown nonzero)
  exact := by
    intro exact
    obtain ⟨whole, shown, same⟩ := shown_of_isExact exact
    rw [value_numeral, shown, Decimal.value, zpow_zero, mul_one, ← same]
    rfl
  fewest := by
    intro shortened quotient other same rounds
    have tidy : number.shown.coefficient % 10 ≠ 0 := by
      rw [shown_of_not_isExact shortened]
      exact coefficient_shortest_mod_ten nonzero .up
    have owns := owns_abs nonzero finite rounds
    rw [same] at owns
    rw [numeral, Decimal.significant_plain tidy, shown_of_not_isExact shortened]
    exact length_digits_shortest_le nonzero .up owns

/-- The double can be read off the numeral. -/
theorem toDouble_numeral (finite : number.isFinite = true) :
    (number.numeral nonzero).decimal.toDouble (number.numeral nonzero).negative = number := by
  refine Decimal.toDouble_of_owns finite nonzero ?_
  rw [numeral, Decimal.value_plain]
  exact owns_shown nonzero

end Numeral

end Double

/-! ## The text -/

section Text

variable {number left right : Double}

theorem floatText_of_isNaN (isNaN : number.isNaN = true) : floatText number = "NaN".toList := by
  have infinite : number.isFinite = false := by
    simp only [Double.isNaN, Double.isFinite, decide_eq_true_eq, decide_eq_false_iff_not] at *
    omega
  rw [floatText, infinite, if_neg Bool.false_ne_true, Layout.double, if_pos isNaN]
  rfl

theorem floatText_of_isInfinite (isInfinite : number.isInfinite = true) :
    floatText number =
      if number.isNegative then "-Infinity".toList else "Infinity".toList := by
  have infinite : number.isFinite = false ∧ number.isNaN = false := by
    simp only [Double.isNaN, Double.isInfinite, Double.isFinite, decide_eq_true_eq,
      decide_eq_false_iff_not] at *
    omega
  rw [floatText, infinite.1, if_neg Bool.false_ne_true, Layout.double, infinite.2,
    if_neg Bool.false_ne_true, Layout.magnitude, if_pos isInfinite]
  rfl

theorem floatText_of_isZero (isZero : number.isZero = true) : floatText number = ['0'] := by
  have finite : number.isFinite = true := by
    simp only [Double.isZero, Double.isFinite, decide_eq_true_eq] at *
    rw [isZero]
    decide
  have none := Double.significand_eq_zero_iff.2 isZero
  have whole : number.integer? = some 0 :=
    Double.integer?_eq_some_iff.2 (by simp [Double.magnitude, none])
  simp only [floatText, finite, if_true, whole]
  cases number.isNegative <;> rfl

theorem positionalText_whole (whole : ℕ) :
    Decimal.positionalText false ⟨whole, 0⟩ = Nat.toDigits 10 whole := by
  simp [Decimal.positionalText, Decimal.digits]

theorem integerText_signed (negative : Bool) {whole : ℕ} (positive : 0 < whole) :
    Json.integerText (if negative then -whole else whole) =
      if negative then '-' :: Nat.toDigits 10 whole else Nat.toDigits 10 whole := by
  cases negative with
  | true =>
    have below : -(whole : ℤ) < 0 := by omega
    simp only [Json.integerText, if_true, if_pos below, Int.natAbs_neg, Int.natAbs_natCast]
  | false =>
    have notBelow : ¬(whole : ℤ) < 0 := by omega
    simp only [Json.integerText, Bool.false_eq_true, if_false, if_neg notBelow,
      Int.natAbs_natCast]

theorem double_messageLayout (finite : number.isFinite = true)
    (nonzero : 0 < number.significand) :
    messageLayout.double number =
      if number.isNegative then '-' :: (number.shortest .up).positionalText false
      else (number.shortest .up).positionalText false := by
  have notZero : number.isZero = false := by
    rw [← Bool.not_eq_true, ← Double.significand_eq_zero_iff]
    omega
  have magnitude : messageLayout.magnitude number =
      (number.shortest .up).positionalText false := by
    rw [Layout.magnitude, Double.isInfinite_eq_false finite, notZero]
    rfl
  rw [Layout.double, Double.isNaN_eq_false finite, magnitude]
  rfl

/-- A finite double other than zero is shown as its numeral. -/
theorem floatText_eq (finite : number.isFinite = true) (nonzero : 0 < number.significand) :
    floatText number = (number.numeral nonzero).text := by
  have text : (number.numeral nonzero).text =
      if number.isNegative then '-' :: number.shown.positionalText false
      else number.shown.positionalText false := by
    rw [PlainNumeral.text, Double.numeral, Decimal.unsigned_plain]
    rfl
  rw [text]
  by_cases exact : number.IsExact
  · obtain ⟨whole, some, small⟩ := Double.isExact_iff.1 exact
    have shown : number.shown = ⟨whole, 0⟩ := by simp only [Double.shown, some, if_pos small]
    have positive : 0 < whole := by
      have same := Double.integer?_eq_some_iff.1 some
      have positive := Double.magnitude_pos nonzero
      rw [same] at positive
      exact_mod_cast positive
    simp only [floatText, finite, if_true, some, if_pos small, shown, positionalText_whole]
    exact integerText_signed number.isNegative positive
  · have double : floatText number = messageLayout.double number := by
      rw [floatText, if_pos finite]
      split
      · next whole some =>
        exact if_neg fun small => exact (Double.isExact_iff.2 ⟨whole, some, small⟩)
      · rfl
    rw [double, Double.shown_of_not_isExact exact]
    exact double_messageLayout finite nonzero

/-! ## Equal texts -/

/-- The numeral of both zeros. -/
def zeroNumeral : PlainNumeral where
  negative := false
  whole := ['0']
  fraction := []
  isDigit := by simp
  nonempty := List.cons_ne_nil _ _
  leading := fun _ => rfl
  trailing := nofun

/-- A finite double is shown as a numeral that is read as an equal double. -/
theorem exists_numeral (finite : number.isFinite = true) :
    ∃ numeral : PlainNumeral, floatText number = numeral.text ∧
      (numeral.decimal.toDouble numeral.negative).equals number = true := by
  have isNumber := Double.isNaN_eq_false finite
  cases isZero : number.isZero with
  | true =>
    refine ⟨zeroNumeral, floatText_of_isZero isZero,
      Double.equals_iff.2 ⟨⟨?_, isNumber⟩, .inr ⟨?_, isZero⟩⟩⟩
    · decide
    · decide
  | false =>
    have nonzero := Double.significand_pos (Bool.eq_false_iff.1 isZero)
    refine ⟨number.numeral nonzero, floatText_eq finite nonzero, ?_⟩
    rw [Double.toDouble_numeral nonzero finite]
    exact Double.equals_iff.2 ⟨⟨isNumber, isNumber⟩, .inl rfl⟩

/-- Nothing but a finite double is shown as a numeral. -/
theorem isFinite_of_text {numeral : PlainNumeral} (same : floatText number = numeral.text) :
    number.isFinite = true := by
  -- the first letter of a word is in no numeral
  have noLetter : ∀ letter ∈ floatText number, letter ≠ 'N' ∧ letter ≠ 'I' := by
    intro letter member
    rw [same] at member
    rcases PlainNumeral.mem_text member with digit | rfl | rfl
    · constructor
      · rintro rfl
        exact absurd digit (by decide)
      · rintro rfl
        exact absurd digit (by decide)
    · decide
    · decide
  rcases number.kinds with isNaN | isInfinite | isFinite
  · refine absurd rfl (noLetter 'N' ?_).1
    rw [floatText_of_isNaN isNaN]
    decide
  · refine absurd rfl (noLetter 'I' ?_).2
    rw [floatText_of_isInfinite isInfinite]
    split <;> decide
  · exact isFinite

/-- Infinities are told apart by their sign. -/
theorem eq_of_isInfinite (first : left.isInfinite = true) (second : right.isInfinite = true)
    (same : floatText left = floatText right) : left = right := by
  rw [floatText_of_isInfinite first, floatText_of_isInfinite second] at same
  have sign : left.isNegative = right.isNegative := by
    cases own : left.isNegative <;> cases other : right.isNegative
    · rfl
    · rw [own, other] at same
      exact absurd same (by decide)
    · rw [own, other] at same
      exact absurd same (by decide)
    · rfl
  refine Double.eq_of_bits ?_
  have leftSmall := left.bits_lt
  have rightSmall := right.bits_lt
  simp only [Double.isInfinite, decide_eq_true_eq] at first second
  simp only [Double.isNegative, decide_eq_decide] at sign
  simp only [Double.magnitudeBits, Double.signBit, Double.infinityBits, Double.hiddenBit] at *
  omega

/-- Two doubles are shown alike exactly if they are equal or neither is a number. -/
theorem floatText_eq_iff : floatText left = floatText right ↔
    left.equals right = true ∨ left.isNaN = true ∧ right.isNaN = true := by
  constructor
  · intro same
    by_cases finite : left.isFinite = true
    · obtain ⟨numeral, text, reads⟩ := exists_numeral finite
      obtain ⟨other, otherText, otherReads⟩ :=
        exists_numeral (isFinite_of_text (same.symm.trans text))
      cases PlainNumeral.text_injective (text.symm.trans (same.trans otherText))
      exact .inl (Double.equals_of_equals reads otherReads)
    · have otherFinite : ¬right.isFinite = true := by
        intro isFinite
        obtain ⟨numeral, text, -⟩ := exists_numeral isFinite
        exact finite (isFinite_of_text (same.trans text))
      rcases left.kinds with first | first | first
      · rcases right.kinds with second | second | second
        · exact .inr ⟨first, second⟩
        · rw [floatText_of_isNaN first, floatText_of_isInfinite second] at same
          split at same <;> exact absurd same (by decide)
        · exact absurd second otherFinite
      · rcases right.kinds with second | second | second
        · rw [floatText_of_isNaN second, floatText_of_isInfinite first] at same
          split at same <;> exact absurd same (by decide)
        · cases eq_of_isInfinite first second same
          have isNumber : left.isNaN = false := by
            simp only [Double.isInfinite, Double.isNaN, decide_eq_true_eq,
              decide_eq_false_iff_not] at *
            omega
          exact .inl (Double.equals_iff.2 ⟨⟨isNumber, isNumber⟩, .inl rfl⟩)
        · exact absurd second otherFinite
      · exact absurd first finite
  · rintro (equal | ⟨first, second⟩)
    · obtain ⟨-, rfl | ⟨first, second⟩⟩ := Double.equals_iff.1 equal
      · rfl
      · rw [floatText_of_isZero first, floatText_of_isZero second]
    · rw [floatText_of_isNaN first, floatText_of_isNaN second]

/-- The text of a double reads back. A finite double other than zero is shown as a numeral
without exponent and superfluous zeros, with a sign exactly if it is negative and a fraction
exactly if it is no whole number, and what the numeral denotes rounds to the double, to the
even one of two that are equally near. Whole numbers below `10 ^ 21` are shown exactly. All
others are shown with as few digits as any decimal has that rounds to them. Zeros are shown
without a sign, infinities and what is no number as words. So doubles are shown alike
exactly if they are equal or neither is a number. -/
theorem floatText_reads_back :
    (∀ number : Double, number.isFinite = true -> number.isZero = false ->
      (∃ numeral : PlainNumeral, floatText number = numeral.text ∧ number.ReadsAs numeral) ∧
        ∀ letter ∈ floatText number, letter.isDigit = true ∨ letter = '.' ∨ letter = '-') ∧
      (∀ number : Double, number.isZero = true -> floatText number = "0".toList) ∧
      (∀ number : Double, number.isNaN = true -> floatText number = "NaN".toList) ∧
      (∀ number : Double, number.isInfinite = true -> floatText number =
        if number.isNegative then "-Infinity".toList else "Infinity".toList) ∧
      ∀ left right : Double, floatText left = floatText right ↔
        left.equals right = true ∨ left.isNaN = true ∧ right.isNaN = true := by
  refine ⟨fun number finite notZero => ?_, fun _ => floatText_of_isZero,
    fun _ => floatText_of_isNaN, fun _ => floatText_of_isInfinite, fun _ _ => floatText_eq_iff⟩
  have nonzero := Double.significand_pos (Bool.eq_false_iff.1 notZero)
  have text := floatText_eq finite nonzero
  refine ⟨⟨number.numeral nonzero, text, Double.readsAs_numeral nonzero finite⟩, ?_⟩
  intro letter member
  rw [text] at member
  exact PlainNumeral.mem_text member

/-- A tenth is no double, and the double next to it is shown as `0.1`. A whole
number below `10 ^ 21` shows all its digits, though fewer would be enough to read it. -/
theorem floatText_reads_back_tenth :
    let tenth : Double := ⟨0x3fb999999999999a, by decide⟩
    let large : Double := ⟨0xc44b1ae4d6e2ef4f, by decide⟩
    let limit : Double := ⟨0x444b1ae4d6e2ef50, by decide⟩
    (∃ numeral : PlainNumeral, "0.1".toList = numeral.text ∧ tenth.ReadsAs numeral) ∧
      (∃ numeral : PlainNumeral, "-999999999999999868928".toList = numeral.text ∧
        large.ReadsAs numeral) ∧
      (∃ numeral : PlainNumeral, "1000000000000000000000".toList = numeral.text ∧
        limit.ReadsAs numeral) ∧
      floatText (.zero true) = "0".toList ∧ floatText .nan = "NaN".toList ∧
      floatText (.infinity true) = "-Infinity".toList := by
  intro tenth large limit
  obtain ⟨finite, zero, nan, infinite, -⟩ := floatText_reads_back
  refine ⟨?_, ?_, ?_, zero _ (by decide), nan _ (by decide), infinite (.infinity true) (by decide)⟩
  · have text : floatText tenth = "0.1".toList := by decide +kernel
    rw [← text]
    exact (finite tenth (by decide) (by decide)).1
  · have text : floatText large = "-999999999999999868928".toList := by decide +kernel
    rw [← text]
    exact (finite large (by decide) (by decide)).1
  · have text : floatText limit = "1000000000000000000000".toList := by decide +kernel
    rw [← text]
    exact (finite limit (by decide) (by decide)).1

end Text

end ScriptConsole
