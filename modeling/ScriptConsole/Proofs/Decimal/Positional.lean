import ScriptConsole.Decimal.Layout
import ScriptConsole.Proofs.Json.Numeral

/-!
# Numerals without an exponent

A plain numeral has digits before the point, perhaps digits after it, and no zeros that
could be left out. Its text says which numeral it is, and a decimal written positionally is
one: zeros on either side fill the places up to the point.
-/

namespace ScriptConsole

/-- Digits before the point and after it. There is a point only before a fraction. -/
def pointed (whole fraction : List Char) : List Char :=
  whole ++ if fraction.isEmpty then [] else '.' :: fraction

theorem pointed_nil (whole : List Char) : pointed whole [] = whole :=
  List.append_nil whole

theorem pointed_of_ne_nil {whole fraction : List Char} (nonempty : fraction ≠ []) :
    pointed whole fraction = whole ++ '.' :: fraction := by
  rw [pointed, List.isEmpty_eq_false_iff.2 nonempty, if_neg Bool.false_ne_true]

/-- A numeral without an exponent and without superfluous zeros. -/
structure PlainNumeral where
  negative : Bool
  whole : List Char
  fraction : List Char
  isDigit : ∀ digit ∈ whole ++ fraction, digit.isDigit = true
  nonempty : whole ≠ []
  /-- The only whole part that starts with a zero is the zero alone. -/
  leading : whole.head? = some '0' -> whole = ['0']
  /-- The fraction does not end in a zero. -/
  trailing : fraction.getLast? ≠ some '0'

namespace PlainNumeral

/-- The text without the sign. -/
def unsigned (numeral : PlainNumeral) : List Char :=
  pointed numeral.whole numeral.fraction

def text (numeral : PlainNumeral) : List Char :=
  if numeral.negative then '-' :: numeral.unsigned else numeral.unsigned

/-- The magnitude that the digits and the place of the point stand for. -/
def decimal (numeral : PlainNumeral) : Decimal where
  coefficient := Nat.ofDigitChars 10 (numeral.whole ++ numeral.fraction) 0
  exponent := -numeral.fraction.length

/-- The number that the numeral denotes. -/
def value (numeral : PlainNumeral) : ℚ :=
  if numeral.negative then -numeral.decimal.value else numeral.decimal.value

/-- The digits from the first to the last that is no zero. -/
def significant (numeral : PlainNumeral) : List Char :=
  ((numeral.whole ++ numeral.fraction).rdropWhile (· == '0')).dropWhile (· == '0')

variable {left right : PlainNumeral}

/-- There is nothing but digits, a point and a sign in a plain numeral. -/
theorem mem_text {numeral : PlainNumeral} {letter : Char} (member : letter ∈ numeral.text) :
    letter.isDigit = true ∨ letter = '.' ∨ letter = '-' := by
  have unsigned : letter ∈ numeral.unsigned -> letter.isDigit = true ∨ letter = '.' := by
    intro member
    rcases List.mem_append.1 member with inWhole | inRest
    · exact .inl (numeral.isDigit letter (List.mem_append_left _ inWhole))
    · split at inRest
      · exact absurd inRest List.not_mem_nil
      · rcases List.mem_cons.1 inRest with point | inFraction
        · exact .inr point
        · exact .inl (numeral.isDigit letter (List.mem_append_right _ inFraction))
  unfold text at member
  split at member
  · rcases List.mem_cons.1 member with sign | others
    · exact .inr (.inr sign)
    · exact (unsigned others).imp_right .inl
  · exact (unsigned member).imp_right .inl

/-- The digits before the point end where the text without sign has its first character that
is no digit. -/
theorem unsigned_parts (numeral : PlainNumeral) :
    numeral.unsigned.takeWhile Char.isDigit = numeral.whole ∧
      (numeral.unsigned.dropWhile Char.isDigit).drop 1 = numeral.fraction := by
  have ends : Json.EndsDigits
      (if numeral.fraction.isEmpty then [] else '.' :: numeral.fraction) := by
    intro first starts
    split at starts
    · cases starts
    · cases starts
      decide
  obtain ⟨taken, dropped⟩ := Json.takeWhile_append_of_ends
    (fun digit member => numeral.isDigit digit (List.mem_append_left _ member)) ends
  refine ⟨taken, ?_⟩
  rw [unsigned, pointed, dropped]
  split
  · next none => rw [List.isEmpty_iff.1 none, List.drop_nil]
  · rfl

/-- A digit is no sign. -/
theorem unsigned_ne_sign (numeral : PlainNumeral) (others : List Char) :
    numeral.unsigned ≠ '-' :: others := by
  intro same
  have taken := numeral.unsigned_parts.1
  rw [same, List.takeWhile_cons_of_neg (by decide)] at taken
  exact numeral.nonempty taken.symm

theorem negative_eq (same : left.text = right.text) :
    left.negative = right.negative ∧ left.unsigned = right.unsigned := by
  unfold text at same
  split_ifs at same with first second second
  · exact ⟨first.trans second.symm, List.tail_eq_of_cons_eq same⟩
  · exact absurd same.symm (right.unsigned_ne_sign _)
  · exact absurd same (left.unsigned_ne_sign _)
  · exact ⟨by rw [Bool.eq_false_of_not_eq_true first, Bool.eq_false_of_not_eq_true second], same⟩

/-- Numerals with the same text are the same. -/
theorem text_injective : Function.Injective text := by
  intro left right same
  obtain ⟨negative, unsigned⟩ := negative_eq same
  have whole : left.whole = right.whole := by
    rw [← left.unsigned_parts.1, unsigned, right.unsigned_parts.1]
  have fraction : left.fraction = right.fraction := by
    rw [← left.unsigned_parts.2, unsigned, right.unsigned_parts.2]
  obtain ⟨leftNegative, leftWhole, leftFraction⟩ := left
  obtain ⟨rightNegative, rightWhole, rightFraction⟩ := right
  cases negative
  cases whole
  cases fraction
  rfl

/-- Zeros on either side are not significant. -/
theorem significant_of_padded {numeral : PlainNumeral} {core : List Char} {before after : ℕ}
    (padded : numeral.whole ++ numeral.fraction =
      List.replicate before '0' ++ core ++ List.replicate after '0')
    (nonempty : core ≠ []) (first : core.head? ≠ some '0') (last : core.getLast? ≠ some '0') :
    numeral.significant = core := by
  have back : ∀ count, (List.replicate before '0' ++ core ++
      List.replicate count '0').rdropWhile (· == '0') = List.replicate before '0' ++ core := by
    intro count
    induction count with
    | zero =>
      rw [List.replicate_zero, List.append_nil, List.rdropWhile_eq_self_iff]
      intro _
      rw [List.getLast_append_of_ne_nil _ nonempty]
      intro zero
      exact last ((List.getLast?_eq_some_getLast nonempty).trans (congrArg _ (eq_of_beq zero)))
    | succ count ih =>
      rw [List.replicate_succ', ← List.append_assoc, List.rdropWhile_concat_pos _ _ _ rfl]
      exact ih
  have front : (List.replicate before '0' ++ core).dropWhile (· == '0') = core := by
    rw [List.dropWhile_append_of_pos fun digit member => by
      rw [List.eq_of_mem_replicate member]
      rfl]
    obtain ⟨head, others, rfl⟩ := List.exists_cons_of_ne_nil nonempty
    refine List.dropWhile_cons_of_neg fun zero => first ?_
    exact congrArg some (eq_of_beq zero)
  rw [significant, padded, back, front]

end PlainNumeral

/-! ## Positional decimals -/

namespace Decimal

variable (decimal : Decimal)

/-- The digits with zeros up to the point, and at least one before it. -/
def padded : List Char :=
  List.replicate ((-decimal.exponent).toNat + 1 - decimal.digits.length) '0' ++ decimal.digits ++
    List.replicate decimal.exponent.toNat '0'

/-- The number of digits before the point. -/
def wholeLength : ℕ :=
  decimal.padded.length - (-decimal.exponent).toNat

theorem length_padded :
    (-decimal.exponent).toNat < decimal.padded.length := by
  have some : 1 ≤ decimal.digits.length := Nat.length_toDigits_pos
  simp only [padded, List.length_append, List.length_replicate]
  omega

/-- The text is the padded digits with a point put in. -/
theorem positionalText_eq :
    decimal.positionalText false = pointed (decimal.padded.take decimal.wholeLength)
      (decimal.padded.drop decimal.wholeLength) := by
  have nonempty : 1 ≤ decimal.digits.length := Nat.length_toDigits_pos
  unfold positionalText
  simp only [Bool.false_eq_true, if_false, List.append_nil]
  split_ifs with whole short
  · have fits : (-decimal.exponent).toNat + 1 - decimal.digits.length = 0 := by omega
    have all : decimal.wholeLength = decimal.padded.length := by
      rw [wholeLength, whole, Nat.sub_zero]
    rw [all, List.take_length, List.drop_length, pointed_nil, padded, fits]
    simp
  · have fits : (-decimal.exponent).toNat + 1 - decimal.digits.length = 0 := by omega
    have down : decimal.exponent.toNat = 0 := by omega
    have only : decimal.padded = decimal.digits := by simp [padded, fits, down]
    have rest : decimal.digits.drop (decimal.digits.length - (-decimal.exponent).toNat) ≠ [] := by
      rw [ne_eq, List.drop_eq_nil_iff]
      omega
    rw [wholeLength, only, pointed_of_ne_nil rest]
  · have down : decimal.exponent.toNat = 0 := by omega
    have zeros : (-decimal.exponent).toNat + 1 - decimal.digits.length =
        (-decimal.exponent).toNat - decimal.digits.length + 1 := by omega
    have only : decimal.padded = '0' ::
        (List.replicate ((-decimal.exponent).toNat - decimal.digits.length) '0' ++
          decimal.digits) := by
      simp [padded, down, zeros, List.replicate_succ]
    have one : decimal.wholeLength = 1 := by
      simp only [wholeLength, only, List.length_cons, List.length_append, List.length_replicate]
      omega
    rw [one, only, List.take_succ_cons, List.take_zero, List.drop_succ_cons, List.drop_zero,
      pointed_of_ne_nil (List.append_ne_nil_of_right_ne_nil _ (Json.digits_ne_nil decimal))]
    rfl

theorem isDigit_of_mem_padded {digit : Char} (member : digit ∈ decimal.padded) :
    digit.isDigit = true := by
  rcases List.mem_append.1 member with inFront | inBack
  · rcases List.mem_append.1 inFront with inZeros | inDigits
    · exact Json.isDigit_of_mem_zeros inZeros
    · exact Json.isDigit_of_mem_digits decimal inDigits
  · exact Json.isDigit_of_mem_zeros inBack

/-- The last digit is the rest of the division by ten. -/
theorem getLast?_toDigits (number : ℕ) :
    (Nat.toDigits 10 number).getLast? = some (Nat.digitChar (number % 10)) := by
  by_cases small : number < 10
  · rw [Nat.toDigits_of_lt_base small, Nat.mod_eq_of_lt small]
    rfl
  · rw [Nat.toDigits_of_base_le (by norm_num) (not_lt.1 small), List.getLast?_concat]

theorem getLast?_digits_ne_zero {decimal : Decimal} (tidy : decimal.coefficient % 10 ≠ 0) :
    decimal.digits.getLast? ≠ some '0' := by
  rw [digits, getLast?_toDigits]
  have small := Nat.mod_lt decimal.coefficient (show 10 > 0 by norm_num)
  intro zero
  generalize decimal.coefficient % 10 = last at tidy small zero
  interval_cases last <;> simp_all [Nat.digitChar]

variable {decimal}

/-- Only a zero that was put there is a first digit, and then it is the one before the
point. -/
theorem take_padded_of_head? (positive : 0 < decimal.coefficient)
    (zero : (decimal.padded.take decimal.wholeLength).head? = some '0') :
    decimal.padded.take decimal.wholeLength = ['0'] := by
  have nonempty : 1 ≤ decimal.digits.length := Nat.length_toDigits_pos
  have inside := decimal.length_padded
  rw [List.head?_take, wholeLength, if_neg (by omega)] at zero
  rcases Nat.eq_zero_or_pos ((-decimal.exponent).toNat + 1 - decimal.digits.length) with
    fits | fills
  · rw [padded, fits, List.replicate_zero, List.nil_append,
      List.head?_append_of_ne_nil _ (Json.digits_ne_nil decimal)] at zero
    have := Json.head?_digits decimal zero
    omega
  · have one : decimal.wholeLength = 1 := by
      simp only [wholeLength, padded, List.length_append, List.length_replicate]
      omega
    rw [one, List.take_one, zero]
    rfl

/-- The fraction ends in the decimal's own last digit. -/
theorem getLast?_drop_padded (tidy : decimal.exponent < 0 -> decimal.coefficient % 10 ≠ 0) :
    (decimal.padded.drop decimal.wholeLength).getLast? ≠ some '0' := by
  rw [List.getLast?_drop]
  split_ifs with none
  · exact nofun
  · have inside := decimal.length_padded
    have down : decimal.exponent < 0 := by
      unfold wholeLength at none
      omega
    have last : decimal.padded.getLast? = decimal.digits.getLast? := by
      rw [padded, Int.toNat_of_nonpos down.le, List.replicate_zero, List.append_nil,
        List.getLast?_append_of_ne_nil _ (Json.digits_ne_nil decimal)]
    rw [last]
    exact getLast?_digits_ne_zero (tidy down)

/-- A decimal other than zero, written positionally. If it has a fraction, its last digit is
no zero. -/
def plain (decimal : Decimal) (negative : Bool) (positive : 0 < decimal.coefficient)
    (tidy : decimal.exponent < 0 -> decimal.coefficient % 10 ≠ 0) : PlainNumeral where
  negative
  whole := decimal.padded.take decimal.wholeLength
  fraction := decimal.padded.drop decimal.wholeLength
  isDigit := by
    rw [List.take_append_drop]
    exact fun digit => decimal.isDigit_of_mem_padded
  nonempty := by
    have inside := decimal.length_padded
    rw [ne_eq, List.take_eq_nil_iff]
    rintro (zero | empty)
    · unfold wholeLength at zero
      omega
    · rw [empty] at inside
      exact absurd inside (Nat.not_lt_zero _)
  leading := take_padded_of_head? positive
  trailing := getLast?_drop_padded tidy

section Plain

variable {negative : Bool} {positive : 0 < decimal.coefficient}
  {tidy : decimal.exponent < 0 -> decimal.coefficient % 10 ≠ 0}

theorem unsigned_plain :
    (decimal.plain negative positive tidy).unsigned = decimal.positionalText false :=
  decimal.positionalText_eq.symm

theorem length_fraction_plain :
    (decimal.plain negative positive tidy).fraction.length = (-decimal.exponent).toNat := by
  have inside := decimal.length_padded
  simp only [plain, List.length_drop, wholeLength]
  omega

theorem fraction_plain_eq_nil_iff :
    (decimal.plain negative positive tidy).fraction = [] ↔ 0 ≤ decimal.exponent := by
  rw [← List.length_eq_zero_iff, length_fraction_plain]
  omega

/-- Padding does not change the value. -/
theorem value_plain : (decimal.plain negative positive tidy).decimal.value = decimal.value := by
  have digits : Nat.ofDigitChars 10 decimal.padded 0 =
      decimal.coefficient * 10 ^ decimal.exponent.toNat := by
    rw [padded, Nat.ofDigitChars_append, Nat.ofDigitChars_append, Nat.ofDigitChars_replicate_zero,
      Nat.ofDigitChars_replicate_zero, Nat.mul_zero, Json.ofDigitChars_digits, Nat.mul_comm]
  have same : (decimal.plain negative positive tidy).decimal =
      ⟨decimal.coefficient * 10 ^ decimal.exponent.toNat, -(-decimal.exponent).toNat⟩ := by
    rw [PlainNumeral.decimal, length_fraction_plain]
    simp only [plain, List.take_append_drop, digits]
  rw [same, value, value, Double.zpow_eq_div 10 decimal.exponent, zpow_neg, zpow_natCast]
  push_cast
  ring

/-- The significant digits are the decimal's own. -/
theorem significant_plain (tidy' : decimal.coefficient % 10 ≠ 0) :
    (decimal.plain negative positive tidy).significant = decimal.digits := by
  refine PlainNumeral.significant_of_padded (List.take_append_drop _ _)
    (Json.digits_ne_nil decimal) (fun zero => ?_) (getLast?_digits_ne_zero tidy')
  have := Json.head?_digits decimal zero
  omega

end Plain

end Decimal

end ScriptConsole
