import ScriptConsole.Json.Lexeme.Numeral
import ScriptConsole.Json.Printer
import ScriptConsole.Proofs.Decimal.Shortest
import ScriptConsole.Proofs.Except
import ScriptConsole.Proofs.Json.Reads

/-!
# Printed numbers are read back

A printed number is followed by a character that no numeral goes on with, so its reading
ends where it was printed to. The decimal that is read need not be the printed one, but it
has the same value.
-/

namespace ScriptConsole.Json

/-! ## Digits -/

/-- The text is empty or starts with a character that no numeral goes on with. -/
def EndsNumeral (text : List Char) : Prop :=
  ∀ first ∈ text.head?, first.isDigit = false ∧ first ≠ '.' ∧ first ≠ 'e' ∧ first ≠ 'E'

/-- The text is empty or does not start with a digit. -/
def EndsDigits (text : List Char) : Prop :=
  ∀ first ∈ text.head?, first.isDigit = false

theorem endsNumeral_nil : EndsNumeral [] := nofun

theorem EndsNumeral.digits {text : List Char} (ends : EndsNumeral text) : EndsDigits text :=
  fun first starts => (ends first starts).1

theorem takeWhile_append_of_ends {digits rest : List Char}
    (each : ∀ digit ∈ digits, digit.isDigit = true) (ends : EndsDigits rest) :
    (digits ++ rest).takeWhile Char.isDigit = digits ∧
      (digits ++ rest).dropWhile Char.isDigit = rest := by
  have stops : rest.takeWhile Char.isDigit = [] ∧ rest.dropWhile Char.isDigit = rest := by
    cases rest with
    | nil => exact ⟨rfl, rfl⟩
    | cons first others => simp [ends first rfl]
  rw [List.takeWhile_append_of_pos each, List.dropWhile_append_of_pos each, stops.1, stops.2,
    List.append_nil]
  exact ⟨rfl, rfl⟩

theorem reads_readDigits (atEnd : Error) {digits rest : List Char} (nonempty : digits ≠ [])
    (each : ∀ digit ∈ digits, digit.isDigit = true) (ends : EndsDigits rest) :
    Reads (readDigits atEnd (digits ++ rest)) digits rest := by
  cases digits with
  | nil => exact absurd rfl nonempty
  | cons first others =>
    have isDigit := each first List.mem_cons_self
    have split := takeWhile_append_of_ends
      (fun digit member => each digit (List.mem_cons_of_mem _ member)) ends
    unfold readDigits
    simp only [List.cons_append, isDigit, if_true, split.1, split.2]
    exact .ok rfl rfl

/-- The digits before a point may be a zero alone, but do not start with one. -/
theorem reads_readWholeDigits (atEnd : Error) {digits rest : List Char} (nonempty : digits ≠ [])
    (each : ∀ digit ∈ digits, digit.isDigit = true) (ends : EndsDigits rest)
    (plain : digits.head? = some '0' -> digits = ['0']) :
    Reads (readWholeDigits atEnd (digits ++ rest)) digits rest := by
  unfold readWholeDigits
  refine (reads_readDigits atEnd nonempty each ends).bind fun within => ?_
  dsimp only
  split
  · next second others =>
    cases plain rfl
  · exact .pure rfl rfl

theorem reads_readFractionDigits (atEnd : Error) {digits rest : List Char} (nonempty : digits ≠ [])
    (each : ∀ digit ∈ digits, digit.isDigit = true) (ends : EndsDigits rest) :
    Reads (readFractionDigits atEnd ('.' :: digits ++ rest)) (some digits) rest := by
  unfold readFractionDigits
  simp only [List.cons_append]
  refine (reads_readDigits atEnd nonempty each ends).bind fun within => ?_
  exact .pure rfl rfl

/-- Without a point there are no digits after it. -/
theorem reads_readFractionDigits_none (atEnd : Error) {text : List Char}
    (without : ∀ first ∈ text.head?, first ≠ '.') :
    Reads (readFractionDigits atEnd text) none text := by
  unfold readFractionDigits
  split
  · exact absurd rfl (without '.' rfl)
  · exact .ok rfl rfl

/-- The sign of an exponent: none, or either of the two. -/
def exponentSign (sign : List Char) (negative : Bool) : Prop :=
  sign = ['-'] ∧ negative = true ∨ (sign = [] ∨ sign = ['+']) ∧ negative = false

theorem reads_readExponent (atEnd : Error) {sign digits rest : List Char} {negative : Bool}
    (signs : exponentSign sign negative) (nonempty : digits ≠ [])
    (each : ∀ digit ∈ digits, digit.isDigit = true) (ends : EndsDigits rest) :
    Reads (readExponent atEnd ('e' :: sign ++ digits ++ rest))
      (some (if negative then -(Nat.ofDigitChars 10 digits 0 : ℤ)
        else Nat.ofDigitChars 10 digits 0)) rest := by
  unfold readExponent
  extract_lets unsigned signed
  have size : ∀ negative, Reads (unsigned negative (digits ++ rest))
      (some (if negative then -(Nat.ofDigitChars 10 digits 0 : ℤ)
        else Nat.ofDigitChars 10 digits 0)) rest :=
    fun negative => (reads_readDigits atEnd nonempty each ends).bind fun within => .pure rfl rfl
  -- a digit is no sign
  have plain : ∀ text, (∀ first ∈ text.head?, first.isDigit = true) ->
      signed text = unsigned false text := by
    intro text starts
    simp only [signed]
    split
    · exact absurd (starts '+' rfl) (by decide)
    · exact absurd (starts '-' rfl) (by decide)
    · rfl
  have exponent : Reads (signed (sign ++ digits ++ rest))
      (some (if negative then -(Nat.ofDigitChars 10 digits 0 : ℤ)
        else Nat.ofDigitChars 10 digits 0)) rest := by
    obtain ⟨rfl, rfl⟩ | ⟨rfl | rfl, rfl⟩ := signs
    · exact (size true).bind fun within => .pure rfl rfl
    · rw [List.nil_append, plain (digits ++ rest)]
      · exact size false
      · intro first starts
        rw [List.head?_append_of_ne_nil _ nonempty] at starts
        exact each first (List.mem_of_mem_head? starts)
    · exact (size false).bind fun within => .pure rfl rfl
  exact exponent.bind fun within => .pure rfl rfl

theorem reads_readExponent_none (atEnd : Error) {text : List Char}
    (without : ∀ first ∈ text.head?, first ≠ 'e' ∧ first ≠ 'E') :
    Reads (readExponent atEnd text) none text := by
  unfold readExponent
  split
  · exact absurd rfl (without 'e' rfl).1
  · exact absurd rfl (without 'E' rfl).2
  · exact .ok rfl rfl

theorem reads_readUnsigned {atEnd : Error} {text afterWhole afterFraction rest whole : List Char}
    {fraction : Option (List Char)} {exponent : Option ℤ} (negative : Bool)
    (first : Reads (readWholeDigits atEnd text) whole afterWhole)
    (second : Reads (readFractionDigits atEnd afterWhole) fraction afterFraction)
    (third : Reads (readExponent atEnd afterFraction) exponent rest) :
    Reads (readUnsigned atEnd negative text)
      { negative
        isWhole := fraction.isNone && exponent.isNone
        decimal :=
          { coefficient := Nat.ofDigitChars 10 (whole ++ fraction.getD []) 0
            exponent := exponent.getD 0 - (fraction.getD []).length } } rest := by
  unfold readUnsigned
  exact first.bind fun _ => second.bind fun _ => third.bind fun _ => .pure rfl rfl

/-! ## Printed decimals -/

/-- The text reads as a numeral of the decimal's value, which is no whole number. -/
def Spells (text : List Char) (decimal : Decimal) : Prop :=
  ∀ atEnd negative rest, EndsNumeral rest ->
    ∃ numeral, Reads (readUnsigned atEnd negative (text ++ rest)) numeral rest ∧
      numeral.negative = negative ∧ numeral.isWhole = false ∧
      numeral.decimal.value = decimal.value

section Digits

variable (decimal : Decimal)

theorem digits_ne_nil : decimal.digits ≠ [] :=
  Nat.toDigits_ne_nil

theorem isDigit_of_mem_digits {digit : Char} (member : digit ∈ decimal.digits) :
    digit.isDigit = true :=
  Nat.isDigit_of_mem_toDigits (by norm_num) (by norm_num) member

theorem isDigit_of_mem_zeros {count : ℕ} {digit : Char}
    (member : digit ∈ List.replicate count '0') : digit.isDigit = true := by
  rw [List.eq_of_mem_replicate member]
  decide

theorem ofDigitChars_digits : Nat.ofDigitChars 10 decimal.digits 0 = decimal.coefficient :=
  Nat.ofDigitChars_ten_toDigits

/-- Only the digits of zero start with a zero. -/
theorem head?_toDigits (number : ℕ) (zero : (Nat.toDigits 10 number).head? = some '0') :
    number = 0 := by
  induction number using Nat.strong_induction_on with
  | h number ih =>
    by_cases small : number < 10
    · rw [Nat.toDigits_of_lt_base small] at zero
      interval_cases number <;> simp_all [Nat.digitChar]
    · rw [Nat.toDigits_of_base_le (by norm_num) (by omega),
        List.head?_append_of_ne_nil _ Nat.toDigits_ne_nil] at zero
      have := ih (number / 10) (by omega) zero
      omega

theorem head?_digits (zero : decimal.digits.head? = some '0') : decimal.coefficient = 0 :=
  head?_toDigits _ zero

end Digits

variable {decimal : Decimal}

theorem value_congr {coefficient : ℕ} {exponent : ℤ}
    (same : coefficient = decimal.coefficient) (too : exponent = decimal.exponent) :
    Decimal.value ⟨coefficient, exponent⟩ = decimal.value := by
  rw [same, too]

/-- A whole part and a fraction without an exponent. -/
theorem spells_of_parts {whole fraction : List Char} (wholeNonempty : whole ≠ [])
    (eachWhole : ∀ digit ∈ whole, digit.isDigit = true)
    (plain : whole.head? = some '0' -> whole = ['0']) (fractionNonempty : fraction ≠ [])
    (eachFraction : ∀ digit ∈ fraction, digit.isDigit = true)
    (same : Decimal.value ⟨Nat.ofDigitChars 10 (whole ++ fraction) 0, -fraction.length⟩ =
      decimal.value) : Spells (whole ++ '.' :: fraction) decimal := by
  intro atEnd negative rest ends
  have point : EndsDigits ('.' :: (fraction ++ rest)) := by
    intro first starts
    cases starts
    decide
  have reads := reads_readUnsigned negative
    (reads_readWholeDigits atEnd wholeNonempty eachWhole point plain)
    (reads_readFractionDigits atEnd fractionNonempty eachFraction ends.digits)
    (reads_readExponent_none atEnd fun first starts => (ends first starts).2.2)
  rw [List.append_assoc, List.cons_append]
  exact ⟨_, reads, rfl, rfl, by simpa using same⟩

/-- A whole number is written with zeros at its end and a fraction of zero. -/
theorem value_whole (up : 0 ≤ decimal.exponent) :
    Decimal.value ⟨Nat.ofDigitChars 10
      (decimal.digits ++ List.replicate decimal.exponent.toNat '0' ++ ['0']) 0,
      -(['0'] : List Char).length⟩ = decimal.value := by
  have power : (10 : ℚ) ^ decimal.exponent = 10 ^ decimal.exponent.toNat := by
    rw [← zpow_natCast, Int.toNat_of_nonneg up]
  rw [Nat.ofDigitChars_append, Nat.ofDigitChars_append, ofDigitChars_digits,
    Nat.ofDigitChars_replicate_zero]
  have last : ∀ number, Nat.ofDigitChars 10 ['0'] number = 10 * number := fun number => by
    simp [Nat.ofDigitChars_cons]
  rw [last, Decimal.value, Decimal.value, power]
  push_cast
  norm_num
  ring

theorem spells_positionalText (proper : decimal.coefficient = 0 -> decimal.exponent = 0) :
    Spells (decimal.positionalText true) decimal := by
  have each : ∀ digit ∈ decimal.digits, digit.isDigit = true :=
    fun _ member => isDigit_of_mem_digits decimal member
  have zeros : ∀ count, ∀ digit ∈ List.replicate count '0', digit.isDigit = true :=
    fun _ _ => isDigit_of_mem_zeros
  unfold Decimal.positionalText
  simp only
  split_ifs with whole short
  · have up : 0 ≤ decimal.exponent := by omega
    refine spells_of_parts ?_ ?_ ?_ (List.cons_ne_nil _ _) (zeros 1) (value_whole up)
    · simp [digits_ne_nil]
    · intro digit member
      rcases List.mem_append.1 member with inDigits | inZeros
      · exact each digit inDigits
      · exact zeros _ digit inZeros
    · intro zero
      rw [List.head?_append_of_ne_nil _ (digits_ne_nil decimal)] at zero
      have none := head?_digits decimal zero
      rw [proper none]
      simp [Decimal.digits, none]
  · refine spells_of_parts ?_ ?_ ?_ ?_ ?_ ?_
    · simp [digits_ne_nil]
      omega
    · exact fun digit member => each digit (List.mem_of_mem_take member)
    · intro zero
      rw [List.head?_take, if_neg (by omega)] at zero
      have := proper (head?_digits decimal zero)
      omega
    · simp
      omega
    · exact fun digit member => each digit (List.mem_of_mem_drop member)
    · refine value_congr ?_ ?_
      · rw [List.take_append_drop, ofDigitChars_digits]
      · rw [List.length_drop]
        omega
  · let fraction := List.replicate ((-decimal.exponent).toNat - decimal.digits.length) '0' ++
      decimal.digits
    suffices spells : Spells (['0'] ++ '.' :: fraction) decimal by
      simpa [fraction] using spells
    refine spells_of_parts (List.cons_ne_nil _ _) (zeros 1) (fun _ => rfl) ?_ ?_ ?_
    · simp [fraction, digits_ne_nil]
    · intro digit member
      rcases List.mem_append.1 member with inZeros | inDigits
      · exact zeros _ digit inZeros
      · exact each digit inDigits
    · refine value_congr ?_ ?_
      · rw [Nat.ofDigitChars_append, Nat.ofDigitChars_append, Nat.ofDigitChars_replicate_zero]
        simp [Nat.ofDigitChars_cons, ofDigitChars_digits]
      · simp only [fraction, List.length_append, List.length_replicate]
        omega

/-- The exponent as it is written, with its sign. -/
theorem reads_exponentText (atEnd : Error) (signsExponent : Bool) {rest : List Char}
    (exponent : ℤ) (ends : EndsDigits rest) :
    let sign := if exponent < 0 then ['-'] else if signsExponent then ['+'] else []
    Reads (readExponent atEnd ('e' :: sign ++ Nat.toDigits 10 exponent.natAbs ++ rest))
      (some exponent) rest := by
  intro sign
  have digits : ∀ digit ∈ Nat.toDigits 10 exponent.natAbs, digit.isDigit = true :=
    fun digit member => Nat.isDigit_of_mem_toDigits (by norm_num) (by norm_num) member
  have signs : exponentSign sign (decide (exponent < 0)) := by
    simp only [exponentSign, sign]
    split_ifs <;> simp_all
  have reads := reads_readExponent atEnd signs Nat.toDigits_ne_nil digits ends
  rw [Nat.ofDigitChars_ten_toDigits] at reads
  have same : (if decide (exponent < 0) = true then -(exponent.natAbs : ℤ)
      else exponent.natAbs) = exponent := by
    simp only [decide_eq_true_eq]
    split_ifs <;> omega
  rwa [same] at reads

/-- The digits after the first one are a fraction, if there are any. -/
theorem reads_fractionText (atEnd : Error) {digits rest : List Char}
    (each : ∀ digit ∈ digits, digit.isDigit = true) (ends : EndsDigits rest)
    (without : ∀ first ∈ rest.head?, first ≠ '.') :
    ∃ fraction, Reads (readFractionDigits atEnd
        ((if digits.isEmpty then [] else '.' :: digits) ++ rest)) fraction rest ∧
      fraction.getD [] = digits := by
  cases digits with
  | nil => exact ⟨none, reads_readFractionDigits_none atEnd without, rfl⟩
  | cons first others =>
    exact ⟨some (first :: others),
      reads_readFractionDigits atEnd (List.cons_ne_nil _ _) each ends, rfl⟩

theorem spells_scientificText (signsExponent : Bool) :
    Spells (decimal.scientificText signsExponent) decimal := by
  intro atEnd negative rest ends
  let sign := if decimal.leadingExponent < 0 then ['-'] else if signsExponent then ['+'] else []
  let exponentText := 'e' :: sign ++ Nat.toDigits 10 decimal.leadingExponent.natAbs ++ rest
  have third : Reads (readExponent atEnd exponentText) (some decimal.leadingExponent) rest :=
    reads_exponentText atEnd signsExponent decimal.leadingExponent ends.digits
  obtain ⟨first, others, parts⟩ := List.exists_cons_of_ne_nil (digits_ne_nil decimal)
  have each : ∀ digit ∈ first :: others, digit.isDigit = true :=
    fun digit member => isDigit_of_mem_digits decimal (parts ▸ member)
  have startsExponent : ∀ first ∈ exponentText.head?, first = 'e' := by
    intro first starts
    cases starts
    rfl
  obtain ⟨fraction, second, digits⟩ := @reads_fractionText atEnd others exponentText
    (fun digit member => each digit (List.mem_cons_of_mem _ member))
    (fun first starts => startsExponent first starts ▸ by decide)
    (fun first starts => startsExponent first starts ▸ by decide)
  have text : decimal.scientificText signsExponent ++ rest =
      [first] ++ ((if others.isEmpty then [] else '.' :: others) ++ exponentText) := by
    simp [Decimal.scientificText, parts, exponentText, sign]
  have afterFirst : EndsDigits
      ((if others.isEmpty then [] else '.' :: others) ++ exponentText) := by
    intro digit starts
    cases others with
    | nil =>
      cases starts
      decide
    | cons second more =>
      cases starts
      decide
  rw [text]
  refine ⟨_, reads_readUnsigned negative (reads_readWholeDigits atEnd (List.cons_ne_nil _ _)
    (fun digit member => each digit ?_) afterFirst (by simp)) second third, rfl, ?_, ?_⟩
  · rw [List.mem_singleton.1 member]
    exact List.mem_cons_self
  · simp
  · refine value_congr ?_ ?_
    · rw [digits, List.singleton_append, ← parts, ofDigitChars_digits]
    · rw [digits, Option.getD_some, Decimal.leadingExponent, parts, List.length_cons]
      push_cast
      ring

/-! ## Printed doubles -/

/-- A text that a numeral is read from starts with a digit. -/
theorem exists_digit_of_reads {atEnd : Error} {negative : Bool} {text rest : List Char}
    {numeral : Numeral} (reads : Reads (readUnsigned atEnd negative text) numeral rest) :
    ∃ first others, text = first :: others ∧ first.isDigit = true := by
  obtain ⟨within, read⟩ := reads
  simp only [readUnsigned, readWholeDigits, bind_eq_ok_iff] at read
  obtain ⟨_, ⟨_, digits, -⟩, -⟩ := read
  cases text with
  | nil => cases digits
  | cons first others =>
    refine ⟨first, others, rfl, ?_⟩
    simp only [readDigits] at digits
    split at digits
    · assumption
    · cases digits

theorem reads_readNumeral_negative {atEnd : Error} {text rest : List Char} {numeral : Numeral}
    (reads : Reads (readUnsigned atEnd true text) numeral rest) :
    Reads (readNumeral atEnd ('-' :: text)) numeral rest := by
  unfold readNumeral
  exact reads.bind fun _ => .pure rfl rfl

/-- A digit is no sign. -/
theorem reads_readNumeral {atEnd : Error} {text rest : List Char} {numeral : Numeral}
    (reads : Reads (readUnsigned atEnd false text) numeral rest) :
    Reads (readNumeral atEnd text) numeral rest := by
  obtain ⟨first, others, starts, isDigit⟩ := exists_digit_of_reads reads
  unfold readNumeral
  split
  · cases starts
    exact absurd isDigit (by decide)
  · exact reads

/-- The character is the sign or a digit of a number. -/
def OpensNumber (first : Char) : Prop :=
  first = '-' ∨ first.isDigit = true

theorem OpensNumber.ne {first other : Char} (opens : OpensNumber first) (noSign : other ≠ '-')
    (noDigit : other.isDigit = false) : first ≠ other := by
  rintro rfl
  rcases opens with sign | digit
  · exact noSign sign
  · exact Bool.false_ne_true (noDigit.symm.trans digit)

/-- A text that a signed numeral is read from starts with its sign or with a digit. -/
theorem exists_opening_of_reads {atEnd : Error} {text rest : List Char} {numeral : Numeral}
    (reads : Reads (readNumeral atEnd text) numeral rest) :
    ∃ first others, text = first :: others ∧ OpensNumber first := by
  by_cases sign : ∃ others, text = '-' :: others
  · obtain ⟨others, rfl⟩ := sign
    exact ⟨'-', others, rfl, .inl rfl⟩
  · rw [readNumeral] at reads
    · obtain ⟨first, others, starts, digit⟩ := exists_digit_of_reads reads
      exact ⟨first, others, starts, .inr digit⟩
    · exact fun others starts => sign ⟨others, starts⟩

variable {number : Double}

/-- The decimal that is printed for the magnitude of a finite double. -/
def printed (number : Double) : Decimal :=
  if number.isZero then ⟨0, 0⟩ else number.shortest .even

/-- What has the value that is printed for a double is read as the double. -/
theorem toDouble_of_printed (finite : number.isFinite = true)
    (same : decimal.value = (printed number).value) :
    decimal.toDouble number.isNegative = number := by
  unfold printed at same
  split at same
  · next zero =>
    have none : decimal.coefficient = 0 := by
      have power : (10 : ℚ) ^ decimal.exponent ≠ 0 := zpow_ne_zero _ (by norm_num)
      simpa [Decimal.value, power] using same
    have magnitude : number.magnitudeBits = 0 := by simpa [Double.isZero] using zero
    have whole := Double.ofMagnitude_magnitudeBits finite
    rw [magnitude] at whole
    rw [Decimal.toDouble, if_pos none]
    exact whole
  · next nonzero =>
    have positive := Double.significand_pos nonzero
    refine Decimal.toDouble_of_owns finite positive ?_
    rw [same]
    exact Double.owns_shortest positive .even

theorem spells_decimal (proper : decimal.coefficient = 0 -> decimal.exponent = 0) :
    Spells (numberLayout.decimal decimal) decimal := by
  unfold Layout.decimal
  split
  · exact spells_positionalText proper
  · exact spells_scientificText _

/-- A decimal that is printed has no exponent without digits. -/
theorem printed_proper (zero : (printed number).coefficient = 0) :
    (printed number).exponent = 0 := by
  unfold printed at zero ⊢
  split at zero
  · next isZero => rw [if_pos isZero]
  · next nonzero =>
    have positive := Double.significand_pos nonzero
    have digits := Decimal.coefficient_pos_of_owns positive (Double.owns_shortest positive .even)
    exact absurd zero digits.ne'

theorem magnitude_eq_printed (finite : number.isFinite = true) :
    numberLayout.magnitude number = numberLayout.decimal (printed number) := by
  rw [Layout.magnitude, Double.isInfinite_eq_false finite, if_neg Bool.false_ne_true, printed]
  split_ifs <;> rfl

/-- A printed double is read as a numeral that is no whole number and stands for the same
double. -/
theorem reads_readNumeral_double (atEnd : Error) (finite : number.isFinite = true)
    {rest : List Char} (ends : EndsNumeral rest) :
    ∃ numeral, Reads (readNumeral atEnd (numberLayout.double number ++ rest)) numeral rest ∧
      numeral.isWhole = false ∧ numeral.decimal.toDouble numeral.negative = number := by
  obtain ⟨numeral, reads, sign, fraction, same⟩ :=
    spells_decimal printed_proper atEnd number.isNegative rest ends
  rw [Layout.double, Double.isNaN_eq_false finite, magnitude_eq_printed finite]
  have value := toDouble_of_printed finite same
  cases negative : number.isNegative with
  | true =>
    rw [negative] at reads sign value
    exact ⟨numeral, reads_readNumeral_negative reads, fraction, sign ▸ value⟩
  | false =>
    rw [negative] at reads sign value
    exact ⟨numeral, reads_readNumeral reads, fraction, sign ▸ value⟩

/-! ## Printed whole numbers -/

theorem reads_readUnsigned_whole (atEnd : Error) (negative : Bool) (size : ℕ) {rest : List Char}
    (ends : EndsNumeral rest) :
    Reads (readUnsigned atEnd negative (Nat.toDigits 10 size ++ rest))
      ⟨negative, true, ⟨size, 0⟩⟩ rest := by
  have each : ∀ digit ∈ Nat.toDigits 10 size, digit.isDigit = true :=
    fun digit member => Nat.isDigit_of_mem_toDigits (by norm_num) (by norm_num) member
  have plain : (Nat.toDigits 10 size).head? = some '0' -> Nat.toDigits 10 size = ['0'] := by
    intro zero
    rw [head?_toDigits size zero, Nat.toDigits_zero]
  have reads := reads_readUnsigned negative
    (reads_readWholeDigits atEnd Nat.toDigits_ne_nil each ends.digits plain)
    (reads_readFractionDigits_none atEnd fun first starts => (ends first starts).2.1)
    (reads_readExponent_none atEnd fun first starts => (ends first starts).2.2)
  simpa [Nat.ofDigitChars_ten_toDigits] using reads

/-- A printed whole number is read as a numeral of the number. -/
theorem reads_readNumeral_integerText (atEnd : Error) (value : ℤ) {rest : List Char}
    (ends : EndsNumeral rest) :
    Reads (readNumeral atEnd (integerText value ++ rest))
      ⟨decide (value < 0), true, ⟨value.natAbs, 0⟩⟩ rest := by
  by_cases negative : value < 0
  · have text : integerText value = '-' :: Nat.toDigits 10 value.natAbs := if_pos negative
    rw [text, decide_eq_true negative]
    exact reads_readNumeral_negative (reads_readUnsigned_whole atEnd true _ ends)
  · have text : integerText value = Nat.toDigits 10 value.natAbs := if_neg negative
    rw [text, decide_eq_false negative]
    exact reads_readNumeral (reads_readUnsigned_whole atEnd false _ ends)

/-! ## Printed numbers -/

theorem exists_opening (number : Number) :
    ∃ first others, number.characters = first :: others ∧ OpensNumber first := by
  cases number with
  | whole value atLeast below =>
    have reads := reads_readNumeral_integerText .unfinished value endsNumeral_nil
    rw [List.append_nil] at reads
    exact exists_opening_of_reads reads
  | double value finite =>
    obtain ⟨numeral, reads, -⟩ := reads_readNumeral_double .unfinished finite endsNumeral_nil
    rw [List.append_nil] at reads
    exact exists_opening_of_reads reads

/-- The numeral of a whole number of 64 bits stands for it. -/
theorem number?_whole (value : ℤ) (atLeast : -0x8000000000000000 ≤ value)
    (below : value < 0x10000000000000000) :
    Numeral.number? ⟨decide (value < 0), true, ⟨value.natAbs, 0⟩⟩ =
      some (.whole value atLeast below) := by
  by_cases negative : value < 0
  · have small : 0 < value.natAbs ∧ value.natAbs ≤ 0x8000000000000000 := by omega
    simp [Numeral.number?, negative, small, abs_of_neg negative]
  · have small : value.natAbs < 0x10000000000000000 := by omega
    have size : |value| = value := abs_of_nonneg (by omega)
    simp [Numeral.number?, negative, small, size]

/-- A numeral with a point or an exponent stands for its double. -/
theorem number?_double {numeral : Numeral} {value : Double} (finite : value.isFinite = true)
    (fraction : numeral.isWhole = false)
    (same : numeral.decimal.toDouble numeral.negative = value) :
    numeral.number? = some (.double value finite) := by
  subst same
  simp [Numeral.number?, fraction, Numeral.double?, finite]

/-- A printed number is read as the number. -/
theorem reads_readNumber (number : Number) {rest : List Char} (ends : EndsNumeral rest) :
    Reads (readNumber (number.characters ++ rest)) number rest := by
  unfold readNumber
  cases number with
  | whole value atLeast below =>
    refine (reads_readNumeral_integerText _ value ends).bind fun _ => ?_
    simp only [number?_whole value atLeast below]
    exact .pure rfl rfl
  | double value finite =>
    obtain ⟨numeral, reads, fraction, same⟩ := reads_readNumeral_double .unfinished finite ends
    refine reads.bind fun _ => ?_
    simp only [number?_double finite fraction same]
    exact .pure rfl rfl

end ScriptConsole.Json
