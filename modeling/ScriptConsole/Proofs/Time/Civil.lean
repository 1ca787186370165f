import ScriptConsole.Proofs.Time.Reading

/-!
# Written times and universal time

What is written is a civil date and time with an offset. The moment is found by taking the offset
away, which may lead to the day before or the day after, over the end of a month or a year. The
text of a moment is read back as the moment, and has no more fraction digits than it needs.
-/

namespace ScriptConsole.Time

open Grammar
open Json (EndsDigits)
open Json.Grammar (Digits)

/-! ## Taking the offset away -/

section Carries

variable {date : Date} {second : ℤ} {moment : Timestamp} {written : Written}

/-- The moment lies so many seconds after the start of the date, which may be on the day before or
on the day after. -/
inductive Carries (date : Date) (second : ℤ) (moment : Timestamp) : Prop where
  | sameDay (notEarlier : 0 ≤ second) (earlier : second < 86400) (same : moment.date = date)
      (left : moment.second % 86400 = second)
  | nextDay (notEarlier : 86400 ≤ second) (earlier : second < 172800)
      (next : moment.date = date.next) (left : moment.second % 86400 = second - 86400)
  | dayBefore (notEarlier : -86400 ≤ second) (earlier : second < 0)
      (isValid : moment.date.isValid = true) (next : moment.date.next = date)
      (left : moment.second % 86400 = second + 86400)

theorem carries_of_second (valid : date.isValid = true)
    (starts : moment.second = date.dayNumber * 86400 + second) (notEarlier : -86400 ≤ second)
    (earlier : second < 172800) : Carries date second moment := by
  -- an offset is less than a day, so only the two days beside the date can be reached
  have isDate : Date.ofDayNumber date.dayNumber = date := Date.ofDayNumber_dayNumber valid
  by_cases negative : second < 0
  · have day : moment.second / 86400 = date.dayNumber - 1 := by omega
    refine .dayBefore notEarlier negative ?_ ?_ (by omega)
    · exact Date.isValid_ofDayNumber _
    · rw [Timestamp.date, day, ← Date.ofDayNumber_succ, Int.sub_add_cancel, isDate]
  · by_cases inDay : second < 86400
    · have day : moment.second / 86400 = date.dayNumber := by omega
      exact .sameDay (by omega) inDay (by rw [Timestamp.date, day, isDate]) (by omega)
    · have day : moment.second / 86400 = date.dayNumber + 1 := by omega
      refine .nextDay (by omega) earlier ?_ (by omega)
      rw [Timestamp.date, day, Date.ofDayNumber_succ, isDate]

/-- The seconds from the start of the written date, in universal time. -/
def Written.universalSecond (written : Written) : ℤ :=
  written.hour * 3600 + written.minute * 60 + written.second - written.offset

theorem Written.second_div (noLeap : written.second ≤ 59) : written.second / 60 = 0 :=
  Nat.div_eq_of_lt (Nat.lt_succ_of_le noLeap)

/-- What is written is the moment once the offset is taken away. -/
theorem Written.carries (proper : written.Proper) (noLeap : written.second ≤ 59) :
    Carries written.date written.universalSecond written.moment := by
  have hours := proper.hour
  have minutes := proper.minute
  have west := proper.west
  have east := proper.east
  refine carries_of_second proper.isValid ?_ ?_ ?_
  · rw [Written.moment, Timestamp.ofCivil, Written.second_div noLeap, Written.universalSecond,
      Nat.sub_zero]
    push_cast
    ring
  · rw [Written.universalSecond]
    omega
  · rw [Written.universalSecond]
    omega

theorem Written.nanosecond_lt (digits : ∀ digit ∈ written.fraction, digit.isDigit = true) :
    written.nanosecond < 1000000000 := by
  have kept : ∀ digit ∈ written.fraction.take 9, digit.isDigit = true :=
    fun digit member => digits digit (List.mem_of_mem_take member)
  have below := ofDigitChars_lt kept 0
  rw [Nat.zero_add, Nat.one_mul] at below
  have short : (written.fraction.take 9).length ≤ 9 := List.length_take_le _ _
  calc written.nanosecond
      < 10 ^ (written.fraction.take 9).length * 10 ^ (9 - (written.fraction.take 9).length) :=
        Nat.mul_lt_mul_of_pos_right below (Nat.pow_pos (by decide))
    _ = 1000000000 := by rw [← Nat.pow_add, Nat.add_sub_cancel' short]

end Carries

/-! ## Padded numbers -/

section Padded

variable (width value : ℕ)

theorem digits_paddedDigits : Digits (paddedDigits width value) where
  nonempty := by
    intro empty
    exact Nat.toDigits_ne_nil (List.append_eq_nil_iff.1 empty).2
  isDigit := by
    intro digit member
    rcases List.mem_append.1 member with zeros | shown
    · exact Json.isDigit_of_mem_zeros zeros
    · exact Nat.isDigit_of_mem_toDigits (by decide) (by decide) shown

theorem ofDigitChars_paddedDigits : Nat.ofDigitChars 10 (paddedDigits width value) 0 = value := by
  rw [paddedDigits, Nat.ofDigitChars_append, Nat.ofDigitChars_replicate_zero, Nat.mul_zero,
    Nat.ofDigitChars_ten_toDigits]

variable {width value}

/-- A number that fits has exactly as many digits as asked for. -/
theorem length_paddedDigits (positive : 0 < width) (fits : value < 10 ^ width) :
    (paddedDigits width value).length = width := by
  have short := (Nat.length_toDigits_le_iff (by decide : 1 < 10) positive).2 fits
  rw [paddedDigits, List.length_append, List.length_replicate]
  omega

theorem number_paddedDigits (positive : 0 < width) (fits : value < 10 ^ width) :
    Number width value (paddedDigits width value) := by
  have number := Number.digits (digits_paddedDigits width value)
    (length_paddedDigits positive fits).le
  rwa [ofDigitChars_paddedDigits] at number

theorem part_paddedDigits (fits : value < 100) : Part value (paddedDigits 2 value) :=
  @Part.part value [] _ .nil (number_paddedDigits Nat.two_pos fits)

end Padded

/-! ## Fractions -/

section Fractions

variable {nanosecond : ℕ}

/-- The fewest of 0, 3, 6 and 9 digits whose fraction of a second is exactly that many
nanoseconds. -/
structure FewestDigits (nanosecond : ℕ) (digits : List Char) : Prop where
  width : digits.length ∈ [0, 3, 6, 9]
  exact : Nat.ofDigitChars 10 digits 0 * 10 ^ (9 - digits.length) = nanosecond
  fewest : ∀ width ∈ [0, 3, 6, 9], 10 ^ (9 - width) ∣ nanosecond -> digits.length ≤ width

/-- The digits of a printed fraction. -/
def fractionDigits (nanosecond : ℕ) : List Char :=
  if nanosecond = 0 then []
  else if nanosecond % 1000000 = 0 then paddedDigits 3 (nanosecond / 1000000)
  else if nanosecond % 1000 = 0 then paddedDigits 6 (nanosecond / 1000)
  else paddedDigits 9 nanosecond

theorem fraction_fractionText (nanosecond : ℕ) :
    Fraction (fractionDigits nanosecond) (fractionText nanosecond) := by
  unfold fractionDigits fractionText
  split
  · exact .none
  · split
    · exact .digits (digits_paddedDigits _ _)
    · split <;> exact .digits (digits_paddedDigits _ _)

theorem forall_widths {property : ℕ -> Prop} :
    (∀ width ∈ [0, 3, 6, 9], property width) ↔
      property 0 ∧ property 3 ∧ property 6 ∧ property 9 := by
  simp only [List.forall_mem_cons, List.not_mem_nil, false_imp_iff, implies_true, and_true]

/-- Digits of a width are the fewest if they are exact and no smaller width is. -/
theorem fewestDigits_paddedDigits {width value : ℕ} (listed : width ∈ [3, 6, 9])
    (fits : value < 10 ^ width) (exact : value * 10 ^ (9 - width) = nanosecond)
    (fewest : ∀ smaller ∈ [0, 3, 6, 9], 10 ^ (9 - smaller) ∣ nanosecond -> width ≤ smaller) :
    FewestDigits nanosecond (paddedDigits width value) := by
  have positive : 0 < width := by
    simp only [List.mem_cons, List.not_mem_nil, or_false] at listed
    omega
  have length := length_paddedDigits positive fits
  refine ⟨?_, ?_, ?_⟩
  · rw [length]
    exact List.mem_cons_of_mem 0 listed
  · rw [ofDigitChars_paddedDigits, length, exact]
  · rw [length]
    exact fewest

theorem fewestDigits_fractionDigits (small : nanosecond < 1000000000) :
    FewestDigits nanosecond (fractionDigits nanosecond) := by
  unfold fractionDigits
  split
  · next zero => exact ⟨by simp, by simp [zero], by simp⟩
  · next notZero =>
    split
    · next whole =>
      refine fewestDigits_paddedDigits (by simp) (by omega) (by omega) ?_
      rw [forall_widths]
      norm_num
      omega
    · next notMilli =>
      split
      · next whole =>
        refine fewestDigits_paddedDigits (by simp) (by omega) (by omega) ?_
        rw [forall_widths]
        norm_num
        omega
      · next notMicro =>
        refine fewestDigits_paddedDigits (by simp) small (by omega) ?_
        rw [forall_widths]
        norm_num
        omega

end Fractions

/-! ## The text of a moment -/

section Shown

variable {moment : Timestamp}

theorem year_yearText (year : ℤ) : Year year (yearText year) := by
  have padded := digits_paddedDigits 4 year.natAbs
  unfold yearText
  dsimp only
  split
  · next negative =>
    have isYear := Year.negative .nil padded
    rw [ofDigitChars_paddedDigits] at isYear
    have same : -(year.natAbs : ℤ) = year := by omega
    rwa [same] at isYear
  · split
    · next large =>
      have isYear := Year.positive .nil padded
      rw [ofDigitChars_paddedDigits] at isYear
      have same : (year.natAbs : ℤ) = year := by omega
      rwa [same] at isYear
    · next small =>
      have fits : year.natAbs < 10 ^ 4 := by omega
      have isYear := Year.plain .nil (number_paddedDigits (by decide) fits)
      have same : (year.natAbs : ℤ) = year := by omega
      rwa [same] at isYear

theorem mark_singleton (mark : Char) : Mark mark [mark] :=
  @Mark.mark mark [] .nil

theorem dateText_shown {date : Date} (valid : date.isValid = true) : DateText date
    (yearText date.year ++ '-' :: (paddedDigits 2 date.month ++ '-' :: paddedDigits 2 date.day)) := by
  obtain ⟨⟨-, lastMonth⟩, -, lastDay⟩ := Date.isValid_iff.1 valid
  have days := lastDay.trans (daysInMonth_le date.year date.month)
  obtain ⟨year, month, day⟩ := date
  exact .date (year_yearText year) (mark_singleton '-')
    (part_paddedDigits (Nat.lt_of_le_of_lt lastMonth (by decide))) (mark_singleton '-')
    (part_paddedDigits (Nat.lt_of_le_of_lt days (by decide)))

theorem clockText_shown {hour minute second : ℕ} (hours : hour < 100) (minutes : minute < 100)
    (seconds : second < 100) (nanosecond : ℕ) :
    ClockText hour minute second (fractionDigits nanosecond) (paddedDigits 2 hour ++
      ':' :: (paddedDigits 2 minute ++ ':' :: (paddedDigits 2 second ++ fractionText nanosecond))) :=
  .clock (part_paddedDigits hours) (mark_singleton ':') (part_paddedDigits minutes)
    (mark_singleton ':') (part_paddedDigits seconds) (fraction_fractionText nanosecond)

/-- The parts that the text of a moment shows. -/
def Timestamp.shown (moment : Timestamp) : Written where
  date := moment.date
  hour := (moment.second % 86400).toNat / 3600
  minute := (moment.second % 86400).toNat / 60 % 60
  second := (moment.second % 86400).toNat % 60
  fraction := fractionDigits moment.nanosecond
  offset := 0

theorem characters_shown (noLeap : moment.nanosecond < 1000000000) : moment.characters =
    (yearText moment.shown.date.year ++ '-' :: (paddedDigits 2 moment.shown.date.month ++
      '-' :: paddedDigits 2 moment.shown.date.day)) ++ ('T' :: ((paddedDigits 2 moment.shown.hour ++
      ':' :: (paddedDigits 2 moment.shown.minute ++ ':' :: (paddedDigits 2 moment.shown.second ++
      fractionText moment.nanosecond))) ++ ([] ++ (['Z'] ++ [])))) := by
  unfold Timestamp.characters
  dsimp only [Timestamp.shown]
  rw [Nat.div_eq_of_lt noLeap, Nat.mod_eq_of_lt noLeap, Nat.add_zero]
  simp only [List.append_assoc, List.cons_append, List.nil_append, List.append_nil]

/-- The text of a moment shows its parts in universal time. -/
theorem timestampText_characters (noLeap : moment.nanosecond < 1000000000) :
    TimestampText moment.shown moment.characters := by
  have hours : moment.shown.hour < 100 := by
    dsimp only [Timestamp.shown]
    omega
  have minutes : moment.shown.minute < 100 := by
    dsimp only [Timestamp.shown]
    omega
  have seconds : moment.shown.second < 100 := by
    dsimp only [Timestamp.shown]
    omega
  rw [characters_shown noLeap]
  exact .text (dateText_shown (Date.isValid_ofDayNumber _)) (.inl rfl)
    (clockText_shown hours minutes seconds moment.nanosecond) .nil (.zulu (.inl rfl)) .nil

theorem proper_shown (first : firstYear ≤ moment.date.year) (last : moment.date.year ≤ lastYear) :
    moment.shown.Proper where
  isValid := Date.isValid_ofDayNumber _
  firstYear := first
  lastYear := last
  hour := by
    dsimp only [Timestamp.shown]
    omega
  minute := by
    dsimp only [Timestamp.shown]
    omega
  second := by
    dsimp only [Timestamp.shown]
    omega
  west := show -86400 < (0 : ℤ) by decide
  east := show (0 : ℤ) < 86400 by decide

theorem nanosecond_shown (noLeap : moment.nanosecond < 1000000000) :
    moment.shown.nanosecond = moment.nanosecond := by
  obtain ⟨width, exact, -⟩ := fewestDigits_fractionDigits noLeap
  have bounded : ∀ width ∈ [0, 3, 6, 9], width ≤ 9 := by decide
  have short := bounded _ width
  rw [Written.nanosecond, Timestamp.shown, List.take_of_length_le short, exact]

/-- The moment that the text shows is the moment. -/
theorem moment_shown (noLeap : moment.nanosecond < 1000000000) : moment.shown.moment = moment := by
  have seconds : moment.shown.second / 60 = 0 := by
    dsimp only [Timestamp.shown]
    omega
  have day : moment.date.dayNumber = moment.second / 86400 := Date.dayNumber_ofDayNumber _
  rw [Written.moment, seconds, nanosecond_shown noLeap]
  obtain ⟨second, nanosecond⟩ := moment
  simp only [Timestamp.ofCivil, Timestamp.mk.injEq]
  refine ⟨?_, by omega⟩
  dsimp only [Timestamp.shown] at day ⊢
  rw [day]
  omega

/-- The text of a moment is read back as the moment. -/
theorem parse_characters (first : firstYear ≤ moment.date.year) (last : moment.date.year ≤ lastYear)
    (noLeap : moment.nanosecond < 1000000000) : Timestamp.parse moment.characters = .ok moment :=
  parse_eq_ok_iff.2 ⟨moment.shown, timestampText_characters noLeap, proper_shown first last,
    (moment_shown noLeap).symm, first, last⟩

/-- A text in universal time: it ends in `Z` and has the fewest digits for the fraction. -/
structure UniversalText (moment : Timestamp) (shown : Written) (text : List Char) : Prop where
  isText : TimestampText shown text
  universal : shown.offset = 0
  ends : text.getLast? = some 'Z'
  fewest : FewestDigits moment.nanosecond shown.fraction

theorem universalText_characters (noLeap : moment.nanosecond < 1000000000) :
    UniversalText moment moment.shown moment.characters where
  isText := timestampText_characters noLeap
  universal := rfl
  ends := List.getLast?_concat
  fewest := fewestDigits_fractionDigits noLeap

end Shown

/-! ## What is read -/

section Read

variable {text : List Char} {moment : Timestamp} {civil : Written}

theorem isDigit_of_fraction {digits : List Char} (isFraction : Fraction digits text) :
    ∀ digit ∈ digits, digit.isDigit = true := by
  cases isFraction with
  | none => nofun
  | digits proper => exact proper.isDigit

theorem isDigit_of_timestampText (isText : TimestampText civil text) :
    ∀ digit ∈ civil.fraction, digit.isDigit = true := by
  obtain ⟨-, -, isClock, -, -, -⟩ := isText
  cases isClock with
  | clock _ _ _ _ _ isFraction => exact isDigit_of_fraction isFraction

/-- A moment without a leap second is what any reading of its text gives with the offset taken
away, to the nanosecond. -/
theorem carries_of_parse (isText : TimestampText civil text) (proper : civil.Proper)
    (noLeap : civil.second ≤ 59) (read : Timestamp.parse text = .ok moment) :
    Carries civil.date civil.universalSecond moment ∧ moment.nanosecond = civil.nanosecond := by
  rw [moment_of_timestampText isText proper read]
  refine ⟨civil.carries proper noLeap, ?_⟩
  rw [Written.moment, Timestamp.ofCivil, Written.second_div noLeap, Nat.zero_mul, Nat.zero_add]

end Read

end ScriptConsole.Time
