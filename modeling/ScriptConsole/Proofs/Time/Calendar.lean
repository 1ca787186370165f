import Mathlib.Tactic
import ScriptConsole.Time.Date

/-!
# The calendar and the count of days

Dates and day numbers are each other's: every day number is that of one date that exists. The
date after another one, said by the calendar alone, has the next day number.
-/

namespace ScriptConsole.Time

/-! ## Years and months -/

/-- The days of a year. -/
def daysInYear (year : ℤ) : ℕ :=
  if isLeapYear year then 366 else 365

theorem daysBeforeYear_succ (year : ℤ) :
    daysBeforeYear (year + 1) = daysBeforeYear year + daysInYear year := by
  unfold daysBeforeYear daysInYear isLeapYear
  simp only [Bool.and_eq_true, Bool.or_eq_true, decide_eq_true_eq]
  split <;> omega

theorem daysBeforeYear_mono {year later : ℤ} (notEarlier : year ≤ later) :
    daysBeforeYear year ≤ daysBeforeYear later := by
  simp only [daysBeforeYear]
  omega

theorem daysInMonth_pos (year : ℤ) (month : ℕ) : 0 < daysInMonth year month := by
  unfold daysInMonth
  split <;> first | split <;> decide | decide

/-- The days before the month after a month. -/
theorem daysBeforeMonth_succ (year : ℤ) {month : ℕ} (proper : 1 ≤ month) :
    daysBeforeMonth year (month + 1) = daysBeforeMonth year month + daysInMonth year month := by
  obtain ⟨month, rfl⟩ := Nat.exists_eq_add_of_le' proper
  rfl

theorem daysBeforeMonth_mono (year : ℤ) {month later : ℕ} (proper : 1 ≤ month)
    (notEarlier : month ≤ later) : daysBeforeMonth year month ≤ daysBeforeMonth year later := by
  induction later, notEarlier using Nat.le_induction with
  | base => exact Nat.le_refl _
  | succ later notEarlier ih =>
    rw [daysBeforeMonth_succ year (proper.trans notEarlier)]
    exact ih.trans (Nat.le_add_right _ _)

/-- The twelve months make up the year. -/
theorem daysBeforeMonth_thirteen (year : ℤ) : daysBeforeMonth year 13 = daysInYear year := by
  unfold daysInYear
  simp only [daysBeforeMonth, daysInMonth]
  split <;> rfl

namespace Date

variable {date : Date} {number : ℤ}

theorem isValid_iff : date.isValid = true ↔
    (1 ≤ date.month ∧ date.month ≤ 12) ∧ 1 ≤ date.day ∧
      date.day ≤ daysInMonth date.year date.month := by
  simp only [isValid, Bool.and_eq_true, decide_eq_true_eq]
  tauto

/-! ## The next date -/

/-- The date after another one: the next day of the month, or the first of the next month, or the
first of January. -/
def next (date : Date) : Date :=
  if date.day < daysInMonth date.year date.month then ⟨date.year, date.month, date.day + 1⟩
  else if date.month < 12 then ⟨date.year, date.month + 1, 1⟩
  else ⟨date.year + 1, 1, 1⟩

theorem isValid_next (valid : date.isValid = true) : date.next.isValid = true := by
  obtain ⟨⟨firstMonth, lastMonth⟩, firstDay, lastDay⟩ := isValid_iff.1 valid
  unfold next
  rw [isValid_iff]
  split
  · next inside => exact ⟨⟨firstMonth, lastMonth⟩, by simp, inside⟩
  · split
    · next before => exact ⟨⟨by simp, before⟩, Nat.le_refl _, daysInMonth_pos _ _⟩
    · exact ⟨by simp, Nat.le_refl _, daysInMonth_pos _ _⟩

/-- The next date has the next day number. -/
theorem dayNumber_next (valid : date.isValid = true) :
    date.next.dayNumber = date.dayNumber + 1 := by
  obtain ⟨⟨firstMonth, lastMonth⟩, firstDay, lastDay⟩ := isValid_iff.1 valid
  unfold next
  split
  · simp only [dayNumber]
    push_cast
    ring
  · next inside =>
    have isLast : date.day = daysInMonth date.year date.month := by omega
    split
    · simp only [dayNumber, daysBeforeMonth_succ date.year firstMonth, isLast]
      push_cast
      ring
    · next before =>
      have december : date.month = 12 := by omega
      have whole := daysBeforeMonth_succ date.year firstMonth
      rw [december, daysBeforeMonth_thirteen] at whole
      simp only [dayNumber, daysBeforeYear_succ, isLast, december, whole, daysBeforeMonth]
      push_cast
      ring

/-! ## From day numbers to dates -/

/-- The day number lies in the year. -/
theorem yearOfDay_spec (number : ℤ) :
    daysBeforeYear (yearOfDay number) ≤ number ∧
      number < daysBeforeYear (yearOfDay number + 1) := by
  unfold yearOfDay
  dsimp only
  split
  · next early =>
    refine ⟨?_, by rwa [Int.sub_add_cancel]⟩
    simp only [daysBeforeYear] at early ⊢
    omega
  · next notEarly =>
    split
    · next late =>
      refine ⟨late, ?_⟩
      simp only [daysBeforeYear] at late ⊢
      omega
    · next notLate => exact ⟨Int.not_lt.1 notEarly, Int.not_le.1 notLate⟩

/-- A day lies in one year. -/
theorem year_unique {year other : ℤ} (starts : daysBeforeYear year ≤ number)
    (ends : number < daysBeforeYear (year + 1)) (alsoStarts : daysBeforeYear other ≤ number)
    (alsoEnds : number < daysBeforeYear (other + 1)) : year = other := by
  by_contra different
  rcases lt_or_gt_of_ne different with before | after
  · have := daysBeforeYear_mono (Int.add_one_le_iff.2 before)
    omega
  · have := daysBeforeYear_mono (Int.add_one_le_iff.2 after)
    omega

/-- Going through the months from one of them on finds the date of the day, if it lies in the months
that are left. -/
theorem monthOfDay_spec (year : ℤ) (remaining : ℕ) {month offset : ℕ} (proper : 1 ≤ month)
    (last : month + remaining ≤ 12)
    (inside : daysBeforeMonth year month + offset < daysBeforeMonth year (month + remaining + 1)) :
    (monthOfDay year remaining month offset).isValid = true ∧
      (monthOfDay year remaining month offset).year = year ∧
      daysBeforeMonth year (monthOfDay year remaining month offset).month +
        (monthOfDay year remaining month offset).day =
          daysBeforeMonth year month + offset + 1 := by
  induction remaining generalizing month offset with
  | zero =>
    rw [Nat.add_zero, daysBeforeMonth_succ year proper] at inside
    unfold monthOfDay
    refine ⟨isValid_iff.2 ⟨⟨proper, last⟩, ?_, ?_⟩, rfl, rfl⟩ <;> dsimp only <;> omega
  | succ remaining ih =>
    unfold monthOfDay
    split
    · next found =>
      refine ⟨isValid_iff.2 ⟨⟨proper, ?_⟩, ?_, ?_⟩, rfl, rfl⟩ <;> dsimp only <;> omega
    · next later =>
      have start := daysBeforeMonth_succ year proper
      have regrouped : month + (remaining + 1) + 1 = month + 1 + remaining + 1 := by omega
      rw [regrouped] at inside
      obtain ⟨valid, sameYear, same⟩ :=
        @ih (month + 1) (offset - daysInMonth year month) (by omega) (by omega) (by omega)
      exact ⟨valid, sameYear, by omega⟩

theorem ofDayNumber_spec (number : ℤ) :
    (ofDayNumber number).isValid = true ∧ (ofDayNumber number).dayNumber = number := by
  obtain ⟨starts, ends⟩ := yearOfDay_spec number
  rw [daysBeforeYear_succ] at ends
  have inside : daysBeforeMonth (yearOfDay number) 1 +
      (number - daysBeforeYear (yearOfDay number)).toNat <
      daysBeforeMonth (yearOfDay number) (1 + 11 + 1) := by
    rw [daysBeforeMonth_thirteen, daysBeforeMonth]
    omega
  obtain ⟨valid, sameYear, same⟩ :=
    monthOfDay_spec (yearOfDay number) 11 (Nat.le_refl 1) (Nat.le_refl 12) inside
  refine ⟨valid, ?_⟩
  unfold dayNumber ofDayNumber
  dsimp only
  rw [sameYear]
  simp only [daysBeforeMonth] at same
  omega

theorem isValid_ofDayNumber (number : ℤ) : (ofDayNumber number).isValid = true :=
  (ofDayNumber_spec number).1

theorem dayNumber_ofDayNumber (number : ℤ) : (ofDayNumber number).dayNumber = number :=
  (ofDayNumber_spec number).2

/-- A date that exists lies in its year. -/
theorem dayNumber_bounds (valid : date.isValid = true) :
    daysBeforeYear date.year ≤ date.dayNumber ∧
      date.dayNumber < daysBeforeYear (date.year + 1) := by
  obtain ⟨⟨firstMonth, lastMonth⟩, firstDay, lastDay⟩ := isValid_iff.1 valid
  have within := daysBeforeMonth_mono date.year (Nat.le_add_left 1 date.month)
    (Nat.succ_le_succ lastMonth)
  rw [daysBeforeMonth_succ date.year firstMonth, daysBeforeMonth_thirteen] at within
  rw [daysBeforeYear_succ]
  unfold dayNumber
  omega

/-- Dates that exist are told apart by their day numbers. -/
theorem eq_of_dayNumber_eq {other : Date} (valid : date.isValid = true)
    (alsoValid : other.isValid = true) (same : date.dayNumber = other.dayNumber) :
    date = other := by
  obtain ⟨starts, ends⟩ := dayNumber_bounds valid
  obtain ⟨alsoStarts, alsoEnds⟩ := dayNumber_bounds alsoValid
  rw [← same] at alsoStarts alsoEnds
  have sameYear := year_unique starts ends alsoStarts alsoEnds
  obtain ⟨year, month, day⟩ := date
  obtain ⟨_, otherMonth, otherDay⟩ := other
  cases sameYear
  obtain ⟨⟨firstMonth, -⟩, firstDay, lastDay⟩ := isValid_iff.1 valid
  obtain ⟨⟨otherFirst, -⟩, otherFirstDay, otherLastDay⟩ := isValid_iff.1 alsoValid
  dsimp only at *
  unfold dayNumber at same
  dsimp only at same
  have sameMonth : month = otherMonth := by
    by_contra different
    rcases Nat.lt_or_gt_of_ne different with before | after
    · have later := daysBeforeMonth_mono year (Nat.le_add_left 1 month) before
      rw [daysBeforeMonth_succ year firstMonth] at later
      omega
    · have later := daysBeforeMonth_mono year (Nat.le_add_left 1 otherMonth) after
      rw [daysBeforeMonth_succ year otherFirst] at later
      omega
  subst sameMonth
  have sameDay : day = otherDay := by omega
  rw [sameDay]

/-- A date that exists is the date of its day number. -/
theorem ofDayNumber_dayNumber (valid : date.isValid = true) : ofDayNumber date.dayNumber = date :=
  eq_of_dayNumber_eq (isValid_ofDayNumber _) valid (dayNumber_ofDayNumber _)

/-- The date of the next day number is the next date. -/
theorem ofDayNumber_succ (number : ℤ) : ofDayNumber (number + 1) = (ofDayNumber number).next := by
  have valid := isValid_ofDayNumber number
  refine eq_of_dayNumber_eq (isValid_ofDayNumber _) (isValid_next valid) ?_
  rw [dayNumber_ofDayNumber, dayNumber_next valid, dayNumber_ofDayNumber]

end Date

end ScriptConsole.Time
