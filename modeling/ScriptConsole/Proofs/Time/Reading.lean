import ScriptConsole.Proofs.Time.Parts

/-!
# Reading timestamps agrees with the grammar

A text is read as a moment exactly if it is a timestamp of the grammar whose parts are proper, and
the moment is the one that is written.
-/

namespace ScriptConsole.Time

open Grammar
open Json (EndsDigits)

variable {text rest before : List Char}

/-! ## What the offset starts with -/

/-- What follows a time starts the offset, after white space. -/
def StartsOffset (text : List Char) : Prop :=
  EndsDigits text ∧ ∀ first ∈ text.head?, first ≠ '.'

theorem eq_of_toUpper_eq {first : Char} (upper : first.toUpper = 'U') :
    first = 'u' ∨ first = 'U' := by
  unfold Char.toUpper at upper
  split at upper
  · have value := congrArg Char.val upper
    dsimp only at value
    refine .inl (Char.ext ?_)
    rw [← UInt32.add_sub_cancel first.val ('A'.val - 'a'.val), value]
    decide
  · exact .inr upper

theorem Grammar.Offset.exists_first {offset : ℤ} (isOffset : Offset offset text) :
    ∃ first others, text = first :: others ∧ Text.isBlank first = false ∧
      first.isDigit = false ∧ first ≠ '.' := by
  cases isOffset with
  | universal named =>
    obtain ⟨first, others, rfl, isFirst, -⟩ := List.map_eq_cons_iff.1 named
    rcases eq_of_toUpper_eq isFirst with rfl | rfl <;> exact ⟨_, others, rfl, by decide⟩
  | zulu isZulu => rcases isZulu with rfl | rfl <;> exact ⟨_, _, rfl, by decide⟩
  | east => exact ⟨_, _, rfl, by decide⟩
  | west isSign => rcases isSign with rfl | rfl <;> exact ⟨_, _, rfl, by decide⟩

theorem Grammar.Offset.starts {offset : ℤ} (isOffset : Offset offset text) (blank : Blank before)
    (rest : List Char) : StartsOffset (before ++ (text ++ rest)) := by
  obtain ⟨first, others, rfl, visible, noDigit, noPoint⟩ := isOffset.exists_first
  refine ⟨blank.endsDigits (endsDigits_cons noDigit _), ?_⟩
  intro character starts
  cases before with
  | nil =>
    cases starts
    exact noPoint
  | cons blankFirst more =>
    cases starts
    rintro rfl
    exact absurd (blank _ List.mem_cons_self) (by decide)

/-! ## Times -/

theorem takes_readTime : Takes readTime
    (fun value text => ∃ hour minute second fraction, ClockText hour minute second fraction text ∧
      hour ≤ 23 ∧ minute ≤ 59 ∧ second ≤ 60 ∧
      value = (hour * 3600 + minute * 60 + (second - second / 60), second / 60 * 1000000000 +
        Nat.ofDigitChars 10 (fraction.take 9) 0 * 10 ^ (9 - (fraction.take 9).length)))
    StartsOffset where
  reads := by
    rintro _ _ rest ⟨hour, minute, second, fraction,
      @⟨h, a, m, b, s, f, isHour, colon, isMinute, alsoColon, isSecond, isFraction⟩,
      hours, minutes, seconds, rfl⟩ starts
    have fractionEnds : EndsDigits (f ++ rest) := by
      cases isFraction with
      | none => exact starts.1
      | digits => exact endsDigits_cons rfl _
    unfold readTime
    simp only [List.append_assoc]
    rw [(takes_readPart 0 23).reads ⟨isHour, Nat.zero_le _, hours⟩ (colon.endsDigits rfl), bind_ok]
    dsimp only
    rw [colon.reads rfl, bind_ok, (takes_readPart 0 59).reads ⟨isMinute, Nat.zero_le _, minutes⟩
      (alsoColon.endsDigits rfl), bind_ok]
    dsimp only
    rw [alsoColon.reads rfl, bind_ok,
      (takes_readPart 0 60).reads ⟨isSecond, Nat.zero_le _, seconds⟩ fractionEnds, bind_ok]
    dsimp only
    rw [takes_readFraction.reads ⟨fraction, isFraction, rfl⟩ starts, bind_ok]
    rfl
  sound := by
    intro text value rest read
    obtain ⟨⟨hour, afterHour⟩, hourRead, read⟩ := bind_eq_ok_iff.1 read
    obtain ⟨afterColon, colonRead, read⟩ := bind_eq_ok_iff.1 read
    obtain ⟨⟨minute, afterMinute⟩, minuteRead, read⟩ := bind_eq_ok_iff.1 read
    obtain ⟨afterMark, markRead, read⟩ := bind_eq_ok_iff.1 read
    obtain ⟨⟨second, afterSecond⟩, secondRead, read⟩ := bind_eq_ok_iff.1 read
    obtain ⟨⟨nanosecond, afterFraction⟩, fractionRead, read⟩ := bind_eq_ok_iff.1 read
    cases pure_eq_ok_iff.1 read
    obtain ⟨h, rfl, isHour, -, hours⟩ := (takes_readPart 0 23).sound hourRead
    obtain ⟨a, rfl, colon⟩ := exists_mark_of_readMark colonRead
    obtain ⟨m, rfl, isMinute, -, minutes⟩ := (takes_readPart 0 59).sound minuteRead
    obtain ⟨b, rfl, alsoColon⟩ := exists_mark_of_readMark markRead
    obtain ⟨s, rfl, isSecond, -, seconds⟩ := (takes_readPart 0 60).sound secondRead
    obtain ⟨f, rfl, fraction, isFraction, rfl⟩ := takes_readFraction.sound fractionRead
    exact ⟨h ++ (a ++ (m ++ (b ++ (s ++ f)))), by simp only [List.append_assoc], hour, minute,
      second, fraction, .clock isHour colon isMinute alsoColon isSecond isFraction, hours, minutes,
      seconds, rfl⟩

theorem readSeparator_iff : readSeparator text = .ok rest ↔
    ∃ separator, text = separator :: rest ∧
      (separator = 'T' ∨ separator = 't' ∨ separator = ' ') := by
  constructor
  · intro read
    cases text with
    | nil => cases read
    | cons separator others =>
      obtain ⟨isSeparator, read⟩ := accepted_eq_ok_iff.1 read
      cases read
      exact ⟨separator, rfl, by simpa [or_assoc] using isSeparator⟩
  · rintro ⟨separator, rfl, isSeparator⟩
    rcases isSeparator with rfl | rfl | rfl <;> rfl

/-! ## Whole timestamps -/

/-- The moment of a timestamp whose parts are proper is kept, or its year is beyond those that
are. -/
theorem parse_of_timestampText {written : Written} (isText : TimestampText written text)
    (proper : written.Proper) : Timestamp.parse text =
      if written.moment.date.year < firstYear ∨ lastYear < written.moment.date.year then
        .error .impossible
      else .ok written.moment := by
  obtain @⟨dates, clock, before, zone, after, separator, isDate, isSeparator, isClock, blank, isOffset,
    alsoBlank⟩ := isText
  have years : -0x80000000 ≤ written.date.year ∧ written.date.year < 0x80000000 := by
    have notBefore : -262143 ≤ written.date.year := proper.firstYear
    have notAfter : written.date.year ≤ 262142 := proper.lastYear
    omega
  obtain ⟨months, firstDay, lastDay⟩ := Date.isValid_iff.1 proper.isValid
  have days := lastDay.trans (daysInMonth_le _ _)
  have separates : separator.isDigit = false := by
    rcases isSeparator with rfl | rfl | rfl <;> rfl
  have found : dropBlank (before ++ (zone ++ after)) = zone ++ after := by
    obtain ⟨first, others, rfl, visible, -⟩ := isOffset.exists_first
    exact blank.dropBlank_cons visible (others ++ after)
  have noMore : dropBlank after = [] := by
    rw [← List.append_nil after, alsoBlank.dropBlank_append]
    rfl
  have near : ¬(written.offset ≤ -86400 ∨ 86400 ≤ written.offset) :=
    not_or.2 ⟨Int.not_le.2 proper.west, Int.not_le.2 proper.east⟩
  have kept : ¬(written.date.year < firstYear ∨ lastYear < written.date.year) :=
    not_or.2 ⟨Int.not_lt.2 proper.firstYear, Int.not_lt.2 proper.lastYear⟩
  unfold Timestamp.parse
  rw [takes_readDate.reads ⟨isDate, years, months, firstDay, days⟩ (endsDigits_cons separates _),
    bind_ok]
  dsimp only
  rw [readSeparator_iff.2 ⟨separator, rfl, isSeparator⟩, bind_ok,
    takes_readTime.reads ⟨_, _, _, _, isClock, proper.hour, proper.minute, proper.second, rfl⟩
      (isOffset.starts blank after), bind_ok]
  dsimp only
  rw [found, takes_readOffset.reads isOffset trivial, bind_ok]
  dsimp only
  rw [if_neg (not_not_intro noMore), if_neg, if_neg]
  · have moment : Timestamp.ofCivil written.date
        (written.hour * 3600 + written.minute * 60 + (written.second - written.second / 60))
        (written.second / 60 * 1000000000 + Nat.ofDigitChars 10 (written.fraction.take 9) 0 *
          10 ^ (9 - (written.fraction.take 9).length)) written.offset = written.moment := rfl
    rw [moment]
    simp only [Bool.or_eq_true, decide_eq_true_eq]
    split <;> rfl
  · rw [Bool.or_eq_true, decide_eq_true_eq, decide_eq_true_eq]
    exact near
  · simpa only [proper.isValid, Bool.not_true, Bool.false_or, Bool.or_eq_true,
      decide_eq_true_eq] using kept

/-- What is read as a moment is a timestamp whose parts are proper. -/
theorem exists_written_of_parse {moment : Timestamp} (read : Timestamp.parse text = .ok moment) :
    ∃ written, TimestampText written text ∧ written.Proper ∧ moment = written.moment ∧
      firstYear ≤ moment.date.year ∧ moment.date.year ≤ lastYear := by
  obtain ⟨⟨date, afterDate⟩, dateRead, read⟩ := bind_eq_ok_iff.1 read
  obtain ⟨afterSeparator, separatorRead, read⟩ := bind_eq_ok_iff.1 read
  obtain ⟨⟨⟨secondOfDay, nanosecond⟩, afterTime⟩, timeRead, read⟩ := bind_eq_ok_iff.1 read
  obtain ⟨⟨offset, afterOffset⟩, offsetRead, read⟩ := bind_eq_ok_iff.1 read
  obtain ⟨noMore, read⟩ := guard_eq_ok_iff.1 read
  obtain ⟨proper, read⟩ := guard_eq_ok_iff.1 read
  obtain ⟨near, read⟩ := guard_eq_ok_iff.1 read
  obtain ⟨kept, read⟩ := guard_eq_ok_iff.1 read
  cases pure_eq_ok_iff.1 read
  simp only [ne_eq, not_not, Bool.or_eq_true, decide_eq_true_eq, not_or, Int.not_lt, Int.not_le,
    Bool.not_eq_true', Bool.not_eq_false] at noMore proper near kept
  obtain ⟨dates, rfl, isDate, -, -, -⟩ := takes_readDate.sound dateRead
  obtain ⟨separator, rfl, isSeparator⟩ := readSeparator_iff.1 separatorRead
  obtain ⟨clock, rfl, hour, minute, second, fraction, isClock, hours, minutes, seconds, time⟩ :=
    takes_readTime.sound timeRead
  cases time
  obtain ⟨before, blank, whole⟩ := exists_blank afterTime
  obtain ⟨zone, found, isOffset⟩ := takes_readOffset.sound offsetRead
  obtain ⟨after, alsoBlank, last⟩ := exists_blank afterOffset
  rw [noMore, List.append_nil] at last
  subst last
  rw [found] at whole
  subst whole
  exact ⟨⟨date, hour, minute, second, fraction, offset⟩,
    .text isDate isSeparator isClock blank isOffset alsoBlank,
    ⟨proper.1.1, proper.1.2, proper.2, hours, minutes, seconds, near.1, near.2⟩, rfl, kept⟩

/-- A text is read as a moment exactly if it is a timestamp whose parts are proper, and the moment
is the one that is written, in the years that are kept. -/
theorem parse_eq_ok_iff {moment : Timestamp} : Timestamp.parse text = .ok moment ↔
    ∃ written, TimestampText written text ∧ written.Proper ∧ moment = written.moment ∧
      firstYear ≤ moment.date.year ∧ moment.date.year ≤ lastYear := by
  constructor
  · exact exists_written_of_parse
  · rintro ⟨written, isText, proper, rfl, first, last⟩
    rw [parse_of_timestampText isText proper, if_neg]
    exact not_or.2 ⟨Int.not_lt.2 first, Int.not_lt.2 last⟩

/-- All proper parts that a text may be taken for name the moment that it is read as. -/
theorem moment_of_timestampText {written : Written} {moment : Timestamp}
    (isText : TimestampText written text) (proper : written.Proper)
    (read : Timestamp.parse text = .ok moment) : moment = written.moment := by
  rw [parse_of_timestampText isText proper] at read
  split at read
  · cases read
  · cases read
    rfl

end ScriptConsole.Time
