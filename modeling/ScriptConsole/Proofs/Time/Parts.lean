import ScriptConsole.Proofs.Json.Numeral
import ScriptConsole.Proofs.Time.Calendar
import ScriptConsole.Proofs.Time.Grammar

/-!
# Reading the parts of timestamps

Each reader of a part takes the texts of its grammar off the front of a text, and takes nothing
else. Most parts must not be followed by another digit, which would belong to them.
-/

namespace ScriptConsole.Time

open Grammar
open Json (EndsDigits takeWhile_append_of_ends)
open Json.Grammar (Digits)

variable {α : Type} {text rest front before : List Char}

/-- The reader takes the texts of the grammar off the front of a text that goes on as it must, and
takes nothing else. -/
structure Takes (reader : List Char -> Except Fault (α × List Char))
    (grammar : α -> List Char -> Prop) (goesOn : List Char -> Prop) : Prop where
  reads : ∀ {value front rest}, grammar value front -> goesOn rest ->
    reader (front ++ rest) = .ok (value, rest)
  sound : ∀ {text value rest}, reader text = .ok (value, rest) ->
    ∃ front, text = front ++ rest ∧ grammar value front

/-! ## White space and marks -/

/-- A digit is no white space. -/
theorem isBlank_of_isDigit {character : Char} (digit : character.isDigit = true) :
    Text.isBlank character = false := by
  have bounds : 48 ≤ character.toNat ∧ character.toNat ≤ 57 := by
    simpa [Char.isDigit, UInt32.le_iff_toNat_le] using digit
  unfold Text.isBlank
  generalize character.toNat = code at bounds
  obtain ⟨lower, upper⟩ := bounds
  interval_cases code <;> rfl

theorem Grammar.Blank.nil : Blank [] :=
  nofun

theorem Grammar.Blank.dropBlank_append (blank : Blank before) (rest : List Char) :
    dropBlank (before ++ rest) = dropBlank rest :=
  List.dropWhile_append_of_pos blank

theorem dropBlank_of_visible {first : Char} (visible : Text.isBlank first = false)
    (rest : List Char) : dropBlank (first :: rest) = first :: rest := by
  rw [dropBlank, List.dropWhile_cons_of_neg]
  simp [visible]

theorem Grammar.Blank.dropBlank_cons (blank : Blank before) {first : Char}
    (visible : Text.isBlank first = false) (rest : List Char) :
    dropBlank (before ++ first :: rest) = first :: rest := by
  rw [blank.dropBlank_append, dropBlank_of_visible visible]

theorem exists_blank (text : List Char) : ∃ before, Blank before ∧ text = before ++ dropBlank text :=
  ⟨text.takeWhile Text.isBlank, fun _ member => List.mem_takeWhile_imp member,
    List.takeWhile_append_dropWhile.symm⟩

/-- White space goes on with no digit if what follows does not. -/
theorem Grammar.Blank.endsDigits (blank : Blank before) (ends : EndsDigits rest) :
    EndsDigits (before ++ rest) := by
  cases before with
  | nil => exact ends
  | cons first others =>
    intro character starts
    cases starts
    by_contra digit
    rw [Bool.not_eq_false] at digit
    exact Bool.false_ne_true ((isBlank_of_isDigit digit).symm.trans (blank first List.mem_cons_self))

theorem endsDigits_cons {mark : Char} (noDigit : mark.isDigit = false) (rest : List Char) :
    EndsDigits (mark :: rest) := by
  intro first starts
  cases starts
  exact noDigit

theorem readMark_iff {mark : Char} :
    readMark mark text = .ok rest ↔ text = mark :: rest := by
  cases text with
  | nil => exact ⟨nofun, nofun⟩
  | cons first others =>
    rw [readMark, accepted_eq_ok_iff, Except.ok.injEq, List.cons.injEq]

section Marks

variable {mark : Char}

theorem Grammar.Mark.reads (isMark : Mark mark front) (visible : Text.isBlank mark = false) :
    readMark mark (dropBlank (front ++ rest)) = .ok rest := by
  obtain ⟨blank⟩ := isMark
  rw [List.append_assoc, List.singleton_append, blank.dropBlank_cons visible, readMark_iff]

theorem exists_mark_of_readMark (read : readMark mark (dropBlank text) = .ok rest) :
    ∃ front, text = front ++ rest ∧ Mark mark front := by
  obtain ⟨before, blank, same⟩ := exists_blank text
  rw [readMark_iff.1 read] at same
  exact ⟨before ++ [mark], by rw [same, List.append_assoc, List.singleton_append], .mark blank⟩

theorem Grammar.Mark.endsDigits (isMark : Mark mark front) (noDigit : mark.isDigit = false) :
    EndsDigits (front ++ rest) := by
  obtain ⟨blank⟩ := isMark
  rw [List.append_assoc]
  exact blank.endsDigits (endsDigits_cons noDigit rest)

end Marks

/-! ## Numbers -/

/-- The value of a digit. -/
theorem digit_le_nine {digit : Char} (isDigit : digit.isDigit = true) :
    digit.toNat - '0'.toNat ≤ 9 := by
  have bounds : 48 ≤ digit.toNat ∧ digit.toNat ≤ 57 := by
    simpa [Char.isDigit, UInt32.le_iff_toNat_le] using isDigit
  have zero : '0'.toNat = 48 := rfl
  omega

theorem ofDigitChars_lt {digits : List Char} (each : ∀ digit ∈ digits, digit.isDigit = true)
    (start : ℕ) : Nat.ofDigitChars 10 digits start < (start + 1) * 10 ^ digits.length := by
  induction digits generalizing start with
  | nil => simp
  | cons digit others ih =>
    obtain ⟨isDigit, others'⟩ := List.forall_mem_cons.1 each
    have small := digit_le_nine isDigit
    rw [Nat.ofDigitChars_cons, List.length_cons, pow_succ]
    refine (ih others' _).trans_le ?_
    calc (10 * start + (digit.toNat - '0'.toNat) + 1) * 10 ^ others.length
        ≤ (10 * (start + 1)) * 10 ^ others.length := Nat.mul_le_mul_right _ (by omega)
      _ = (start + 1) * (10 ^ others.length * 10) := by ring

theorem Grammar.Number.lt {width value : ℕ} (isNumber : Number width value text) :
    value < 10 ^ width := by
  obtain ⟨proper, short⟩ := isNumber
  have below := ofDigitChars_lt proper.isDigit 0
  rw [Nat.zero_add, Nat.one_mul] at below
  exact below.trans_le (Nat.pow_le_pow_right (by decide) short)

/-- Digits are no sign. -/
theorem append_ne_cons_of_digits (proper : Digits text) {mark : Char}
    {others : List Char} (noDigit : mark.isDigit = false) : text ++ rest ≠ mark :: others := by
  obtain ⟨first, more, rfl⟩ := List.exists_cons_of_ne_nil proper.nonempty
  intro same
  have isDigit := proper.isDigit first List.mem_cons_self
  rw [(List.cons.inj same).1, noDigit] at isDigit
  cases isDigit

theorem takes_readDigits : Takes readDigits (fun digits text => Digits text ∧ digits = text)
    EndsDigits where
  reads := by
    rintro digits _ rest ⟨proper, rfl⟩ ends
    obtain ⟨taken, left⟩ := takeWhile_append_of_ends proper.isDigit ends
    cases digits with
    | nil => exact absurd rfl proper.nonempty
    | cons first others =>
      unfold readDigits
      rw [taken, left, List.cons_append]
      simp only [proper.isDigit first List.mem_cons_self, if_true]
  sound := by
    intro text digits rest read
    cases text with
    | nil => cases read
    | cons first others =>
      obtain ⟨isDigit, read⟩ := accepted_eq_ok_iff.1 read
      cases read
      refine ⟨_, List.takeWhile_append_dropWhile.symm, ⟨?_, ?_⟩, rfl⟩
      · rw [List.takeWhile_cons_of_pos isDigit]
        exact List.cons_ne_nil _ _
      · exact fun _ member => List.mem_takeWhile_imp member

theorem takes_readNumber {width : ℕ} (positive : 0 < width) :
    Takes (readNumber width) (Number width) EndsDigits where
  reads := by
    rintro _ front rest ⟨proper, short⟩ ends
    unfold readNumber
    rw [takes_readDigits.reads ⟨proper, rfl⟩ ends, bind_ok]
    dsimp only
    rw [List.take_of_length_le short, List.drop_of_length_le short, List.nil_append, pure_eq_ok]
  sound := by
    intro text value rest read
    obtain ⟨⟨digits, left⟩, digitsRead, read⟩ := bind_eq_ok_iff.1 read
    cases pure_eq_ok_iff.1 read
    obtain ⟨_, rfl, proper, rfl⟩ := takes_readDigits.sound digitsRead
    refine ⟨digits.take width, ?_, .digits ⟨?_, ?_⟩ (List.length_take_le _ _)⟩
    · rw [← List.append_assoc, List.take_append_drop]
    · intro empty
      rcases List.take_eq_nil_iff.1 empty with zero | none
      · omega
      · exact proper.nonempty none
    · exact fun character member => proper.isDigit character (List.mem_of_mem_take member)

theorem Grammar.Blank.dropBlank_digits (blank : Blank before) {digits : List Char}
    (proper : Digits digits) (rest : List Char) :
    dropBlank (before ++ (digits ++ rest)) = digits ++ rest := by
  obtain ⟨first, others, rfl⟩ := List.exists_cons_of_ne_nil proper.nonempty
  exact blank.dropBlank_cons (isBlank_of_isDigit (proper.isDigit first List.mem_cons_self)) _

theorem Grammar.Number.proper {width value : ℕ} (isNumber : Number width value text) :
    Digits text := by
  obtain ⟨proper, -⟩ := isNumber
  exact proper

theorem takes_readPart (first last : ℕ) : Takes (readPart first last)
    (fun value text => Part value text ∧ first ≤ value ∧ value ≤ last) EndsDigits where
  reads := by
    rintro value _ rest ⟨@⟨before, digits, blank, isNumber⟩, bounds⟩ ends
    unfold readPart
    rw [List.append_assoc, blank.dropBlank_digits isNumber.proper,
      (takes_readNumber Nat.two_pos).reads isNumber ends, bind_ok]
    simp only [bounds.1, bounds.2, decide_true, Bool.and_self, if_true, pure_eq_ok]
  sound := by
    intro text value rest read
    obtain ⟨⟨number, left⟩, numberRead, read⟩ := bind_eq_ok_iff.1 read
    obtain ⟨bounds, read⟩ := accepted_eq_ok_iff.1 read
    cases pure_eq_ok_iff.1 read
    obtain ⟨front, same, isNumber⟩ := (takes_readNumber Nat.two_pos).sound numberRead
    obtain ⟨before, blank, whole⟩ := exists_blank text
    refine ⟨before ++ front, by rw [whole, same, List.append_assoc], .part blank isNumber, ?_⟩
    simpa only [Bool.and_eq_true, decide_eq_true_eq] using bounds

/-- The year after a sign. -/
def readSignedYear (sign : ℤ) (text : List Char) : Except Fault (ℤ × List Char) := do
  let (digits, rest) <- readDigits text
  let year := sign * Nat.ofDigitChars 10 digits 0
  if -0x80000000 ≤ year && year < 0x80000000 then return (year, rest)
  else throw .outOfRange

theorem takes_readSignedYear (sign : ℤ) : Takes (readSignedYear sign)
    (fun year text => Digits text ∧ year = sign * Nat.ofDigitChars 10 text 0 ∧
      -0x80000000 ≤ year ∧ year < 0x80000000) EndsDigits where
  reads := by
    rintro _ digits rest ⟨proper, rfl, atLeast, below⟩ ends
    unfold readSignedYear
    rw [takes_readDigits.reads ⟨proper, rfl⟩ ends, bind_ok]
    simp only [atLeast, below, decide_true, Bool.and_self, if_true, pure_eq_ok]
  sound := by
    intro text year rest read
    obtain ⟨⟨digits, left⟩, digitsRead, read⟩ := bind_eq_ok_iff.1 read
    obtain ⟨bounds, read⟩ := accepted_eq_ok_iff.1 read
    cases pure_eq_ok_iff.1 read
    obtain ⟨_, rfl, proper, rfl⟩ := takes_readDigits.sound digitsRead
    refine ⟨digits, rfl, proper, rfl, ?_⟩
    simpa only [Bool.and_eq_true, decide_eq_true_eq] using bounds

/-- A year fits the reader if it does not leave the signed numbers of 32 bits. -/
theorem takes_readYear : Takes readYear
    (fun year text => Year year text ∧ -0x80000000 ≤ year ∧ year < 0x80000000) EndsDigits where
  reads := by
    rintro year _ rest ⟨isYear, bounds⟩ ends
    unfold readYear
    cases isYear with
    | @plain value before digits blank isNumber =>
      rw [List.append_assoc, blank.dropBlank_digits isNumber.proper]
      split
      · next same => exact absurd same (append_ne_cons_of_digits isNumber.proper (by decide))
      · next same => exact absurd same (append_ne_cons_of_digits isNumber.proper (by decide))
      · rw [(takes_readNumber (by decide)).reads isNumber ends]
        rfl
    | @positive before digits blank proper =>
      have found := @Grammar.Blank.dropBlank_cons before blank '+' rfl (digits ++ rest)
      rw [List.append_assoc, List.cons_append, found]
      exact (takes_readSignedYear 1).reads ⟨proper, (one_mul _).symm, bounds⟩ ends
    | @negative before digits blank proper =>
      have found := @Grammar.Blank.dropBlank_cons before blank '-' rfl (digits ++ rest)
      rw [List.append_assoc, List.cons_append, found]
      exact (takes_readSignedYear (-1)).reads ⟨proper, (neg_one_mul _).symm, bounds⟩ ends
  sound := by
    intro text year rest read
    obtain ⟨before, blank, whole⟩ := exists_blank text
    unfold readYear at read
    split at read
    · next found =>
      obtain ⟨digits, rfl, proper, rfl, bounds⟩ := (takes_readSignedYear (-1)).sound read
      refine ⟨before ++ '-' :: digits, by rw [whole, found]; simp, ?_, bounds⟩
      rw [neg_one_mul]
      exact .negative blank proper
    · next found =>
      obtain ⟨digits, rfl, proper, rfl, bounds⟩ := (takes_readSignedYear 1).sound read
      refine ⟨before ++ '+' :: digits, by rw [whole, found]; simp, ?_, bounds⟩
      rw [one_mul]
      exact .positive blank proper
    · obtain ⟨⟨number, left⟩, numberRead, read⟩ := bind_eq_ok_iff.1 read
      cases pure_eq_ok_iff.1 read
      obtain ⟨front, same, isNumber⟩ := (takes_readNumber (by decide)).sound numberRead
      have small := isNumber.lt
      refine ⟨before ++ front, by rw [whole, same, List.append_assoc], .plain blank isNumber, ?_⟩
      omega

/-! ## Dates and fractions -/

theorem daysInMonth_le (year : ℤ) (month : ℕ) : daysInMonth year month ≤ 31 := by
  unfold daysInMonth
  split <;> first | split <;> decide | decide

theorem takes_readDate : Takes readDate (fun date text => DateText date text ∧
    (-0x80000000 ≤ date.year ∧ date.year < 0x80000000) ∧ (1 ≤ date.month ∧ date.month ≤ 12) ∧
      1 ≤ date.day ∧ date.day ≤ 31) EndsDigits where
  reads := by
    rintro date _ rest ⟨@⟨year, month, day, y, a, m, b, d, isYear, dash, isMonth, alsoDash, isDay⟩,
      years, months, days⟩ ends
    unfold readDate
    simp only [List.append_assoc]
    rw [takes_readYear.reads ⟨isYear, years⟩ (dash.endsDigits rfl), bind_ok]
    dsimp only
    rw [dash.reads rfl, bind_ok,
      (takes_readPart 1 12).reads ⟨isMonth, months⟩ (alsoDash.endsDigits rfl), bind_ok]
    dsimp only
    rw [alsoDash.reads rfl, bind_ok, (takes_readPart 1 31).reads ⟨isDay, days⟩ ends, bind_ok]
    rfl
  sound := by
    intro text date rest read
    obtain ⟨⟨year, afterYear⟩, yearRead, read⟩ := bind_eq_ok_iff.1 read
    obtain ⟨afterDash, dashRead, read⟩ := bind_eq_ok_iff.1 read
    obtain ⟨⟨month, afterMonth⟩, monthRead, read⟩ := bind_eq_ok_iff.1 read
    obtain ⟨afterMark, markRead, read⟩ := bind_eq_ok_iff.1 read
    obtain ⟨⟨day, afterDay⟩, dayRead, read⟩ := bind_eq_ok_iff.1 read
    cases pure_eq_ok_iff.1 read
    obtain ⟨y, rfl, isYear, years⟩ := takes_readYear.sound yearRead
    obtain ⟨a, rfl, dash⟩ := exists_mark_of_readMark dashRead
    obtain ⟨m, rfl, isMonth, months⟩ := (takes_readPart 1 12).sound monthRead
    obtain ⟨b, rfl, alsoDash⟩ := exists_mark_of_readMark markRead
    obtain ⟨d, rfl, isDay, days⟩ := (takes_readPart 1 31).sound dayRead
    exact ⟨y ++ (a ++ (m ++ (b ++ d))), by simp only [List.append_assoc],
      .date isYear dash isMonth alsoDash isDay, years, months, days⟩

/-- A fraction must not be followed by another digit, nor its absence by a point. -/
theorem takes_readFraction : Takes readFraction
    (fun nanosecond text => ∃ digits, Fraction digits text ∧
      nanosecond = Nat.ofDigitChars 10 (digits.take 9) 0 * 10 ^ (9 - (digits.take 9).length))
    (fun rest => EndsDigits rest ∧ ∀ first ∈ rest.head?, first ≠ '.') where
  reads := by
    rintro _ _ rest ⟨digits, isFraction, rfl⟩ ⟨ends, noPoint⟩
    cases isFraction with
    | none =>
      rw [List.nil_append]
      cases rest with
      | nil => rfl
      | cons first others =>
        rw [readFraction]
        · rfl
        · intro others same
          exact noPoint first rfl (List.cons.inj same).1
    | digits proper =>
      rw [List.cons_append, readFraction, takes_readDigits.reads ⟨proper, rfl⟩ ends]
      rfl
  sound := by
    intro text nanosecond rest read
    unfold readFraction at read
    split at read
    · obtain ⟨⟨digits, left⟩, digitsRead, read⟩ := bind_eq_ok_iff.1 read
      cases pure_eq_ok_iff.1 read
      obtain ⟨_, rfl, proper, rfl⟩ := takes_readDigits.sound digitsRead
      exact ⟨'.' :: digits, rfl, digits, .digits proper, rfl⟩
    · cases read
      exact ⟨[], rfl, [], .none, rfl⟩

/-! ## Offsets -/

theorem readOffsetDigits_iff {tens ones : ℕ} : readOffsetDigits text = .ok (tens, ones, rest) ↔
    ∃ a b : Char, text = a :: b :: rest ∧ a.isDigit = true ∧ b.isDigit = true ∧
      tens = a.toNat - '0'.toNat ∧ ones = b.toNat - '0'.toNat := by
  constructor
  · intro read
    unfold readOffsetDigits at read
    split at read
    · next a b others =>
      obtain ⟨areDigits, read⟩ := accepted_eq_ok_iff.1 read
      obtain ⟨first, second⟩ := Bool.and_eq_true_iff.1 areDigits
      cases read
      exact ⟨a, b, rfl, first, second, rfl, rfl⟩
    · split at read <;> cases read
    · cases read
  · rintro ⟨a, b, rfl, first, second, rfl, rfl⟩
    rw [readOffsetDigits, first, second]
    rfl

theorem takes_readOffsetSize : Takes readOffsetSize OffsetSize fun _ => True where
  reads := by
    rintro _ _ rest @⟨a, b, c, d, gap, first, second, isGap, third, small, fourth⟩ -
    have gapEnds : (gap ++ c :: d :: rest).dropWhile (fun character =>
        character = ':' || Text.isBlank character) = c :: d :: rest := by
      rw [List.dropWhile_append_of_pos, List.dropWhile_cons_of_neg]
      · rw [isBlank_of_isDigit third, Bool.or_false, decide_eq_true_eq]
        rintro rfl
        cases third
      · simpa using isGap
    have regrouped : a :: b :: (gap ++ [c, d]) ++ rest = a :: b :: (gap ++ c :: d :: rest) := by
      simp
    unfold readOffsetSize
    rw [regrouped, readOffsetDigits_iff.2 ⟨a, b, rfl, first, second, rfl, rfl⟩, bind_ok]
    dsimp only
    rw [gapEnds, readOffsetDigits_iff.2 ⟨c, d, rfl, third, fourth, rfl, rfl⟩, bind_ok]
    dsimp only
    rw [if_neg (by omega)]
    rfl
  sound := by
    intro text size rest read
    obtain ⟨⟨_, _, left⟩, hoursRead, read⟩ := bind_eq_ok_iff.1 read
    obtain ⟨⟨_, _, last⟩, minutesRead, read⟩ := bind_eq_ok_iff.1 read
    obtain ⟨small, read⟩ := guard_eq_ok_iff.1 read
    cases pure_eq_ok_iff.1 read
    obtain ⟨a, b, rfl, first, second, rfl, rfl⟩ := readOffsetDigits_iff.1 hoursRead
    obtain ⟨c, d, found, third, fourth, rfl, rfl⟩ := readOffsetDigits_iff.1 minutesRead
    set isGap := fun character => decide (character = ':') || Text.isBlank character
    have whole := @List.takeWhile_append_dropWhile _ isGap left
    rw [found] at whole
    have regrouped : a :: b :: (left.takeWhile isGap ++ [c, d]) ++ rest =
        a :: b :: (left.takeWhile isGap ++ c :: d :: rest) := by simp
    refine ⟨a :: b :: (left.takeWhile isGap ++ [c, d]), by rw [regrouped, whole],
      .size first second ?_ third (Nat.not_lt.1 small) fourth⟩
    intro character member
    have gap := List.mem_takeWhile_imp member
    simpa [isGap] using gap

/-- A text that does not start with the name of universal time starts with a mark. -/
theorem readOffset_cons {first : Char} (noName : first.toUpper ≠ 'U') (others : List Char) :
    readOffset (first :: others) =
      if first = 'Z' || first = 'z' then .ok (0, others)
      else if first = '+' then do
        let (size, rest) <- readOffsetSize others
        return (size, rest)
      else if first = '-' || first = '\u2212' then do
        let (size, rest) <- readOffsetSize others
        return (-size, rest)
      else .error .invalid := by
  rw [readOffset, if_neg]
  intro named
  exact noName (List.cons.inj named).1

theorem takes_readOffset : Takes readOffset Offset fun _ => True where
  reads := by
    intro offset letters rest isOffset _
    cases isOffset with
    | universal named =>
      have three : letters.length = 3 := by simpa using congrArg List.length named
      have taken : (letters ++ rest).take 3 = letters := by
        rw [← three, List.take_left]
      have left : (letters ++ rest).drop 3 = rest := by
        rw [← three, List.drop_left]
      unfold readOffset
      rw [taken, left, if_pos named]
    | zulu isZulu =>
      rcases isZulu with rfl | rfl
      all_goals
        rw [List.singleton_append, readOffset_cons (by decide)]
        rfl
    | east isSize =>
      rw [List.cons_append, readOffset_cons (by decide), takes_readOffsetSize.reads isSize trivial]
      rfl
    | west isSign isSize =>
      rcases isSign with rfl | rfl
      all_goals
        rw [List.cons_append, readOffset_cons (by decide),
          takes_readOffsetSize.reads isSize trivial]
        rfl
  sound := by
    intro text offset rest read
    unfold readOffset at read
    split at read
    · next named =>
      cases read
      exact ⟨text.take 3, (List.take_append_drop 3 text).symm, .universal named⟩
    · cases text with
      | nil => cases read
      | cons first others =>
        dsimp only at read
        split at read
        · next isZulu =>
          cases read
          exact ⟨[first], rfl, .zulu (by simpa using isZulu)⟩
        · split at read
          · next isPlus =>
            subst isPlus
            obtain ⟨⟨size, left⟩, sizeRead, read⟩ := bind_eq_ok_iff.1 read
            cases pure_eq_ok_iff.1 read
            obtain ⟨front, rfl, isSize⟩ := takes_readOffsetSize.sound sizeRead
            exact ⟨'+' :: front, rfl, .east isSize⟩
          · split at read
            · next isMinus =>
              obtain ⟨⟨size, left⟩, sizeRead, read⟩ := bind_eq_ok_iff.1 read
              cases pure_eq_ok_iff.1 read
              obtain ⟨front, rfl, isSize⟩ := takes_readOffsetSize.sound sizeRead
              exact ⟨first :: front, rfl, .west (by simpa using isMinus) isSize⟩
            · cases read

end ScriptConsole.Time
