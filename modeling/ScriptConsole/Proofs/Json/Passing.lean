import ScriptConsole.Proofs.Json.Brackets
import ScriptConsole.Proofs.Json.RoundTrip

/-!
# Passing over a value takes exactly the values

What is passed over is any value of the grammar, however deep and whatever its numerals and
strings. A value has no more levels than characters, so the bound under which the reader
recurses refuses none.
-/

namespace ScriptConsole.Json

open Grammar

variable {α β κ σ : Type} {atEnd : Error} {text rest front : List Char}

/-! ## Numerals -/

theorem digits_of_reads {digits : List Char} (reads : Reads (readDigits atEnd text) digits rest) :
    text = digits ++ rest ∧ Digits digits := by
  unfold readDigits at reads
  split at reads
  · exact reads.not_error.elim
  · next first others =>
    split at reads
    · next isDigit =>
      obtain ⟨rfl, rfl⟩ := reads.of_ok
      refine ⟨by rw [List.cons_append, List.takeWhile_append_dropWhile], List.cons_ne_nil _ _, ?_⟩
      intro character member
      rcases List.mem_cons.1 member with rfl | member
      · exact isDigit
      · exact List.mem_takeWhile_imp member
    · exact reads.not_error.elim

theorem wholeDigits_of_reads {digits : List Char}
    (reads : Reads (readWholeDigits atEnd text) digits rest) :
    text = digits ++ rest ∧ Digits digits ∧ (digits.head? = some '0' -> digits = ['0']) := by
  obtain ⟨digits, left, within, digitsRead, reads⟩ := reads.of_bind
  obtain ⟨rfl, proper⟩ := digits_of_reads digitsRead
  dsimp only at reads
  split at reads
  · exact reads.not_error.elim
  · next noZero =>
    obtain ⟨rfl, rfl⟩ := reads.of_pure
    refine ⟨rfl, proper, fun zero => ?_⟩
    obtain ⟨others, rfl⟩ := List.head?_eq_some_iff.1 zero
    cases others with
    | nil => rfl
    | cons second others => exact (noZero second others rfl).elim

theorem exists_fraction_of_reads {fraction : Option (List Char)}
    (reads : Reads (readFractionDigits atEnd text) fraction rest) :
    ∃ front, text = front ++ rest ∧ FractionText front := by
  unfold readFractionDigits at reads
  split at reads
  · obtain ⟨digits, left, within, digitsRead, reads⟩ := reads.of_bind
    obtain ⟨-, rfl⟩ := reads.of_pure
    obtain ⟨rfl, proper⟩ := digits_of_reads digitsRead
    exact ⟨'.' :: digits, rfl, .digits proper⟩
  · obtain ⟨-, rfl⟩ := reads.of_ok
    exact ⟨[], rfl, .none⟩

theorem exists_exponent_of_reads {exponent : Option ℤ}
    (reads : Reads (readExponent atEnd text) exponent rest) :
    ∃ front, text = front ++ rest ∧ ExponentText front := by
  unfold readExponent at reads
  extract_lets unsigned signed at reads
  have size : ∀ {negative text exponent rest}, Reads (unsigned negative text) exponent rest ->
      ∃ digits, text = digits ++ rest ∧ Digits digits := by
    intro negative text exponent rest reads
    obtain ⟨digits, left, within, digitsRead, reads⟩ := reads.of_bind
    obtain ⟨-, rfl⟩ := reads.of_pure
    exact ⟨digits, digits_of_reads digitsRead⟩
  have exponent : ∀ {text exponent rest}, Reads (signed text) exponent rest ->
      ∃ sign digits, text = sign ++ digits ++ rest ∧
        (sign = [] ∨ sign = ['+'] ∨ sign = ['-']) ∧ Digits digits := by
    intro text exponent rest reads
    simp only [signed] at reads
    split at reads
    · obtain ⟨_, left, within, sizeRead, reads⟩ := reads.of_bind
      obtain ⟨-, rfl⟩ := reads.of_pure
      obtain ⟨digits, rfl, proper⟩ := size sizeRead
      exact ⟨['+'], digits, rfl, .inr (.inl rfl), proper⟩
    · obtain ⟨_, left, within, sizeRead, reads⟩ := reads.of_bind
      obtain ⟨-, rfl⟩ := reads.of_pure
      obtain ⟨digits, rfl, proper⟩ := size sizeRead
      exact ⟨['-'], digits, rfl, .inr (.inr rfl), proper⟩
    · obtain ⟨digits, rfl, proper⟩ := size reads
      exact ⟨[], digits, rfl, .inl rfl, proper⟩
  split at reads
  · obtain ⟨_, left, within, signedRead, reads⟩ := reads.of_bind
    obtain ⟨-, rfl⟩ := reads.of_pure
    obtain ⟨sign, digits, rfl, isSign, proper⟩ := exponent signedRead
    exact ⟨'e' :: (sign ++ digits), rfl, .digits (.inl rfl) isSign proper⟩
  · obtain ⟨_, left, within, signedRead, reads⟩ := reads.of_bind
    obtain ⟨-, rfl⟩ := reads.of_pure
    obtain ⟨sign, digits, rfl, isSign, proper⟩ := exponent signedRead
    exact ⟨'E' :: (sign ++ digits), rfl, .digits (.inr rfl) isSign proper⟩
  · obtain ⟨-, rfl⟩ := reads.of_ok
    exact ⟨[], rfl, .none⟩

theorem exists_unsigned_of_reads {negative : Bool} {numeral : Numeral}
    (reads : Reads (readUnsigned atEnd negative text) numeral rest) :
    ∃ front, text = front ++ rest ∧ ∀ sign, sign = [] ∨ sign = ['-'] ->
      NumeralText (sign ++ front) := by
  obtain ⟨whole, left, _, wholeRead, reads⟩ := reads.of_bind
  obtain ⟨_, left, _, fractionRead, reads⟩ := reads.of_bind
  obtain ⟨_, left, _, exponentRead, reads⟩ := reads.of_bind
  obtain ⟨-, rfl⟩ := reads.of_pure
  obtain ⟨rfl, proper, plain⟩ := wholeDigits_of_reads wholeRead
  obtain ⟨fraction, rfl, isFraction⟩ := exists_fraction_of_reads fractionRead
  obtain ⟨exponent, rfl, isExponent⟩ := exists_exponent_of_reads exponentRead
  exact ⟨whole ++ (fraction ++ exponent), by simp only [List.append_assoc],
    fun sign isSign => .parts isSign proper plain isFraction isExponent⟩

theorem exists_numeral_of_reads {numeral : Numeral}
    (reads : Reads (readNumeral atEnd text) numeral rest) :
    ∃ front, text = front ++ rest ∧ NumeralText front := by
  unfold readNumeral at reads
  split at reads
  · obtain ⟨numeral, left, within, unsignedRead, reads⟩ := reads.of_bind
    obtain ⟨-, rfl⟩ := reads.of_pure
    obtain ⟨front, rfl, isNumeral⟩ := exists_unsigned_of_reads unsignedRead
    exact ⟨'-' :: front, rfl, isNumeral ['-'] (.inr rfl)⟩
  · obtain ⟨front, rfl, isNumeral⟩ := exists_unsigned_of_reads reads
    exact ⟨front, rfl, isNumeral [] (.inl rfl)⟩

theorem Grammar.ExponentText.reads {exponent : List Char} (isExponent : ExponentText exponent)
    (ends : EndsNumeral rest) :
    ∃ value, Reads (readExponent atEnd (exponent ++ rest)) value rest := by
  cases isExponent with
  | none =>
    exact ⟨Option.none, reads_readExponent_none atEnd fun first starts => (ends first starts).2.2⟩
  | @digits mark sign digits isMark isSign proper =>
    -- which of the two letters marks the exponent makes no difference
    have same : readExponent atEnd (mark :: (sign ++ digits) ++ rest) =
        readExponent atEnd ('e' :: (sign ++ digits) ++ rest) := by
      rcases isMark with rfl | rfl <;> rfl
    have signs : ∃ negative, exponentSign sign negative := by
      rcases isSign with none | plus | minus
      · exact ⟨false, .inr ⟨.inl none, rfl⟩⟩
      · exact ⟨false, .inr ⟨.inr plus, rfl⟩⟩
      · exact ⟨true, .inl ⟨minus, rfl⟩⟩
    obtain ⟨negative, signs⟩ := signs
    rw [same]
    exact ⟨_, reads_readExponent atEnd signs proper.nonempty proper.isDigit ends.digits⟩

/-- An exponent, or what follows it, goes on with no digit and no point. -/
theorem Grammar.ExponentText.ends {exponent : List Char} (isExponent : ExponentText exponent)
    (ends : EndsNumeral rest) :
    EndsDigits (exponent ++ rest) ∧ ∀ first ∈ (exponent ++ rest).head?, first ≠ '.' := by
  cases isExponent with
  | none => exact ⟨ends.digits, fun first starts => (ends first starts).2.1⟩
  | digits isMark isSign proper =>
    rcases isMark with rfl | rfl
    all_goals
      constructor <;>
      · intro first starts
        cases starts
        decide

theorem Grammar.NumeralText.reads (isNumeral : NumeralText front) (ends : EndsNumeral rest) :
    ∃ numeral, Reads (readNumeral atEnd (front ++ rest)) numeral rest := by
  obtain @⟨sign, whole, fraction, exponent, isSign, proper, plain, isFraction, isExponent⟩ :=
    isNumeral
  obtain ⟨exponentValue, exponentReads⟩ := isExponent.reads ends
  have exponentEnds := isExponent.ends ends
  have fractionReads : ∃ digits, Reads (readFractionDigits atEnd (fraction ++ (exponent ++ rest)))
      digits (exponent ++ rest) ∧ EndsDigits (fraction ++ (exponent ++ rest)) := by
    cases isFraction with
    | none =>
      exact ⟨Option.none, reads_readFractionDigits_none atEnd exponentEnds.2, exponentEnds.1⟩
    | @digits digits proper =>
      refine ⟨some digits,
        reads_readFractionDigits atEnd proper.nonempty proper.isDigit exponentEnds.1, ?_⟩
      intro first starts
      cases starts
      decide
  obtain ⟨digits, fractionReads, fractionEnds⟩ := fractionReads
  have unsignedReads (negative : Bool) :=
    reads_readUnsigned negative
      (reads_readWholeDigits atEnd proper.nonempty proper.isDigit fractionEnds plain)
      fractionReads exponentReads
  have regrouped : sign ++ (whole ++ (fraction ++ exponent)) ++ rest =
      sign ++ (whole ++ (fraction ++ (exponent ++ rest))) := by
    simp only [List.append_assoc]
  rw [regrouped]
  rcases isSign with rfl | rfl
  · exact ⟨_, reads_readNumeral (unsignedReads false)⟩
  · exact ⟨_, reads_readNumeral_negative (unsignedReads true)⟩

theorem Grammar.NumeralText.exists_opening (isNumeral : NumeralText front) :
    ∃ first others, front = first :: others ∧ OpensNumber first := by
  obtain ⟨numeral, reads⟩ := @NumeralText.reads .malformed [] front isNumeral endsNumeral_nil
  rw [List.append_nil] at reads
  exact exists_opening_of_reads reads

/-! ## Scalars -/

theorem letters_of_reads {letters : List Char}
    (reads : Reads (readLetters letters text) () rest) : text = letters ++ rest := by
  induction letters generalizing text with
  | nil =>
    unfold readLetters at reads
    exact reads.of_ok.2
  | cons letter letters ih =>
    cases text with
    | nil => exact reads.not_error.elim
    | cons first others =>
      rw [readLetters] at reads
      split at reads
      · next isLetter =>
        obtain ⟨_, left, within, lettersRead, reads⟩ := reads.of_bind
        obtain ⟨-, rfl⟩ := reads.of_pure
        rw [isLetter, List.cons_append]
        exact congrArg (letter :: ·) (ih lettersRead)
      · exact reads.not_error.elim

/-- A scalar starts with a character that says what it is. -/
theorem Grammar.ScalarText.exists_first (scalar : ScalarText front) :
    ∃ first others, front = first :: others ∧
      (first = 'n' ∨ first = 't' ∨ first = 'f' ∨ first = '"' ∨ OpensNumber first) := by
  cases scalar with
  | null => exact ⟨_, _, rfl, .inl rfl⟩
  | true => exact ⟨_, _, rfl, .inr (.inl rfl)⟩
  | false => exact ⟨_, _, rfl, .inr (.inr (.inl rfl))⟩
  | string => exact ⟨_, _, rfl, .inr (.inr (.inr (.inl rfl)))⟩
  | numeral isNumeral =>
    obtain ⟨first, others, rfl, opens⟩ := isNumeral.exists_opening
    exact ⟨first, others, rfl, .inr (.inr (.inr (.inr opens)))⟩

/-- A scalar opens no bracket and is no white space. -/
theorem Grammar.ScalarText.first_visible (scalar : ScalarText front) :
    ∃ first others, front = first :: others ∧ isBlank first = Bool.false ∧ first ≠ '[' ∧
      first ≠ '\x7b' ∧ first ≠ ']' := by
  obtain ⟨first, others, rfl, isFirst⟩ := scalar.exists_first
  refine ⟨first, others, rfl, ?_⟩
  rcases isFirst with rfl | rfl | rfl | rfl | opens
  · decide
  · decide
  · decide
  · decide
  · exact ⟨opens.visible, opens.ne (by decide) rfl, opens.ne (by decide) rfl,
      opens.ne (by decide) rfl⟩

theorem reads_passScalar (scalar : ScalarText front) (ends : EndsNumeral rest) :
    Reads (passScalar (front ++ rest)) () rest := by
  cases scalar with
  | null => exact reads_readLetters ['u', 'l', 'l'] rest
  | true => exact reads_readLetters ['r', 'u', 'e'] rest
  | false => exact reads_readLetters ['a', 'l', 's', 'e'] rest
  | string isBody =>
    have bodyReads := lexes_passString.reads rest isBody
    exact bodyReads.past
  | numeral isNumeral =>
    obtain ⟨numeral, reads⟩ := @NumeralText.reads .malformed rest front isNumeral ends
    obtain ⟨first, others, rfl, opens⟩ := isNumeral.exists_opening
    rw [List.cons_append] at reads ⊢
    have isFirst : (first = '-' || first.isDigit) = true := by
      rwa [Bool.or_eq_true, decide_eq_true_eq]
    rw [passScalar, if_pos isFirst]
    · exact reads.bind fun _ => .pure rfl rfl
    all_goals exact opens.ne (by decide) rfl

theorem exists_scalar_of_reads (reads : Reads (passScalar text) () rest) :
    ∃ front, text = front ++ rest ∧ ScalarText front := by
  unfold passScalar at reads
  split at reads
  · exact reads.not_error.elim
  · obtain ⟨_, left, within, bodyReads, reads⟩ := reads.of_bind
    obtain ⟨-, rfl⟩ := reads.of_pure
    obtain ⟨body, rfl, isBody⟩ := lexes_passString.sound bodyReads
    exact ⟨'"' :: body, rfl, .string isBody⟩
  · rw [letters_of_reads reads]
    exact ⟨['n', 'u', 'l', 'l'], rfl, .null⟩
  · rw [letters_of_reads reads]
    exact ⟨['t', 'r', 'u', 'e'], rfl, .true⟩
  · rw [letters_of_reads reads]
    exact ⟨['f', 'a', 'l', 's', 'e'], rfl, .false⟩
  · split at reads
    · obtain ⟨numeral, left, within, numeralRead, reads⟩ := reads.of_bind
      obtain ⟨-, rfl⟩ := reads.of_pure
      obtain ⟨front, same, isNumeral⟩ := exists_numeral_of_reads numeralRead
      exact ⟨front, same, .numeral isNumeral⟩
    · exact reads.not_error.elim

/-! ## Values -/

section Parts

variable {part other : α -> List Char -> Prop} {close : Char} {first : Bool} {items : List α}

/-- A part is no longer than the parts together. -/
theorem Grammar.Parts.exists_of_mem (parts : Parts part first items text) {item : α}
    (member : item ∈ items) : ∃ text', part item text' ∧ text'.length ≤ text.length := by
  induction parts with
  | none => cases member
  | another _ _ isPart _ ih =>
    rcases List.mem_cons.1 member with rfl | member
    · refine ⟨_, isPart, ?_⟩
      simp only [List.length_append]
      omega
    · obtain ⟨text', isPart, within⟩ := ih member
      refine ⟨text', isPart, ?_⟩
      simp only [List.length_append]
      omega

/-- Parts of one kind are parts of another if those no longer than all together are. -/
theorem Grammar.Parts.mono (parts : Parts part first items text)
    (all : ∀ item text', text'.length ≤ text.length -> part item text' -> other item text') :
    Parts other first items text := by
  induction parts with
  | none first => exact .none first
  | another blank alsoBlank isPart _ ih =>
    refine .another blank alsoBlank (all _ _ ?_ isPart) (ih fun item text' within => ?_)
    · simp only [List.length_append]
      omega
    · refine all item text' ?_
      simp only [List.length_append]
      omega

theorem Grammar.Closed.exists_of_mem (closed : Closed part close first items text) {item : α}
    (member : item ∈ items) : ∃ text', part item text' ∧ text'.length ≤ text.length := by
  obtain ⟨parts, -⟩ := closed
  obtain ⟨text', isPart, within⟩ := parts.exists_of_mem member
  refine ⟨text', isPart, ?_⟩
  simp only [List.length_append]
  omega

theorem Grammar.Closed.mono (closed : Closed part close first items text)
    (all : ∀ item text', text'.length ≤ text.length -> part item text' -> other item text') :
    Closed other close first items text := by
  obtain ⟨parts, blank⟩ := closed
  refine .parts (parts.mono fun item text' within => all item text' ?_) blank
  simp only [List.length_append]
  omega

/-- The value of a member is no longer than the member. -/
theorem Grammar.Member.length_value {key : κ -> List Char -> Prop} {member : κ × List Char}
    (isMember : Member key member text) : member.2.length ≤ text.length := by
  cases isMember
  simp only [List.length_cons, List.length_append]
  omega

end Parts

/-- A value has no more levels than characters. -/
theorem Grammar.ValueText.of_length {levels bound : ℕ} (value : ValueText levels text)
    (within : text.length ≤ bound) : ValueText bound text := by
  induction levels generalizing text bound with
  | zero => exact value.elim
  | succ levels ih =>
    rcases value with scalar | ⟨items, inner, rfl, closed⟩ | ⟨members, inner, rfl, closed, values⟩
    · obtain ⟨first, others, rfl, -⟩ := scalar.exists_first
      obtain _ | bound := bound
      · cases within
      · exact .inl scalar
    · obtain _ | bound := bound
      · cases within
      · refine .inr (.inl ⟨items, inner, rfl, closed.mono fun _ text' shorter value => ?_⟩)
        exact ih value (shorter.trans (Nat.le_of_succ_le_succ within))
    · obtain _ | bound := bound
      · cases within
      · refine .inr (.inr ⟨members, inner, rfl, closed, fun member isMember => ?_⟩)
        obtain ⟨text', isPart, shorter⟩ := closed.exists_of_mem isMember
        refine ih (values member isMember) (isPart.length_value.trans (shorter.trans ?_))
        exact Nat.le_of_succ_le_succ within

theorem Grammar.ValueText.startsItem {levels : ℕ} (value : ValueText levels text) :
    StartsItem text := by
  cases levels with
  | zero => exact value.elim
  | succ levels =>
    rcases value with scalar | ⟨items, inner, rfl, -⟩ | ⟨members, inner, rfl, -⟩
    · obtain ⟨first, others, rfl, visible, -, -, noEnd⟩ := scalar.first_visible
      exact ⟨first, others, rfl, visible, noEnd⟩
    · exact ⟨'[', inner, rfl, rfl, by decide⟩
    · exact ⟨'\x7b', inner, rfl, rfl, by decide⟩

/-- A reader of the colon and the value of a member agrees with the grammar if the reader of the
value does, whatever is made of the value. -/
theorem recognises_afterColon {value : Reader α} {stands : α -> List Char -> Prop}
    {result : β -> List Char -> Prop} {change : α -> β} (values : Recognises value stands)
    (made : ∀ made text, result made text ↔ ∃ item, stands item text ∧ change item = made) :
    Recognises (fun text => do
      let colon <- readColon text
      return colon.followedBy ((<- value colon.rest).map change)) (AfterColon result) where
  reads := by
    rintro before final _ rest blank (@⟨between, text, alsoBlank, isResult⟩) ends
    obtain ⟨item, isValue, rfl⟩ := (made final text).1 isResult
    have whole : ':' :: (between ++ text) ++ rest = ':' :: (between ++ (text ++ rest)) := by simp
    rw [whole]
    refine (reads_readMark (blank.dropBlank_cons rfl _)).bind fun within => ?_
    exact (values.reads alsoBlank isValue ends).bind fun _ => .pure rfl rfl
  sound := by
    intro text value rest reads
    obtain ⟨_, left, within, colonRead, reads⟩ := reads.of_bind
    obtain ⟨item, last, alsoWithin, valueRead, reads⟩ := reads.of_bind
    obtain ⟨rfl, rfl⟩ := reads.of_pure
    obtain ⟨before, blank, rfl⟩ := exists_blank (dropBlank_of_readMark colonRead)
    obtain ⟨between, front, alsoBlank, rfl, isValue⟩ := values.sound valueRead
    refine ⟨before, ':' :: (between ++ front), blank, ?_,
      .colon alsoBlank ((made _ _).2 ⟨item, isValue, rfl⟩)⟩
    simp [Taken.followedBy, Taken.widen, Taken.map]

/-- A state that no member changes is kept exactly if each member may stand. -/
theorem trail_unit_iff {stands : List Char -> Prop} {members : List (κ × List Char)} :
    Trail (fun _ _ _ value => stands value) () members () ↔
      ∀ member ∈ members, stands member.2 := by
  constructor
  · intro trail
    induction members with
    | nil => nofun
    | cons member others ih =>
      cases trail with
      | cons isStep rest => exact List.forall_mem_cons.2 ⟨isStep, ih rest⟩
  · intro all
    induction members with
    | nil => exact .nil ()
    | cons member others ih =>
      obtain ⟨isStep, rest⟩ := List.forall_mem_cons.1 all
      exact .cons isStep (ih rest)

section Nested

variable {levels : ℕ} {inner : List Char}

/-- A colon and a value are passed over. -/
def passAfterColon (levels : ℕ) : Reader Unit := fun text => do
  let colon <- readColon text
  return colon.followedBy ((<- passNested levels colon.rest).map id)

theorem reads_passNested_of_array (found : dropBlank text = '[' :: inner) {values : List Unit}
    (items : Reads (readItems (passNested levels) true inner) values rest) :
    Reads (passNested (levels + 1) text) () rest := by
  unfold passNested
  split
  · next bracket =>
    cases found.symm.trans bracket
    exact items.bind fun _ => .pure rfl rfl
  · next bracket => cases found.symm.trans bracket
  · next noArray _ => exact absurd found (noArray _)

theorem reads_passNested_of_object (found : dropBlank text = '\x7b' :: inner)
    (members : Reads (readMembers passString (fun _ _ => passAfterColon levels) () true inner) ()
      rest) : Reads (passNested (levels + 1) text) () rest := by
  unfold passNested
  split
  · next bracket => cases found.symm.trans bracket
  · next bracket =>
    cases found.symm.trans bracket
    exact members.bind fun _ => .pure rfl rfl
  · next _ noObject => exact absurd found (noObject _)

theorem reads_passNested_of_scalar {first : Char} (found : dropBlank text = first :: inner)
    (noArray : first ≠ '[') (noObject : first ≠ '\x7b')
    (scalar : Reads (passScalar (first :: inner)) () rest) :
    Reads (passNested (levels + 1) text) () rest := by
  unfold passNested
  split
  · next bracket => exact absurd (List.cons.inj (found.symm.trans bracket)).1 noArray
  · next bracket => exact absurd (List.cons.inj (found.symm.trans bracket)).1 noObject
  · rw [← found] at scalar
    exact scalar.bind fun _ => .pure rfl rfl

end Nested

/-- Under a bound, what is passed over are the values of no more levels. -/
theorem recognises_passNested (levels : ℕ) :
    Recognises (passNested levels) fun _ => ValueText levels := by
  induction levels with
  | zero => exact ⟨fun _ value => value.elim, fun reads => reads.not_error.elim⟩
  | succ levels ih =>
    have arrays := lexes_readItems ih (fun _ _ value => value.startsItem) true
    have values (_ _ : Unit) :
        Recognises (passAfterColon levels) (AfterColon fun _ => ValueText levels) :=
      recognises_afterColon ih fun _ _ => by simp
    have objects := lexes_readMembers lexes_passString values () true
    constructor
    · rintro before ⟨⟩ front rest blank value ends
      rcases value with scalar | ⟨items, inner, rfl, closed⟩ | ⟨members, inner, rfl, closed, values⟩
      · obtain ⟨first, others, rfl, visible, noArray, noObject, -⟩ := scalar.first_visible
        exact reads_passNested_of_scalar (blank.dropBlank_cons visible _) noArray noObject
          (reads_passScalar scalar ends)
      · exact reads_passNested_of_array (blank.dropBlank_cons rfl _) (arrays.reads rest closed)
      · exact reads_passNested_of_object (blank.dropBlank_cons rfl _)
          (objects.reads rest ⟨members, closed, trail_unit_iff.2 values⟩)
    · intro text value rest reads
      unfold passNested at reads
      split at reads
      · next found =>
        obtain ⟨before, blank, rfl⟩ := exists_blank found
        obtain ⟨items, left, within, itemsRead, reads⟩ := reads.of_bind
        obtain ⟨-, rfl⟩ := reads.of_pure
        obtain ⟨inner, rfl, closed⟩ := arrays.sound itemsRead
        exact ⟨before, '[' :: inner, blank, rfl, .inr (.inl ⟨items, inner, rfl, closed⟩)⟩
      · next found =>
        obtain ⟨before, blank, rfl⟩ := exists_blank found
        obtain ⟨_, left, within, membersRead, reads⟩ := reads.of_bind
        obtain ⟨-, rfl⟩ := reads.of_pure
        obtain ⟨inner, rfl, members, closed, trail⟩ := objects.sound membersRead
        exact ⟨before, '\x7b' :: inner, blank, rfl,
          .inr (.inr ⟨members, inner, rfl, closed, trail_unit_iff.1 trail⟩)⟩
      · obtain ⟨_, left, within, scalarRead, reads⟩ := reads.of_bind
        obtain ⟨-, rfl⟩ := reads.of_pure
        obtain ⟨front, found, scalar⟩ := exists_scalar_of_reads scalarRead
        obtain ⟨before, blank, same⟩ := exists_blank found
        exact ⟨before, front, blank, same, .inl scalar⟩

/-- What is passed over is any value. -/
theorem recognises_passValue : Recognises passValue fun _ => AnyValue where
  reads := by
    rintro before ⟨⟩ front rest blank ⟨levels, value⟩ ends
    refine (recognises_passNested _).reads blank (value.of_length ?_) ends
    simp only [List.length_append]
    omega
  sound := by
    intro text _ rest reads
    obtain ⟨before, front, blank, same, value⟩ := (recognises_passNested _).sound reads
    exact ⟨before, front, blank, same, _, value⟩

end ScriptConsole.Json
