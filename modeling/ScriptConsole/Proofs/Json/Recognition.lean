import ScriptConsole.Json.Skip
import ScriptConsole.Proofs.Json.Grammar
import ScriptConsole.Proofs.Json.Numeral
import ScriptConsole.Proofs.Json.Text

/-!
# Readers take what the grammar says

A reader and a grammar agree if the reader takes every text of the grammar off the front of a
longer one, and takes nothing else. Most readers do so whatever follows (`Lexes`); readers of
values pass over white space first, and must not stop within a numeral (`Recognises`). Both
pass from items to arrays and from members to objects.
-/

namespace ScriptConsole.Json

open Grammar

variable {α β κ σ : Type}

/-! ## Readings taken apart -/

namespace Reads

variable {limit wider : Nat} {value : α} {result : β} {rest left : List Char}

/-- When a sequence reads something, its first part has read something. -/
theorem of_bind {first : Except Error (Taken α limit)}
    {next : Taken α limit -> Except Error (Taken β wider)}
    (reads : Reads (first >>= next) result left) :
    ∃ value rest within, Reads first value rest ∧
      Reads (next ⟨value, rest, within⟩) result left := by
  obtain ⟨_, read⟩ := reads
  obtain ⟨taken, firstRead, read⟩ := bind_eq_ok_iff.1 read
  exact ⟨taken.value, taken.rest, taken.within, ⟨taken.within, firstRead⟩, _, read⟩

theorem of_ok {taken : Taken α limit} (reads : Reads (.ok taken) value rest) :
    taken.value = value ∧ taken.rest = rest := by
  obtain ⟨_, read⟩ := reads
  cases read
  exact ⟨rfl, rfl⟩

theorem of_pure {taken : Taken α limit} (reads : Reads (Pure.pure taken) value rest) :
    taken.value = value ∧ taken.rest = rest :=
  of_ok reads

theorem not_error {fault : Error}
    (reads : Reads (.error fault : Except Error (Taken α limit)) value rest) : False := by
  obtain ⟨_, read⟩ := reads
  cases read

/-- The same reading from one character further to the front. -/
theorem past {reading : Except Error (Taken α limit)} (reads : Reads reading value rest) :
    Reads (reading >>= fun taken => Pure.pure taken.past) value rest :=
  reads.bind fun _ => .pure rfl rfl

/-- A reading gives one value and leaves one rest. -/
theorem unique {reading : Except Error (Taken α limit)} {other : α}
    (reads : Reads reading value rest) (also : Reads reading other left) :
    value = other ∧ rest = left := by
  obtain ⟨_, rfl⟩ := reads
  exact also.of_ok

end Reads

/-- The reader takes exactly the texts of the grammar off the front of a text. -/
structure Lexes (reader : Reader α) (grammar : α -> List Char -> Prop) : Prop where
  reads : ∀ {value front} rest, grammar value front -> Reads (reader (front ++ rest)) value rest
  sound : ∀ {text value rest}, Reads (reader text) value rest ->
    ∃ front, text = front ++ rest ∧ grammar value front

/-- The reader takes exactly the texts of the grammar, with any white space before them, off the
front of a text that does not go on with a numeral. -/
structure Recognises (reader : Reader α) (grammar : α -> List Char -> Prop) : Prop where
  reads : ∀ {before value front rest}, Blank before -> grammar value front -> EndsNumeral rest ->
    Reads (reader (before ++ (front ++ rest))) value rest
  sound : ∀ {text value rest}, Reads (reader text) value rest -> ∃ before front, Blank before ∧
    text = before ++ (front ++ rest) ∧ grammar value front

/-! ## White space -/

namespace Grammar.Blank

variable {before : List Char}

theorem nil : Blank [] :=
  nofun

theorem dropBlank_append (blank : Blank before) (rest : List Char) :
    dropBlank (before ++ rest) = dropBlank rest :=
  List.dropWhile_append_of_pos blank

/-- What is visible is what is found after white space. -/
theorem dropBlank_cons (blank : Blank before) {first : Char} (visible : isBlank first = false)
    (rest : List Char) : dropBlank (before ++ first :: rest) = first :: rest := by
  rw [blank.dropBlank_append, dropBlank_of_visible visible]

/-- White space goes on with no numeral. -/
theorem endsNumeral {rest : List Char} (blank : Blank before) (ends : EndsNumeral rest) :
    EndsNumeral (before ++ rest) := by
  cases before with
  | nil => exact ends
  | cons first others =>
    intro character starts
    cases starts
    have isBlank := blank first List.mem_cons_self
    simp only [Json.isBlank, Bool.or_eq_true, decide_eq_true_eq] at isBlank
    rcases isBlank with ((rfl | rfl) | rfl) | rfl <;> decide

end Grammar.Blank

/-- A text is white space and what is found after it. -/
theorem exists_blank {text found : List Char} (drop : dropBlank text = found) :
    ∃ before, Blank before ∧ text = before ++ found := by
  refine ⟨text.takeWhile isBlank, fun character member => List.mem_takeWhile_imp member, ?_⟩
  rw [← drop]
  exact List.takeWhile_append_dropWhile.symm

theorem endsNumeral_cons {mark : Char} (rest : List Char)
    (isMark : mark.isDigit = false ∧ mark ≠ '.' ∧ mark ≠ 'e' ∧ mark ≠ 'E') :
    EndsNumeral (mark :: rest) := by
  intro first starts
  cases starts
  exact isMark

section Marks

variable {mark : Char} {before text rest : List Char}

theorem reads_readMark (found : dropBlank text = mark :: rest) :
    Reads (readMark mark text) () rest := by
  unfold readMark
  split
  · next empty =>
    rw [found] at empty
    cases empty
  · next same =>
    rw [found] at same
    cases same
    rw [if_pos rfl]
    exact .ok rfl rfl

theorem dropBlank_of_readMark (reads : Reads (readMark mark text) () rest) :
    dropBlank text = mark :: rest := by
  unfold readMark at reads
  split at reads
  · exact reads.not_error.elim
  · next found =>
    split at reads
    · next same =>
      obtain ⟨-, rfl⟩ := reads.of_ok
      exact found.trans (congrArg (· :: _) same)
    · exact reads.not_error.elim

end Marks

/-! ## Strings -/

section Strings

variable {escape : Reader α} {plain : Char -> α} {grammar : α -> List Char -> Prop}

theorem lexes_readCodeUnit : Lexes readCodeUnit CodeUnit where
  reads := by
    rintro _ _ rest ⟨first, second, third, fourth⟩
    exact reads_readCodeUnit first second third fourth
  sound := by
    intro text value rest reads
    unfold readCodeUnit at reads
    split at reads
    · exact reads.not_error.elim
    · split at reads
      · split at reads
        · next first second third fourth =>
          obtain ⟨rfl, rfl⟩ := reads.of_ok
          exact ⟨[_, _, _, _], rfl, .digits first second third fourth⟩
        · exact reads.not_error.elim
      · exact reads.not_error.elim

/-- The second escape of a pair, from its backslash on. -/
theorem lexes_readLowSurrogate : Lexes readLowSurrogate fun low text =>
    ∃ digits, CodeUnit low digits ∧ isLowSurrogate low = true ∧ text = '\\' :: 'u' :: digits where
  reads := by
    rintro low _ rest ⟨digits, hexadecimal, isLow, rfl⟩
    refine (lexes_readCodeUnit.reads rest hexadecimal).bind fun within => ?_
    rw [if_pos isLow]
    exact .pure rfl rfl
  sound := by
    intro text value rest reads
    unfold readLowSurrogate at reads
    split at reads
    · exact reads.not_error.elim
    · exact reads.not_error.elim
    · obtain ⟨code, left, within, unitReads, reads⟩ := reads.of_bind
      obtain ⟨digits, rfl, hexadecimal⟩ := lexes_readCodeUnit.sound unitReads
      split at reads
      · next isLow =>
        obtain ⟨rfl, rfl⟩ := reads.of_pure
        exact ⟨'\\' :: 'u' :: digits, rfl, digits, hexadecimal, isLow, rfl⟩
      · exact reads.not_error.elim
    · exact reads.not_error.elim

/-- No one-letter escape is the letter of a code unit. -/
theorem ne_of_shortEscape? {letter character : Char}
    (known : shortEscape? letter = some character) : letter ≠ 'u' := by
  rintro rfl
  cases known

theorem lexes_readUnicodeEscape :
    Lexes readUnicodeEscape fun character text => Escape character ('u' :: text) where
  reads := by
    intro character text rest known
    generalize written : 'u' :: text = whole at known
    cases known with
    | letter known =>
      cases written
      exact absurd rfl (ne_of_shortEscape? known)
    | unit hexadecimal notLow notHigh =>
      cases written
      refine (lexes_readCodeUnit.reads rest hexadecimal).bind fun within => ?_
      simp only [notLow, notHigh]
      exact .pure rfl rfl
    | @pair high low first second highDigits lowDigits isHigh isLow =>
      cases written
      have notLow : isLowSurrogate high = false := by
        simp only [isHighSurrogate, isLowSurrogate, Bool.and_eq_true, decide_eq_true_eq,
          Bool.and_eq_false_iff, decide_eq_false_iff_not] at isHigh ⊢
        omega
      rw [List.append_assoc]
      refine (lexes_readCodeUnit.reads _ highDigits).bind fun within => ?_
      simp only [notLow, isHigh]
      have lowReads := lexes_readLowSurrogate.reads rest ⟨second, lowDigits, isLow, rfl⟩
      refine lowReads.bind fun _ => .pure ?_ rfl
      simp only [Taken.followedBy, Taken.widen, Taken.map]
  sound := by
    intro text value rest reads
    obtain ⟨code, left, within, unitReads, reads⟩ := reads.of_bind
    obtain ⟨digits, rfl, hexadecimal⟩ := lexes_readCodeUnit.sound unitReads
    split at reads
    · exact reads.not_error.elim
    · next notLow =>
      have notLow := Bool.eq_false_iff.2 notLow
      split at reads
      · next isHigh =>
        obtain ⟨low, after, alsoWithin, lowReads, reads⟩ := reads.of_bind
        obtain ⟨isPair, rfl⟩ := reads.of_pure
        obtain ⟨_, rfl, second, lowDigits, isLow, rfl⟩ := lexes_readLowSurrogate.sound lowReads
        simp only [Taken.followedBy, Taken.widen, Taken.map] at isPair
        subst isPair
        exact ⟨digits ++ '\\' :: 'u' :: second, (List.append_assoc _ _ _).symm,
          .pair hexadecimal lowDigits isHigh isLow⟩
      · next notHigh =>
        obtain ⟨rfl, rfl⟩ := reads.of_pure
        exact ⟨digits, rfl, .unit hexadecimal notLow (Bool.eq_false_iff.2 notHigh)⟩

theorem lexes_readEscape : Lexes readEscape Escape where
  reads := by
    intro character text rest known
    cases known with
    | letter known => exact reads_readEscape_short (ne_of_shortEscape? known) known
    | unit hexadecimal notLow notHigh =>
      have reads := lexes_readUnicodeEscape.reads rest (.unit hexadecimal notLow notHigh)
      exact reads.past
    | pair highDigits lowDigits isHigh isLow =>
      have reads := lexes_readUnicodeEscape.reads rest (.pair highDigits lowDigits isHigh isLow)
      exact reads.past
  sound := by
    intro text value rest reads
    unfold readEscape at reads
    split at reads
    · exact reads.not_error.elim
    · obtain ⟨character, left, within, unitReads, reads⟩ := reads.of_bind
      obtain ⟨rfl, rfl⟩ := reads.of_pure
      obtain ⟨front, rfl, known⟩ := lexes_readUnicodeEscape.sound unitReads
      exact ⟨'u' :: front, rfl, known⟩
    · split at reads
      · next known =>
        obtain ⟨rfl, rfl⟩ := reads.of_ok
        exact ⟨[_], rfl, .letter known⟩
      · exact reads.not_error.elim

theorem lexes_passEscape : Lexes passEscape LooseEscape where
  reads := by
    intro _ text rest known
    cases known with
    | letter known =>
      obtain ⟨character, short⟩ := Option.isSome_iff_exists.1 known
      rw [List.singleton_append, passEscape]
      · rw [if_pos known]
        exact .ok rfl rfl
      · exact ne_of_shortEscape? short
    | unit hexadecimal =>
      exact (lexes_readCodeUnit.reads rest hexadecimal).bind fun _ => .pure rfl rfl
  sound := by
    intro text value rest reads
    unfold passEscape at reads
    split at reads
    · exact reads.not_error.elim
    · obtain ⟨code, left, within, unitReads, reads⟩ := reads.of_bind
      obtain ⟨-, rfl⟩ := reads.of_pure
      obtain ⟨digits, rfl, hexadecimal⟩ := lexes_readCodeUnit.sound unitReads
      exact ⟨'u' :: digits, rfl, .unit hexadecimal⟩
    · split at reads
      · next known =>
        obtain ⟨-, rfl⟩ := reads.of_ok
        exact ⟨[_], rfl, .letter known⟩
      · exact reads.not_error.elim

/-- A reading of escapes makes a reading of strings. -/
theorem lexes_readCharacters (escapes : Lexes escape grammar) :
    Lexes (readCharacters escape plain) (StringBody grammar plain) where
  reads := by
    intro items text rest body
    induction body with
    | close => exact reads_readCharacters_quote escape plain rest
    | plain noQuote noBackslash visible _ ih =>
      exact reads_readCharacters_plain noQuote noBackslash visible ih
    | escaped known _ ih =>
      rw [List.cons_append, List.append_assoc]
      exact reads_readCharacters_escape (escapes.reads _ known) ih
  sound := by
    intro text
    induction text using readCharacters.induct (α := α) with
    | case1 =>
      intro value rest reads
      rw [readCharacters] at reads
      exact reads.not_error.elim
    | case2 rest =>
      intro value rest reads
      rw [readCharacters] at reads
      obtain ⟨rfl, rfl⟩ := reads.of_ok
      exact ⟨['"'], rfl, .close⟩
    | case3 text ih =>
      intro value rest reads
      rw [readCharacters] at reads
      obtain ⟨first, left, within, firstReads, reads⟩ := reads.of_bind
      obtain ⟨others, after, alsoWithin, othersRead, reads⟩ := reads.of_bind
      obtain ⟨rfl, rfl⟩ := reads.of_pure
      obtain ⟨front, rfl, known⟩ := escapes.sound firstReads
      obtain ⟨tail, rfl, body⟩ := ih ⟨first, left, within⟩ othersRead
      exact ⟨'\\' :: (front ++ tail), congrArg ('\\' :: ·) (List.append_assoc _ _ _).symm,
        .escaped known body⟩
    | case4 first text noQuote noBackslash control =>
      intro value rest reads
      rw [readCharacters, if_pos control] at reads
      · exact reads.not_error.elim
      · exact noQuote
      · exact noBackslash
    | case5 first text noQuote noBackslash visible ih =>
      intro value rest reads
      rw [readCharacters, if_neg visible] at reads
      · obtain ⟨others, after, within, othersRead, reads⟩ := reads.of_bind
        obtain ⟨rfl, rfl⟩ := reads.of_pure
        obtain ⟨tail, rfl, body⟩ := ih othersRead
        exact ⟨first :: tail, rfl, .plain noQuote noBackslash visible body⟩
      · exact noQuote
      · exact noBackslash

theorem lexes_readString : Lexes readString KeyBody where
  reads := by
    intro value body rest isBody
    refine ((lexes_readCharacters lexes_readEscape).reads rest isBody).bind fun _ => ?_
    exact .pure String.ofList_toList rfl
  sound := by
    intro text value rest reads
    obtain ⟨characters, left, within, charactersRead, reads⟩ := reads.of_bind
    obtain ⟨rfl, rfl⟩ := reads.of_pure
    obtain ⟨front, rfl, body⟩ := (lexes_readCharacters lexes_readEscape).sound charactersRead
    refine ⟨front, rfl, ?_⟩
    rw [KeyBody, Taken.map, String.toList_ofList]
    exact body

theorem lexes_passString : Lexes passString LooseBody where
  reads := by
    rintro _ body rest ⟨units, isBody⟩
    exact ((lexes_readCharacters lexes_passEscape).reads rest isBody).bind fun _ => .pure rfl rfl
  sound := by
    intro text value rest reads
    obtain ⟨units, left, within, unitsRead, reads⟩ := reads.of_bind
    obtain ⟨-, rfl⟩ := reads.of_pure
    obtain ⟨front, rfl, body⟩ := (lexes_readCharacters lexes_passEscape).sound unitsRead
    exact ⟨front, rfl, units, body⟩

end Strings

end ScriptConsole.Json
