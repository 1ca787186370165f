import ScriptConsole.Json.Lexeme.Text
import ScriptConsole.Json.Printer
import ScriptConsole.Proofs.Json.Reads

/-!
# Printed strings are read back

Every character of a string literal is read back from its escape, so the literal is read
up to its closing quote and no further.
-/

namespace ScriptConsole.Json

/-! ## Code units -/

theorem hexValue?_digitChar {digit : Nat} (small : digit < 16) :
    hexValue? (Nat.digitChar digit) = some digit := by
  have each : ∀ digit < 16, hexValue? (Nat.digitChar digit) = some digit := by decide
  exact each digit small

/-- A character takes at least one byte. -/
theorem length_le_encodedLength (text : List Char) : text.length ≤ encodedLength text := by
  induction text with
  | nil => exact Nat.le_refl 0
  | cons first rest ih =>
    have size := first.utf8Size_pos
    simp only [encodedLength, List.map_cons, List.foldr_cons, List.length_cons] at ih ⊢
    omega

theorem reads_readCodeUnit {a b c d : Char} {rest : List Char} {w x y z : Nat}
    (first : hexValue? a = some w) (second : hexValue? b = some x) (third : hexValue? c = some y)
    (fourth : hexValue? d = some z) :
    Reads (readCodeUnit (a :: b :: c :: d :: rest)) (((w * 16 + x) * 16 + y) * 16 + z) rest := by
  have enough := length_le_encodedLength (a :: b :: c :: d :: rest)
  simp only [List.length_cons] at enough
  rw [readCodeUnit, if_neg (by omega)]
  simp only [first, second, third, fourth]
  exact .ok rfl rfl

/-- A code unit of a control character is no surrogate. -/
theorem reads_readUnicodeEscape {text rest : List Char} {code : Nat} (small : code < 0xd800)
    (reads : Reads (readCodeUnit text) code rest) :
    Reads (readUnicodeEscape text) (Char.ofNat code) rest := by
  have low : isLowSurrogate code = false := by
    simp [isLowSurrogate]
    omega
  have high : isHighSurrogate code = false := by
    simp [isHighSurrogate]
    omega
  refine reads.bind fun _ => ?_
  simp only [low, high]
  exact .pure rfl rfl

/-! ## Characters -/

section Characters

variable {α : Type} {escape : Reader α} {plain : Char -> α} {others : List α}
  {text rest left : List Char}

/-- The closing quote ends the string. -/
theorem reads_readCharacters_quote (escape : Reader α) (plain : Char -> α) (rest : List Char) :
    Reads (readCharacters escape plain ('"' :: rest)) [] rest := by
  rw [readCharacters]
  exact .ok rfl rfl

/-- An escape stands for what is read from after its backslash. -/
theorem reads_readCharacters_escape {first : α} (reads : Reads (escape text) first rest)
    (continues : Reads (readCharacters escape plain rest) others left) :
    Reads (readCharacters escape plain ('\\' :: text)) (first :: others) left := by
  rw [readCharacters]
  exact reads.bind fun _ => continues.bind fun _ => .pure rfl rfl

/-- A character that needs no escape stands for itself. -/
theorem reads_readCharacters_plain {first : Char} (noQuote : first ≠ '"')
    (noBackslash : first ≠ '\\') (visible : ¬first.toNat < 32)
    (continues : Reads (readCharacters escape plain rest) others left) :
    Reads (readCharacters escape plain (first :: rest)) (plain first :: others) left := by
  rw [readCharacters, if_neg visible]
  · exact continues.bind fun _ => .pure rfl rfl
  · exact noQuote
  · exact noBackslash

end Characters

/-- A one-letter escape is read as its character. -/
theorem reads_readEscape_short {letter character : Char} {rest : List Char} (noCode : letter ≠ 'u')
    (short : shortEscape? letter = some character) :
    Reads (readEscape (letter :: rest)) character rest := by
  rw [readEscape]
  · simp only [short]
    exact .ok rfl rfl
  · exact noCode

/-- A control character is read from the two digits of its code. -/
theorem reads_readEscape_control {character : Char} {rest : List Char}
    (control : character.toNat < 32) :
    Reads (readEscape ('u' :: '0' :: '0' :: Nat.digitChar (character.toNat / 16) ::
      Nat.digitChar (character.toNat % 16) :: rest)) character rest := by
  have unit := @reads_readCodeUnit '0' '0' _ _ rest 0 0 _ _ rfl rfl
    (hexValue?_digitChar (by omega : character.toNat / 16 < 16))
    (hexValue?_digitChar (by omega : character.toNat % 16 < 16))
  have code : ((0 * 16 + 0) * 16 + character.toNat / 16) * 16 + character.toNat % 16 =
      character.toNat := by
    omega
  rw [code] at unit
  have reads := reads_readUnicodeEscape (by omega) unit
  rw [Char.ofNat_toNat] at reads
  exact reads.bind fun _ => .pure rfl rfl

/-! ## Literals -/

/-- A printed character has a one-letter escape, shows its code, or stands for itself. -/
theorem escaped_cases (character : Char) :
    (∃ letter, letter ≠ 'u' ∧ shortEscape? letter = some character ∧
      escaped character = ['\\', letter]) ∨
    (character.toNat < 32 ∧ escaped character = ['\\', 'u', '0', '0',
      Nat.digitChar (character.toNat / 16), Nat.digitChar (character.toNat % 16)]) ∨
    (character ≠ '"' ∧ character ≠ '\\' ∧ ¬character.toNat < 32 ∧
      escaped character = [character]) := by
  unfold escaped
  split
  · exact .inl ⟨'"', by decide, rfl, rfl⟩
  · exact .inl ⟨'\\', by decide, rfl, rfl⟩
  · exact .inl ⟨'b', by decide, rfl, rfl⟩
  · exact .inl ⟨'f', by decide, rfl, rfl⟩
  · exact .inl ⟨'n', by decide, rfl, rfl⟩
  · exact .inl ⟨'r', by decide, rfl, rfl⟩
  · exact .inl ⟨'t', by decide, rfl, rfl⟩
  · next noQuote noBackslash _ _ _ _ _ =>
    by_cases control : character.toNat < 32
    · rw [if_pos control]
      exact .inr (.inl ⟨control, rfl⟩)
    · rw [if_neg control]
      exact .inr (.inr ⟨noQuote, noBackslash, control, rfl⟩)

/-- A printed character is read as the character. -/
theorem reads_escaped (character : Char) {rest left : List Char} {others : List Char}
    (continues : Reads (readCharacters readEscape id rest) others left) :
    Reads (readCharacters readEscape id (escaped character ++ rest)) (character :: others)
      left := by
  obtain ⟨letter, noCode, known, text⟩ | ⟨control, text⟩ | ⟨noQuote, noBackslash, visible, text⟩ :=
    escaped_cases character
  · rw [text]
    exact reads_readCharacters_escape (reads_readEscape_short noCode known) continues
  · rw [text]
    exact reads_readCharacters_escape (reads_readEscape_control control) continues
  · rw [text]
    exact reads_readCharacters_plain noQuote noBackslash visible continues

/-- A string literal is read from after its opening quote as its text. -/
theorem reads_readString (text : String) (rest : List Char) :
    Reads (readString (text.toList.flatMap escaped ++ '"' :: rest)) text rest := by
  have characters : ∀ characters : List Char,
      Reads (readCharacters readEscape id (characters.flatMap escaped ++ '"' :: rest))
        characters rest := by
    intro characters
    induction characters with
    | nil => exact reads_readCharacters_quote readEscape id rest
    | cons first others ih =>
      rw [List.flatMap_cons, List.append_assoc]
      exact reads_escaped first ih
  exact (characters text.toList).bind fun _ => .pure (String.ofList_toList) rfl

end ScriptConsole.Json
