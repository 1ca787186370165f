import ScriptConsole.Json.Lexeme.Text
import ScriptConsole.Proofs.Json.Container

/-!
# The grammar of JSON text

Which texts are JSON, said without a reader. White space may stand before every part. A string
whose text is asked for must denote one, with its surrogates in pairs; a string that nobody asks
for need not. `ValueText` counts the levels of a value, and every value has finitely many.
-/

namespace ScriptConsole.Json.Grammar

variable {α β κ : Type}

/-- White space, or nothing. -/
def Blank (text : List Char) : Prop :=
  ∀ character ∈ text, isBlank character = true

/-! ## Strings -/

/-- The four hexadecimal digits of a code unit. -/
inductive CodeUnit : Nat -> List Char -> Prop where
  | digits {a b c d : Char} {w x y z : Nat} (first : hexValue? a = some w)
      (second : hexValue? b = some x) (third : hexValue? c = some y)
      (fourth : hexValue? d = some z) :
      CodeUnit (((w * 16 + x) * 16 + y) * 16 + z) [a, b, c, d]

/-- What stands after a backslash for a character. Surrogates only stand in pairs. -/
inductive Escape : Char -> List Char -> Prop where
  | letter {letter character : Char} (known : shortEscape? letter = some character) :
      Escape character [letter]
  | unit {unit : Nat} {digits : List Char} (hexadecimal : CodeUnit unit digits)
      (notLow : isLowSurrogate unit = false) (notHigh : isHighSurrogate unit = false) :
      Escape (Char.ofNat unit) ('u' :: digits)
  | pair {high low : Nat} {first second : List Char} (highDigits : CodeUnit high first)
      (lowDigits : CodeUnit low second) (isHigh : isHighSurrogate high = true)
      (isLow : isLowSurrogate low = true) :
      Escape (pairedCharacter high low) ('u' :: (first ++ '\\' :: 'u' :: second))

/-- What stands after a backslash where the character does not matter. -/
inductive LooseEscape : Unit -> List Char -> Prop where
  | letter {letter : Char} (known : (shortEscape? letter).isSome = true) : LooseEscape () [letter]
  | unit {unit : Nat} {digits : List Char} (hexadecimal : CodeUnit unit digits) :
      LooseEscape () ('u' :: digits)

/-- What stands after the opening quote of a string, the closing quote included. -/
inductive StringBody (escape : α -> List Char -> Prop) (plain : Char -> α) :
    List α -> List Char -> Prop where
  | close : StringBody escape plain [] ['"']
  | plain {character : Char} {others : List α} {rest : List Char} (noQuote : character ≠ '"')
      (noBackslash : character ≠ '\\') (visible : ¬character.toNat < 32)
      (body : StringBody escape plain others rest) :
      StringBody escape plain (plain character :: others) (character :: rest)
  | escaped {item : α} {others : List α} {text rest : List Char} (known : escape item text)
      (body : StringBody escape plain others rest) :
      StringBody escape plain (item :: others) ('\\' :: (text ++ rest))

/-- What stands after the opening quote of a string that denotes the text. -/
def KeyBody (value : String) (body : List Char) : Prop :=
  StringBody Escape id value.toList body

/-- What stands after the opening quote of a string that nobody asks for. -/
def LooseBody (_ : Unit) (body : List Char) : Prop :=
  ∃ units, StringBody LooseEscape (fun _ => ()) units body

/-- A string literal that denotes the text. -/
def Literal (value : String) (text : List Char) : Prop :=
  ∃ body, KeyBody value body ∧ text = '"' :: body

/-! ## Numerals -/

/-- At least one digit. -/
structure Digits (text : List Char) : Prop where
  nonempty : text ≠ []
  isDigit : ∀ character ∈ text, character.isDigit = true

/-- A point and digits, or nothing. -/
inductive FractionText : List Char -> Prop where
  | none : FractionText []
  | digits {digits : List Char} (proper : Digits digits) : FractionText ('.' :: digits)

/-- An exponent, or nothing. -/
inductive ExponentText : List Char -> Prop where
  | none : ExponentText []
  | digits {mark : Char} {sign digits : List Char} (isMark : mark = 'e' ∨ mark = 'E')
      (isSign : sign = [] ∨ sign = ['+'] ∨ sign = ['-']) (proper : Digits digits) :
      ExponentText (mark :: (sign ++ digits))

/-- A numeral of any size. Before the point no digit stands after a leading zero. -/
inductive NumeralText : List Char -> Prop where
  | parts {sign whole fraction exponent : List Char} (isSign : sign = [] ∨ sign = ['-'])
      (proper : Digits whole) (plain : whole.head? = some '0' -> whole = ['0'])
      (isFraction : FractionText fraction) (isExponent : ExponentText exponent) :
      NumeralText (sign ++ (whole ++ (fraction ++ exponent)))

/-! ## Values -/

/-- Parts with white space before each of them and commas between them, from after a part
unless `first` holds. -/
inductive Parts (part : α -> List Char -> Prop) : Bool -> List α -> List Char -> Prop where
  | none (first : Bool) : Parts part first [] []
  | another {first : Bool} {item : α} {items : List α} {before between text rest : List Char}
      (blank : Blank before) (alsoBlank : Blank between) (isPart : part item text)
      (others : Parts part false items rest) :
      Parts part first (item :: items) (before ++ (comma first ++ (between ++ (text ++ rest))))

/-- Parts up to a closing bracket, which is included. -/
inductive Closed (part : α -> List Char -> Prop) (close : Char) (first : Bool) :
    List α -> List Char -> Prop where
  | parts {items : List α} {parts before : List Char} (isParts : Parts part first items parts)
      (blank : Blank before) : Closed part close first items (parts ++ (before ++ [close]))

/-- A colon with a value after it. -/
inductive AfterColon (stands : α -> List Char -> Prop) : α -> List Char -> Prop where
  | colon {item : α} {between value : List Char} (blank : Blank between)
      (isValue : stands item value) : AfterColon stands item (':' :: (between ++ value))

/-- A member of an object: its key, and the text of its value. -/
inductive Member (key : κ -> List Char -> Prop) : κ × List Char -> List Char -> Prop where
  | member {name : κ} {body after between value : List Char} (isKey : key name body)
      (blank : Blank after) (alsoBlank : Blank between) :
      Member key (name, value) ('"' :: (body ++ (after ++ ':' :: (between ++ value))))

/-- A value that is neither an array nor an object. -/
inductive ScalarText : List Char -> Prop where
  | null : ScalarText ['n', 'u', 'l', 'l']
  | true : ScalarText ['t', 'r', 'u', 'e']
  | false : ScalarText ['f', 'a', 'l', 's', 'e']
  | string {body : List Char} (isBody : LooseBody () body) : ScalarText ('"' :: body)
  | numeral {text : List Char} (isNumeral : NumeralText text) : ScalarText text

/-- A value of at most so many levels: a scalar has one, and an array or an object one more than
what it holds. -/
def ValueText : (levels : Nat) -> List Char -> Prop
  | 0, _ => False
  | levels + 1, text =>
    ScalarText text ∨
      (∃ items inner, text = '[' :: inner ∧
        Closed (fun _ : Unit => ValueText levels) ']' true items inner) ∨
      ∃ members inner, text = '\x7b' :: inner ∧
        Closed (Member LooseBody) '\x7d' true members inner ∧
        ∀ member ∈ members, ValueText levels member.2

/-- Any value. -/
def AnyValue (text : List Char) : Prop :=
  ∃ levels, ValueText levels text

/-! ## Whole texts -/

/-- An opening bracket or quote and what comes after it up to its end, with white space around
them. -/
inductive Bracketed (opening : Char) (inside : List Char -> Prop) : List Char -> Prop where
  | around {before inner after : List Char} (blank : Blank before) (isInside : inside inner)
      (alsoBlank : Blank after) :
      Bracketed opening inside (before ++ (opening :: (inner ++ after)))

theorem Bracketed.mono {opening : Char} {inside other : List Char -> Prop} {text : List Char}
    (bracketed : Bracketed opening inside text) (all : ∀ inner, inside inner -> other inner) :
    Bracketed opening other text := by
  obtain ⟨blank, isInside, alsoBlank⟩ := bracketed
  exact .around blank (all _ isInside) alsoBlank

/-- What is known of the inside alone is known of the whole. -/
theorem Bracketed.exists_and {opening : Char} {inside : α -> List Char -> Prop} {known : α -> Prop}
    {text : List Char}
    (bracketed : Bracketed opening (fun inner => ∃ item, inside item inner ∧ known item) text) :
    ∃ item, Bracketed opening (inside item) text ∧ known item := by
  obtain ⟨blank, ⟨item, isInside, isKnown⟩, alsoBlank⟩ := bracketed
  exact ⟨item, .around blank isInside alsoBlank, isKnown⟩

/-- A string literal that denotes the text. -/
def LiteralText (value : String) : List Char -> Prop :=
  Bracketed '"' (KeyBody value)

/-- An object whose keys denote texts. -/
def ObjectText (members : List (String × List Char)) : List Char -> Prop :=
  Bracketed '\x7b' (Closed (Member KeyBody) '\x7d' true members)

/-- An array of string literals. -/
def StringArrayText (values : List String) : List Char -> Prop :=
  Bracketed '[' (Closed Literal ']' true values)

end ScriptConsole.Json.Grammar
