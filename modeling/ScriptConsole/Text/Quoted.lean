import ScriptConsole.Text.Unprintable

/-!
# Quoted text

Text between double quotes in which every character shows: the quote, the
backslash and the common control characters have short escapes, and what has no
visible shape is shown by its number.
-/

namespace ScriptConsole.Text

/-- One character inside quotes. -/
def quotedCharacter (character : Char) : List Char :=
  match character with
  | '"' => ['\\', '"']
  | '\\' => ['\\', '\\']
  | '\n' => ['\\', 'n']
  | '\r' => ['\\', 'r']
  | '\t' => ['\\', 't']
  | '\x00' => ['\\', '0']
  | _ =>
    if isUnprintable character then
      ['\\', 'u', '\x7b'] ++ Nat.toDigits 16 character.toNat ++ ['\x7d']
    else
      [character]

/-- A text in double quotes with everything in it visible. -/
def quoted (text : String) : String :=
  String.ofList ('"' :: text.toList.flatMap quotedCharacter ++ ['"'])

end ScriptConsole.Text
