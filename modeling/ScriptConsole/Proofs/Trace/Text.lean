import Mathlib.Data.List.Nodup
import ScriptConsole.Trace.Event

/-!
# The text of a trace event

The text of an event is gathered field by field, and its message may come at any time. If
the names are distinct and a message that comes is not empty, then what is gathered is the
message and after it the other fields as `name=value` in the order of recording, with
single spaces between them: `text_eq_line`.
-/

namespace ScriptConsole.Trace

/-- The text that a value is recorded by, if it is recorded. -/
def Recorded.text? : Recorded -> Option String
  | .text value | .scalar value => some value
  | .nothing => none

/-- A whole number is shown in decimal. -/
theorem integerText_eq (value : Int) : integerText value = toString value := by
  cases value with
  | ofNat number =>
    have notNegative : ¬Int.ofNat number < 0 := Int.not_lt.2 (Int.natCast_nonneg number)
    rw [integerText, Json.integerText, if_neg notNegative]
    exact Nat.repr_eq_ofList_toDigits.symm
  | negSucc number =>
    rw [integerText, Json.integerText, if_pos (Int.negSucc_lt_zero number),
      show toString (Int.negSucc number) = "-" ++ (number + 1).repr from rfl,
      Nat.repr_eq_ofList_toDigits]
    exact @String.ofList_append ['-'] (Nat.toDigits 10 (number + 1))

/-- The characters that are escaped by a letter. -/
def letterEscapes : List (Char × Char) :=
  [('"', '"'), ('\\', '\\'), ('\n', 'n'), ('\r', 'r'), ('\t', 't'), ('\x00', '0')]

/-- A character as it stands in quotes: escaped by its letter if it has one, by its number in
hexadecimal if it would not be visible, and otherwise as it is. -/
def inQuotes (character : Char) : String :=
  match letterEscapes.lookup character with
  | some letter => "\\" ++ String.singleton letter
  | none =>
    if Text.isUnprintable character then
      "\\u\x7b" ++ String.ofList (Nat.toDigits 16 character.toNat) ++ "\x7d"
    else String.singleton character

theorem toList_inQuotes (character : Char) :
    (inQuotes character).toList = Text.quotedCharacter character := by
  unfold Text.quotedCharacter
  split
  case h_7 noQuote noBackslash noNewline noReturn noTab noNull =>
    have noLetter : letterEscapes.lookup character = none := by
      simp only [letterEscapes, List.lookup_cons, beq_false_of_ne noQuote,
        beq_false_of_ne noBackslash, beq_false_of_ne noNewline, beq_false_of_ne noReturn,
        beq_false_of_ne noTab, beq_false_of_ne noNull, List.lookup_nil]
    simp only [inQuotes, noLetter]
    rw [apply_ite String.toList]
    simp
  all_goals rfl

/-- A text in quotes is that of its characters, each escaped by itself. -/
theorem quoted_eq (value : String) :
    Text.quoted value = "\"" ++ String.join (value.toList.map inQuotes) ++ "\"" := by
  have characters : (fun character => (inQuotes character).toList) = Text.quotedCharacter :=
    funext toList_inQuotes
  rw [← String.toList_inj]
  simp only [String.toList_append, String.toList_join, List.flatMap_map, characters]
  simp [Text.quoted]

/-- The text of a value that is a text, shows itself as one, in quotes or without, or is a
whole number or a truth value of the machine. -/
def FieldValue.plainText? : FieldValue -> Option String
  | .text value | .shown value => some value
  | .quoted value => some ("\"" ++ String.join (value.toList.map inQuotes) ++ "\"")
  | .integer value => some (toString value.toInt)
  | .natural value => some (toString value.toNat)
  | .boolean value => some (if value then "true" else "false")
  | _ => none

theorem FieldValue.text?_recorded {value : FieldValue} {text : String}
    (plain : value.plainText? = some text) : value.recorded.text? = some text := by
  cases value with
  | integer value => exact (congrArg some (integerText_eq _)).trans plain
  | natural value => exact (congrArg some (integerText_eq _)).trans plain
  | boolean value => cases value <;> exact plain
  | text value => exact plain
  | shown value => exact plain
  | quoted value => exact (congrArg some (quoted_eq value)).trans plain
  | _ => cases plain

namespace Field

variable {field : Field}

/-- The text of a field that is the message. -/
def message? (field : Field) : Option String :=
  if field.name = messageName then field.value.recorded.text? else none

/-- The text of any other field, with its name. -/
def assignment? (field : Field) : Option String :=
  if field.name = messageName then none
  else field.value.recorded.text?.map fun text => field.name ++ "=" ++ text

/-- If the field is the message, then it is recorded as a text that is not empty. -/
def Plain (field : Field) : Prop :=
  field.name = messageName -> ∀ text, field.value.recorded.text? = some text ->
    field.value.recorded = .text text ∧ text ≠ ""

theorem Plain.message_ne_empty (plain : field.Plain) {text : String}
    (holds : field.message? = some text) : text ≠ "" := by
  unfold message? at holds
  split at holds
  · next isMessage => exact (plain isMessage text holds).2
  · cases holds

theorem assignment_ne_empty {text : String} (holds : field.assignment? = some text) :
    text ≠ "" := by
  unfold assignment? at holds
  split at holds
  · cases holds
  · obtain ⟨value, -, rfl⟩ := Option.map_eq_some_iff.1 holds
    simp [String.append_eq_empty_iff]

end Field

/-- Some words with single spaces between them. -/
def spaced (words : List String) : String :=
  " ".intercalate words

/-- If no word is empty, no words make the only empty text. -/
theorem isEmpty_spaced {words : List String} (visible : ∀ word ∈ words, word ≠ "") :
    (spaced words).isEmpty = words.isEmpty := by
  cases words with
  | nil => rfl
  | cons word words =>
    have first := visible word List.mem_cons_self
    cases words with
    | nil => simpa [spaced] using first
    | cons next words => simp [spaced]

theorem appendField_spaced {words : List String} (visible : ∀ word ∈ words, word ≠ "")
    (name value : String) :
    appendField (spaced words) name value = spaced (words ++ [name ++ "=" ++ value]) := by
  unfold appendField
  rw [isEmpty_spaced visible]
  cases words with
  | nil => simp [spaced]
  | cons word words =>
    rw [spaced, spaced, String.intercalate_append_of_ne_nil (List.cons_ne_nil _ _)
      (List.cons_ne_nil _ _), String.intercalate_singleton]
    rfl

theorem putMessage_spaced {words : List String} (visible : ∀ word ∈ words, word ≠ "")
    (message : String) : putMessage (spaced words) message = spaced (message :: words) := by
  unfold putMessage
  rw [isEmpty_spaced visible]
  cases words with
  | nil => simp [spaced]
  | cons word words => exact (String.intercalate_cons_of_ne_nil (List.cons_ne_nil _ _)).symm

/-- What is gathered with one more field. A message goes in front of all fields, but there
may be one only. -/
theorem gather_spaced {messages others : List String} {field : Field} (plain : field.Plain)
    (visible : ∀ word ∈ messages ++ others, word ≠ "")
    (single : (messages ++ field.message?.toList).length ≤ 1) :
    gather (spaced (messages ++ others)) field =
      spaced ((messages ++ field.message?.toList) ++ (others ++ field.assignment?.toList)) := by
  cases recorded : field.value.recorded with
  | nothing => simp [gather, Field.message?, Field.assignment?, Recorded.text?, recorded]
  | scalar text =>
    have other : field.name ≠ messageName := by
      intro isMessage
      have asText := (plain isMessage text (by rw [recorded]; rfl)).1
      rw [recorded] at asText
      cases asText
    simp [gather, Field.message?, Field.assignment?, Recorded.text?, recorded, other,
      appendField_spaced visible]
  | text text =>
    by_cases isMessage : field.name = messageName
    · have first : messages = [] := by
        simpa [Field.message?, Recorded.text?, recorded, isMessage] using single
      subst first
      rw [List.nil_append] at visible
      simp [gather, Field.message?, Field.assignment?, Recorded.text?, recorded, isMessage,
        putMessage_spaced visible]
    · simp [gather, Field.message?, Field.assignment?, Recorded.text?, recorded, isMessage,
        appendField_spaced visible]

/-- The induction is on the fields that are still to come; what came before is split into
messages and other fields. -/
theorem foldl_gather_spaced {fields : List Field} {messages others : List String}
    (plain : ∀ field ∈ fields, field.Plain) (visible : ∀ word ∈ messages ++ others, word ≠ "")
    (single : (messages ++ fields.filterMap Field.message?).length ≤ 1) :
    fields.foldl gather (spaced (messages ++ others)) =
      spaced ((messages ++ fields.filterMap Field.message?) ++
        (others ++ fields.filterMap Field.assignment?)) := by
  induction fields generalizing messages others with
  | nil => simp
  | cons field fields ih =>
    have isPlain := plain field List.mem_cons_self
    have messages_eq : (field :: fields).filterMap Field.message? =
        field.message?.toList ++ fields.filterMap Field.message? := by
      rw [List.filterMap_cons]
      cases field.message? <;> rfl
    have others_eq : (field :: fields).filterMap Field.assignment? =
        field.assignment?.toList ++ fields.filterMap Field.assignment? := by
      rw [List.filterMap_cons]
      cases field.assignment? <;> rfl
    rw [messages_eq, ← List.append_assoc messages] at single ⊢
    rw [others_eq, ← List.append_assoc others, List.foldl_cons, gather_spaced isPlain visible]
    · refine ih (fun other there => plain other (List.mem_cons_of_mem _ there)) ?_ single
      intro word there
      simp only [List.mem_append, Option.mem_toList] at there visible
      rcases there with (old | message) | old | assignment
      · exact visible word (.inl old)
      · exact isPlain.message_ne_empty message
      · exact visible word (.inr old)
      · exact Field.assignment_ne_empty assignment
    · rw [List.length_append] at single
      exact Nat.le_trans (Nat.le_add_right _ _) single

namespace Event

variable {event : Event}

/-- The names of the fields that are recorded. -/
def recordedNames (event : Event) : List String :=
  event.fields.filterMap fun field => field.value.recorded.text?.map fun _ => field.name

/-- No name is recorded twice, and the message, if there is one, is a text that is not
empty. -/
structure Proper (event : Event) : Prop where
  distinct : event.recordedNames.Nodup
  plain : ∀ field ∈ event.fields, field.Plain

/-- The message, and after it the other fields in their order. -/
def words (event : Event) : List String :=
  event.fields.filterMap Field.message? ++ event.fields.filterMap Field.assignment?

/-- The text that an event should be shown by: the names of the spans around it, from the
outermost on, and its words. -/
def line (event : Event) (spans : List String) : String :=
  if spans = [] then spaced event.words else "::".intercalate spans ++ ": " ++ spaced event.words

/-- Every field that is recorded is one of the words. -/
theorem length_words (event : Event) : event.words.length = event.recordedNames.length := by
  unfold words recordedNames
  rw [List.length_append]
  induction event.fields with
  | nil => rfl
  | cons field fields ih =>
    simp only [List.filterMap_cons, Field.message?, Field.assignment?]
    cases field.value.recorded.text? <;> by_cases isMessage : field.name = messageName <;>
      simp [isMessage] <;> omega

theorem length_messages (event : Event) :
    (event.fields.filterMap Field.message?).length = event.recordedNames.count messageName := by
  unfold recordedNames
  induction event.fields with
  | nil => rfl
  | cons field fields ih =>
    simp only [List.filterMap_cons, Field.message?]
    cases field.value.recorded.text? <;> by_cases isMessage : field.name = messageName <;>
      simp [isMessage, ih]

theorem Proper.body_eq (proper : event.Proper) : event.body = spaced event.words := by
  have single : (event.fields.filterMap Field.message?).length ≤ 1 := by
    rw [length_messages, proper.distinct.count]
    split <;> omega
  exact @foldl_gather_spaced event.fields [] [] proper.plain (fun word none => nomatch none)
    single

theorem Proper.text_eq_line (proper : event.Proper) (spans : List String) :
    event.text spans = event.line spans := by
  simp only [text, line, proper.body_eq, List.isEmpty_iff]

end Event

end ScriptConsole.Trace
