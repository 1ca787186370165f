import ScriptConsole.LogEntry
import ScriptConsole.Proofs.Json.Fields
import ScriptConsole.Proofs.Time.Civil

/-!
# The forms of log entries

An entry is read from an object or from an array that spells its message, its source and its
moment. The moment is the civil time that is spelled, with the offset taken away; its own text is
in universal time. So what is read is printed as a text that is read as the same entry.
-/

namespace ScriptConsole.LogEntry

open Json Json.Grammar Time

variable {entry : LogEntry} {met final : Partial} {members : List (String × List Char)}
  {text : List Char} {message source spelled : String}

/-! ## Moments in strings -/

/-- A string literal that spells a moment. -/
def Spells (moment : Timestamp) (text : List Char) : Prop :=
  ∃ spelled : String, Literal spelled text ∧ Timestamp.parse spelled.toList = .ok moment

theorem recognises_readTimestamp : Recognises readTimestamp Spells where
  reads := by
    rintro before moment front rest blank ⟨spelled, literal, parsed⟩ ends
    have reads := (recognises_readExpectedString .timestamp).reads blank literal ends
    refine reads.bind fun _ => ?_
    dsimp only
    rw [parsed]
    exact .pure rfl rfl
  sound := by
    intro text moment rest reads
    obtain ⟨spelled, left, within, stringRead, reads⟩ := reads.of_bind
    dsimp only at reads
    split at reads
    · next parsed =>
      obtain ⟨rfl, rfl⟩ := reads.of_pure
      obtain ⟨before, front, blank, same, literal⟩ :=
        (recognises_readExpectedString .timestamp).sound stringRead
      exact ⟨before, front, blank, same, spelled, literal, parsed⟩
    · exact reads.not_error.elim

theorem Spells.startsItem {moment : Timestamp} (spells : Spells moment text) : StartsItem text := by
  obtain ⟨spelled, literal, -⟩ := spells
  exact literal.startsItem

/-! ## Objects -/

/-- The names of the fields. -/
def fieldNames : List String := ["message", "source", "timestamp"]

/-- What a member does to the fields met so far: each field is taken only once, and other members
are passed over. -/
def Step (met : Partial) (name : String) (next : Partial) (value : List Char) : Prop :=
  match name with
  | "message" => met.message = none ∧
      ∃ item, Literal item value ∧ { met with message := some item } = next
  | "source" => met.source = none ∧
      ∃ item, Literal item value ∧ { met with source := some item } = next
  | "timestamp" => met.timestamp = none ∧
      ∃ item, Spells item value ∧ { met with timestamp := some item } = next
  | _ => next = met ∧ AnyValue value

theorem step_of_unknown {name : String} (unknown : name ∉ fieldNames) {next : Partial}
    {value : List Char} : Step met name next value ↔ next = met ∧ AnyValue value := by
  unfold Step
  split
  · exact absurd (by simp [fieldNames]) unknown
  · exact absurd (by simp [fieldNames]) unknown
  · exact absurd (by simp [fieldNames]) unknown
  · exact Iff.rfl

theorem recognises_member (met : Partial) (name : String) :
    Recognises (shape.member met name) (AfterColon (Step met name)) := by
  have read : shape.member met name = met.readMember name := rfl
  rw [read]
  unfold Partial.readMember
  split
  · exact recognises_readMember (recognises_readExpectedString .string) _ _ _
  · exact recognises_readMember (recognises_readExpectedString .string) _ _ _
  · exact recognises_readMember recognises_readTimestamp _ _ _
  · next noMessage noSource noTimestamp =>
    have unknown : name ∉ fieldNames := by
      simp only [fieldNames, List.mem_cons, List.not_mem_nil, or_false, not_or]
      exact ⟨noMessage, noSource, noTimestamp⟩
    have same : Step met name = fun next value => next = met ∧ AnyValue value := by
      funext next value
      exact propext (step_of_unknown unknown)
    rw [same]
    exact recognises_passMember met

/-- Members lead to fields exactly if the others hold values and each field is given at most
once. -/
theorem trail_iff : Trail Step met members final ↔ OthersStand fieldNames members ∧
    Settles Literal met.message (textsOf "message" members) final.message ∧
    Settles Literal met.source (textsOf "source" members) final.source ∧
    Settles Spells met.timestamp (textsOf "timestamp" members) final.timestamp := by
  induction members generalizing met with
  | nil =>
    simp only [textsOf, List.filter_nil, List.map_nil, settles_nil_iff]
    constructor
    · intro trail
      cases trail
      exact ⟨othersStand_nil _, rfl, rfl, rfl⟩
    · rintro ⟨-, sameMessage, sameSource, sameTimestamp⟩
      have same : final = met := by
        cases final
        cases met
        simp_all
      rw [same]
      exact .nil met
  | cons member others ih =>
    obtain ⟨name, value⟩ := member
    rw [trail_cons_iff, othersStand_cons_iff]
    simp only [textsOf_cons, ih]
    by_cases unknown : name ∉ fieldNames
    · have noField : name ≠ "message" ∧ name ≠ "source" ∧ name ≠ "timestamp" := by
        simpa [fieldNames] using unknown
      simp only [step_of_unknown unknown, if_neg noField.1, if_neg noField.2.1, if_neg noField.2.2]
      constructor
      · rintro ⟨_, ⟨rfl, isValue⟩, stand, settles⟩
        exact ⟨⟨fun _ => isValue, stand⟩, settles⟩
      · rintro ⟨⟨isValue, stand⟩, settles⟩
        exact ⟨met, ⟨rfl, isValue unknown⟩, stand, settles⟩
    · have field : name = "message" ∨ name = "source" ∨ name = "timestamp" := by
        simpa [fieldNames] using not_not.1 unknown
      -- the text of the field decides it, and the other two are as they were
      rcases field with rfl | rfl | rfl
      all_goals
        simp only [Step, settles_cons_iff, String.reduceEq, if_true, if_false]
        grind

/-! ## Arrays -/

section Positions

variable {α : Type} {item : Reader α} {part : α -> List Char -> Prop} {value : α}
  {before between front rest : List Char}

theorem reads_readPosition (items : Recognises item part)
    (starts : ∀ value text, part value text -> StartsItem text) (place : ℕ) (blank : Blank before)
    (alsoBlank : Blank between) (isPart : part value front) (ends : EndsNumeral rest) :
    Reads (readPosition place item
      (before ++ (comma (decide (place = 0)) ++ (between ++ (front ++ rest))))) value rest := by
  obtain ⟨start, within, another, reads⟩ :=
    exists_reads_of_nextItem items starts (decide (place = 0)) blank alsoBlank isPart ends
  unfold readPosition
  rw [another]
  exact reads.bind fun _ => .pure rfl rfl

theorem exists_of_readPosition (items : Recognises item part) {place : ℕ}
    (reads : Reads (readPosition place item text) value rest) :
    ∃ before between front, Blank before ∧ Blank between ∧ part value front ∧
      text = before ++ (comma (decide (place = 0)) ++ (between ++ (front ++ rest))) := by
  obtain ⟨outer, read⟩ := reads
  obtain ⟨next, nextRead, read⟩ := bind_eq_ok_iff.1 read
  cases next with
  | finished => cases read
  | another start within =>
    obtain ⟨_, left, itemWithin, itemRead, reads⟩ := Reads.of_bind ⟨outer, read⟩
    obtain ⟨rfl, rfl⟩ := reads.of_pure
    exact exists_of_reads_of_nextItem items nextRead itemRead

end Positions

/-- An array stands for an entry if it holds message, source and moment. -/
def ArrayForm (entry : LogEntry) (inner : List Char) : Prop :=
  ∃ spelled : String, Closed Literal ']' true [entry.message, entry.source, spelled] inner ∧
    Timestamp.parse spelled.toList = .ok entry.timestamp

theorem lexes_readArray : Lexes readArray ArrayForm where
  reads := by
    rintro entry _ rest ⟨spelled, closed, parsed⟩
    have strings := recognises_readExpectedString .string
    have starts (value : String) (text : List Char) (literal : Literal value text) :=
      literal.startsItem
    obtain ⟨before, between, message, _, blank, alsoBlank, isMessage, later, rfl⟩ :=
      Closed.cons_iff.1 closed
    have messageEnds := later.endsNumeral (.inl rfl) rest
    obtain ⟨before', between', source, _, blank', alsoBlank', isSource, last, rfl⟩ :=
      Closed.cons_iff.1 later
    have sourceEnds := last.endsNumeral (.inl rfl) rest
    obtain ⟨before'', between'', stamp, _, blank'', alsoBlank'', isStamp, noMore, rfl⟩ :=
      Closed.cons_iff.1 last
    have stampEnds := noMore.endsNumeral (.inl rfl) rest
    obtain ⟨closing, blankEnd, rfl⟩ := Closed.nil_iff.1 noMore
    have regrouped : before ++ (comma true ++ (between ++ (message ++ (before' ++ (comma false ++
        (between' ++ (source ++ (before'' ++ (comma false ++ (between'' ++ (stamp ++
        (closing ++ [']'])))))))))))) ++ rest = before ++ (comma true ++ (between ++ (message ++
        (before' ++ (comma false ++ (between' ++ (source ++ (before'' ++ (comma false ++ (between'' ++
        (stamp ++ (closing ++ ([']'] ++ rest))))))))))))) := by simp only [List.append_assoc]
    rw [regrouped]
    simp only [List.append_assoc] at messageEnds sourceEnds stampEnds
    have messageReads := reads_readPosition strings starts 0 blank alsoBlank isMessage messageEnds
    have sourceReads := reads_readPosition strings starts 1 blank' alsoBlank' isSource sourceEnds
    have stampReads := reads_readPosition recognises_readTimestamp
      (fun _ _ spells => spells.startsItem) 2 blank'' alsoBlank'' ⟨spelled, isStamp, parsed⟩ stampEnds
    have done : Reads (readArrayEnd (closing ++ ([']'] ++ rest))) () rest :=
      reads_readMark (blankEnd.dropBlank_cons rfl rest)
    refine messageReads.bind fun _ => ?_
    refine sourceReads.bind fun _ => ?_
    refine stampReads.bind fun _ => ?_
    exact done.bind fun _ => .pure rfl rfl
  sound := by
    intro text entry rest reads
    obtain ⟨message, left, _, messageRead, reads⟩ := reads.of_bind
    obtain ⟨source, left, _, sourceRead, reads⟩ := reads.of_bind
    obtain ⟨moment, left, _, stampRead, reads⟩ := reads.of_bind
    obtain ⟨_, left, _, doneRead, reads⟩ := reads.of_bind
    obtain ⟨rfl, rfl⟩ := reads.of_pure
    have strings := recognises_readExpectedString .string
    obtain ⟨before, between, front, blank, alsoBlank, isMessage, rfl⟩ :=
      exists_of_readPosition strings messageRead
    obtain ⟨before', between', front', blank', alsoBlank', isSource, rfl⟩ :=
      exists_of_readPosition strings sourceRead
    obtain ⟨before'', between'', front'', blank'', alsoBlank'', ⟨spelled, isStamp, parsed⟩, rfl⟩ :=
      exists_of_readPosition recognises_readTimestamp stampRead
    obtain ⟨closing, blankEnd, rfl⟩ := exists_blank (dropBlank_of_readMark doneRead)
    refine ⟨_, ?_, spelled, .cons blank alsoBlank isMessage (.cons blank' alsoBlank' isSource
      (.cons blank'' alsoBlank'' isStamp (.nil blankEnd))), parsed⟩
    simp only [List.append_assoc]
    rfl

/-! ## Whole texts -/

/-- The members give each of the three fields once, as a string, in any order; other members may
hold any values. -/
structure Gives (message source spelled : String) (members : List (String × List Char)) : Prop where
  others : OthersStand fieldNames members
  message : GivesOnce "message" message members
  source : GivesOnce "source" source members
  timestamp : GivesOnce "timestamp" spelled members

/-- A text that spells an entry: an object with its fields, or the array of them. -/
inductive Form (message source spelled : String) (text : List Char) : Prop where
  | object {members : List (String × List Char)} (object : ObjectText members text)
      (gives : Gives message source spelled members) : Form message source spelled text
  | array (array : StringArrayText [message, source, spelled] text) :
      Form message source spelled text

/-- The members of an entry hold values. -/
theorem Gives.values (gives : Gives message source spelled members) :
    ∀ member ∈ members, AnyValue member.2 := by
  refine gives.others.values fun name isField => ?_
  simp only [fieldNames, List.mem_cons, List.not_mem_nil, or_false] at isField
  rcases isField with rfl | rfl | rfl
  · exact gives.message.values
  · exact gives.source.values
  · exact gives.timestamp.values

/-- A text spells one entry. -/
theorem Form.unique {otherMessage otherSource otherSpelled : String}
    (form : Form message source spelled text)
    (other : Form otherMessage otherSource otherSpelled text) :
    message = otherMessage ∧ source = otherSource ∧ spelled = otherSpelled := by
  rcases form with ⟨object, gives⟩ | array
  · rcases other with ⟨otherObject, otherGives⟩ | otherArray
    · rw [← members_unique object gives.values otherObject otherGives.values] at otherGives
      exact ⟨gives.message.unique otherGives.message, gives.source.unique otherGives.source,
        gives.timestamp.unique otherGives.timestamp⟩
    · exact absurd otherArray (not_array_of_object object)
  · rcases other with ⟨otherObject, -⟩ | otherArray
    · exact absurd array (not_array_of_object otherObject)
    · simpa using items_unique array otherArray

/-- All three fields make an entry, and nothing else does. -/
theorem finish_eq_ok_iff : final.finish = .ok entry ↔
    final = ⟨some entry.message, some entry.source, some entry.timestamp⟩ := by
  obtain ⟨message, source, timestamp⟩ := final
  obtain ⟨⟨entryMessage, entrySource⟩, entryTimestamp⟩ := entry
  unfold Partial.finish
  cases message <;> cases source <;> cases timestamp <;>
    simp [throw, throwThe, MonadExceptOf.throw, and_assoc]

/-- What is read as an entry spells its message, its source and its moment. -/
theorem parse_eq_ok_iff {written : String} : parse written = .ok entry ↔
    ∃ spelled : String, Form entry.message entry.source spelled written.toList ∧
      Timestamp.parse spelled.toList = .ok entry.timestamp := by
  unfold parse
  rw [RecordShape.readAll_read_eq_ok_iff lexes_readArray recognises_member]
  have starts : shape.start = {} := rfl
  have finishes (final : Partial) : shape.finish final = final.finish := rfl
  simp only [starts, finishes, finish_eq_ok_iff, trail_iff]
  constructor
  · rintro (array | ⟨listed, _, object, ⟨stand, message, source, timestamp⟩, rfl⟩)
    · obtain ⟨spelled, isArray, parsed⟩ := array.exists_and
      exact ⟨spelled, .array isArray, parsed⟩
    · obtain ⟨literal, once, spelled, isLiteral, parsed⟩ := settles_none_some_iff.1 timestamp
      exact ⟨spelled, .object object ⟨stand, settles_none_some_iff.1 message,
        settles_none_some_iff.1 source, literal, once, isLiteral⟩, parsed⟩
  · rintro ⟨spelled, ⟨object, stand, message, source, literal, once, isLiteral⟩ | array, parsed⟩
    · exact .inr ⟨_, _, object, ⟨stand, settles_none_some_iff.2 message,
        settles_none_some_iff.2 source,
        settles_none_some_iff.2 ⟨literal, once, spelled, isLiteral, parsed⟩⟩, rfl⟩
    · exact .inl (array.mono fun inner closed => ⟨spelled, closed, parsed⟩)

/-! ## Agreement -/

/-- The text of an entry is an object with its three fields. -/
theorem form_toJson (entry : LogEntry) :
    Form entry.message entry.source entry.timestamp.text entry.toJson.text.toList := by
  exact .object (objectText_text [("message", entry.message), ("source", entry.source),
      ("timestamp", entry.timestamp.text)])
    ⟨othersStand_printedMembers _ _, givesOnce_printedMembers rfl, givesOnce_printedMembers rfl,
      givesOnce_printedMembers rfl⟩

/-- Two texts that spell the same three strings are read alike. -/
theorem parse_iff_of_forms {one other : String} (form : Form message source spelled one.toList)
    (alsoForm : Form message source spelled other.toList) :
    parse one = .ok entry ↔ parse other = .ok entry := by
  have transfer : ∀ {left right : String}, Form message source spelled left.toList ->
      Form message source spelled right.toList -> parse left = .ok entry ->
      parse right = .ok entry := by
    intro left right leftForm rightForm read
    obtain ⟨_, readForm, parsed⟩ := parse_eq_ok_iff.1 read
    obtain ⟨rfl, rfl, rfl⟩ := leftForm.unique readForm
    exact parse_eq_ok_iff.2 ⟨_, rightForm, parsed⟩
  exact ⟨transfer form alsoForm, transfer alsoForm form⟩

/-- An accepted text spells a message, a source and a civil time, as an object or as an array. If no
leap second is spelled, the moment of the entry is the civil time with its offset taken away, over
the end of a day, a month or a year if need be, and to the nanosecond. The entry is then read back
from its own text, which spells the moment in universal time with the fewest digits. Objects and
arrays that spell the same three strings are read alike. -/
theorem entries_read_back :
    (∀ (written : String) (entry : LogEntry), parse written = .ok entry ->
      ∃ spelled : String, Form entry.message entry.source spelled written.toList ∧
        (∃ civil, Time.Grammar.TimestampText civil spelled.toList ∧ civil.Proper) ∧
        ∀ civil, Time.Grammar.TimestampText civil spelled.toList -> civil.Proper ->
          civil.second ≤ 59 ->
            (Carries civil.date civil.universalSecond entry.timestamp ∧
              entry.timestamp.nanosecond = civil.nanosecond) ∧
            parse entry.toJson.text = .ok entry ∧
            Form entry.message entry.source entry.timestamp.text entry.toJson.text.toList ∧
            ∃ shown, UniversalText entry.timestamp shown entry.timestamp.text.toList) ∧
    ∀ message source spelled members (object array : String), ObjectText members object.toList ->
      Gives message source spelled members ->
      StringArrayText [message, source, spelled] array.toList ->
      ∀ entry, parse object = .ok entry ↔ parse array = .ok entry := by
  constructor
  · intro written entry read
    obtain ⟨spelled, form, parsed⟩ := parse_eq_ok_iff.1 read
    obtain ⟨one, isText, proper, -, first, last⟩ := Time.parse_eq_ok_iff.1 parsed
    refine ⟨spelled, form, ⟨one, isText, proper⟩, ?_⟩
    intro civil civilText civilProper noLeap
    have carries := carries_of_parse civilText civilProper noLeap parsed
    -- without a leap second the fraction is less than a second, so the text can show it
    have small : entry.timestamp.nanosecond < 1000000000 := by
      rw [carries.2]
      exact Written.nanosecond_lt (isDigit_of_timestampText civilText)
    have characters : entry.timestamp.text.toList = entry.timestamp.characters :=
      String.toList_ofList
    have again : Timestamp.parse entry.timestamp.text.toList = .ok entry.timestamp := by
      rw [characters]
      exact parse_characters first last small
    have shown := universalText_characters small
    rw [← characters] at shown
    exact ⟨carries, parse_eq_ok_iff.2 ⟨_, form_toJson entry, again⟩, form_toJson entry, _, shown⟩
  · intro message source spelled members object array isObject gives isArray entry
    exact parse_iff_of_forms (.object isObject gives) (.array isArray)

/-- The last evening of a February with a leap day, an hour west, is in the first hour of March in
universal time. -/
theorem entries_read_back_leap_day :
    parse "[\"m\",\"s\",\"2024-02-29T23:30:00.120-01:00\"]" =
        .ok ⟨⟨"m", "s"⟩, ⟨63844849800, 120000000⟩⟩ ∧
      Carries ⟨2024, 2, 29⟩ 88200 ⟨63844849800, 120000000⟩ ∧
      parse (toJson ⟨⟨"m", "s"⟩, ⟨63844849800, 120000000⟩⟩).text =
        .ok ⟨⟨"m", "s"⟩, ⟨63844849800, 120000000⟩⟩ ∧
      parse ("\x7b\"timestamp\":\"2024-02-29T23:30:00.120-01:00\",\"n\":\"b\",\"source\":\"s\"," ++
        "\"message\":\"m\"\x7d") = .ok ⟨⟨"m", "s"⟩, ⟨63844849800, 120000000⟩⟩ := by
  let civil : Written := ⟨⟨2024, 2, 29⟩, 23, 30, 0, fractionDigits 120000000, -(3600 : ℕ)⟩
  have isSize : Time.Grammar.OffsetSize 3600 ['0', '1', ':', '0', '0'] :=
    @Time.Grammar.OffsetSize.size '0' '1' '0' '0' [':'] rfl rfl (by simp) rfl (Nat.zero_le 5) rfl
  have isText : Time.Grammar.TimestampText civil "2024-02-29T23:30:00.120-01:00".toList := by
    convert @Time.Grammar.TimestampText.text civil _ _ [] _ [] 'T' (dateText_shown (by decide))
      (.inl rfl) (clockText_shown (by decide) (by decide) (by decide) 120000000) nofun
      (.west (.inl rfl) isSize) nofun using 1
    decide
  have proper : civil.Proper := by constructor <;> decide
  have isArray := stringArrayText_text ["m", "s", "2024-02-29T23:30:00.120-01:00"]
  have read : parse "[\"m\",\"s\",\"2024-02-29T23:30:00.120-01:00\"]" =
      .ok ⟨⟨"m", "s"⟩, ⟨63844849800, 120000000⟩⟩ := parse_eq_ok_iff.2 ⟨_, .array isArray, by decide⟩
  obtain ⟨onText, onForms⟩ := entries_read_back
  obtain ⟨spelled, form, -, onCivil⟩ := onText _ _ read
  have arrayForm : Form "m" "s" "2024-02-29T23:30:00.120-01:00" _ := .array isArray
  obtain ⟨-, -, rfl⟩ := form.unique arrayForm
  obtain ⟨⟨carries, -⟩, again, -⟩ := onCivil civil isText proper (by decide)
  have seconds : civil.universalSecond = 88200 := by decide
  rw [seconds] at carries
  have gives : Gives "m" "s" "2024-02-29T23:30:00.120-01:00" (printedMembers [("timestamp",
      "2024-02-29T23:30:00.120-01:00"), ("n", "b"), ("source", "s"), ("message", "m")]) :=
    ⟨othersStand_printedMembers _ _, givesOnce_printedMembers rfl, givesOnce_printedMembers rfl,
      givesOnce_printedMembers rfl⟩
  exact ⟨read, carries, again,
    (onForms _ _ _ _ _ _ (objectText_text _) gives isArray _).2 read⟩

end ScriptConsole.LogEntry
