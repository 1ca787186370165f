import ScriptConsole.Config
import ScriptConsole.Proofs.Json.Fields

/-!
# The forms of settings

Settings come from source tags given one after the other, from an object and from an array. All
three lead to the same settings. An object may have members that nobody asks for, before and
after the source and as many as it likes, but a source only once.
-/

namespace ScriptConsole.Config

open Json Json.Grammar

variable {config : Config} {members : List (String × List Char)} {state final : Option String}
  {text : List Char} {source : String}

/-! ## Sources one after the other -/

/-- The source that was given last holds. -/
theorem ofSources_eq (sources : List String) :
    ofSources sources = sources.getLast?.elim default Config.mk := by
  obtain rfl | ⟨before, last, rfl⟩ := sources.eq_nil_or_concat'
  · rfl
  · rw [ofSources, List.foldl_concat, List.getLast?_concat]
    rfl

/-! ## Objects -/

/-- What a member does to the source met so far: only the member of that name is looked at, and
only once. -/
def Step (state : Option String) (name : String) (next : Option String) (value : List Char) :
    Prop :=
  if name = "source" then state = none ∧ ∃ source, Literal source value ∧ some source = next
  else next = state ∧ AnyValue value

theorem step_source {next : Option String} {value : List Char} :
    Step state "source" next value ↔
      state = none ∧ ∃ source, Literal source value ∧ some source = next := by
  rw [Step, if_pos rfl]

theorem step_of_ne {name : String} (other : name ≠ "source") {next : Option String}
    {value : List Char} : Step state name next value ↔ next = state ∧ AnyValue value := by
  rw [Step, if_neg other]

theorem recognises_member (state : Option String) (name : String) :
    Recognises (shape.member state name) (AfterColon (Step state name)) := by
  unfold shape Step
  dsimp only
  split
  · exact recognises_readMember (recognises_readExpectedString .string) name state some
  · exact recognises_passMember state

/-- Members lead to a source exactly if the others hold values and at most one gives it, as a
string. -/
theorem trail_iff : Trail Step state members final ↔
    OthersStand ["source"] members ∧ Settles Literal state (textsOf "source" members) final := by
  induction members generalizing state with
  | nil =>
    constructor
    · intro trail
      cases trail
      exact ⟨othersStand_nil _, .unchanged _⟩
    · rintro ⟨-, settles⟩
      cases settles
      exact .nil _
  | cons member others ih =>
    obtain ⟨name, value⟩ := member
    rw [trail_cons_iff, othersStand_cons_iff, textsOf_cons]
    by_cases isSource : name = "source"
    · subst isSource
      simp only [step_source, ih, if_true, settles_cons_iff]
      constructor
      · rintro ⟨next, isStep, stand, settles⟩
        exact ⟨⟨fun other => absurd (List.mem_singleton.2 rfl) other, stand⟩, next, isStep, settles⟩
      · rintro ⟨⟨-, stand⟩, next, isStep, settles⟩
        exact ⟨next, isStep, stand, settles⟩
    · simp only [step_of_ne isSource, ih, if_neg isSource]
      constructor
      · rintro ⟨_, ⟨rfl, isValue⟩, stand, settles⟩
        exact ⟨⟨fun _ => isValue, stand⟩, settles⟩
      · rintro ⟨⟨isValue, stand⟩, settles⟩
        exact ⟨state, ⟨rfl, isValue (by simpa using isSource)⟩, stand, settles⟩

/-! ## Arrays -/

/-- An array stands for settings if it holds the source or nothing. -/
inductive ArrayForm : Config -> List Char -> Prop where
  | empty {inner : List Char} (closed : Closed Literal ']' true [] inner) : ArrayForm default inner
  | one {source : String} {inner : List Char} (closed : Closed Literal ']' true [source] inner) :
      ArrayForm ⟨source⟩ inner

theorem lexes_readArray : Lexes readArray ArrayForm where
  reads := by
    intro config front rest form
    cases form with
    | empty closed =>
      obtain ⟨before, blank, rfl⟩ := Closed.nil_iff.1 closed
      have regrouped : before ++ [']'] ++ rest = before ++ ']' :: rest := by simp
      obtain ⟨within, finished⟩ := nextItem_of_close true (blank.dropBlank_cons rfl rest)
      rw [regrouped, readArray, finished]
      exact .pure rfl rfl
    | one closed =>
      obtain ⟨before, between, literal, _, blank, alsoBlank, isLiteral, ends, rfl⟩ :=
        Closed.cons_iff.1 closed
      obtain ⟨closing, blankEnd, rfl⟩ := Closed.nil_iff.1 ends
      have regrouped : before ++ (comma true ++ (between ++ (literal ++ (closing ++ [']'])))) ++
          rest = before ++ (comma true ++ (between ++ (literal ++ (closing ++ ']' :: rest)))) := by
        simp
      obtain ⟨place, within, another, sourceReads⟩ :=
        exists_reads_of_nextItem (recognises_readExpectedString .string)
          (fun _ _ literal => literal.startsItem) true blank alsoBlank isLiteral
          (blankEnd.endsNumeral (@endsNumeral_cons ']' rest (by decide)))
      rw [regrouped, readArray, another]
      refine sourceReads.bind fun _ => ?_
      exact (reads_readMark (blankEnd.dropBlank_cons rfl rest)).bind fun _ => .pure rfl rfl
  sound := by
    intro text config rest reads
    obtain ⟨outer, read⟩ := reads
    obtain ⟨next, nextRead, read⟩ := bind_eq_ok_iff.1 read
    cases next with
    | finished left within =>
      obtain ⟨rfl, rfl⟩ := Reads.of_pure ⟨outer, read⟩
      obtain ⟨before, blank, rfl⟩ := exists_blank (dropBlank_of_nextItem_finished nextRead)
      exact ⟨before ++ [']'], by simp, .empty (.nil blank)⟩
    | another left within =>
      obtain ⟨source, after, sourceWithin, sourceRead, reads⟩ := Reads.of_bind ⟨outer, read⟩
      obtain ⟨_, last, doneWithin, doneRead, reads⟩ := reads.of_bind
      obtain ⟨rfl, rfl⟩ := reads.of_pure
      obtain ⟨before, between, literal, blank, alsoBlank, isLiteral, rfl⟩ :=
        exists_of_reads_of_nextItem (recognises_readExpectedString .string) nextRead sourceRead
      obtain ⟨closing, blankEnd, rfl⟩ := exists_blank (dropBlank_of_readMark doneRead)
      refine ⟨before ++ (comma true ++ (between ++ (literal ++ (closing ++ [']'])))), ?_, .one ?_⟩
      · simp [Taken.followedBy, Taken.widen, Taken.map]
      · exact .cons blank alsoBlank isLiteral (.nil blankEnd)

/-! ## Whole texts -/

section Texts

variable {written : String}

/-- What is read as settings: an array of at most the source, or an object with the source at
most once. -/
theorem parse_eq_ok_iff : parse written = .ok config ↔
    Bracketed '[' (ArrayForm config) written.toList ∨ ∃ members final,
      ObjectText members written.toList ∧ OthersStand ["source"] members ∧
        Settles Literal none (textsOf "source" members) final ∧ config = ⟨final.getD scriptSource⟩ := by
  unfold parse
  rw [RecordShape.readAll_read_eq_ok_iff lexes_readArray recognises_member]
  refine or_congr_right (exists_congr fun members => exists_congr fun final => ?_)
  refine and_congr_right fun _ => ?_
  have starts : shape.start = none := rfl
  have finishes : shape.finish final = .ok ⟨final.getD scriptSource⟩ := rfl
  rw [starts, finishes, trail_iff, and_assoc, Except.ok.injEq, eq_comm]

/-- An object that does not give the source stands for the default settings. -/
theorem parse_object_without (object : ObjectText members written.toList)
    (stand : OthersStand ["source"] members) (without : textsOf "source" members = []) :
    parse written = .ok default :=
  parse_eq_ok_iff.2 (.inr ⟨members, none, object, stand, without ▸ .unchanged none, rfl⟩)

theorem parse_object_with (object : ObjectText members written.toList)
    (stand : OthersStand ["source"] members) (once : GivesOnce "source" source members) :
    parse written = .ok ⟨source⟩ :=
  parse_eq_ok_iff.2
    (.inr ⟨members, some source, object, stand, settles_none_some_iff.2 once, rfl⟩)

theorem parse_empty_array (array : StringArrayText [] written.toList) :
    parse written = .ok default :=
  parse_eq_ok_iff.2 (.inl (array.mono fun _ closed => .empty closed))

theorem parse_array (array : StringArrayText [source] written.toList) :
    parse written = .ok ⟨source⟩ :=
  parse_eq_ok_iff.2 (.inl (array.mono fun _ closed => .one closed))

/-! ## Printed settings -/

/-- Settings are read back from their text, whatever characters the source holds. -/
theorem parse_text (config : Config) : parse config.toJson.text = .ok config :=
  parse_object_with (objectText_text [("source", config.source)]) (othersStand_printedMembers _ _)
    (givesOnce_printedMembers rfl)

/-! ## A second source -/

/-- An object up to the key of a second source, and anything after it. -/
inductive RepeatsSource : List Char -> Prop where
  | again {members : List (String × List Char)} {source : String}
      {before parts between gap body : List Char} (rest : List Char) (blank : Blank before)
      (isParts : Parts (Member KeyBody) true members parts) (stand : OthersStand ["source"] members)
      (once : GivesOnce "source" source members) (alsoBlank : Blank between) (gapBlank : Blank gap)
      (isKey : KeyBody "source" body) :
      RepeatsSource (before ++ ('\x7b' :: (parts ++ (between ++ (',' :: (gap ++
        ('"' :: (body ++ rest))))))))

theorem parse_of_repeats (repeats : RepeatsSource written.toList) :
    parse written = .error (.mismatch (.duplicateField "source")) := by
  unfold parse
  generalize written.toList = text at repeats
  obtain @⟨members, source, before, parts, between, gap, body, rest, blank, isParts, stand, once,
    alsoBlank, gapBlank, isKey⟩ := repeats
  have trail : Trail Step none members (some source) :=
    trail_iff.2 ⟨stand, settles_none_some_iff.2 once⟩
  have refused : shape.member (some source) "source" rest =
      .error (.mismatch (.duplicateField "source")) := rfl
  have fails := readMembers_refuses lexes_readString recognises_member isParts trail isKey
    alsoBlank gapBlank refused
  have nonempty : members.isEmpty = false := by
    obtain ⟨_, only, -⟩ := once
    cases members with
    | nil => cases only
    | cons => rfl
  rw [nonempty, Bool.and_false] at fails
  exact readAll_eq_error (RecordShape.read_object_error (blank.dropBlank_cons rfl _) fails)

/-- An object of values with two sources is refused, whatever they are. -/
theorem parse_of_two_sources (object : ObjectText members written.toList)
    (values : ∀ member ∈ members, AnyValue member.2) (twice : 1 < (textsOf "source" members).length) :
    parse written ≠ .ok config := by
  intro read
  rcases parse_eq_ok_iff.1 read with array | ⟨also, final, again, stand, settles, -⟩
  · exact not_array_of_object object array
  · have alsoValues := stand.values fun name isKnown value isText => by
      rw [List.mem_singleton.1 isKnown] at isText
      obtain ⟨_, isLiteral⟩ := settles.each value isText
      exact isLiteral.anyValue
    have atMostOnce := settles.length_le
    rw [members_unique again alsoValues object values] at atMostOnce
    exact Nat.not_le.2 twice atMostOnce

end Texts

/-! ## Agreement -/

/-- However settings are given, they are the same settings. Sources one after the other give the
last of them, and settings are read back from their text. An object may have any members with any
values around the source, or none, and stands for the source it gives or for the default; arrays
stand for the same settings as objects with the same fields. An object with a second source is
refused, whatever the two are, and after a source that is a string the key of a second one is the
fault, whatever follows. -/
theorem forms_agree :
    (∀ sources, ofSources sources = sources.getLast?.elim default Config.mk) ∧
    (∀ config : Config, parse config.toJson.text = .ok config) ∧
    (∀ members (object : String), ObjectText members object.toList -> OthersStand ["source"] members ->
      (textsOf "source" members = [] -> parse object = .ok default) ∧
      ∀ source, GivesOnce "source" source members -> parse object = .ok ⟨source⟩) ∧
    (∀ object array : String, ObjectText [] object.toList -> StringArrayText [] array.toList ->
      parse object = .ok default ∧ parse array = parse object) ∧
    (∀ source literal (object array : String), Literal source literal ->
      ObjectText [("source", literal)] object.toList -> StringArrayText [source] array.toList ->
      parse object = .ok ⟨source⟩ ∧ parse array = parse object) ∧
    (∀ members (object : String), ObjectText members object.toList ->
      (∀ member ∈ members, AnyValue member.2) -> 1 < (textsOf "source" members).length ->
      ∀ config, parse object ≠ .ok config) ∧
    ∀ object : String, RepeatsSource object.toList ->
      parse object = .error (.mismatch (.duplicateField "source")) := by
  refine ⟨ofSources_eq, parse_text, ?objects, ?empty, ?one, ?two, fun _ => parse_of_repeats⟩
  case objects =>
    intro members object isObject stand
    exact ⟨parse_object_without isObject stand,
      fun _ once => parse_object_with isObject stand once⟩
  case empty =>
    intro object array isObject isArray
    have read : parse object = .ok default := parse_object_without isObject (othersStand_nil _) rfl
    exact ⟨read, (parse_empty_array isArray).trans read.symm⟩
  case one =>
    intro source literal object array isLiteral isObject isArray
    have stand : OthersStand ["source"] [("source", literal)] :=
      List.forall_mem_singleton.2 fun other => absurd (List.mem_singleton.2 rfl) other
    have once : GivesOnce "source" source [("source", literal)] := ⟨literal, rfl, isLiteral⟩
    have read : parse object = .ok ⟨source⟩ := parse_object_with isObject stand once
    exact ⟨read, (parse_array isArray).trans read.symm⟩
  case two =>
    intro members object isObject values twice config
    exact parse_of_two_sources isObject values twice

/-- A member that nobody asks for, arrays, and a second source. -/
theorem forms_agree_around_source :
    parse "\x7b\"n\":\"b\",\"source\":\"a\"\x7d" = .ok ⟨"a"⟩ ∧
      parse "[]" = parse "\x7b\x7d" ∧
      parse "[\"a\"]" = parse "\x7b\"source\":\"a\"\x7d" ∧
      parse "\x7b\"source\":\"a\",\"source\":\"b\"\x7d" ≠ .ok ⟨"a"⟩ ∧
      parse "\x7b\"source\":\"a\",\"source\":" = .error (.mismatch (.duplicateField "source")) := by
  have key : KeyBody "source" ['s', 'o', 'u', 'r', 'c', 'e', '"'] :=
    .plain (by decide) (by decide) (by decide) <| .plain (by decide) (by decide) (by decide) <|
    .plain (by decide) (by decide) (by decide) <| .plain (by decide) (by decide) (by decide) <|
    .plain (by decide) (by decide) (by decide) <| .plain (by decide) (by decide) (by decide) .close
  have again : RepeatsSource "\x7b\"source\":\"a\",\"source\":".toList :=
    @RepeatsSource.again _ "a" [] _ [] [] _ [':'] .nil (parts_fieldCharacters [("source", "a")] true)
      (othersStand_printedMembers _ _) (givesOnce_printedMembers rfl) .nil .nil key
  obtain ⟨-, -, objects, empty, single, twice, repeated⟩ := forms_agree
  refine ⟨?_, ?_, ?_, ?_, repeated _ again⟩
  · exact (objects _ _ (objectText_text [("n", "b"), ("source", "a")])
      (othersStand_printedMembers _ _)).2 "a" (givesOnce_printedMembers rfl)
  · exact (empty _ _ (objectText_text []) (stringArrayText_text [])).2
  · exact (single "a" _ _ _ (literal_stringLiteral "a") (objectText_text [("source", "a")])
      (stringArrayText_text ["a"])).2
  · exact twice _ _ (objectText_text [("source", "a"), ("source", "b")])
      (fun member isMember => othersStand_printedMembers [] _ member isMember List.not_mem_nil)
      (by decide) _

end ScriptConsole.Config
