import ScriptConsole.Proofs.Json.Record
import ScriptConsole.Session.Run

/-!
# Names of methods

A method is named by one table, found for a script by a second, and written in JSON by a third.
All three agree on every string, however it is written in JSON: what names a method in one of them
names the same method in the others, and any other string is refused by each with its own fault.
-/

namespace ScriptConsole.Method

open Json Json.Grammar

variable {name : String} {method : Method} {text rest inner : List Char}

/-! ## Tables -/

/-- The string is the name of no method. -/
def IsUnknown (name : String) : Prop :=
  ∀ method : Method, name ≠ method.name

/-- A string is the name of a method and found, or unknown and refused. -/
theorem ofName_cases (name : String) :
    (∃ method : Method, name = method.name ∧ ofName name = .ok method) ∨
      IsUnknown name ∧ ofName name = .error (.unknownMethod name) := by
  unfold ofName
  split
  · exact .inl ⟨.log, rfl, rfl⟩
  · exact .inl ⟨.info, rfl, rfl⟩
  · exact .inl ⟨.warn, rfl, rfl⟩
  · exact .inl ⟨.error, rfl, rfl⟩
  · exact .inl ⟨.debug, rfl, rfl⟩
  · next noLog noInfo noWarn noError noDebug =>
    refine .inr ⟨fun method => ?_, rfl⟩
    cases method with
    | log => exact noLog
    | info => exact noInfo
    | warn => exact noWarn
    | error => exact noError
    | debug => exact noDebug

theorem ofName_eq_ok_iff : ofName name = .ok method ↔ name = method.name := by
  constructor
  · intro found
    obtain ⟨other, rfl, known⟩ | ⟨-, refused⟩ := ofName_cases name
    · cases known.symm.trans found
      rfl
    · cases refused.symm.trans found
  · rintro rfl
    exact ofName_name method

theorem ofName_of_unknown (unknown : IsUnknown name) :
    ofName name = .error (.unknownMethod name) := by
  obtain ⟨method, isName, -⟩ | ⟨-, refused⟩ := ofName_cases name
  · exact absurd isName (unknown method)
  · exact refused

/-- The declared names in lower case are the names that scripts use. -/
theorem variant_eq_name (method : Method) : method.variant = method.name := by
  cases method <;> cbv

/-- JSON texts look names up as scripts do, but for the fault. -/
theorem ofVariant_eq (name : String) : ofVariant name =
    (ofName name).mapError fun _ => .mismatch (.unknownVariant name (all.map Method.name)) := by
  unfold ofVariant
  rw [funext variant_eq_name]
  obtain ⟨method, rfl, known⟩ | ⟨unknown, refused⟩ := ofName_cases name
  · rw [known]
    cases method <;> rfl
  · have none : (all.find? fun method => decide (method.name = name)) = none :=
      List.find?_eq_none.2 fun method _ => by simpa using (unknown method).symm
    rw [none, refused]
    rfl

theorem ofVariant_eq_ok_iff : ofVariant name = .ok method ↔ name = method.name := by
  rw [ofVariant_eq, mapError_eq_ok_iff, ofName_eq_ok_iff]

theorem ofVariant_of_unknown (unknown : IsUnknown name) :
    ofVariant name = .error (.mismatch (.unknownVariant name (all.map Method.name))) := by
  rw [ofVariant_eq, ofName_of_unknown unknown]
  rfl

/-! ## Names in JSON -/

/-- The two forms of a name in JSON: a string, and an object with that one key and no value. -/
inductive NameText (name : String) (text : List Char) : Prop where
  | literal (isLiteral : LiteralText name text)
  | object (isObject : ObjectText [(name, ['n', 'u', 'l', 'l'])] text)

/-- After its opening bracket, an object with no value under its one key is read part by part. -/
def ReadsPair (name : String) (inner rest : List Char) : Prop :=
  ∃ key colon value last, Reads (readMark '"' inner) () key ∧ Reads (readString key) name colon ∧
    Reads (readColon colon) () value ∧ Reads (readExpectedNull value) () last ∧
      Reads (readObjectEnd last) () rest

/-- What is read part by part is such an object. -/
theorem readsPair_iff : ReadsPair name inner rest ↔ ∃ front, inner = front ++ rest ∧
    Closed (Member KeyBody) '\x7d' true [(name, ['n', 'u', 'l', 'l'])] front := by
  constructor
  · rintro ⟨key, colon, value, last, quoteRead, keyRead, colonRead, nullRead, endRead⟩
    obtain ⟨lead, leadBlank, rfl⟩ := exists_blank (dropBlank_of_readMark quoteRead)
    obtain ⟨body, rfl, isBody⟩ := lexes_readString.sound keyRead
    obtain ⟨after, afterBlank, rfl⟩ := exists_blank (dropBlank_of_readMark colonRead)
    obtain ⟨gap, _, gapBlank, rfl, rfl⟩ := recognises_readExpectedNull.sound nullRead
    obtain ⟨closing, closingBlank, rfl⟩ := exists_blank (dropBlank_of_readMark endRead)
    refine ⟨_, ?_, Closed.pair_iff.2
      ⟨lead, body, after, gap, closing, leadBlank, isBody, afterBlank, gapBlank, closingBlank, rfl⟩⟩
    simp
  · rintro ⟨_, rfl, closed⟩
    obtain ⟨lead, body, after, gap, closing, leadBlank, isBody, afterBlank, gapBlank, closingBlank,
      rfl⟩ := Closed.pair_iff.1 closed
    have ends : EndsNumeral (closing ++ '\x7d' :: rest) :=
      closingBlank.endsNumeral (endsNumeral_cons _ (by decide))
    refine ⟨_, _, _, _, reads_readMark ?_, lexes_readString.reads _ isBody,
      reads_readMark (afterBlank.dropBlank_cons rfl _),
      @Recognises.reads _ _ _ recognises_readExpectedNull _ () _ _ gapBlank rfl ends,
      reads_readMark (closingBlank.dropBlank_cons rfl _)⟩
    simp only [List.append_assoc, List.cons_append]
    exact leadBlank.dropBlank_cons rfl _

section Read

variable {fault : Json.Error}

theorem read_of_literal (found : dropBlank text = '"' :: inner) :
    read text = (do
      let written <- readString inner
      let method <- ofVariant written.value
      return (written.map fun _ => method).afterBlank found) := by
  unfold read
  split
  · next empty => cases found.symm.trans empty
  · next quote =>
    cases found.symm.trans quote
    rfl
  · next brace => cases found.symm.trans brace
  · next noQuote _ => exact absurd found (noQuote _)

theorem read_of_object (found : dropBlank text = '\x7b' :: inner) :
    read text = (do
      let quote <- readMark '"' inner
      let written <- readString quote.rest
      let method <- ofVariant written.value
      let colon <- readColon written.rest
      let nothing <- readExpectedNull colon.rest
      let done <- readObjectEnd nothing.rest
      let value := colon.followedBy (nothing.followedBy (done.map fun _ => method))
      return (quote.followedBy (written.followedBy value)).afterBlank found) := by
  unfold read
  split
  · next empty => cases found.symm.trans empty
  · next quote => cases found.symm.trans quote
  · next brace =>
    cases found.symm.trans brace
    rfl
  · next _ noBrace => exact absurd found (noBrace _)

/-- A string is looked up as what it denotes. -/
theorem reads_read_literal (found : dropBlank text = '"' :: inner)
    (nameRead : Reads (readString inner) name rest) (known : ofVariant name = .ok method) :
    Reads (read text) method rest := by
  rw [read_of_literal found]
  refine nameRead.bind fun _ => ?_
  simp only [known, bind_ok]
  exact .pure rfl rfl

theorem read_literal_error (found : dropBlank text = '"' :: inner)
    (nameRead : Reads (readString inner) name rest) (refused : ofVariant name = .error fault) :
    read text = .error fault := by
  rw [read_of_literal found]
  refine nameRead.bind_error fun _ => ?_
  simp only [refused, bind_error]

/-- An object is looked up as what its key denotes. -/
theorem reads_read_object (found : dropBlank text = '\x7b' :: inner)
    (pair : ReadsPair name inner rest) (known : ofVariant name = .ok method) :
    Reads (read text) method rest := by
  obtain ⟨key, colon, value, last, quoteRead, keyRead, colonRead, nullRead, endRead⟩ := pair
  rw [read_of_object found]
  refine quoteRead.bind fun _ => keyRead.bind fun _ => ?_
  simp only [known, bind_ok]
  exact colonRead.bind fun _ => nullRead.bind fun _ => endRead.bind fun _ => .pure rfl rfl

theorem read_object_error (found : dropBlank text = '\x7b' :: inner)
    (pair : ReadsPair name inner rest) (refused : ofVariant name = .error fault) :
    read text = .error fault := by
  obtain ⟨key, colon, value, last, quoteRead, keyRead, -⟩ := pair
  rw [read_of_object found]
  refine quoteRead.bind_error fun _ => keyRead.bind_error fun _ => ?_
  simp only [refused, bind_error]

/-- A method is read from one of the two forms. -/
theorem cases_of_reads_read (reads : Reads (read text) method rest) :
    ∃ name inner, ofVariant name = .ok method ∧
      (dropBlank text = '"' :: inner ∧ Reads (readString inner) name rest ∨
        dropBlank text = '\x7b' :: inner ∧ ReadsPair name inner rest) := by
  have looked : ∀ {limit} {name : String} {next : Method -> Except Json.Error (Taken Method limit)},
      Reads (ofVariant name >>= next) method rest ->
        ∃ found, ofVariant name = .ok found ∧ Reads (next found) method rest := by
    rintro limit name next ⟨within, read⟩
    obtain ⟨found, known, read⟩ := bind_eq_ok_iff.1 read
    exact ⟨found, known, within, read⟩
  unfold read at reads
  split at reads
  · exact reads.not_error.elim
  · next inner found =>
    obtain ⟨name, left, within, nameRead, reads⟩ := reads.of_bind
    obtain ⟨other, known, reads⟩ := looked reads
    obtain ⟨rfl, rfl⟩ := reads.of_pure
    exact ⟨name, inner, known, .inl ⟨found, nameRead⟩⟩
  · next inner found =>
    obtain ⟨_, key, keyWithin, quoteRead, reads⟩ := reads.of_bind
    obtain ⟨name, colon, colonWithin, keyRead, reads⟩ := reads.of_bind
    obtain ⟨other, known, reads⟩ := looked reads
    obtain ⟨_, value, valueWithin, colonRead, reads⟩ := reads.of_bind
    obtain ⟨_, last, lastWithin, nullRead, reads⟩ := reads.of_bind
    obtain ⟨_, left, leftWithin, endRead, reads⟩ := reads.of_bind
    obtain ⟨rfl, rfl⟩ := reads.of_pure
    exact ⟨name, inner, known,
      .inr ⟨found, key, colon, value, last, quoteRead, keyRead, colonRead, nullRead, endRead⟩⟩
  · exact reads.not_error.elim

end Read

/-- A name in JSON is read as JSON texts look it up. -/
theorem parse_of_nameText {written : String} (isText : NameText name written.toList) :
    parse written = ofVariant name := by
  unfold parse
  generalize written.toList = text at isText
  obtain (@⟨before, body, after, blank, isBody, alsoBlank⟩) |
    (@⟨before, inner, after, blank, isPair, alsoBlank⟩) := isText
  · have found := @Blank.dropBlank_cons _ blank '"' rfl (body ++ after)
    have nameRead := lexes_readString.reads after isBody
    cases looked : ofVariant name with
    | ok method =>
      exact readAll_eq_ok_iff.2 ⟨after, reads_read_literal found nameRead looked, alsoBlank⟩
    | error fault => exact readAll_eq_error (read_literal_error found nameRead looked)
  · have found := @Blank.dropBlank_cons _ blank '\x7b' rfl (inner ++ after)
    have pair : ReadsPair name (inner ++ after) after := readsPair_iff.2 ⟨inner, rfl, isPair⟩
    cases looked : ofVariant name with
    | ok method =>
      exact readAll_eq_ok_iff.2 ⟨after, reads_read_object found pair looked, alsoBlank⟩
    | error fault => exact readAll_eq_error (read_object_error found pair looked)

/-- What is read as a method is its name in one of the two forms. -/
theorem parse_eq_ok_iff {written : String} :
    parse written = .ok method ↔ NameText method.name written.toList := by
  constructor
  · intro read
    obtain ⟨rest, reads, blankRest⟩ := readAll_eq_ok_iff.1 read
    obtain ⟨name, inner, known, ⟨found, nameRead⟩ | ⟨found, pair⟩⟩ := cases_of_reads_read reads
    · obtain ⟨before, blank, same⟩ := exists_blank found
      obtain ⟨body, rfl, isBody⟩ := lexes_readString.sound nameRead
      rw [same, ← ofVariant_eq_ok_iff.1 known]
      exact .literal (.around blank isBody blankRest)
    · obtain ⟨before, blank, same⟩ := exists_blank found
      obtain ⟨front, rfl, isPair⟩ := readsPair_iff.1 pair
      rw [same, ← ofVariant_eq_ok_iff.1 known]
      exact .object (.around blank isPair blankRest)
  · intro isText
    rw [parse_of_nameText isText, ofVariant_eq_ok_iff]

theorem text_toJson (method : Method) : method.toJson.text = "\"" ++ method.name ++ "\"" := by
  rw [toJson, variant_eq_name]
  cases method <;> rfl

theorem parse_toJson (method : Method) : parse method.toJson.text = .ok method := by
  rw [parse_eq_ok_iff, toJson, variant_eq_name]
  exact .literal (literalText_text method.name)

/-! ## Calls by name -/

/-- A call by an unknown name is refused before anything else of it is looked at. -/
theorem step_call_of_unknown (unknown : IsUnknown name) (session : Session)
    (target : Session.ConsoleTarget) (values : List HostValue) :
    session.step (.call target name values) =
      (session, ⟨.error (.setup (.unknownMethod name)), []⟩) := by
  have refused : session.advance (.call target name values) =
      .error (.setup (.unknownMethod name)) := by
    change (do
      let method <- (ofName name).mapError Session.Failure.setup
      session.callMethod target method values) = _
    rw [ofName_of_unknown unknown, mapError_error, bind_error]
  rw [Session.step, refused]

/-! ## Agreement -/

/-- On every string the three tables agree, whichever way and in whichever form JSON writes it: it
is the name of a method exactly if scripts find that method, and if each form is read as that
method. A string that names no method is refused by scripts and in both forms, each time with the
string itself in the fault, and no other text is read as a method. A method is printed as the
string of its name, and both readings undo it. A call by an unknown name has that one fault, even
if nothing else of it could be done either, and changes nothing. -/
theorem names_agree :
    (∀ (name literal object : String) (method : Method), LiteralText name literal.toList ->
      ObjectText [(name, ['n', 'u', 'l', 'l'])] object.toList ->
        (ofName name = .ok method ↔ name = method.name) ∧
        (parse literal = .ok method ↔ name = method.name) ∧
        (parse object = .ok method ↔ name = method.name)) ∧
    (∀ name literal object : String, LiteralText name literal.toList ->
      ObjectText [(name, ['n', 'u', 'l', 'l'])] object.toList -> IsUnknown name ->
        ofName name = .error (.unknownMethod name) ∧
        parse literal = .error (.mismatch (.unknownVariant name (all.map Method.name))) ∧
        parse object = .error (.mismatch (.unknownVariant name (all.map Method.name)))) ∧
    (∀ (written : String) (method : Method),
      parse written = .ok method ↔ NameText method.name written.toList) ∧
    (∀ method : Method, method.toJson.text = "\"" ++ method.name ++ "\"" ∧
      ofName method.name = .ok method ∧ parse method.toJson.text = .ok method) ∧
    ∀ name, IsUnknown name -> ∀ (session : Session) target values,
      session.step (.call target name values) =
        (session, ⟨.error (.setup (.unknownMethod name)), []⟩) := by
  refine ⟨?known, ?unknown, fun _ _ => parse_eq_ok_iff, ?printed,
    fun _ unknown => step_call_of_unknown unknown⟩
  case known =>
    intro name literal object method isLiteral isObject
    rw [parse_of_nameText (.literal isLiteral), parse_of_nameText (.object isObject)]
    exact ⟨ofName_eq_ok_iff, ofVariant_eq_ok_iff, ofVariant_eq_ok_iff⟩
  case unknown =>
    intro name literal object isLiteral isObject unknown
    rw [parse_of_nameText (.literal isLiteral), parse_of_nameText (.object isObject)]
    exact ⟨ofName_of_unknown unknown, ofVariant_of_unknown unknown, ofVariant_of_unknown unknown⟩
  case printed =>
    intro method
    exact ⟨text_toJson method, ofName_name method, parse_toJson method⟩

/-- An escape in a name, white space around it, and a name that differs in a capital. -/
theorem names_agree_escaped :
    parse " \"\\u006cog\"\n" = .ok .log ∧ parse "\x7b\t\"\\u006cog\" :null \x7d" = .ok .log ∧
      ofName "Log" = .error (.unknownMethod "Log") ∧
      parse "\"Log\"" =
        .error (.mismatch (.unknownVariant "Log" ["log", "info", "warn", "error", "debug"])) ∧
      parse "\x7b\"Log\":null\x7d" =
        .error (.mismatch (.unknownVariant "Log" ["log", "info", "warn", "error", "debug"])) ∧
      ∀ session : Session, session.step (.call (.console "none") "Log" [.json "["]) =
        (session, ⟨.error (.setup (.unknownMethod "Log")), []⟩) := by
  have letter : Escape 'l' ['u', '0', '0', '6', 'c'] :=
    .unit (@CodeUnit.digits _ _ _ _ 0 0 6 12 rfl rfl rfl rfl) rfl rfl
  have escaped : KeyBody "log" ['\\', 'u', '0', '0', '6', 'c', 'o', 'g', '"'] :=
    .escaped letter (.plain (by decide) (by decide) (by decide)
      (.plain (by decide) (by decide) (by decide) .close))
  have capital : KeyBody "Log" ['L', 'o', 'g', '"'] :=
    .plain (by decide) (by decide) (by decide) (.plain (by decide) (by decide) (by decide)
      (.plain (by decide) (by decide) (by decide) .close))
  have single : ∀ mark, isBlank mark = true -> Blank [mark] :=
    fun _ isMark => List.forall_mem_singleton.2 isMark
  have unknown : IsUnknown "Log" := by
    intro method
    cases method <;> decide
  obtain ⟨agree, refuse, -, -, calls⟩ := names_agree
  obtain ⟨-, literal, object⟩ := agree "log" " \"\\u006cog\"\n"
    "\x7b\t\"\\u006cog\" :null \x7d" .log
    (@Bracketed.around _ _ [' '] _ ['\n'] (single _ rfl) escaped (single _ rfl))
    (@Bracketed.around _ _ [] _ [] .nil (Closed.pair_iff.2
      ⟨['\t'], _, [' '], [], [' '], single _ rfl, escaped, single _ rfl, .nil, single _ rfl,
        rfl⟩) .nil)
  obtain ⟨notFound, noLiteral, noObject⟩ := refuse "Log" "\"Log\"" "\x7b\"Log\":null\x7d"
    (@Bracketed.around _ _ [] _ [] .nil capital .nil)
    (@Bracketed.around _ _ [] _ [] .nil (Closed.pair_iff.2
      ⟨[], _, [], [], [], .nil, capital, .nil, .nil, .nil, rfl⟩) .nil) unknown
  exact ⟨literal.2 rfl, object.2 rfl, notFound, noLiteral, noObject,
    fun session => calls "Log" unknown session _ _⟩

end ScriptConsole.Method
