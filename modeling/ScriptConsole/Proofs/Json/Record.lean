import ScriptConsole.Json.Shape
import ScriptConsole.Proofs.Json.Passing

/-!
# Records in both of their forms

Reading a record agrees with the grammar if reading its array and each of its members does. The
fields that were met follow the list of members, in whatever order they stand.
-/

namespace ScriptConsole.Json

open Grammar

variable {α β κ σ : Type} {text rest inner : List Char}

/-! ## Whole texts -/

/-- A reading of a whole text is a reading of its front with white space after it. -/
theorem readAll_eq_ok_iff {reader : Reader α} {value : α} :
    readAll reader text = .ok value ↔ ∃ rest, Reads (reader text) value rest ∧ Blank rest := by
  unfold readAll
  rw [bind_eq_ok_iff]
  constructor
  · rintro ⟨taken, read, whole⟩
    split at whole
    · next noMore =>
      cases pure_eq_ok_iff.1 whole
      obtain ⟨before, blank, same⟩ := exists_blank (List.isEmpty_iff.1 noMore)
      rw [List.append_nil] at same
      exact ⟨taken.rest, ⟨taken.within, read⟩, same ▸ blank⟩
    · cases whole
  · rintro ⟨rest, ⟨within, read⟩, blank⟩
    refine ⟨_, read, ?_⟩
    have noMore : dropBlank rest = [] := by
      rw [← List.append_nil rest, blank.dropBlank_append]
      rfl
    simp only [noMore, List.isEmpty_nil, if_true, pure_eq_ok]

/-! ## Fields -/

theorem Grammar.Literal.startsItem {value : String} (literal : Literal value text) :
    StartsItem text := by
  obtain ⟨body, -, rfl⟩ := literal
  exact ⟨'"', body, rfl, rfl, by decide⟩

/-- What is printed for a text is a literal that denotes it. -/
theorem literal_stringLiteral (value : String) : Literal value (stringLiteral value) := by
  obtain ⟨body, same, isBody⟩ := lexes_readString.sound (reads_readString value [])
  rw [List.append_nil] at same
  subst same
  exact ⟨_, isBody, rfl⟩

theorem recognises_readExpectedString (expected : Expected) :
    Recognises (readExpectedString expected) Literal where
  reads := by
    rintro before value _ rest blank ⟨body, isBody, rfl⟩ -
    have found := @Grammar.Blank.dropBlank_cons _ blank '"' rfl (body ++ rest)
    unfold readExpectedString
    split
    · next quote =>
      rw [List.cons_append, found] at quote
      cases quote
      exact (lexes_readString.reads rest isBody).bind fun _ => .pure rfl rfl
    · next noQuote => exact absurd found (noQuote _)
  sound := by
    intro text value rest reads
    unfold readExpectedString at reads
    split at reads
    · next found =>
      obtain ⟨before, blank, rfl⟩ := exists_blank found
      obtain ⟨_, left, within, bodyRead, reads⟩ := reads.of_bind
      obtain ⟨rfl, rfl⟩ := reads.of_pure
      obtain ⟨body, rfl, isBody⟩ := lexes_readString.sound bodyRead
      exact ⟨before, '"' :: body, blank, rfl, body, isBody, rfl⟩
    · exact reads.not_error.elim

theorem recognises_readExpectedNull :
    Recognises readExpectedNull fun _ text => text = ['n', 'u', 'l', 'l'] where
  reads := by
    rintro before _ _ rest blank rfl -
    have found := @Grammar.Blank.dropBlank_cons _ blank 'n' rfl ('u' :: 'l' :: 'l' :: rest)
    unfold readExpectedNull
    split
    · next null =>
      cases found.symm.trans null
      exact (reads_readLetters ['u', 'l', 'l'] rest).bind fun _ => .pure rfl rfl
    · next noNull => exact absurd found (noNull _)
  sound := by
    intro text _ rest reads
    unfold readExpectedNull at reads
    split at reads
    · next found =>
      obtain ⟨before, blank, rfl⟩ := exists_blank found
      obtain ⟨_, left, within, lettersRead, reads⟩ := reads.of_bind
      obtain ⟨-, rfl⟩ := reads.of_pure
      obtain rfl := letters_of_reads lettersRead
      exact ⟨before, _, blank, rfl, rfl⟩
    · exact reads.not_error.elim

/-- A member that nobody asks for leaves the state alone. -/
theorem recognises_passMember (state : σ) :
    Recognises (passMember state) (AfterColon fun next text => next = state ∧ AnyValue text) :=
  recognises_afterColon recognises_passValue fun _ _ =>
    ⟨fun ⟨same, value⟩ => ⟨(), value, same.symm⟩, fun ⟨_, value, same⟩ => ⟨same.symm, value⟩⟩

theorem readMember_none (name : String) (value : Reader α) (store : α -> σ) :
    readMember name none value store = fun text => do
      let colon <- readColon text
      return colon.followedBy ((<- value colon.rest).map store) :=
  rfl

/-- A field is refused the second time, whatever comes after its key. -/
theorem readMember_some (name : String) (previous : α) (value : Reader α) (store : α -> σ)
    (text : List Char) :
    readMember name (some previous) value store text = .error (.mismatch (.duplicateField name)) :=
  rfl

/-- A field that was not met before is stored. -/
theorem recognises_readMember {value : Reader α} {stands : α -> List Char -> Prop}
    (values : Recognises value stands) (name : String) (previous : Option α) (store : α -> σ) :
    Recognises (readMember name previous value store) (AfterColon fun next text =>
      previous = none ∧ ∃ item, stands item text ∧ store item = next) := by
  cases previous with
  | none =>
    rw [readMember_none]
    exact recognises_afterColon values fun _ _ => by simp
  | some previous =>
    constructor
    · rintro before next _ rest - ⟨-, met, -⟩
      cases met
    · intro text next rest reads
      rw [readMember_some] at reads
      exact reads.not_error.elim

/-! ## Refused members -/

section Refused

variable {key : Reader κ} {keyBody : κ -> List Char -> Prop} {member : σ -> κ -> Reader σ}
  {step : σ -> κ -> σ -> List Char -> Prop}

/-- A member that is refused is the fault of the whole object, if the members before it may
stand. -/
theorem readMembers_refuses (keys : Lexes key keyBody)
    (members : ∀ state name, Recognises (member state name) (AfterColon (step state name)))
    {first : Bool} {listed : List (κ × List Char)} {parts : List Char}
    (isParts : Parts (Member keyBody) first listed parts) {state final : σ}
    (trail : Trail step state listed final) {name : κ} {body before between : List Char}
    {fault : Error} (isKey : keyBody name body) (blank : Blank before) (alsoBlank : Blank between)
    (refused : member final name rest = .error fault) :
    readMembers key member state first (parts ++ (before ++ (comma (first && listed.isEmpty) ++
      (between ++ '"' :: (body ++ rest))))) = .error fault := by
  induction isParts generalizing state with
  | none first =>
    cases trail
    obtain ⟨within, another⟩ := nextKey_of_part first blank alsoBlank (body ++ rest)
    rw [List.isEmpty_nil, Bool.and_true, List.nil_append, readMembers, another]
    refine (keys.reads rest isKey).bind_error fun _ => ?_
    simp only [refused, bind_error]
  | @another first part parts lead gap text others leadBlank gapBlank isPart isParts ih =>
    cases trail with
    | @cons _ next _ _ value _ isStep trail =>
      have ends : EndsNumeral (others ++ (before ++ (comma false ++
          (between ++ '"' :: (body ++ rest))))) :=
        isParts.endsNumeral (blank.endsNumeral (endsNumeral_cons _ (by decide)))
      have regrouped : lead ++ (comma first ++ (gap ++ (text ++ others))) ++ (before ++
          (comma false ++ (between ++ '"' :: (body ++ rest)))) = lead ++ (comma first ++ (gap ++
          (text ++ (others ++ (before ++ (comma false ++ (between ++ '"' :: (body ++ rest)))))))) := by
        simp
      obtain ⟨whole, -, step⟩ :=
        readMembers_of_member keys members first leadBlank gapBlank isPart isStep ends
      rw [List.isEmpty_cons, Bool.and_false, regrouped, step]
      have fails := ih trail
      rw [Bool.false_and] at fails
      rw [fails, bind_error]

end Refused

/-! ## Printed records -/

/-- The printed string denotes its text. -/
theorem literalText_text (value : String) : LiteralText value (Json.string value).text.toList := by
  obtain ⟨body, isBody, literal⟩ := literal_stringLiteral value
  have shown : (Json.string value).text.toList = [] ++ ('"' :: (body ++ [])) := by
    rw [Json.text, String.toList_ofList, characters, literal, List.append_nil, List.nil_append]
  rw [shown]
  exact .around .nil isBody .nil

/-- The fields of a printed record of texts, as members. -/
def printedMembers (fields : List (String × String)) : List (String × List Char) :=
  fields.map fun field => (field.1, stringLiteral field.2)

/-- Printed fields are members without white space. -/
theorem parts_fieldCharacters (fields : List (String × String)) (first : Bool) :
    Parts (Member KeyBody) first (printedMembers fields)
      (fieldCharacters first (fields.map fun field => (field.1, .string field.2))) := by
  induction fields generalizing first with
  | nil => exact .none first
  | cons field others ih =>
    obtain ⟨name, value⟩ := field
    obtain ⟨body, isBody, key⟩ := literal_stringLiteral name
    have shown : fieldCharacters first (((name, value) :: others).map fun field =>
        (field.1, .string field.2)) = [] ++ (comma first ++ ([] ++ (('"' :: (body ++ ([] ++ ':' ::
        ([] ++ stringLiteral value)))) ++ fieldCharacters false (others.map fun field =>
        (field.1, .string field.2))))) := by
      simp only [List.map_cons, fieldCharacters, characters, key, comma, List.nil_append,
        List.append_assoc, List.cons_append]
    rw [shown]
    exact .another .nil .nil (.member isBody .nil .nil) (ih false)

/-- The printed object of some strings has them as its members. -/
theorem objectText_text (fields : List (String × String)) :
    ObjectText (printedMembers fields)
      (Json.object (fields.map fun field => (field.1, .string field.2))).text.toList := by
  have shown : (Json.object (fields.map fun field => (field.1, .string field.2))).text.toList =
      [] ++ ('\x7b' :: ((fieldCharacters true (fields.map fun field => (field.1, .string field.2)) ++
        ([] ++ ['\x7d'])) ++ [])) := by
    rw [Json.text, String.toList_ofList]
    simp only [characters, List.nil_append, List.append_nil, List.cons_append]
  rw [shown]
  exact .around .nil (.parts (parts_fieldCharacters fields true) .nil) .nil

theorem parts_itemCharacters (values : List String) (first : Bool) :
    Parts Literal first values (itemCharacters first (values.map .string)) := by
  induction values generalizing first with
  | nil => exact .none first
  | cons value others ih =>
    have shown : itemCharacters first ((value :: others).map .string) = [] ++ (comma first ++ ([] ++
        (stringLiteral value ++ itemCharacters false (others.map .string)))) := by
      simp only [List.map_cons, itemCharacters, characters, comma, List.nil_append,
        List.append_assoc]
    rw [shown]
    exact .another .nil .nil (literal_stringLiteral value) (ih false)

/-- The printed array of some strings has them as its items. -/
theorem stringArrayText_text (values : List String) :
    StringArrayText values (Json.array (values.map .string)).text.toList := by
  have shown : (Json.array (values.map .string)).text.toList =
      [] ++ ('[' :: ((itemCharacters true (values.map .string) ++ ([] ++ [']'])) ++ [])) := by
    rw [Json.text, String.toList_ofList]
    simp only [characters, List.nil_append, List.append_nil, List.cons_append]
  rw [shown]
  exact .around .nil (.parts (parts_itemCharacters values true) .nil) .nil

/-! ## Arrays and objects of fixed length -/

section Items

variable {item : Reader α} {part : α -> List Char -> Prop} {close : Char} {first : Bool} {value : α}
  {items : List α}

theorem Grammar.Closed.nil_iff :
    Closed part close first [] text ↔ ∃ before, Blank before ∧ text = before ++ [close] := by
  constructor
  · rintro @⟨parts, before, isParts, blank⟩
    cases isParts
    exact ⟨before, blank, rfl⟩
  · rintro ⟨before, blank, rfl⟩
    exact .parts (.none first) blank

theorem Grammar.Closed.cons_iff :
    Closed part close first (value :: items) text ↔ ∃ before between front others, Blank before ∧
      Blank between ∧ part value front ∧ Closed part close false items others ∧
      text = before ++ (comma first ++ (between ++ (front ++ others))) := by
  constructor
  · rintro @⟨parts, closing, isParts, blankEnd⟩
    obtain _ | @⟨_, _, _, before, between, front, others, blank, alsoBlank, isPart, isParts⟩ :=
      isParts
    exact ⟨before, between, front, others ++ (closing ++ [close]), blank, alsoBlank, isPart,
      .parts isParts blankEnd, by simp⟩
  · rintro ⟨before, between, front, _, blank, alsoBlank, isPart,
      @⟨others, closing, isParts, blankEnd⟩, rfl⟩
    have regrouped : before ++ (comma first ++ (between ++ (front ++
        (others ++ (closing ++ [close]))))) =
        before ++ (comma first ++ (between ++ (front ++ others))) ++ (closing ++ [close]) := by
      simp
    rw [regrouped]
    exact .parts (.another blank alsoBlank isPart isParts) blankEnd

theorem Grammar.Closed.nil {before : List Char} (blank : Blank before) :
    Closed part close first [] (before ++ [close]) :=
  nil_iff.2 ⟨before, blank, rfl⟩

theorem Grammar.Closed.cons {before between front others : List Char} (blank : Blank before)
    (alsoBlank : Blank between) (isPart : part value front)
    (closed : Closed part close false items others) : Closed part close first (value :: items)
      (before ++ (comma first ++ (between ++ (front ++ others)))) :=
  cons_iff.2 ⟨before, between, front, others, blank, alsoBlank, isPart, closed, rfl⟩

/-- An object with one member, after its opening bracket. -/
theorem Grammar.Closed.pair_iff {name : String} {value : List Char} :
    Closed (Member KeyBody) '\x7d' true [(name, value)] inner ↔
      ∃ lead body after gap closing, Blank lead ∧ KeyBody name body ∧ Blank after ∧ Blank gap ∧
        Blank closing ∧ inner = lead ++ '"' :: (body ++ (after ++ ':' :: (gap ++ (value ++
          (closing ++ ['\x7d']))))) := by
  constructor
  · intro closed
    obtain ⟨before, between, _, _, blank, alsoBlank, isMember, ends, rfl⟩ :=
      Closed.cons_iff.1 closed
    obtain @⟨_, body, after, gap, _, isKey, afterBlank, gapBlank⟩ := isMember
    obtain ⟨closing, closingBlank, rfl⟩ := Closed.nil_iff.1 ends
    refine ⟨before ++ between, body, after, gap, closing,
      List.forall_mem_append.2 ⟨blank, alsoBlank⟩, isKey, afterBlank, gapBlank, closingBlank, ?_⟩
    simp [comma]
  · rintro ⟨lead, body, after, gap, closing, blank, isKey, afterBlank, gapBlank, closingBlank, rfl⟩
    have regrouped : lead ++ '"' :: (body ++ (after ++ ':' :: (gap ++ (value ++
        (closing ++ ['\x7d']))))) = lead ++ (comma true ++ ([] ++ (('"' :: (body ++ (after ++ ':' ::
        (gap ++ value)))) ++ (closing ++ ['\x7d'])))) := by
      simp [comma]
    rw [regrouped]
    exact .cons blank .nil (.member isKey afterBlank gapBlank) (.nil closingBlank)

/-- Of a fixed array the next item is read from its place on. -/
theorem exists_reads_of_nextItem (items : Recognises item part)
    (starts : ∀ value text, part value text -> StartsItem text) {before between front : List Char}
    (first : Bool) (blank : Blank before) (alsoBlank : Blank between) (isPart : part value front)
    (ends : EndsNumeral rest) :
    ∃ place within, nextItem first (before ++ (comma first ++ (between ++ (front ++ rest)))) =
      .ok (.another place within) ∧ Reads (item place) value rest := by
  obtain ⟨lead, within, leadBlank, another⟩ :=
    nextItem_of_part first blank alsoBlank ((starts value front isPart).append rest)
  exact ⟨_, within, another, items.reads leadBlank isPart ends⟩

theorem exists_of_reads_of_nextItem (items : Recognises item part) {place : List Char}
    {within : place.length ≤ text.length} (another : nextItem first text = .ok (.another place within))
    (reads : Reads (item place) value rest) : ∃ before between front, Blank before ∧
      Blank between ∧ part value front ∧
      text = before ++ (comma first ++ (between ++ (front ++ rest))) := by
  obtain ⟨before, blank, rfl⟩ := exists_of_nextItem_another another
  obtain ⟨between, front, alsoBlank, rfl, isPart⟩ := items.sound reads
  exact ⟨before, between, front, blank, alsoBlank, isPart, rfl⟩

end Items

/-! ## Both forms -/

namespace RecordShape

variable {shape : RecordShape σ α} {record : α} {state : σ}

theorem reads_read_array (found : dropBlank text = '[' :: inner)
    (reads : Reads (shape.fromArray inner) record rest) : Reads (shape.read text) record rest := by
  unfold read
  split
  · next bracket =>
    rw [found] at bracket
    cases bracket
    exact reads.bind fun _ => .pure rfl rfl
  · next bracket =>
    rw [found] at bracket
    cases bracket
  · next noArray _ => exact absurd found (noArray _)

theorem reads_read_object (found : dropBlank text = '\x7b' :: inner)
    (reads : Reads (readMembers readString shape.member shape.start true inner) state rest)
    (finishes : shape.finish state = .ok record) : Reads (shape.read text) record rest := by
  unfold read
  split
  · next bracket =>
    rw [found] at bracket
    cases bracket
  · next bracket =>
    rw [found] at bracket
    cases bracket
    refine reads.bind fun _ => ?_
    rw [finishes]
    exact .pure rfl rfl
  · next _ noObject => exact absurd found (noObject _)

theorem read_object_error {fault : Error} (found : dropBlank text = '\x7b' :: inner)
    (fails : readMembers readString shape.member shape.start true inner = .error fault) :
    shape.read text = .error fault := by
  unfold read
  split
  · next bracket =>
    rw [found] at bracket
    cases bracket
  · next bracket =>
    rw [found] at bracket
    cases bracket
    rw [fails, bind_error]
  · next _ noObject => exact absurd found (noObject _)

/-- A record is read from one of its forms. -/
theorem cases_of_reads_read (reads : Reads (shape.read text) record rest) :
    (∃ inner, dropBlank text = '[' :: inner ∧ Reads (shape.fromArray inner) record rest) ∨
      ∃ inner state, dropBlank text = '\x7b' :: inner ∧
        Reads (readMembers readString shape.member shape.start true inner) state rest ∧
        shape.finish state = .ok record := by
  unfold read at reads
  split at reads
  · next inner found =>
    obtain ⟨_, left, within, arrayRead, reads⟩ := reads.of_bind
    obtain ⟨rfl, rfl⟩ := reads.of_pure
    exact .inl ⟨inner, found, arrayRead⟩
  · next inner found =>
    obtain ⟨state, left, within, membersRead, reads⟩ := reads.of_bind
    split at reads
    · next finishes =>
      obtain ⟨rfl, rfl⟩ := reads.of_pure
      exact .inr ⟨inner, state, found, membersRead, finishes⟩
    · exact reads.not_error.elim
  · exact reads.not_error.elim

/-- The record of a whole text: an array of its fields, or an object whose members lead to it. -/
theorem readAll_read_eq_ok_iff {inArray : α -> List Char -> Prop}
    {step : σ -> String -> σ -> List Char -> Prop} (arrays : Lexes shape.fromArray inArray)
    (members : ∀ state name, Recognises (shape.member state name) (AfterColon (step state name))) :
    readAll shape.read text = .ok record ↔ Bracketed '[' (inArray record) text ∨
      ∃ listed final, ObjectText listed text ∧ Trail step shape.start listed final ∧
        shape.finish final = .ok record := by
  rw [readAll_eq_ok_iff]
  have objects := lexes_readMembers lexes_readString members shape.start true
  constructor
  · rintro ⟨rest, reads, blankRest⟩
    obtain ⟨_, found, arrayRead⟩ | ⟨_, final, found, membersRead, finishes⟩ :=
      cases_of_reads_read reads
    · obtain ⟨before, blank, rfl⟩ := exists_blank found
      obtain ⟨inner, rfl, isArray⟩ := arrays.sound arrayRead
      exact .inl (.around blank isArray blankRest)
    · obtain ⟨before, blank, rfl⟩ := exists_blank found
      obtain ⟨inner, rfl, listed, closed, trail⟩ := objects.sound membersRead
      exact .inr ⟨listed, final, .around blank closed blankRest, trail, finishes⟩
  · rintro (@⟨before, inner, after, blank, isArray, blankAfter⟩ |
      ⟨listed, final, @⟨before, inner, after, blank, closed, blankAfter⟩, trail, finishes⟩)
    · exact ⟨after, reads_read_array (blank.dropBlank_cons rfl _) (arrays.reads after isArray),
        blankAfter⟩
    · exact ⟨after, reads_read_object (blank.dropBlank_cons rfl _)
        (objects.reads after ⟨listed, closed, trail⟩) finishes, blankAfter⟩

end RecordShape

end ScriptConsole.Json
