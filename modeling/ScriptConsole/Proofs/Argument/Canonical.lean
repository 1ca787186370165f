import ScriptConsole.Proofs.Argument.RoundTrip
import ScriptConsole.Proofs.Json.Nesting

/-!
# The canonical text of arguments

Many texts hold the same arguments: white space, escapes, the order of keys, repeated keys and
the spelling of numbers do not show in them. The text that the arguments are written as is the
one text that stands for all of these. It is read as the same arguments, since what was read
nests no deeper than the reader goes and every argument tells its JSON value.
-/

namespace ScriptConsole.Argument

variable {arguments : List Argument} {values : List Json.Value} {text : String}

/-- An argument that is made of a JSON value is of the plainest kind. -/
theorem isKept_ofJson (value : Json.Value) : (ofJson value).IsKept := by
  induction value using Json.Value.cases with
  | null => trivial
  | boolean truth => trivial
  | number number =>
    by_cases isInt64 : ∃ whole, number = .ofInt64 whole
    · obtain ⟨whole, rfl⟩ := isInt64
      rw [ofJson_ofInt64]
      trivial
    · have other : ∀ whole, number ≠ .ofInt64 whole := fun whole same => isInt64 ⟨whole, same⟩
      rw [ofJson_number other]
      exact other
  | string content => trivial
  | array items => trivial
  | object fields => trivial

/-- The argument of a JSON value tells the value, with every number as it was. -/
theorem toJson_ofJson (value : Json.Value) : (ofJson value).toJson = value := by
  induction value using Json.Value.cases with
  | null => rfl
  | boolean truth => rfl
  | number number =>
    by_cases isInt64 : ∃ whole, number = .ofInt64 whole
    · obtain ⟨whole, rfl⟩ := isInt64
      rw [ofJson_ofInt64]
      rfl
    · rw [ofJson_number fun whole same => isInt64 ⟨whole, same⟩]
      rfl
  | string content => rfl
  | array items => rfl
  | object fields => rfl

/-- A text of arguments holds an array of JSON values, which nest within the limit. -/
theorem exists_values_of_parseList (parsed : parseList text = .ok arguments) :
    ∃ values : List Json.Value, arguments = values.map ofJson ∧
      ∀ value ∈ values, value.tree.depth ≤ Json.nestingLimit - 1 := by
  obtain ⟨values, read, made⟩ := bind_eq_ok_iff.1 parsed
  have shallow := Json.gives_readExpectedArray (Json.gives_readValue (Json.nestingLimit - 1))
  exact ⟨values, (pure_eq_ok_iff.1 made).symm, shallow.of_readAll read⟩

/-- The text of the arguments of some JSON values is read as these arguments. -/
theorem parseList_listText_ofJson
    (shallow : ∀ value ∈ values, value.tree.depth ≤ Json.nestingLimit - 1) :
    parseList (listText (values.map ofJson)) = .ok (values.map ofJson) := by
  have structured : ∀ value, .json value ∈ values.map ofJson -> value.tree.depth ≤ 126 := by
    intro value member
    obtain ⟨origin, inValues, same⟩ := List.mem_map.1 member
    have isOrigin : origin = value := (toJson_ofJson origin).symm.trans (congrArg toJson same)
    exact isOrigin ▸ shallow origin inValues
  have again : ∀ value ∈ values, ofJson (ofJson value).toJson = ofJson value :=
    fun value _ => by rw [toJson_ofJson]
  rw [parseList_of_depth_le structured, List.map_map]
  exact congrArg Except.ok (List.map_congr_left again)

/-- Reading arguments from text is canonical. Let a text be accepted as a list of arguments.
Each argument is of the plainest kind: none is undefined or a float, and none is structured
data that holds null, a truth value, a 64-bit integer or a string. The text that they are
written as is accepted and read as exactly the same arguments, so it is written once more as
itself. Two accepted texts have one such text exactly if their arguments are the same, down to
the kind and the sign of every number. Every JSON value can be told from its argument, which
shows the text that the value shows as structured data. -/
theorem listText_is_canonical (parsed : parseList text = .ok arguments) :
    (∀ argument ∈ arguments, argument.IsKept) ∧
      parseList (listText arguments) = .ok arguments ∧
      (∀ back, parseList (listText arguments) = .ok back -> listText back = listText arguments) ∧
      (∀ other others, parseList other = .ok others ->
        (listText arguments = listText others ↔ arguments = others)) ∧
      ∀ value, (ofJson value).toJson = value ∧ (ofJson value).text = (json value).text := by
  have again : ∀ {text arguments}, parseList text = .ok arguments ->
      parseList (listText arguments) = .ok arguments := by
    intro text arguments parsed
    obtain ⟨values, rfl, shallow⟩ := exists_values_of_parseList parsed
    exact parseList_listText_ofJson shallow
  refine ⟨?_, again parsed, fun back parsedBack => ?_, fun other others parsedOther => ?_,
    fun value => ⟨toJson_ofJson value, text_ofJson value⟩⟩
  · obtain ⟨values, rfl, -⟩ := exists_values_of_parseList parsed
    intro argument member
    obtain ⟨value, -, rfl⟩ := List.mem_map.1 member
    exact isKept_ofJson value
  · cases (again parsed).symm.trans parsedBack
    rfl
  · constructor
    · intro same
      have first := again parsed
      rw [same, again parsedOther] at first
      exact (Except.ok.inj first).symm
    · exact congrArg listText

/-- The fields of an object: a negative zero and no items. -/
def zeroAndNothing : Json.Fields :=
  (Json.Fields.empty.insert "b" (.number (.double (.zero true) rfl))).insert "a" (.array [])

/-- White space, an escape in a key, keys out of order, a repeated key, and numbers at the ends
of their kinds. -/
theorem listText_is_canonical_spellings :
    let spelling := " [\x7b\"b\":1, \"\\u0061\":[ ],\"b\":-0e5\x7d , 18446744073709551615,\n\"\\/\" , 5]"
    let written := "[\x7b\"a\":[],\"b\":-0.0\x7d,18446744073709551615,\"/\",5]"
    let arguments : List Argument := [.json (.object zeroAndNothing),
      .json (.number (.whole 0xffffffffffffffff (by decide) (by decide))), .string "/", .integer 5]
    parseList spelling = .ok arguments ∧ listText arguments = written ∧
      parseList written = .ok arguments ∧ (∀ argument ∈ arguments, argument.IsKept) ∧
      (∀ other others, parseList other = .ok others ->
        (written = listText others ↔ arguments = others)) := by
  intro spelling written arguments
  have parsed : parseList spelling = .ok arguments := by cbv
  have text : listText arguments = written := by cbv
  obtain ⟨plain, again, -, sameText, -⟩ := listText_is_canonical parsed
  rw [text] at again
  exact ⟨parsed, text, again, plain, fun other others read => text ▸ sameText other others read⟩

end ScriptConsole.Argument
