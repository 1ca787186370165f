import ScriptConsole.Argument
import ScriptConsole.Proofs.Json.RoundTrip

/-!
# Arguments through JSON text

A list of arguments is written as one JSON array and read from it again. The bracket of
that array takes one level of the nesting that a reader allows. What comes back has the
texts of what was written, except for the arguments that have no JSON form; it is equal to
it only where the kind of an argument can be told from its JSON value.
-/

namespace ScriptConsole

/-! ## Whole numbers of 64 bits -/

/-- A number is a 64-bit integer exactly if it is the number of one. -/
theorem Json.Number.int64?_eq_some_iff {number : Json.Number} {integer : Int64} :
    number.int64? = some integer ↔ number = .ofInt64 integer := by
  cases number with
  | double value finite => simp [int64?, ofInt64]
  | whole value atLeast below =>
    simp only [int64?, ofInt64, Json.Number.whole.injEq]
    constructor
    · intro known
      split at known
      · next small =>
        cases known
        exact (Int64.toInt_ofInt_of_le atLeast small).symm
      · cases known
    · rintro rfl
      have small : integer.toInt < 0x8000000000000000 := integer.toInt_lt
      rw [if_pos small, Int64.ofInt_toInt]

namespace Argument

variable {argument : Argument} {value : Json.Value} {number : Json.Number}

theorem ofJson_ofInt64 (whole : Int64) : ofJson (.number (.ofInt64 whole)) = .integer whole := by
  simp only [ofJson, Json.Value.number, Json.Number.int64?_eq_some_iff.2 rfl]

/-- A number that is no 64-bit integer stays JSON. -/
theorem ofJson_number (other : ∀ whole, number ≠ .ofInt64 whole) :
    ofJson (.number number) = .json (.number number) := by
  have none : number.int64? = none := by
    rw [Option.eq_none_iff_forall_ne_some]
    exact fun whole known => other whole (Json.Number.int64?_eq_some_iff.1 known)
  simp only [ofJson, Json.Value.number, none]

/-- A JSON value keeps its text as a plainer argument. -/
theorem text_ofJson (value : Json.Value) : (ofJson value).text = jsonText value.tree := by
  induction value using Json.Value.cases with
  | null => rfl
  | boolean truth => cases truth <;> rfl
  | number number =>
    by_cases isInt64 : ∃ whole, number = .ofInt64 whole
    · obtain ⟨whole, rfl⟩ := isInt64
      rw [ofJson_ofInt64]
      rfl
    · rw [ofJson_number fun whole same => isInt64 ⟨whole, same⟩]
      rfl
  | string content => rfl
  | array items => rfl
  | object fields => rfl

/-! ## Kinds of arguments -/

/-- The argument has no JSON form. -/
def IsLost : Argument -> Prop
  | .undefined => True
  | .float value => value.isFinite = false
  | .null | .boolean _ | .integer _ | .string _ | .json _ => False

/-- The kind of the argument can be told from its JSON value. Structured data counts only
if it is an array, an object, or a number that is no 64-bit integer. -/
def IsKept : Argument -> Prop
  | .null | .boolean _ | .integer _ | .string _ => True
  | .undefined | .float _ => False
  | .json value =>
    match value.tree with
    | .array _ | .object _ => True
    | .number number => ∀ whole : Int64, number ≠ .ofInt64 whole
    | .null | .boolean _ | .string _ => False

/-- What comes back for an argument that was written as JSON. -/
structure ComesBack (argument back : Argument) : Prop where
  /-- It shows the same text, -/
  text : ¬argument.IsLost -> back.text = argument.text
  /-- or it is null. -/
  lost : argument.IsLost -> back = .null ∧ back.text = "null"
  /-- It is equal exactly if it has the same kind. -/
  equal : back.equals argument = true ↔ argument.IsKept
  /-- A float is structured data afterwards, and a scalar in structured data is plain. -/
  float : ∀ value (finite : value.isFinite = true), argument = .float value ->
    back = .json (.number (.double value finite))
  null : argument = .json .null -> back = .null
  boolean : ∀ truth, argument = .json (.boolean truth) -> back = .boolean truth
  integer : ∀ whole, argument = .json (.number (.ofInt64 whole)) -> back = .integer whole
  string : ∀ content, argument = .json (.string content) -> back = .string content

theorem toJson_of_isLost (lost : argument.IsLost) : argument.toJson = .null := by
  cases argument with
  | undefined => rfl
  | float value =>
    have infinite : value.isFinite = false := lost
    simp only [toJson, infinite, Bool.false_eq_true, dite_false]
  | null | boolean _ | integer _ | string _ | json _ => exact lost.elim

/-- A finite double has a JSON number of its own. -/
theorem toJson_float {value : Double} (finite : value.isFinite = true) :
    toJson (.float value) = .number (.double value finite) := by
  simp only [toJson, finite, dite_true]

theorem toJson_float_cases (value : Double) :
    (∃ finite, toJson (.float value) = .number (.double value finite)) ∨
      toJson (.float value) = .null := by
  by_cases finite : value.isFinite = true
  · exact .inl ⟨finite, toJson_float finite⟩
  · have lost : (Argument.float value).IsLost := Bool.eq_false_iff.2 finite
    exact .inr (toJson_of_isLost lost)

/-- An argument that is not lost shows the text of its JSON value. -/
theorem jsonText_toJson (kept : ¬argument.IsLost) :
    jsonText argument.toJson.tree = argument.text := by
  cases argument with
  | undefined => exact absurd trivial kept
  | null => rfl
  | boolean truth => cases truth <;> rfl
  | integer whole => rfl
  | float value =>
    have finite : value.isFinite = true := by simpa [IsLost] using kept
    rw [toJson_float finite]
    rfl
  | string content => rfl
  | json value => rfl

/-- A double is no whole number, so it stays JSON. -/
theorem ofJson_double {value : Double} (finite : value.isFinite = true) :
    ofJson (.number (.double value finite)) = .json (.number (.double value finite)) :=
  ofJson_number fun _ => nofun

theorem equals_ofJson_iff (value : Json.Value) :
    (ofJson value).equals (.json value) = true ↔ IsKept (.json value) := by
  induction value using Json.Value.cases with
  | null => exact ⟨nofun, nofun⟩
  | boolean truth => exact ⟨nofun, nofun⟩
  | number number =>
    by_cases isInt64 : ∃ whole, number = .ofInt64 whole
    · obtain ⟨whole, rfl⟩ := isInt64
      rw [ofJson_ofInt64]
      exact ⟨nofun, fun kept => absurd rfl (kept whole)⟩
    · have other := fun whole same => isInt64 ⟨whole, same⟩
      rw [ofJson_number other]
      exact ⟨fun _ => other, fun _ => Json.equals_refl _⟩
  | string content => exact ⟨nofun, nofun⟩
  | array items => exact ⟨fun _ => trivial, fun _ => Json.equals_refl _⟩
  | object fields => exact ⟨fun _ => trivial, fun _ => Json.equals_refl _⟩

theorem equals_ofJson_toJson_iff (argument : Argument) :
    (ofJson argument.toJson).equals argument = true ↔ argument.IsKept := by
  cases argument with
  | undefined => exact ⟨nofun, nofun⟩
  | null => exact ⟨fun _ => trivial, fun _ => rfl⟩
  | boolean truth => exact ⟨fun _ => trivial, fun _ => decide_eq_true rfl⟩
  | integer whole =>
    refine ⟨fun _ => trivial, fun _ => ?_⟩
    rw [toJson, ofJson_ofInt64]
    exact decide_eq_true rfl
  | float value =>
    obtain ⟨finite, number⟩ | null := toJson_float_cases value
    · rw [number, ofJson_double finite]
      exact ⟨nofun, nofun⟩
    · rw [null]
      exact ⟨nofun, nofun⟩
  | string content => exact ⟨fun _ => trivial, fun _ => decide_eq_true rfl⟩
  | json value => exact equals_ofJson_iff value

/-- Each argument comes back from its own JSON value as its kind says. -/
theorem comesBack (argument : Argument) : ComesBack argument (ofJson argument.toJson) where
  text kept := by rw [text_ofJson, jsonText_toJson kept]
  lost lost := by
    rw [toJson_of_isLost lost]
    exact ⟨rfl, rfl⟩
  equal := equals_ofJson_toJson_iff argument
  float value finite isFloat := by rw [isFloat, toJson_float finite, ofJson_double finite]
  null isNull := by
    rw [isNull]
    rfl
  boolean truth isBoolean := by
    rw [isBoolean]
    rfl
  integer whole isInteger := by
    rw [isInteger]
    exact ofJson_ofInt64 whole
  string content isString := by
    rw [isString]
    rfl

/-! ## Lists of arguments -/

section Lists

variable {arguments : List Argument}

/-- Only structured data nests. -/
theorem depth_toJson {bound : ℕ}
    (shallow : ∀ value, argument = .json value -> value.tree.depth ≤ bound) :
    argument.toJson.tree.depth ≤ bound := by
  cases argument with
  | undefined | null => exact Nat.zero_le _
  | boolean truth => exact Nat.zero_le _
  | integer whole => exact Nat.zero_le _
  | float value =>
    obtain ⟨finite, number⟩ | null := toJson_float_cases value
    · rw [number]
      exact Nat.zero_le _
    · rw [null]
      exact Nat.zero_le _
  | string content => exact Nat.zero_le _
  | json value => exact shallow value rfl

theorem toList_listText (arguments : List Argument) :
    (listText arguments).toList = '[' :: (Json.itemCharacters true
      ((arguments.map toJson).map Json.Value.tree) ++ [']']) := by
  have characters := Json.characters_array (arguments.map toJson) []
  rw [List.append_nil] at characters
  rw [listText, Json.text, String.toList_ofList, characters]

/-- The array of the arguments counts as one level of nesting. -/
theorem parseList_of_depth_le
    (shallow : ∀ value, .json value ∈ arguments -> value.tree.depth ≤ 126) :
    parseList (listText arguments) =
      .ok (arguments.map fun argument => ofJson argument.toJson) := by
  have each : ∀ value ∈ arguments.map toJson, Json.ReadsBack 126 value := by
    intro value member
    obtain ⟨argument, written, rfl⟩ := List.mem_map.1 member
    refine Json.readsBack_of_depth_le 126 _ (depth_toJson fun value isJson => ?_)
    exact shallow value (isJson ▸ written)
  have items := Json.reads_readItems_values true [] each
  have whole := Json.readAll_eq_ok (Json.reads_readExpectedArray items)
  rw [parseList, toList_listText, Json.nestingLimit, whole]
  simp only [bind_ok, List.map_map]
  rfl

theorem parseList_of_lt_depth {value : Json.Value} (member : .json value ∈ arguments)
    (deep : 126 < value.tree.depth) : parseList (listText arguments) = .error .malformed := by
  have inside : 126 < Json.depthItems ((arguments.map toJson).map Json.Value.tree) := by
    by_contra shallow
    have each := Json.depthItems_le_iff.1 (Nat.le_of_not_lt shallow)
    exact absurd (each value (List.mem_map.2 ⟨_, member, rfl⟩)) (Nat.not_le_of_lt deep)
  have items := Json.readItems_values_error true []
    (fun value _ => Json.readsBack_of_depth_le 126 value)
    (fun value _ => Json.refuses_of_lt_depth 126 value) inside
  have whole := Json.readAll_eq_error (Json.readExpectedArray_error items)
  rw [parseList, toList_listText, Json.nestingLimit, whole]
  rfl

/-- The message of a call is that of what comes back if no argument is lost. -/
theorem join_map_comesBack (kept : ∀ argument ∈ arguments, ¬argument.IsLost) :
    join (arguments.map fun argument => ofJson argument.toJson) = join arguments := by
  have texts : (arguments.map fun argument => ofJson argument.toJson).map text =
      arguments.map text := by
    rw [List.map_map]
    refine List.map_congr_left fun argument member => ?_
    exact (comesBack argument).text (kept argument member)
  rw [join, join, texts]

end Lists

/-- A list of arguments comes back from its JSON text, position by position, unless some
structured data in it nests too deep for the reader; then the text is malformed. -/
theorem parseList_listText (arguments : List Argument) :
    ((∀ value, .json value ∈ arguments -> value.tree.depth ≤ 126) ->
      ∃ back, parseList (listText arguments) = .ok back ∧ back.length = arguments.length ∧
        List.Forall₂ ComesBack arguments back ∧
        ((∀ argument ∈ arguments, ¬argument.IsLost) -> join back = join arguments)) ∧
    ((∃ value, .json value ∈ arguments ∧ 126 < value.tree.depth) ->
      parseList (listText arguments) = .error .malformed) := by
  constructor
  · intro shallow
    refine ⟨_, parseList_of_depth_le shallow, List.length_map _, ?_, join_map_comesBack⟩
    rw [List.forall₂_map_right_iff]
    exact List.forall₂_same.2 fun argument _ => comesBack argument
  · rintro ⟨value, member, deep⟩
    exact parseList_of_lt_depth member deep

/-- Null inside a number of arrays. -/
def nested : ℕ -> Json.Value
  | 0 => .null
  | arrays + 1 => .array [nested arrays]

theorem depth_nested (arrays : ℕ) : (nested arrays).tree.depth = arrays := by
  induction arrays with
  | zero => rfl
  | succ arrays ih => simp [nested, Json.Value.array, Json.depth, Json.depthItems, ih]

/-- One array more than the reader allows beside the array of the arguments is refused. -/
theorem parseList_listText_nested :
    (∃ back, parseList (listText [.undefined, .json (nested 126)]) = .ok back ∧
      back.length = 2 ∧ List.Forall₂ ComesBack [.undefined, .json (nested 126)] back) ∧
    (∃ back, parseList (listText [.string "\n", .json (nested 126)]) = .ok back ∧
      join back = join [.string "\n", .json (nested 126)]) ∧
    parseList (listText [.undefined, .json (nested 127)]) = .error .malformed := by
  have shallow : (nested 126).tree.depth ≤ 126 := (depth_nested 126).le
  refine ⟨?_, ?_, (parseList_listText _).2 ⟨nested 127, ?_, ?_⟩⟩
  · obtain ⟨back, parsed, same, each, -⟩ := (parseList_listText [.undefined, .json (nested 126)]).1
      (by simpa using shallow)
    exact ⟨back, parsed, same, each⟩
  · obtain ⟨back, parsed, -, -, joined⟩ := (parseList_listText [.string "\n", .json (nested 126)]).1
      (by simpa using shallow)
    exact ⟨back, parsed, joined (by simp [IsLost])⟩
  · exact List.mem_cons_of_mem _ List.mem_cons_self
  · rw [depth_nested]
    decide

end Argument

end ScriptConsole
