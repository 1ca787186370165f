import ScriptConsole.Proofs.Json.Equality

/-!
# Equality of arguments

Two arguments are equal exactly if neither is a NaN and they are the same up to the signs of
zeros: `equals_iff`. So equality is a partial equivalence, and what equal arguments show can only
differ in the sign of a zero inside an array or an object.
-/

namespace ScriptConsole

namespace Argument

/-- The kinds of arguments. -/
inductive Kind where
  | undefined
  | null
  | boolean
  | integer
  | float
  | string
  | json
deriving DecidableEq, Repr

/-- The kind of an argument. -/
def kind : Argument -> Kind
  | .undefined => .undefined
  | .null => .null
  | .boolean _ => .boolean
  | .integer _ => .integer
  | .float _ => .float
  | .string _ => .string
  | .json _ => .json

/-- The argument is a float that is no number. -/
def IsNaN : Argument -> Prop
  | .float value => value.isNaN = true
  | .undefined | .null | .boolean _ | .integer _ | .string _ | .json _ => False

/-- The argument is structured data with `-0.0` somewhere inside an array or an object. -/
def HidesNegativeZero : Argument -> Prop
  | .json value => Json.Inside Json.negativeZero value.tree
  | .undefined | .null | .boolean _ | .integer _ | .float _ | .string _ => False

/-- The argument without the signs of its zeros. -/
def unsigned : Argument -> Argument
  | .float value => .float value.unsigned
  | .json value => .json value.unsigned
  | .undefined => .undefined
  | .null => .null
  | .boolean value => .boolean value
  | .integer value => .integer value
  | .string value => .string value

variable {first second third left right : Argument}

theorem kind_unsigned (argument : Argument) : argument.unsigned.kind = argument.kind := by
  cases argument <;> rfl

/-- Arguments are equal exactly if neither is a NaN and they are the same up to the signs of
zeros. -/
theorem equals_iff (left right : Argument) : left.equals right = true ↔
    (¬left.IsNaN ∧ ¬right.IsNaN) ∧ left.unsigned = right.unsigned := by
  cases left with
  | undefined => cases right <;> simp [equals, unsigned, IsNaN]
  | null => cases right <;> simp [equals, unsigned, IsNaN]
  | boolean value => cases right <;> simp [equals, unsigned, IsNaN]
  | integer value => cases right <;> simp [equals, unsigned, IsNaN]
  | float value =>
    cases right with
    | float other =>
      constructor
      · intro equal
        obtain ⟨numbers, -⟩ := Double.equals_iff.1 equal
        refine ⟨?_, congrArg Argument.float ((Double.equals_iff_unsigned numbers.1 numbers.2).1 equal)⟩
        simp [IsNaN, numbers]
      · rintro ⟨⟨first, second⟩, same⟩
        exact (Double.equals_iff_unsigned (Bool.eq_false_iff.2 first)
          (Bool.eq_false_iff.2 second)).2 (Argument.float.inj same)
    | _ => simp [equals, unsigned]
  | string value => cases right <;> simp [equals, unsigned, IsNaN]
  | json value =>
    cases right with
    | json other =>
      simp [equals, unsigned, IsNaN, Json.equals_iff, Json.Value.unsigned_inj]
    | _ => simp [equals, unsigned]

theorem equals_symm (equal : left.equals right = true) : right.equals left = true := by
  obtain ⟨⟨leftNumber, rightNumber⟩, same⟩ := (equals_iff left right).1 equal
  exact (equals_iff right left).2 ⟨⟨rightNumber, leftNumber⟩, same.symm⟩

theorem equals_trans (before : first.equals second = true) (after : second.equals third = true) :
    first.equals third = true := by
  obtain ⟨⟨firstNumber, -⟩, same⟩ := (equals_iff first second).1 before
  obtain ⟨⟨-, thirdNumber⟩, too⟩ := (equals_iff second third).1 after
  exact (equals_iff first third).2 ⟨⟨firstNumber, thirdNumber⟩, same.trans too⟩

theorem equals_self_iff (argument : Argument) :
    argument.equals argument = true ↔ ¬argument.IsNaN := by
  rw [equals_iff]
  exact ⟨fun equal => equal.1.1, fun number => ⟨⟨number, number⟩, rfl⟩⟩

theorem kind_eq_of_equals (equal : left.equals right = true) : left.kind = right.kind := by
  obtain ⟨-, same⟩ := (equals_iff left right).1 equal
  rw [← kind_unsigned left, same, kind_unsigned]

theorem text_unsigned {argument : Argument} (without : ¬argument.HidesNegativeZero) :
    argument.unsigned.text = argument.text := by
  cases argument with
  | float value =>
    refine congrArg String.ofList ?_
    by_cases isNegative : value = .zero true
    · rw [isNegative]
      exact (floatText_of_isZero rfl).trans (floatText_of_isZero rfl).symm
    · rw [Double.unsigned_of_ne isNegative]
  | json value => exact Json.jsonText_unsigned without
  | undefined | null | boolean _ | integer _ | string _ => rfl

theorem text_eq_of_equals (equal : left.equals right = true) (first : ¬left.HidesNegativeZero)
    (second : ¬right.HidesNegativeZero) : left.text = right.text := by
  obtain ⟨-, same⟩ := (equals_iff left right).1 equal
  rw [← text_unsigned first, same, text_unsigned second]

/-- Lists of equal arguments make one message. -/
theorem join_eq_of_equals {lefts rights : List Argument}
    (equal : List.Forall₂ (fun left right => left.equals right = true) lefts rights)
    (first : ∀ argument ∈ lefts, ¬argument.HidesNegativeZero)
    (second : ∀ argument ∈ rights, ¬argument.HidesNegativeZero) : join lefts = join rights := by
  have texts : lefts.map text = rights.map text := by
    induction equal with
    | nil => rfl
    | cons equal others ih =>
      obtain ⟨firstHead, firstTail⟩ := List.forall_mem_cons.1 first
      obtain ⟨secondHead, secondTail⟩ := List.forall_mem_cons.1 second
      rw [List.map_cons, List.map_cons, text_eq_of_equals equal firstHead secondHead,
        ih firstTail secondTail]
  rw [join, join, texts]

/-- Equality is symmetric and transitive, and everything but a NaN equals itself. Arguments of
different kinds are never equal. Equal arguments show one text, and lists of them make one
message, unless a negative zero is hidden inside an array or an object. In structured data a
whole number equals no double, and the two zeros are equal. -/
theorem equality_respects_messages :
    (∀ left right : Argument, left.equals right = right.equals left) ∧
      (∀ first second third : Argument, first.equals second = true ->
        second.equals third = true -> first.equals third = true) ∧
      (∀ argument : Argument, argument.equals argument = true ↔ ¬argument.IsNaN) ∧
      (∀ left right : Argument, left.kind ≠ right.kind -> left.equals right = false) ∧
      (∀ left right : Argument, left.equals right = true -> ¬left.HidesNegativeZero ->
        ¬right.HidesNegativeZero -> left.text = right.text) ∧
      (∀ lefts rights : List Argument,
        List.Forall₂ (fun left right => left.equals right = true) lefts rights ->
        (∀ argument ∈ lefts, ¬argument.HidesNegativeZero) ->
        (∀ argument ∈ rights, ¬argument.HidesNegativeZero) -> join lefts = join rights) ∧
      (∀ value atLeast below double finite,
        (json (.number (.whole value atLeast below))).equals
          (json (.number (.double double finite))) = false) ∧
      (json (.number (.double (.zero false) rfl))).equals
        (json (.number (.double (.zero true) rfl))) = true := by
  refine ⟨fun left right => ?_, fun _ _ _ => equals_trans, equals_self_iff,
    fun left right differ => ?_, fun _ _ => text_eq_of_equals, fun _ _ => join_eq_of_equals,
    fun _ _ _ _ _ => rfl, rfl⟩
  · exact Bool.eq_iff_iff.2 ⟨equals_symm, equals_symm⟩
  · exact Bool.eq_false_iff.2 fun equal => differ (kind_eq_of_equals equal)

/-- A zero is shown as `0` whatever its sign, as a float and as structured data, but not inside
an array. Null and the word of it are shown alike and differ. -/
theorem equality_respects_messages_zeros :
    let negative : Argument := .float (.zero true)
    let positive : Argument := .float (.zero false)
    let hidden : Argument := .json (.array [.number (.double (.zero true) rfl)])
    let shown : Argument := .json (.array [.number (.double (.zero false) rfl)])
    negative.equals positive = true ∧ negative.text = positive.text ∧
      negative.equals negative = true ∧ (float .nan).equals (.float .nan) = false ∧
      null.text = (string "null").text ∧ null.equals (.string "null") = false ∧
      join [negative, .null] = join [positive, .null] ∧
      hidden.equals shown = true ∧ hidden.text = "[-0.0]" ∧ shown.text = "[0.0]" := by
  intro negative positive hidden shown
  obtain ⟨-, trans, self, kinds, texts, joins, -, -⟩ := equality_respects_messages
  have zeros : negative.equals positive = true := rfl
  have visible : ∀ argument ∈ [negative, null], ¬argument.HidesNegativeZero := by
    simp [negative, HidesNegativeZero]
  have alsoVisible : ∀ argument ∈ [positive, null], ¬argument.HidesNegativeZero := by
    simp [positive, HidesNegativeZero]
  refine ⟨zeros, texts _ _ zeros id id, trans _ positive _ zeros rfl, ?_, rfl,
    kinds _ _ (by decide), joins _ _ (.cons zeros (.cons rfl .nil)) visible alsoVisible, ?_, ?_, ?_⟩
  · exact Bool.eq_false_iff.2 fun equal => (self _).1 equal rfl
  · cbv
  · cbv
  · cbv

end Argument

end ScriptConsole
