import ScriptConsole.Proofs.Argument.FloatText

/-!
# Boundaries in a message

A message is written argument by argument, and the position of an argument alone decides whether a
separator stands before it. So a message falls apart at its separators into the texts of its
arguments, empty ones included, as long as no text holds a separator itself. Only texts of strings
and of structured data can.
-/

namespace ScriptConsole.Argument

variable {arguments lefts rights : List Argument}

/-! ## One argument after the other -/

/-- A message with more arguments written to it, the first of them at the position. A separator
stands before every argument but that at the start, whatever was written so far. -/
def written (message : String) (position : Nat) : List Argument -> String
  | [] => message
  | argument :: rest =>
    written ((if 0 < position then message ++ separator else message) ++ argument.text)
      (position + 1) rest

/-- What was written so far counts as one text, once there is an argument. -/
theorem written_eq_intercalate (message : String) {position : Nat} (later : 0 < position)
    (arguments : List Argument) :
    written message position arguments = separator.intercalate (message :: arguments.map text) := by
  induction arguments generalizing message position with
  | nil => rw [written, List.map_nil, String.intercalate_singleton]
  | cons argument rest ih =>
    rw [written, if_pos later, ih _ (Nat.succ_pos position), List.map_cons,
      String.intercalate_cons_append, String.intercalate_cons_cons]

theorem join_eq_written (arguments : List Argument) : join arguments = written "" 0 arguments := by
  cases arguments with
  | nil => rfl
  | cons argument rest =>
    rw [written, if_neg (Nat.lt_irrefl 0), String.empty_append,
      written_eq_intercalate _ (Nat.succ_pos 0), join, List.map_cons]

/-! ## Messages after one another -/

theorem join_append_of_ne_nil (left : lefts ≠ []) (right : rights ≠ []) :
    join (lefts ++ rights) = join lefts ++ separator ++ join rights := by
  rw [join, List.map_append, String.intercalate_append_of_ne_nil]
  · rfl
  · exact mt List.map_eq_nil_iff.1 left
  · exact mt List.map_eq_nil_iff.1 right

theorem join_append (lefts rights : List Argument) :
    join (lefts ++ rights) =
      if lefts.isEmpty then join rights
      else if rights.isEmpty then join lefts
      else join lefts ++ separator ++ join rights := by
  split
  · next none =>
    rw [List.isEmpty_iff.1 none, List.nil_append]
  · next left =>
    split
    · next none =>
      rw [List.isEmpty_iff.1 none, List.append_nil]
    · next right =>
      exact join_append_of_ne_nil (mt List.isEmpty_iff.2 left) (mt List.isEmpty_iff.2 right)

/-! ## Pieces of a message -/

/-- The character that is the separator. -/
def separatorMark : Char := ' '

theorem separator_eq : separator = String.singleton separatorMark :=
  rfl

/-- The pieces of a message between its separators. -/
def pieces (message : String) : List String :=
  (message.split separatorMark).toList.map String.Slice.copy

/-- The text of the argument holds no separator. -/
def IsUnbroken (argument : Argument) : Prop :=
  separatorMark ∉ argument.text.toList

instance (argument : Argument) : Decidable argument.IsUnbroken :=
  inferInstanceAs (Decidable (separatorMark ∉ argument.text.toList))

theorem separatorMark_not_mem_integerText (value : ℤ) :
    separatorMark ∉ Json.integerText value := by
  intro member
  have digits : separatorMark ∉ Nat.toDigits 10 value.natAbs := fun inDigits =>
    absurd (Nat.isDigit_of_mem_toDigits (by decide) (by decide) inDigits) (by decide)
  unfold Json.integerText at member
  split at member
  · rcases List.mem_cons.1 member with sign | others
    · exact absurd sign (by decide)
    · exact digits others
  · exact digits member

theorem separatorMark_not_mem_floatText (number : Double) : separatorMark ∉ floatText number := by
  intro member
  rcases number.kinds with isNaN | isInfinite | isFinite
  · rw [floatText_of_isNaN isNaN] at member
    exact absurd member (by decide)
  · rw [floatText_of_isInfinite isInfinite] at member
    split at member <;> exact absurd member (by decide)
  · obtain ⟨numeral, shown, -⟩ := exists_numeral isFinite
    rw [shown] at member
    rcases PlainNumeral.mem_text member with digit | point | sign
    · exact absurd digit (by decide)
    · exact absurd point (by decide)
    · exact absurd sign (by decide)

/-- Only strings and structured data can hold a separator. -/
theorem isUnbroken_or_string_or_json (argument : Argument) : argument.IsUnbroken ∨
    (∃ value, argument = .string value) ∨ ∃ value, argument = .json value := by
  cases argument with
  | undefined => exact .inl (by decide)
  | null => exact .inl (by decide)
  | boolean value =>
    cases value
    · exact .inl (by decide)
    · exact .inl (by decide)
  | integer value =>
    rw [IsUnbroken, text, String.toList_ofList]
    exact .inl (separatorMark_not_mem_integerText value.toInt)
  | float value =>
    rw [IsUnbroken, text, String.toList_ofList]
    exact .inl (separatorMark_not_mem_floatText value)
  | string value => exact .inr (.inl ⟨value, rfl⟩)
  | json value => exact .inr (.inr ⟨value, rfl⟩)

/-- A message falls apart into the texts of its arguments; without any, it is one empty piece. -/
theorem pieces_join (unbroken : ∀ argument ∈ arguments, argument.IsUnbroken) :
    pieces (join arguments) = if arguments.map text = [] then [""] else arguments.map text := by
  rw [pieces, join, separator_eq]
  refine String.toList_split_intercalate fun shown member => ?_
  obtain ⟨argument, isArgument, rfl⟩ := List.mem_map.1 member
  exact unbroken argument isArgument

theorem pieces_join_of_ne_nil (nonempty : arguments ≠ [])
    (unbroken : ∀ argument ∈ arguments, argument.IsUnbroken) :
    pieces (join arguments) = arguments.map text := by
  rw [pieces_join unbroken, if_neg (mt List.map_eq_nil_iff.1 nonempty)]

/-- A message of unbroken arguments determines their texts, but an empty one may be of no argument
or of one empty text. -/
theorem join_eq_join_iff (left : ∀ argument ∈ lefts, argument.IsUnbroken)
    (right : ∀ argument ∈ rights, argument.IsUnbroken) :
    join lefts = join rights ↔ lefts.map text = rights.map text ∨
      lefts = [] ∧ rights.map text = [""] ∨ lefts.map text = [""] ∧ rights = [] := by
  constructor
  · intro same
    have pieces := congrArg pieces same
    rw [pieces_join left, pieces_join right] at pieces
    split at pieces
    · next noLeft =>
      split at pieces
      · next noRight => exact .inl (noLeft.trans noRight.symm)
      · exact .inr (.inl ⟨List.map_eq_nil_iff.1 noLeft, pieces.symm⟩)
    · split at pieces
      · next noRight => exact .inr (.inr ⟨pieces, List.map_eq_nil_iff.1 noRight⟩)
      · exact .inl pieces
  · rintro (same | ⟨rfl, empty⟩ | ⟨empty, rfl⟩)
    · rw [join, join, same]
    · rw [join, join, empty]
      rfl
    · rw [join, join, empty]
      rfl

/-- A message keeps the boundaries of its arguments. It is written argument by argument, with a
separator before each but the first. The message of two lists after one another is that of the
first, a separator, and that of the second; a list without arguments adds nothing. A message of at
least one argument falls apart into the texts of the arguments, however many of them are empty, if
none holds a separator, which only strings and structured data can. So on such lists only equal
texts make equal messages, but for no argument and one empty text, which both make the empty
message. -/
theorem join_keeps_boundaries :
    (∀ arguments, join arguments = written "" 0 arguments) ∧
      (∀ lefts rights : List Argument, join (lefts ++ rights) =
        if lefts.isEmpty then join rights
        else if rights.isEmpty then join lefts
        else join lefts ++ separator ++ join rights) ∧
      (∀ arguments : List Argument, arguments ≠ [] ->
        (∀ argument ∈ arguments, argument.IsUnbroken) ->
          pieces (join arguments) = arguments.map text) ∧
      (∀ argument : Argument, argument.IsUnbroken ∨
        (∃ value, argument = .string value) ∨ ∃ value, argument = .json value) ∧
      (∀ lefts rights : List Argument, (∀ argument ∈ lefts, argument.IsUnbroken) ->
        (∀ argument ∈ rights, argument.IsUnbroken) ->
          (join lefts = join rights ↔ lefts.map text = rights.map text ∨
            lefts = [] ∧ rights.map text = [""] ∨ lefts.map text = [""] ∧ rights = [])) ∧
      join [] = "" ∧ ∀ argument : Argument, argument.text = "" -> join [argument] = "" := by
  refine ⟨join_eq_written, join_append, fun _ => pieces_join_of_ne_nil,
    isUnbroken_or_string_or_json, fun _ _ => join_eq_join_iff, rfl, fun argument empty => ?_⟩
  exact String.intercalate_singleton.trans empty

/-- Empty texts at both ends and in a row keep their separators, and the order of texts shows. -/
theorem join_keeps_boundaries_empty :
    pieces (join [.string "", .null, .string "", .string "", .integer 7, .string ""]) =
        ["", "null", "", "", "7", ""] ∧
      join [.string "", .null] = join [.string "", .string "null"] ∧
      join [.string "", .null] ≠ join [.null, .string ""] ∧
      join [.json ⟨.string "", .string ""⟩] = "" := by
  obtain ⟨-, -, apart, -, injective, -, single⟩ := join_keeps_boundaries
  refine ⟨apart _ (List.cons_ne_nil _ _) (by decide), ?_, ?_, single _ rfl⟩
  · exact (injective _ _ (by decide) (by decide)).2 (.inl rfl)
  · intro same
    exact absurd ((injective _ _ (by decide) (by decide)).1 same) (by decide)

end ScriptConsole.Argument
