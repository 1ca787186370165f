import ScriptConsole.Proofs.Argument.FloatText
import ScriptConsole.Proofs.Json.Kinds

/-!
# Equality of trees

Two trees are equal exactly if they are the same up to the signs of zeros: `equals_iff`. A sign
shows in the text of a zero only inside an array or an object.
-/

namespace ScriptConsole

namespace Double

/-- The double, with no sign if it is a zero. -/
def unsigned (number : Double) : Double :=
  if number.isZero then .zero false else number

theorem isFinite_unsigned {number : Double} (finite : number.isFinite = true) :
    number.unsigned.isFinite = true := by
  unfold unsigned
  split_ifs
  · rfl
  · exact finite

/-- There are two zeros. -/
theorem eq_zero_of_isZero {number : Double} (zero : number.isZero = true) :
    number = .zero false ∨ number = .zero true := by
  have small := number.bits_lt
  have whole : number.bits % 0x8000000000000000 = 0 := of_decide_eq_true zero
  rcases Nat.eq_zero_or_pos number.bits with none | some
  · exact .inl (eq_of_bits none)
  · exact .inr (eq_of_bits (show number.bits = 0x8000000000000000 by omega))

theorem unsigned_of_ne {number : Double} (notNegative : number ≠ .zero true) :
    number.unsigned = number := by
  unfold unsigned
  split_ifs with isZero
  · exact ((eq_zero_of_isZero isZero).resolve_right notNegative).symm
  · rfl

/-- Numbers are equal exactly if they are the same up to the sign of a zero. -/
theorem equals_iff_unsigned {left right : Double} (first : left.isNaN = false)
    (second : right.isNaN = false) :
    left.equals right = true ↔ left.unsigned = right.unsigned := by
  rw [equals_iff]
  have zero : (zero false).isZero = true := rfl
  unfold unsigned
  constructor
  · rintro ⟨-, rfl | ⟨leftZero, rightZero⟩⟩
    · rfl
    · rw [if_pos leftZero, if_pos rightZero]
  · intro same
    refine ⟨⟨first, second⟩, ?_⟩
    split_ifs at same with leftZero rightZero rightZero
    · exact .inr ⟨leftZero, rightZero⟩
    · exact absurd (same ▸ zero) rightZero
    · exact absurd (same.symm ▸ zero) leftZero
    · exact .inl same

end Double

namespace Json

/-! ## The sign of a zero -/

/-- The number, with no sign if it is a zero. -/
def Number.unsigned : Number -> Number
  | .whole value atLeast below => .whole value atLeast below
  | .double value finite => .double value.unsigned (Double.isFinite_unsigned finite)

mutual

/-- The tree without the signs of its zeros. -/
def unsigned : Json -> Json
  | .null => .null
  | .boolean value => .boolean value
  | .number value => .number value.unsigned
  | .string value => .string value
  | .array items => .array (unsignedItems items)
  | .object fields => .object (unsignedFields fields)

def unsignedItems : List Json -> List Json
  | [] => []
  | item :: rest => unsigned item :: unsignedItems rest

def unsignedFields : List (String × Json) -> List (String × Json)
  | [] => []
  | (key, value) :: rest => (key, unsigned value) :: unsignedFields rest

end

theorem Number.equals_iff (left right : Number) :
    left.equals right = true ↔ left.unsigned = right.unsigned := by
  cases left with
  | whole left _ _ =>
    cases right with
    | whole right _ _ => simp [equals, unsigned]
    | double right _ => simp [equals, unsigned]
  | double left leftFinite =>
    cases right with
    | whole right _ _ => simp [equals, unsigned]
    | double right rightFinite =>
      simp [equals, unsigned, Double.equals_iff_unsigned (Double.isNaN_eq_false leftFinite)
        (Double.isNaN_eq_false rightFinite)]

mutual

/-- Trees are equal exactly if they are the same up to the signs of zeros. -/
theorem equals_iff : ∀ left right : Json, left.equals right = true ↔ left.unsigned = right.unsigned
  | .null, right => by cases right <;> simp [equals, unsigned]
  | .boolean left, right => by cases right <;> simp [equals, unsigned]
  | .number left, right => by cases right <;> simp [equals, unsigned, left.equals_iff]
  | .string left, right => by cases right <;> simp [equals, unsigned]
  | .array left, right => by cases right <;> simp [equals, unsigned, equalsItems_iff left]
  | .object left, right => by cases right <;> simp [equals, unsigned, equalsFields_iff left]

theorem equalsItems_iff : ∀ left right : List Json,
    equalsItems left right = true ↔ unsignedItems left = unsignedItems right
  | [], right => by cases right <;> simp [equalsItems, unsignedItems]
  | left :: moreLeft, right => by
    cases right <;>
      simp [equalsItems, unsignedItems, equals_iff left, equalsItems_iff moreLeft]

theorem equalsFields_iff : ∀ left right : List (String × Json),
    equalsFields left right = true ↔ unsignedFields left = unsignedFields right
  | [], right => by cases right <;> simp [equalsFields, unsignedFields]
  | (key, left) :: moreLeft, right => by
    cases right <;>
      simp [equalsFields, unsignedFields, equals_iff left, equalsFields_iff moreLeft, and_assoc]

end

/-! ## Values -/

theorem unsignedItems_eq_map (items : List Json) : unsignedItems items = items.map unsigned := by
  induction items with
  | nil => rfl
  | cons item rest ih => rw [unsignedItems, List.map_cons, ih]

theorem unsignedFields_eq_map (fields : List (String × Json)) :
    unsignedFields fields = fields.map fun field => (field.1, field.2.unsigned) := by
  induction fields with
  | nil => rfl
  | cons field rest ih => rw [unsignedFields, List.map_cons, ih]

theorem Ordered.unsigned {tree : Json} (ordered : tree.Ordered) : tree.unsigned.Ordered := by
  induction ordered with
  | null => exact .null
  | boolean value => exact .boolean value
  | number value => exact .number _
  | string value => exact .string value
  | array items each ih =>
    rw [Json.unsigned, unsignedItems_eq_map]
    exact .array _ (List.forall_mem_map.2 ih)
  | object fields increasing each ih =>
    rw [Json.unsigned, unsignedFields_eq_map]
    exact .object _ (List.pairwise_map.2 increasing) (List.forall_mem_map.2 ih)

/-- The value without the signs of its zeros. -/
def Value.unsigned (value : Value) : Value :=
  ⟨value.tree.unsigned, value.ordered.unsigned⟩

theorem Value.unsigned_inj {left right : Value} :
    left.unsigned = right.unsigned ↔ left.tree.unsigned = right.tree.unsigned := by
  simp [Value.unsigned]

/-! ## Negative zeros inside -/

theorem isFinite_zero (negative : Bool) : (Double.zero negative).isFinite = true := by
  cases negative <;> rfl

/-- The number that is written `-0.0`. -/
def negativeZero : Json :=
  .number (.double (.zero true) (isFinite_zero true))

/-- The part stands somewhere in an array or an object. -/
inductive Inside (part : Json) : Json -> Prop where
  | item {items : List Json} (member : part ∈ items) : Inside part (.array items)
  | field {key : String} {fields : List (String × Json)} (member : (key, part) ∈ fields) :
      Inside part (.object fields)
  | inItem {items : List Json} {whole : Json} (member : whole ∈ items)
      (inside : Inside part whole) : Inside part (.array items)
  | inField {key : String} {fields : List (String × Json)} {whole : Json}
      (member : (key, whole) ∈ fields) (inside : Inside part whole) : Inside part (.object fields)

theorem Number.unsigned_eq {number : Number} (notNegative : .number number ≠ negativeZero) :
    number.unsigned = number := by
  cases number with
  | whole value _ _ => rfl
  | double value finite =>
    have differs : value ≠ .zero true := by
      rintro rfl
      exact notNegative rfl
    simp only [unsigned, Double.unsigned_of_ne differs]

mutual

/-- Without a negative zero there is no sign to lose. -/
theorem unsigned_eq : ∀ tree : Json, tree ≠ negativeZero -> ¬Inside negativeZero tree ->
    tree.unsigned = tree
  | .null, _, _ => by rw [unsigned]
  | .boolean _, _, _ => by rw [unsigned]
  | .number value, notNegative, _ => by rw [unsigned, Number.unsigned_eq notNegative]
  | .string _, _, _ => by rw [unsigned]
  | .array items, _, without => by
    rw [unsigned, unsignedItems_eq items (fun _ member same => without (.item (same ▸ member)))
      fun _ member inside => without (.inItem member inside)]
  | .object fields, _, without => by
    rw [unsigned, unsignedFields_eq fields (fun _ _ member same => without (.field (same ▸ member)))
      fun _ _ member inside => without (.inField member inside)]

theorem unsignedItems_eq : ∀ items : List Json, (∀ item ∈ items, item ≠ negativeZero) ->
    (∀ item ∈ items, ¬Inside negativeZero item) -> unsignedItems items = items
  | [], _, _ => by rw [unsignedItems]
  | item :: rest, notNegative, without => by
    rw [unsignedItems,
      unsigned_eq item (notNegative item List.mem_cons_self) (without item List.mem_cons_self),
      unsignedItems_eq rest (fun other member => notNegative other (List.mem_cons_of_mem _ member))
        fun other member => without other (List.mem_cons_of_mem _ member)]

theorem unsignedFields_eq : ∀ fields : List (String × Json),
    (∀ key value, (key, value) ∈ fields -> value ≠ negativeZero) ->
    (∀ key value, (key, value) ∈ fields -> ¬Inside negativeZero value) ->
    unsignedFields fields = fields
  | [], _, _ => by rw [unsignedFields]
  | (key, value) :: rest, notNegative, without => by
    rw [unsignedFields,
      unsigned_eq value (notNegative key value List.mem_cons_self)
        (without key value List.mem_cons_self),
      unsignedFields_eq rest
        (fun name other member => notNegative name other (List.mem_cons_of_mem _ member))
        fun name other member => without name other (List.mem_cons_of_mem _ member)]

end

/-- The text of a value in a message shows the sign of a zero only inside brackets. -/
theorem jsonText_unsigned {tree : Json} (without : ¬Inside negativeZero tree) :
    jsonText tree.unsigned = jsonText tree := by
  by_cases isNegative : tree = negativeZero
  · have shown : ∀ negative, floatText (.zero negative) = ['0'] :=
      fun negative => floatText_of_isZero (by cases negative <;> rfl)
    rw [isNegative]
    exact congrArg String.ofList ((shown false).trans (shown true).symm)
  · rw [unsigned_eq tree isNegative without]

end Json

end ScriptConsole
