import ScriptConsole.Double

/-!
# JSON values

`Json` is the tree of a JSON text. Its numbers keep the difference between whole
numbers and doubles, and hold only what a text can denote: whole numbers of 64
bits and finite doubles. `Json.Value` is a tree in which every object lists its
fields by strictly increasing key, so that a value has one tree.
-/

namespace ScriptConsole

/-- A JSON number. A whole number and a double are never the same number. -/
inductive Json.Number where
  | whole (value : Int) (atLeast : -0x8000000000000000 ≤ value)
      (below : value < 0x10000000000000000)
  | double (value : Double) (finite : value.isFinite = true)
deriving DecidableEq, Repr

/-- The tree of a JSON text. -/
inductive Json where
  | null
  | boolean (value : Bool)
  | number (value : Json.Number)
  | string (value : String)
  | array (items : List Json)
  | object (fields : List (String × Json))
deriving Repr

namespace Json

/-- The whole number of a 64-bit integer. -/
def Number.ofInt64 (value : Int64) : Number :=
  .whole value.toInt value.le_toInt (Int.lt_trans value.toInt_lt (by decide))

/-- The 64-bit integer that the number is, if it is one. -/
def Number.int64? : Number -> Option Int64
  | .whole value _ _ => if value < 0x8000000000000000 then some (Int64.ofInt value) else none
  | .double _ _ => none

/-- Numbers are equal within their kind; doubles compare numerically. -/
def Number.equals : Number -> Number -> Bool
  | .whole left _ _, .whole right _ _ => left = right
  | .double left _, .double right _ => left.equals right
  | _, _ => false

mutual

/-- Equality of trees, with numbers compared by `Number.equals`. -/
def equals : Json -> Json -> Bool
  | .null, .null => true
  | .boolean left, .boolean right => left = right
  | .number left, .number right => left.equals right
  | .string left, .string right => left = right
  | .array left, .array right => equalsItems left right
  | .object left, .object right => equalsFields left right
  | _, _ => false

/-- Equality of item lists, position by position. -/
def equalsItems : List Json -> List Json -> Bool
  | [], [] => true
  | left :: moreLeft, right :: moreRight => equals left right && equalsItems moreLeft moreRight
  | _, _ => false

/-- Equality of field lists, position by position. -/
def equalsFields : List (String × Json) -> List (String × Json) -> Bool
  | [], [] => true
  | (leftKey, left) :: moreLeft, (rightKey, right) :: moreRight =>
    leftKey = rightKey && equals left right && equalsFields moreLeft moreRight
  | _, _ => false

end

/-- Every object in the tree lists its fields by strictly increasing key. -/
inductive Ordered : Json -> Prop where
  | null : Ordered .null
  | boolean (value : Bool) : Ordered (.boolean value)
  | number (value : Number) : Ordered (.number value)
  | string (value : String) : Ordered (.string value)
  | array (items : List Json) (each : ∀ item ∈ items, Ordered item) : Ordered (.array items)
  | object (fields : List (String × Json))
      (increasing : fields.Pairwise fun left right => left.1 < right.1)
      (each : ∀ field ∈ fields, Ordered field.2) : Ordered (.object fields)

/-- A JSON value: an ordered tree. -/
structure Value where
  tree : Json
  ordered : tree.Ordered
deriving Repr

namespace Value

def null : Value := ⟨.null, .null⟩

def boolean (value : Bool) : Value := ⟨.boolean value, .boolean value⟩

def number (value : Number) : Value := ⟨.number value, .number value⟩

def string (value : String) : Value := ⟨.string value, .string value⟩

/-- The array of some values. -/
def array (items : List Value) : Value where
  tree := .array (items.map Value.tree)
  ordered := .array _ <| by
    intro item member
    obtain ⟨value, _, rfl⟩ := List.mem_map.1 member
    exact value.ordered

end Value

/-- Values under strictly increasing keys. -/
structure Fields where
  entries : List (String × Value)
  increasing : entries.Pairwise fun left right => left.1 < right.1

namespace Fields

/-- No fields. -/
def empty : Fields := ⟨[], .nil⟩

/-- Put a value under a key in a list ordered by key, in place of the value that
the key had. -/
def insertEntry (key : String) (value : Value) : List (String × Value) -> List (String × Value)
  | [] => [(key, value)]
  | entry :: rest =>
    if key < entry.1 then (key, value) :: entry :: rest
    else if key = entry.1 then (key, value) :: rest
    else entry :: insertEntry key value rest

theorem fst_of_mem_insertEntry {key : String} {value : Value} {entries : List (String × Value)}
    {entry : String × Value} (member : entry ∈ insertEntry key value entries) :
    entry.1 = key ∨ entry ∈ entries := by
  induction entries with
  | nil => simp_all [insertEntry]
  | cons head rest inductionHypothesis => grind [insertEntry]

theorem pairwise_insertEntry {key : String} {value : Value} {entries : List (String × Value)}
    (increasing : entries.Pairwise fun left right => left.1 < right.1) :
    (insertEntry key value entries).Pairwise fun left right => left.1 < right.1 := by
  induction entries with
  | nil => simp [insertEntry]
  | cons head rest inductionHypothesis =>
    obtain ⟨first, others⟩ := List.pairwise_cons.1 increasing
    unfold insertEntry
    split
    · next smaller =>
      refine List.pairwise_cons.2 ⟨fun entry member => ?_, increasing⟩
      rcases List.mem_cons.1 member with rfl | inRest
      · exact smaller
      · exact String.lt_trans smaller (first entry inRest)
    · next notSmaller =>
      split
      · next same =>
        exact List.pairwise_cons.2 ⟨fun entry member => same ▸ first entry member, others⟩
      · next different =>
        refine List.pairwise_cons.2 ⟨fun entry member => ?_, inductionHypothesis others⟩
        rcases fst_of_mem_insertEntry member with isKey | inRest
        · rw [isKey]
          exact Decidable.byContradiction fun notLarger =>
            different (String.le_antisymm (String.not_lt.1 notLarger) (String.not_lt.1 notSmaller))
        · exact first entry inRest

/-- Put a value under a key, in place of the value that the key had. -/
def insert (fields : Fields) (key : String) (value : Value) : Fields :=
  ⟨insertEntry key value fields.entries, pairwise_insertEntry fields.increasing⟩

end Fields

/-- The object of some fields. -/
def Value.object (fields : Fields) : Value where
  tree := .object (fields.entries.map fun entry => (entry.1, entry.2.tree))
  ordered := .object _ (List.pairwise_map.2 fields.increasing) <| by
    intro field member
    obtain ⟨entry, _, rfl⟩ := List.mem_map.1 member
    exact entry.2.ordered

end Json

end ScriptConsole
