import ScriptConsole.Json.Basic
import ScriptConsole.Proofs.Double.Nearest

/-!
# Kinds and depth of values

A value is a scalar, an array of values or an object of values under increasing keys. How
deep it nests decides whether a reader gets through its text.
-/

namespace ScriptConsole.Json

/-! ## Depth -/

mutual

/-- How many arrays and objects are inside each other. -/
def depth : Json -> ℕ
  | .null | .boolean _ | .number _ | .string _ => 0
  | .array items => depthItems items + 1
  | .object fields => depthFields fields + 1

/-- The depth of the deepest item. -/
def depthItems : List Json -> ℕ
  | [] => 0
  | item :: rest => max (depth item) (depthItems rest)

/-- The depth of the deepest field. -/
def depthFields : List (String × Json) -> ℕ
  | [] => 0
  | (_, value) :: rest => max (depth value) (depthFields rest)

end

/-! ## Kinds of values -/

/-- The trees of an ordered array are those of values. -/
theorem exists_items {items : List Json} (each : ∀ item ∈ items, item.Ordered) :
    ∃ values : List Value, values.map Value.tree = items := by
  induction items with
  | nil => exact ⟨[], rfl⟩
  | cons item rest ih =>
    obtain ⟨values, trees⟩ := ih fun other member => each other (List.mem_cons_of_mem _ member)
    exact ⟨⟨item, each item List.mem_cons_self⟩ :: values, by rw [List.map_cons, trees]⟩

/-- The tree of a field, under its key. -/
def fieldTree (entry : String × Value) : String × Json :=
  (entry.1, entry.2.tree)

theorem exists_entries {fields : List (String × Json)} (each : ∀ field ∈ fields, field.2.Ordered) :
    ∃ entries : List (String × Value), entries.map fieldTree = fields := by
  induction fields with
  | nil => exact ⟨[], rfl⟩
  | cons field rest ih =>
    obtain ⟨entries, trees⟩ := ih fun other member => each other (List.mem_cons_of_mem _ member)
    exact ⟨(field.1, ⟨field.2, each field List.mem_cons_self⟩) :: entries,
      by rw [List.map_cons, trees]; rfl⟩

/-- Every value is a scalar, the array of some values or the object of some fields. -/
@[elab_as_elim]
theorem Value.cases {motive : Value -> Prop} (null : motive .null)
    (boolean : ∀ truth, motive (.boolean truth)) (number : ∀ number, motive (.number number))
    (string : ∀ content, motive (.string content)) (array : ∀ items, motive (.array items))
    (object : ∀ fields, motive (.object fields)) (value : Value) : motive value := by
  obtain ⟨tree, ordered⟩ := value
  cases ordered with
  | null => exact null
  | boolean truth => exact boolean truth
  | number value => exact number value
  | string content => exact string content
  | array items each =>
    obtain ⟨values, rfl⟩ := exists_items each
    exact array values
  | object fields increasing each =>
    obtain ⟨entries, rfl⟩ := exists_entries each
    have keys := List.pairwise_map.1 increasing
    exact object ⟨entries, keys⟩

theorem depthItems_le_iff {items : List Value} {bound : ℕ} :
    depthItems (items.map Value.tree) ≤ bound ↔ ∀ item ∈ items, item.tree.depth ≤ bound := by
  induction items with
  | nil => simp [depthItems]
  | cons item rest ih =>
    simp only [List.map_cons, depthItems, Nat.max_le, ih, List.forall_mem_cons]

theorem depthFields_le_iff {entries : List (String × Value)} {bound : ℕ} :
    depthFields (entries.map fieldTree) ≤ bound ↔
      ∀ entry ∈ entries, entry.2.tree.depth ≤ bound := by
  induction entries with
  | nil => simp [depthFields]
  | cons entry rest ih =>
    simp only [List.map_cons, fieldTree, depthFields, Nat.max_le, ih, List.forall_mem_cons]

/-! ## Equality -/

/-- A finite double is no NaN, so it equals itself. -/
theorem Number.equals_refl (number : Number) : number.equals number = true := by
  cases number with
  | whole value atLeast below => simp [Number.equals]
  | double value finite => simp [Number.equals, Double.equals, Double.isNaN_eq_false finite]

mutual

/-- A tree holds no NaN, so it equals itself. -/
theorem equals_refl : ∀ tree : Json, tree.equals tree = true
  | .null => by simp [equals]
  | .boolean _ => by simp [equals]
  | .number value => by simp [equals, value.equals_refl]
  | .string _ => by simp [equals]
  | .array items => by simp [equals, equalsItems_refl items]
  | .object fields => by simp [equals, equalsFields_refl fields]

theorem equalsItems_refl : ∀ items : List Json, equalsItems items items = true
  | [] => by simp [equalsItems]
  | item :: rest => by simp [equalsItems, equals_refl item, equalsItems_refl rest]

theorem equalsFields_refl : ∀ fields : List (String × Json), equalsFields fields fields = true
  | [] => by simp [equalsFields]
  | (_, value) :: rest => by simp [equalsFields, equals_refl value, equalsFields_refl rest]

end

end ScriptConsole.Json
