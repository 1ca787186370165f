import ScriptConsole.Session.Step

/-!
# Names

The names that a host program gave to the objects of a world. One object may
have several names, as all handles of a slot or a log do.
-/

namespace ScriptConsole

/-- The names of the objects of one kind, the last given first. -/
structure Names (kind : Resource) where
  entries : List (String × Ref kind) := []
deriving DecidableEq, Repr

namespace Names

variable {kind : Resource} {names : Names kind} {name : String} {ref : Ref kind}

/-- Give an object a name. -/
def add (names : Names kind) (name : String) (ref : Ref kind) : Names kind :=
  ⟨(name, ref) :: names.entries⟩

/-- The object of a name. -/
def find (names : Names kind) (name : String) : Except Session.Failure (Ref kind) :=
  match names.entries.lookup name with
  | some ref => .ok ref
  | none => .error (.unknownName name)

/-- A name of an object. -/
def nameOf? (names : Names kind) (ref : Ref kind) : Option String :=
  (names.entries.find? fun entry => entry.2 = ref).map Prod.fst

/-! ## Laws -/

/-- The name was given to the object. -/
def Gave (names : Names kind) (name : String) (ref : Ref kind) : Prop :=
  (name, ref) ∈ names.entries

/-- No name was given twice. -/
def Distinct (names : Names kind) : Prop :=
  (names.entries.map Prod.fst).Nodup

instance (names : Names kind) : Decidable names.Distinct :=
  inferInstanceAs (Decidable (List.Nodup _))

theorem gave_add_same : (names.add name ref).Gave name ref :=
  List.mem_cons_self

theorem Gave.add (given : names.Gave name ref) (other : String) (new : Ref kind) :
    (names.add other new).Gave name ref :=
  List.mem_cons_of_mem _ given

/-- A name of an object was given to it. -/
theorem gave_of_nameOf? (known : names.nameOf? ref = some name) : names.Gave name ref := by
  obtain ⟨⟨other, object⟩, found, rfl⟩ := Option.map_eq_some_iff.1 known
  have same := List.find?_some found
  rw [decide_eq_true_iff] at same
  subst same
  exact List.mem_of_find?_eq_some found

/-- An object that was given a name has one. -/
theorem exists_nameOf? (given : names.Gave name ref) :
    ∃ other, names.nameOf? ref = some other ∧ names.Gave other ref := by
  have found : (names.entries.find? fun entry => entry.2 = ref).isSome := by
    rw [List.find?_isSome]
    exact ⟨(name, ref), given, decide_eq_true rfl⟩
  obtain ⟨⟨other, object⟩, here⟩ := Option.isSome_iff_exists.1 found
  have known : names.nameOf? ref = some other := by rw [nameOf?, here]; rfl
  exact ⟨other, known, gave_of_nameOf? known⟩

/-- What a name is found to mean, it was given to. -/
theorem gave_of_find (found : names.find name = .ok ref) : names.Gave name ref := by
  unfold find at found
  split at found
  · next here =>
    cases found
    obtain ⟨before, after, split, -⟩ := List.lookup_eq_some_iff.1 here
    rw [Gave, split]
    exact List.mem_append_right _ List.mem_cons_self
  · cases found

/-- If no name was given twice, a name means what it was given to. -/
theorem find_of_gave (distinct : names.Distinct) (given : names.Gave name ref) :
    names.find name = .ok ref := by
  obtain ⟨before, after, split⟩ := List.append_of_mem given
  have first : ∀ entry ∈ before, (name != entry.1) = true := by
    intro entry member
    rw [Distinct, split, List.map_append, List.nodup_append] at distinct
    exact bne_iff_ne.2 (distinct.2.2 _ (List.mem_map_of_mem member) _ List.mem_cons_self).symm
  have here : names.entries.lookup name = some ref :=
    List.lookup_eq_some_iff.2 ⟨before, after, split, first⟩
  simp only [find, here]

/-- An answer tells which object there is, if there is one: it is a name that was given to
the object, and so means it, unless the name was given again. -/
def Identifies (names : Names kind) (answer : Option String) : Option (Ref kind) -> Prop
  | none => answer = none
  | some ref => ∃ name, answer = some name ∧ names.Gave name ref ∧
      (names.Distinct -> names.find name = .ok ref)

/-- Objects that were given names are told by any of them. -/
theorem identifies_nameOf? {object : Option (Ref kind)}
    (named : ∀ ref, object = some ref -> ∃ name, names.Gave name ref) :
    names.Identifies (object.bind names.nameOf?) object := by
  cases object with
  | none => rfl
  | some ref =>
    obtain ⟨name, given⟩ := named ref rfl
    obtain ⟨other, known, gave⟩ := exists_nameOf? given
    exact ⟨other, known, gave, fun distinct => find_of_gave distinct gave⟩

end Names

end ScriptConsole
