/-
This file holds tables that list their entries in the order of their names.
-/

namespace WorkflowBundle

/-- A dictionary lists entries under strictly ascending names. -/
structure Dictionary (α : Type) where
  entries : List (String × α)
  ascending : entries.Pairwise fun earlier later => earlier.1 < later.1
deriving DecidableEq

namespace Dictionary

variable {α β : Type}

def empty : Dictionary α := ⟨[], .nil⟩

instance : EmptyCollection (Dictionary α) := ⟨empty⟩

instance : Inhabited (Dictionary α) := ⟨empty⟩

def find? (dictionary : Dictionary α) (name : String) : Option α :=
  dictionary.entries.lookup name

def contains (dictionary : Dictionary α) (name : String) : Bool :=
  (dictionary.find? name).isSome

def size (dictionary : Dictionary α) : Nat :=
  dictionary.entries.length

def isEmpty (dictionary : Dictionary α) : Bool :=
  dictionary.entries.isEmpty

/-- Placing an entry keeps the order and replaces an entry of the same name. -/
def place (name : String) (value : α) : List (String × α) → List (String × α)
  | [] => [(name, value)]
  | (key, old) :: rest =>
    if name < key then (name, value) :: (key, old) :: rest
    else if name = key then (name, value) :: rest
    else (key, old) :: place name value rest

/-- A placed list holds the new name and no other new name. -/
theorem mem_place {name key : String} {value found : α} {entries : List (String × α)}
    (member : (key, found) ∈ place name value entries) :
    key = name ∨ (key, found) ∈ entries := by
  induction entries with
  | nil => simp_all [place]
  | cons entry rest inductionHypothesis =>
    obtain ⟨first, old⟩ := entry
    simp only [place] at member
    split at member
    · rcases List.mem_cons.1 member with equal | later
      · exact .inl (congrArg Prod.fst equal)
      · exact .inr later
    · split at member
      · rcases List.mem_cons.1 member with equal | later
        · exact .inl (congrArg Prod.fst equal)
        · exact .inr (List.mem_cons_of_mem _ later)
      · rcases List.mem_cons.1 member with equal | later
        · exact .inr (equal ▸ List.mem_cons_self)
        · rcases inductionHypothesis later with same | deeper
          · exact .inl same
          · exact .inr (List.mem_cons_of_mem _ deeper)

theorem lt_of_not_lt_of_ne {first second : String} (notLess : ¬first < second)
    (different : first ≠ second) : second < first := by
  rcases Decidable.em (second < first) with less | notGreater
  · exact less
  · have equal := String.le_antisymm (String.not_lt.1 notGreater) (String.not_lt.1 notLess)
    exact absurd equal different

/-- Placing an entry keeps the names ascending. -/
theorem pairwise_place (name : String) (value : α) {entries : List (String × α)}
    (ascending : entries.Pairwise fun earlier later => earlier.1 < later.1) :
    (place name value entries).Pairwise fun earlier later => earlier.1 < later.1 := by
  induction entries with
  | nil => simp [place]
  | cons entry rest inductionHypothesis =>
    obtain ⟨key, old⟩ := entry
    obtain ⟨above, ordered⟩ := List.pairwise_cons.1 ascending
    simp only [place]
    split
    · rename_i less
      refine List.pairwise_cons.2 ⟨?_, ascending⟩
      intro other member
      rcases List.mem_cons.1 member with rfl | later
      · exact less
      · exact String.lt_trans less (above other later)
    · rename_i notLess
      split
      · rename_i same
        subst same
        exact List.pairwise_cons.2 ⟨above, ordered⟩
      · rename_i different
        refine List.pairwise_cons.2 ⟨?_, inductionHypothesis ordered⟩
        intro other member
        obtain ⟨otherName, otherValue⟩ := other
        rcases mem_place member with same | deeper
        · exact same ▸ lt_of_not_lt_of_ne notLess different
        · exact above _ deeper

def insert (dictionary : Dictionary α) (name : String) (value : α) : Dictionary α :=
  ⟨place name value dictionary.entries, pairwise_place name value dictionary.ascending⟩

def insertIfNew (dictionary : Dictionary α) (name : String) (value : α) : Dictionary α :=
  if dictionary.contains name then dictionary else dictionary.insert name value

def erase (dictionary : Dictionary α) (name : String) : Dictionary α :=
  ⟨dictionary.entries.filter fun entry => entry.1 != name,
    dictionary.ascending.sublist List.filter_sublist⟩

/-- An overlay sets every entry of the upper dictionary over the lower one. -/
def overlay (lower upper : Dictionary α) : Dictionary α :=
  upper.entries.foldl (fun result entry => result.insert entry.1 entry.2) lower

/-- A dictionary of a list takes the last entry of each name. -/
def ofList (entries : List (String × α)) : Dictionary α :=
  entries.foldl (fun result entry => result.insert entry.1 entry.2) empty

/-- The value of a name is the first entry's if that carries the name. -/
theorem lookup_entry (name key : String) (value : α) (rest : List (String × α)) :
    ((key, value) :: rest).lookup name = if name = key then some value else rest.lookup name := by
  rw [List.lookup_cons]
  by_cases same : name = key
  · simp [same]
  · simp [same, beq_eq_false_iff_ne.2 same]

/-- The looked-up value after placing an entry is the new value at its name and the old value
elsewhere. -/
theorem lookup_place (name other : String) (value : α) (entries : List (String × α)) :
    (place name value entries).lookup other =
      if other = name then some value else entries.lookup other := by
  induction entries with
  | nil => rw [place, lookup_entry]
  | cons entry rest inductionHypothesis =>
    obtain ⟨key, old⟩ := entry
    simp only [place]
    split
    · rw [lookup_entry]
    · split
      · rename_i notLess same
        subst same
        simp only [lookup_entry]
        by_cases equal : other = name <;> simp [equal]
      · rename_i notLess different
        rw [lookup_entry, inductionHypothesis, lookup_entry]
        by_cases equal : other = name
        · subst equal
          simp [different]
        · simp [equal]

@[simp] theorem find?_insert (dictionary : Dictionary α) (name other : String) (value : α) :
    (dictionary.insert name value).find? other =
      if other = name then some value else dictionary.find? other :=
  lookup_place name other value dictionary.entries

end Dictionary

end WorkflowBundle
