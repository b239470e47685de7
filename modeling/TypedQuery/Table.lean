import TypedQuery.Text.Basic

/-!
# Tables by name

A table keeps one value for each of its names, in the order in which the names were first
set. Setting a name again replaces its value and leaves the name in its place. That no name
stands twice is part of the type.

The two views of a table are its names in order and the value of a name: `names_set` and
`get?_set` say what setting does to each.
-/

set_option autoImplicit false

namespace TypedQuery

/-- Values by name, in the order in which the names were first set. -/
structure Table (α : Type) where
  entries : List (Text × α)
  nodup : (entries.map Prod.fst).Nodup

namespace Table

variable {α : Type}

/-- The table without names. -/
def empty : Table α := ⟨[], List.nodup_nil⟩

/-- The names of a table in order. -/
def names (table : Table α) : List Text := table.entries.map Prod.fst

/-- The value that entries hold for a name. -/
def valueIn (name : Text) (entries : List (Text × α)) : Option α :=
  (entries.find? fun entry => entry.1 = name).map Prod.snd

/-- The value of a name. -/
def get? (table : Table α) (name : Text) : Option α := valueIn name table.entries

/-- Entries with the value of a name replaced in its place, or added at the end. -/
def put (name : Text) (value : α) : List (Text × α) → List (Text × α)
  | [] => [(name, value)]
  | entry :: later =>
      if entry.1 = name then (name, value) :: later else entry :: put name value later

theorem map_fst_put (name : Text) (value : α) (entries : List (Text × α)) :
    (put name value entries).map Prod.fst =
      if name ∈ entries.map Prod.fst then entries.map Prod.fst
      else entries.map Prod.fst ++ [name] := by
  induction entries with
  | nil => rfl
  | cons entry later ih =>
      by_cases same : entry.1 = name
      · simp [put, same]
      · by_cases known : name ∈ later.map Prod.fst
        · rw [if_pos known] at ih
          have present : name ∈ (entry :: later).map Prod.fst := List.mem_cons_of_mem _ known
          rw [if_pos present]
          simp [put, same, ih]
        · rw [if_neg known] at ih
          have absent : name ∉ (entry :: later).map Prod.fst := by
            intro member
            rcases List.mem_cons.mp member with here | there
            · exact same here.symm
            · exact known there
          rw [if_neg absent]
          simp [put, same, ih]

theorem nodup_put (name : Text) (value : α) (entries : List (Text × α))
    (nodup : (entries.map Prod.fst).Nodup) : ((put name value entries).map Prod.fst).Nodup := by
  rw [map_fst_put]
  split
  · exact nodup
  · next absent =>
      refine List.nodup_append.mpr ⟨nodup, List.pairwise_singleton _ _, ?_⟩
      intro other member new isNew
      rw [List.mem_singleton.mp isNew]
      exact fun same => absent (same ▸ member)

theorem valueIn_put (name other : Text) (value : α) (entries : List (Text × α)) :
    valueIn other (put name value entries) =
      if other = name then some value else valueIn other entries := by
  induction entries with
  | nil =>
      by_cases same : other = name
      · simp [put, valueIn, same]
      · simp [put, valueIn, same, Ne.symm same]
  | cons entry later ih =>
      unfold valueIn at ih ⊢
      by_cases here : entry.1 = name
      · by_cases same : other = name
        · simp [put, here, same]
        · simp [put, here, same, Ne.symm same]
      · by_cases found : entry.1 = other
        · have differ : other ≠ name := fun same => here (found.trans same)
          simp [put, found, differ]
        · simp [put, here, found, ih]

/-- The table with a value for a name. -/
def set (table : Table α) (name : Text) (value : α) : Table α :=
  ⟨put name value table.entries, nodup_put name value table.entries table.nodup⟩

/-- Setting a name leaves the names as they are, or adds a new one at the end. -/
theorem names_set (table : Table α) (name : Text) (value : α) :
    (table.set name value).names =
      if name ∈ table.names then table.names else table.names ++ [name] :=
  map_fst_put name value table.entries

/-- A name that was set has its value, and every other name the one it had. -/
theorem get?_set (table : Table α) (name other : Text) (value : α) :
    (table.set name value).get? other = if other = name then some value else table.get? other :=
  valueIn_put name other value table.entries

/-- The table with every pair set in turn. -/
def setAll (table : Table α) (pairs : List (Text × α)) : Table α :=
  pairs.foldl (fun table (name, value) => table.set name value) table

theorem setAll_cons (table : Table α) (pair : Text × α) (pairs : List (Text × α)) :
    table.setAll (pair :: pairs) = (table.set pair.1 pair.2).setAll pairs := rfl

/-- The table of a list of pairs: a repeated name keeps its first place and its last value. -/
def ofPairs (pairs : List (Text × α)) : Table α := empty.setAll pairs

/-- A name that is in none of the pairs keeps the value it had. -/
theorem get?_setAll_of_not_mem {name : Text} {pairs : List (Text × α)}
    (absent : name ∉ pairs.map Prod.fst) (table : Table α) :
    (table.setAll pairs).get? name = table.get? name := by
  induction pairs generalizing table with
  | nil => rfl
  | cons pair later ih =>
      obtain ⟨here, there⟩ := not_or.mp (mt List.mem_cons.mpr absent)
      rw [setAll_cons, ih there, get?_set, if_neg here]

/-- What a table holds after setting some pairs it held before, or it is one of the pairs. -/
theorem get?_or_mem_of_setAll {name : Text} {value : α} {pairs : List (Text × α)} {table : Table α}
    (found : (table.setAll pairs).get? name = some value) :
    table.get? name = some value ∨ (name, value) ∈ pairs := by
  induction pairs generalizing table with
  | nil => exact .inl found
  | cons pair later ih =>
      rw [setAll_cons] at found
      rcases ih found with old | member
      · rw [get?_set] at old
        split at old
        · next same =>
            obtain rfl := Option.some.inj old
            exact .inr (same ▸ List.mem_cons_self)
        · exact .inl old
      · exact .inr (List.mem_cons_of_mem _ member)

/-- If pairs with one name have one value, each name of the pairs has its value. -/
theorem get?_setAll_of_mem {pairs : List (Text × α)}
    (functional : ∀ pair ∈ pairs, ∀ other ∈ pairs, pair.1 = other.1 → pair.2 = other.2)
    {pair : Text × α} (member : pair ∈ pairs) (table : Table α) :
    (table.setAll pairs).get? pair.1 = some pair.2 := by
  induction pairs generalizing pair table with
  | nil => exact nomatch member
  | cons first later ih =>
      have rest : ∀ pair ∈ later, ∀ other ∈ later, pair.1 = other.1 → pair.2 = other.2 :=
        fun pair inLater other inLater' =>
          functional pair (List.mem_cons_of_mem _ inLater) other (List.mem_cons_of_mem _ inLater')
      rw [setAll_cons]
      by_cases again : pair.1 ∈ later.map Prod.fst
      · obtain ⟨other, inLater, same⟩ := List.mem_map.mp again
        have known := List.mem_cons_of_mem first inLater
        rw [← same, ih rest inLater, functional other known pair member same]
      · rw [get?_setAll_of_not_mem again, get?_set]
        rcases List.mem_cons.mp member with rfl | inLater
        · rw [if_pos rfl]
        · exact absurd (List.mem_map_of_mem inLater) again

/-- The names of a table after setting some pairs are those it had and those of the pairs. -/
theorem mem_names_setAll {name : Text} (pairs : List (Text × α)) (table : Table α) :
    name ∈ (table.setAll pairs).names ↔ name ∈ table.names ∨ name ∈ pairs.map Prod.fst := by
  induction pairs generalizing table with
  | nil => simp [setAll]
  | cons pair later ih =>
      rw [setAll_cons, ih, names_set, List.map_cons, List.mem_cons]
      split
      · next known =>
          constructor
          · rintro (old | new)
            · exact .inl old
            · exact .inr (.inr new)
          · rintro (old | rfl | new)
            · exact .inl old
            · exact .inl known
            · exact .inr new
      · rw [List.mem_append, List.mem_singleton, or_assoc]

/-- The table with every value changed by a function. -/
def map {β : Type} (f : α → β) (table : Table α) : Table β :=
  ⟨table.entries.map fun (name, value) => (name, f value), by
    have same : (table.entries.map fun (name, value) => (name, f value)).map Prod.fst =
        table.entries.map Prod.fst := by simp
    rw [same]
    exact table.nodup⟩

end Table
end TypedQuery
