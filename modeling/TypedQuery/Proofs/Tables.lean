import Mathlib.Data.List.Nodup
import TypedQuery.Table

/-!
# Tables by their entries

No name stands twice in a table, so a value is found under a name exactly when the two are an entry
(`Table.get?_eq_some_iff`). What is found does not depend on the order of the entries then, and it
is known for a table that is made from pairs with different names (`Table.entries_ofPairs`), for one
with changed values (`Table.get?_map`) and for one that keeps some of its names (`Table.get?_keep`).
-/

set_option autoImplicit false

namespace TypedQuery

/-- In a list of items with different keys, an item is found by its key. -/
theorem find?_key_eq_some_iff {α : Type} {key : α → Text} {list : List α}
    (distinct : (list.map key).Nodup) {name : Text} {found : α} :
    list.find? (fun item => key item = name) = some found ↔ found ∈ list ∧ key found = name := by
  constructor
  · intro first
    exact ⟨List.mem_of_find?_eq_some first, by simpa using List.find?_some first⟩
  · rintro ⟨member, rfl⟩
    cases first : list.find? (fun item => key item = key found) with
    | none => simpa using List.find?_eq_none.mp first found member
    | some other =>
        have same : key other = key found := by simpa using List.find?_some first
        rw [List.inj_on_of_nodup_map distinct (List.mem_of_find?_eq_some first) member same]

namespace Table

variable {α : Type}

/-- A value is found under a name exactly when the two are an entry. -/
theorem get?_eq_some_iff {table : Table α} {name : Text} {value : α} :
    table.get? name = some value ↔ (name, value) ∈ table.entries := by
  rw [get?, valueIn, Option.map_eq_some_iff]
  constructor
  · rintro ⟨⟨other, found⟩, first, rfl⟩
    obtain ⟨member, rfl⟩ := (find?_key_eq_some_iff table.nodup).mp first
    exact member
  · intro member
    exact ⟨(name, value), (find?_key_eq_some_iff table.nodup).mpr ⟨member, rfl⟩, rfl⟩

theorem put_of_not_mem {name : Text} {entries : List (Text × α)}
    (absent : name ∉ entries.map Prod.fst) (value : α) :
    put name value entries = entries ++ [(name, value)] := by
  induction entries with
  | nil => rfl
  | cons entry later ih =>
      obtain ⟨here, there⟩ := not_or.mp (mt List.mem_cons.mpr absent)
      rw [put, if_neg (Ne.symm here), ih there]
      rfl

/-- Setting some pairs and then others sets all of them in turn. -/
theorem setAll_append (table : Table α) (pairs more : List (Text × α)) :
    table.setAll (pairs ++ more) = (table.setAll pairs).setAll more :=
  List.foldl_append

/-- Pairs with new and different names are added as they are. -/
theorem entries_setAll {pairs : List (Text × α)} {table : Table α}
    (distinct : ((table.entries ++ pairs).map Prod.fst).Nodup) :
    (table.setAll pairs).entries = table.entries ++ pairs := by
  induction pairs generalizing table with
  | nil => exact (List.append_nil _).symm
  | cons pair later ih =>
      have new : pair.1 ∉ table.entries.map Prod.fst := by
        rw [List.map_append, List.map_cons] at distinct
        intro member
        exact (List.nodup_append.mp distinct).2.2 _ member _ List.mem_cons_self rfl
      have added : (table.set pair.1 pair.2).entries = table.entries ++ [pair] :=
        put_of_not_mem new pair.2
      rw [List.append_cons, ← added] at distinct
      rw [setAll_cons, ih distinct, added, ← List.append_cons]

/-- The table of pairs with different names has just these pairs as entries. -/
theorem entries_ofPairs {pairs : List (Text × α)} (distinct : (pairs.map Prod.fst).Nodup) :
    (ofPairs pairs).entries = pairs :=
  entries_setAll distinct

theorem get?_map {β : Type} (f : α → β) (table : Table α) (name : Text) :
    (table.map f).get? name = (table.get? name).map f := by
  ext value
  rw [Option.map_eq_some_iff, get?_eq_some_iff]
  constructor
  · intro member
    obtain ⟨⟨_, found⟩, inside, same⟩ := List.mem_map.mp member
    obtain ⟨rfl, rfl⟩ := Prod.mk.inj same
    exact ⟨found, get?_eq_some_iff.mpr inside, rfl⟩
  · rintro ⟨found, inside, rfl⟩
    exact List.mem_map.mpr ⟨(name, found), get?_eq_some_iff.mp inside, rfl⟩

/-- The table with only those of its entries that have one of some names. -/
def keep (table : Table α) (names : List Text) : Table α :=
  ⟨table.entries.filter fun entry => entry.1 ∈ names,
    table.nodup.sublist (List.filter_sublist.map Prod.fst)⟩

theorem get?_keep (table : Table α) (names : List Text) (name : Text) :
    (table.keep names).get? name = if name ∈ names then table.get? name else none := by
  ext value
  rw [get?_eq_some_iff, keep, List.mem_filter, ← get?_eq_some_iff]
  by_cases kept : name ∈ names
  · simp [kept]
  · simp [kept]

/-- The table with other names for its values. -/
def rename (r : Text → Text) (table : Table α) : Table α :=
  ofPairs (table.entries.map fun entry => (r entry.1, entry.2))

/-- A value is found under its other name, if no other name is the same. -/
theorem get?_rename {r : Text → Text} {table : Table α} {names : List Text}
    (apart : ∀ first ∈ names, ∀ second ∈ names, r first = r second → first = second)
    (inside : ∀ name ∈ table.names, name ∈ names) {name : Text} (member : name ∈ names) :
    (table.rename r).get? (r name) = table.get? name := by
  have moved : (table.entries.map fun entry => (r entry.1, entry.2)).map Prod.fst =
      table.names.map r := by
    rw [Table.names, List.map_map, List.map_map]
    rfl
  have distinct : (table.names.map r).Nodup :=
    table.nodup.map_on fun first here second there =>
      apart first (inside first here) second (inside second there)
  ext value
  rw [get?_eq_some_iff, get?_eq_some_iff, rename, entries_ofPairs (moved ▸ distinct),
    List.mem_map]
  constructor
  · rintro ⟨⟨other, found⟩, entry, same⟩
    obtain ⟨renamed, rfl⟩ := Prod.mk.inj same
    obtain rfl := apart other (inside other (List.mem_map_of_mem entry)) name member renamed
    exact entry
  · intro entry
    exact ⟨(name, value), entry, rfl⟩

end Table
end TypedQuery
