import TypedQuery.Table

/-!
# Keys of named arguments

In a query with named placeholders a scalar is called by the name of its parameter, and item
`i` of an array by the name with `_i` after it. Such a key may be the name of another
parameter, or a key that another array has already, so a suffix `_1`, `_2`, … is tried until
the key is free. The names that the body refers to are taken from the start.

An array has one list of keys, made where it is first filled in.

The search needs no bound of its own: the candidates differ from each other, so among one
more candidate than there are taken keys one is free.
-/

set_option autoImplicit false

namespace TypedQuery

/-- The keys that are taken, and the keys of the arrays that have been filled in. -/
structure Keys where
  taken : List Text
  arrays : Table (List Text)

namespace Keys

/-- The candidates for a key: the key itself, and then the key with a suffix that counts. -/
def candidate (key : Text) : Nat → Text
  | 0 => key
  | n + 1 => key ++ '_' :: Text.ofNat (n + 1)

/-- The first free candidate from the `n`-th on. -/
def firstFree (taken : List Text) (key : Text) (n : Nat) : Text :=
  if n < taken.length ∧ candidate key n ∈ taken then firstFree taken key (n + 1)
  else candidate key n
termination_by taken.length - n
decreasing_by omega

/-- The keys when only some names are taken. -/
def reserve (names : List Text) : Keys := ⟨names, .empty⟩

/-- Free keys for some wanted ones in turn, and the keys that are taken then. -/
def allocate (taken : List Text) : List Text → List Text × List Text
  | [] => ([], taken)
  | wanted :: later =>
      let key := firstFree taken wanted 0
      let (keys, taken) := allocate (taken ++ [key]) later
      (key :: keys, taken)

/-- The keys wanted for the items of an array. -/
def wanted (name : Text) (count : Nat) : List Text :=
  (List.range count).map fun index => name ++ '_' :: Text.ofNat index

/-- The keys of an array, made now if it has none yet. -/
def forArray (keys : Keys) (name : Text) (count : Nat) : List Text × Keys :=
  match keys.arrays.get? name with
  | some made => (made, keys)
  | none =>
      let (made, taken) := allocate keys.taken (wanted name count)
      (made, ⟨taken, keys.arrays.set name made⟩)

end Keys
end TypedQuery
