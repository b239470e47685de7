import Mathlib.Data.List.Dedup
import Mathlib.Data.List.Perm.Subperm
import TypedQuery.Rendering.Keys
import TypedQuery.Text.Name

/-!
# Keys never collide

The search for a key tries candidates that differ from each other (`candidate_injective`), so
it is over after at most as many steps as there are taken keys, and ends at the first candidate
that is free (`firstFree_eq`).

What holds of the keys of arrays at any time is one invariant, `Separate`: the keys of an array
differ from each other, from the reserved names, and from the keys of every other array. An
array takes its keys in one step, which keeps the invariant (`Separate.forArray`) and every key
that was given before (`grows_forArray`).
-/

set_option autoImplicit false

namespace TypedQuery

/-! ## Decimal suffixes -/

namespace Text

/-- Different numbers have different decimal texts. -/
theorem ofNat_injective {m n : Nat} (same : ofNat m = ofNat n) : m = n := by
  have back : ∀ k, Nat.ofDigitChars 10 (ofNat k) 0 = k := fun _ => Nat.ofDigitChars_ten_toDigits
  rw [← back m, same, back]

/-- A decimal text may continue a name. -/
theorem isNameChar_of_mem_ofNat {n : Nat} {c : Char} (member : c ∈ ofNat n) :
    isNameChar c = true := by
  have digit := Nat.isDigit_of_mem_toDigits (by decide) (by decide) member
  simp [isNameChar, Char.isAlphanum, digit]

end Text

namespace Keys

/-! ## The search for a free key -/

theorem candidate_succ (key : Text) (n : Nat) :
    candidate key (n + 1) = key ++ '_' :: Text.ofNat (n + 1) := rfl

/-- The candidates for a key differ from each other. -/
theorem candidate_injective {key : Text} {m n : Nat} (same : candidate key m = candidate key n) :
    m = n := by
  have longer : ∀ k, candidate key (k + 1) ≠ key := by
    intro k same
    have lengths := congrArg List.length same
    rw [candidate_succ, List.length_append, List.length_cons] at lengths
    omega
  cases m with
  | zero =>
      cases n with
      | zero => rfl
      | succ n => exact absurd same.symm (longer n)
  | succ m =>
      cases n with
      | zero => exact absurd same (longer m)
      | succ n =>
          rw [candidate_succ, candidate_succ] at same
          exact Text.ofNat_injective (List.cons_inj_right '_' |>.mp (List.append_cancel_left same))

/-- Candidates that are all taken are no more than the different keys that are taken. -/
theorem tried_le {taken : List Text} {key : Text} {m : Nat}
    (tried : ∀ j < m, candidate key j ∈ taken) : m ≤ taken.dedup.length := by
  have nodup : ((List.range m).map (candidate key)).Nodup :=
    List.nodup_range.map fun _ _ => candidate_injective
  have within : (List.range m).map (candidate key) ⊆ taken.dedup := by
    intro candidate member
    obtain ⟨j, small, rfl⟩ := List.mem_map.mp member
    exact List.mem_dedup.mpr (tried j (List.mem_range.mp small))
  have counted := (List.subperm_of_subset nodup within).length_le
  rwa [List.length_map, List.length_range] at counted

/-- The search from the `n`-th candidate on passes taken candidates only, and gives up no
earlier than at the bound. -/
theorem firstFree_run (taken : List Text) (key : Text) (n : Nat) :
    ∃ m, n ≤ m ∧ firstFree taken key n = candidate key m ∧
      (∀ j, n ≤ j → j < m → candidate key j ∈ taken) ∧
      (candidate key m ∈ taken → taken.length ≤ m) := by
  fun_induction firstFree taken key n with
  | case1 n going ih =>
      obtain ⟨m, later, found, passed, bound⟩ := ih
      refine ⟨m, by omega, found, ?_, bound⟩
      intro j from_n below
      rcases Nat.eq_or_lt_of_le from_n with rfl | after
      · exact going.2
      · exact passed j after below
  | case2 n stopped =>
      refine ⟨n, Nat.le_refl n, rfl, fun j from_n below => by omega, ?_⟩
      intro isTaken
      by_contra short
      exact stopped ⟨by omega, isTaken⟩

/-- **The search ends at the first free candidate**, after at most as many steps as there are
different taken keys. -/
theorem firstFree_eq (taken : List Text) (key : Text) :
    ∃ m ≤ taken.dedup.length, firstFree taken key 0 = candidate key m ∧
      candidate key m ∉ taken ∧ ∀ j < m, candidate key j ∈ taken := by
  obtain ⟨m, _, found, passed, bound⟩ := firstFree_run taken key 0
  have tried : ∀ j < m, candidate key j ∈ taken := fun j => passed j (Nat.zero_le j)
  refine ⟨m, tried_le tried, found, ?_, tried⟩
  intro isTaken
  have all : ∀ j < m + 1, candidate key j ∈ taken := by
    intro j below
    rcases Nat.lt_succ_iff_lt_or_eq.mp below with before | rfl
    · exact tried j before
    · exact isTaken
  have more := tried_le all
  have fewer := (List.dedup_sublist taken).length_le
  have atBound := bound isTaken
  omega

theorem firstFree_not_mem (taken : List Text) (key : Text) : firstFree taken key 0 ∉ taken := by
  obtain ⟨_, _, found, free, _⟩ := firstFree_eq taken key
  rwa [found]

/-! ## Keys for several wanted ones -/

theorem allocate_cons (taken : List Text) (first : Text) (later : List Text) :
    allocate taken (first :: later) =
      (firstFree taken first 0 :: (allocate (taken ++ [firstFree taken first 0]) later).1,
        (allocate (taken ++ [firstFree taken first 0]) later).2) := rfl

/-- The keys that are made are taken from then on, and no others. -/
theorem taken_allocate (taken wanted : List Text) :
    (allocate taken wanted).2 = taken ++ (allocate taken wanted).1 := by
  induction wanted generalizing taken with
  | nil => exact (List.append_nil taken).symm
  | cons first later ih => rw [allocate_cons, ih, List.append_assoc, List.singleton_append]

theorem length_allocate (taken wanted : List Text) :
    (allocate taken wanted).1.length = wanted.length := by
  induction wanted generalizing taken with
  | nil => rfl
  | cons first later ih => rw [allocate_cons, List.length_cons, ih, List.length_cons]

/-- The keys that are made were free. -/
theorem not_mem_of_mem_allocate {taken wanted : List Text} {key : Text}
    (made : key ∈ (allocate taken wanted).1) : key ∉ taken := by
  induction wanted generalizing taken with
  | nil => cases made
  | cons first later ih =>
      rw [allocate_cons] at made
      rcases List.mem_cons.mp made with rfl | made
      · exact firstFree_not_mem taken first
      · exact fun member => ih made (List.mem_append_left _ member)

theorem nodup_allocate (taken wanted : List Text) : (allocate taken wanted).1.Nodup := by
  induction wanted generalizing taken with
  | nil => exact List.nodup_nil
  | cons first later ih =>
      rw [allocate_cons]
      refine List.nodup_cons.mpr ⟨fun member => ?_, ih _⟩
      exact not_mem_of_mem_allocate member (List.mem_append_right _ (List.mem_singleton.mpr rfl))

/-- Each key that is made is a candidate for a wanted one. -/
theorem candidate_of_mem_allocate {taken wanted : List Text} {key : Text}
    (made : key ∈ (allocate taken wanted).1) : ∃ first ∈ wanted, ∃ n, key = candidate first n := by
  induction wanted generalizing taken with
  | nil => cases made
  | cons first later ih =>
      rw [allocate_cons] at made
      rcases List.mem_cons.mp made with rfl | made
      · obtain ⟨n, _, found, _⟩ := firstFree_eq taken first
        exact ⟨first, List.mem_cons_self, n, found⟩
      · obtain ⟨other, member, n, same⟩ := ih made
        exact ⟨other, List.mem_cons_of_mem _ member, n, same⟩

/-! ## The keys of arrays -/

theorem forArray_of_some {keys : Keys} {name : Text} {made : List Text}
    (known : keys.arrays.get? name = some made) (count : Nat) :
    keys.forArray name count = (made, keys) := by
  rw [forArray, known]

theorem forArray_of_none {keys : Keys} {name : Text} (new : keys.arrays.get? name = none)
    (count : Nat) :
    keys.forArray name count =
      ((allocate keys.taken (wanted name count)).1,
        ⟨(allocate keys.taken (wanted name count)).2,
          keys.arrays.set name (allocate keys.taken (wanted name count)).1⟩) := by
  rw [forArray, new]

/-- The keys that are given for an array are its keys afterwards. -/
theorem get?_forArray (keys : Keys) (name : Text) (count : Nat) :
    (keys.forArray name count).2.arrays.get? name = some (keys.forArray name count).1 := by
  cases known : keys.arrays.get? name with
  | some made => rw [forArray_of_some known, known]
  | none => rw [forArray_of_none known, Table.get?_set, if_pos rfl]

/-- Other arrays keep what they have, also if that is nothing. -/
theorem get?_forArray_of_ne (keys : Keys) {name other : Text} (differ : other ≠ name)
    (count : Nat) : (keys.forArray name count).2.arrays.get? other = keys.arrays.get? other := by
  cases known : keys.arrays.get? name with
  | some made => rw [forArray_of_some known]
  | none => rw [forArray_of_none known, Table.get?_set, if_neg differ]

/-- An array is given as many keys as it has, or else as it is asked for. -/
theorem length_forArray (keys : Keys) (name : Text) (count : Nat) :
    (keys.forArray name count).1.length =
      ((keys.arrays.get? name).map List.length).getD count := by
  cases known : keys.arrays.get? name with
  | some made => rw [forArray_of_some known]; rfl
  | none =>
      rw [forArray_of_none known, length_allocate, wanted, List.length_map, List.length_range]
      rfl

/-- Arrays that have keys keep them. -/
def Grows (earlier later : Keys) : Prop :=
  ∀ name made, earlier.arrays.get? name = some made → later.arrays.get? name = some made

theorem Grows.refl (keys : Keys) : keys.Grows keys := fun _ _ known => known

theorem Grows.trans {first second third : Keys} (early : first.Grows second)
    (late : second.Grows third) : first.Grows third :=
  fun name made known => late name made (early name made known)

theorem grows_forArray (keys : Keys) (name : Text) (count : Nat) :
    keys.Grows (keys.forArray name count).2 := by
  intro other made known
  by_cases same : other = name
  · subst same
    rw [get?_forArray, forArray_of_some known]
  · rwa [get?_forArray_of_ne keys same]

/-- The keys of arrays keep apart: from the reserved names, within an array, and between
arrays. Each is a candidate for an item of its array, and is taken. -/
structure Separate (reserved : List Text) (keys : Keys) : Prop where
  reserved_taken : ∀ name ∈ reserved, name ∈ keys.taken
  taken : ∀ name made, keys.arrays.get? name = some made → ∀ key ∈ made, key ∈ keys.taken
  nodup : ∀ name made, keys.arrays.get? name = some made → made.Nodup
  not_reserved : ∀ name made, keys.arrays.get? name = some made → ∀ key ∈ made, key ∉ reserved
  disjoint : ∀ name made, keys.arrays.get? name = some made →
    ∀ other made', keys.arrays.get? other = some made' → name ≠ other →
      ∀ key ∈ made, key ∉ made'
  candidate : ∀ name made, keys.arrays.get? name = some made → ∀ key ∈ made,
    ∃ index n, key = candidate (name ++ '_' :: Text.ofNat index) n

/-- At the start no array has keys. -/
theorem separate_reserve (reserved : List Text) : Separate reserved (reserve reserved) where
  reserved_taken := fun _ member => member
  taken := fun _ _ known => by cases known
  nodup := fun _ _ known => by cases known
  not_reserved := fun _ _ known => by cases known
  disjoint := fun _ _ known => by cases known
  candidate := fun _ _ known => by cases known

theorem candidate_of_mem_wanted {name : Text} {count : Nat} {taken : List Text} {key : Text}
    (made : key ∈ (allocate taken (wanted name count)).1) :
    ∃ index n, key = candidate (name ++ '_' :: Text.ofNat index) n := by
  obtain ⟨first, member, n, same⟩ := candidate_of_mem_allocate made
  obtain ⟨index, _, rfl⟩ := List.mem_map.mp member
  exact ⟨index, n, same⟩

/-- One step: giving an array its keys keeps the keys of arrays apart. -/
theorem Separate.forArray {reserved : List Text} {keys : Keys} (separate : keys.Separate reserved)
    (name : Text) (count : Nat) : (keys.forArray name count).2.Separate reserved := by
  cases known : keys.arrays.get? name with
  | some made => rwa [forArray_of_some known]
  | none =>
      rw [forArray_of_none known]
      have entry : ∀ {other made},
          (keys.arrays.set name (allocate keys.taken (wanted name count)).1).get? other =
            some made →
          (other = name ∧ made = (allocate keys.taken (wanted name count)).1) ∨
            (other ≠ name ∧ keys.arrays.get? other = some made) := by
        intro other made found
        rw [Table.get?_set] at found
        split at found
        · next same => exact .inl ⟨same, (Option.some.inj found).symm⟩
        · next differ => exact .inr ⟨differ, found⟩
      constructor
      · intro other member
        rw [taken_allocate]
        exact List.mem_append_left _ (separate.reserved_taken other member)
      · intro other made found key member
        rw [taken_allocate]
        rcases entry found with ⟨_, rfl⟩ | ⟨_, earlier⟩
        · exact List.mem_append_right _ member
        · exact List.mem_append_left _ (separate.taken other made earlier key member)
      · intro other made found
        rcases entry found with ⟨_, rfl⟩ | ⟨_, earlier⟩
        · exact nodup_allocate _ _
        · exact separate.nodup other made earlier
      · intro other made found key member
        rcases entry found with ⟨_, rfl⟩ | ⟨_, earlier⟩
        · exact fun isReserved =>
            not_mem_of_mem_allocate member (separate.reserved_taken key isReserved)
        · exact separate.not_reserved other made earlier key member
      · intro first made found second made' found' differ key member member'
        rcases entry found with ⟨rfl, rfl⟩ | ⟨_, earlier⟩
        · rcases entry found' with ⟨same, _⟩ | ⟨_, earlier'⟩
          · exact differ same.symm
          · exact not_mem_of_mem_allocate member (separate.taken second made' earlier' key member')
        · rcases entry found' with ⟨rfl, rfl⟩ | ⟨_, earlier'⟩
          · exact not_mem_of_mem_allocate member' (separate.taken first made earlier key member)
          · exact separate.disjoint first made earlier second made' earlier' differ key member
              member'
      · intro other made found key member
        rcases entry found with ⟨rfl, rfl⟩ | ⟨_, earlier⟩
        · exact candidate_of_mem_wanted member
        · exact separate.candidate other made earlier key member

end Keys
end TypedQuery
