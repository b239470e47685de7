import Mathlib.Data.Finset.Card
import Mathlib.Data.Finset.Dedup
import TypedQuery.Proofs.Keys

/-!
# The search for a key ends

The search for a free key is a loop without a bound: as long as the candidate is taken, the next one
is tried. `Keys.Ends` is that loop, and nothing in it says that it ends.

It ends because the candidates differ from each other. Each one that is passed is another taken key,
so no more are passed than there are taken keys, and the search ends at the first one that is free
(`Keys.search_ends`). The keys that are taken count as a set here. A list of them may hold a key
twice and in any place; the key that is made from it is the same (`Keys.firstFree_of_ends`).
-/

set_option autoImplicit false

namespace TypedQuery
namespace Keys

/-- The loop goes from one number of a candidate to another one and ends there: a candidate that is
taken is passed, and a free one ends the loop. -/
inductive Ends (taken : Finset Text) (key : Text) : Nat → Nat → Prop
  | free {n : Nat} (free : candidate key n ∉ taken) : Ends taken key n n
  | increment {n m : Nat} (isTaken : candidate key n ∈ taken) (later : Ends taken key (n + 1) m) :
      Ends taken key n m

section Loop

variable {taken : Finset Text} {key : Text} {n m : Nat}

/-- A run of the loop passes taken candidates only, and ends at a free one. -/
theorem Ends.passed (ends : Ends taken key n m) :
    n ≤ m ∧ candidate key m ∉ taken ∧ ∀ j, n ≤ j → j < m → candidate key j ∈ taken := by
  induction ends with
  | @free n free => exact ⟨Nat.le_refl n, free, fun j from_n below => by omega⟩
  | @increment n m isTaken _ ih =>
      obtain ⟨later, free, passed⟩ := ih
      refine ⟨by omega, free, fun j from_n below => ?_⟩
      rcases Nat.eq_or_lt_of_le from_n with rfl | after
      · exact isTaken
      · exact passed j after below

/-- The loop has one end. -/
theorem Ends.unique {other : Nat} (ends : Ends taken key n m) (ends' : Ends taken key n other) :
    m = other := by
  obtain ⟨later, free, passed⟩ := ends.passed
  obtain ⟨later', free', passed'⟩ := ends'.passed
  rcases Nat.lt_trichotomy m other with less | same | more
  · exact absurd (passed' m later less) free
  · exact same
  · exact absurd (passed other later' more) free'

/-- The loop ends at the first candidate that is free. -/
theorem ends_of_passed (free : candidate key m ∉ taken)
    (passed : ∀ j < m, candidate key j ∈ taken) : Ends taken key 0 m := by
  -- The induction goes back from the end, so it is on how many candidates are still to pass.
  have rest : ∀ left n, n + left = m → Ends taken key n m := by
    intro left
    induction left with
    | zero =>
        rintro n rfl
        exact .free free
    | succ left ih =>
        intro n total
        apply Ends.increment (passed n (by omega))
        exact ih (n + 1) (by omega)
  exact rest m 0 (Nat.zero_add m)

/-- The loop ends, after no more increments than there are taken keys. -/
theorem exists_ends (taken : Finset Text) (key : Text) : ∃ m ≤ taken.card, Ends taken key 0 m := by
  obtain ⟨m, bound, _, free, passed⟩ := firstFree_eq taken.toList key
  simp only [Finset.mem_toList] at free passed
  refine ⟨m, ?_, ends_of_passed free passed⟩
  rwa [← List.card_toFinset, Finset.toList_toFinset] at bound

/-- The search among the keys of a list ends where the loop does. -/
theorem firstFree_of_ends {list : List Text} (ends : Ends list.toFinset key 0 m) :
    firstFree list key 0 = candidate key m := by
  obtain ⟨other, _, found, free, passed⟩ := firstFree_eq list key
  simp only [← List.mem_toFinset] at free passed
  rw [found, ends.unique (ends_of_passed free passed)]

end Loop

/-- How the search for a key ends where some keys are taken: the loop ends after some increments, at
the first candidate that is free. From a list of the taken keys that candidate is made, and it is
the one key that is taken besides afterwards. -/
structure EndsAfter (taken : Finset Text) (key : Text) (increments : Nat) : Prop where
  ends : ∀ m, Ends taken key 0 m ↔ m = increments
  bound : increments ≤ taken.card
  free : candidate key increments ∉ taken
  passed : ∀ j < increments, candidate key j ∈ taken
  made : ∀ list : List Text, list.toFinset = taken →
    (allocate list [key]).1 = [candidate key increments] ∧
      (allocate list [key]).2.toFinset = insert (candidate key increments) taken

/-- **The search for a key ends**, at the first free candidate and after no more increments than
there are taken keys. -/
theorem search_ends (taken : Finset Text) (key : Text) :
    ∃ increments, EndsAfter taken key increments := by
  obtain ⟨increments, bound, ends⟩ := exists_ends taken key
  obtain ⟨_, free, passed⟩ := ends.passed
  refine ⟨increments, fun m => ⟨fun other => other.unique ends, ?_⟩, bound, free,
    fun j => passed j (Nat.zero_le j), ?_⟩
  · rintro rfl
    exact ends
  · rintro list rfl
    have made : (allocate list [key]).1 = [candidate key increments] := by
      rw [allocate_cons, firstFree_of_ends ends]
      rfl
    refine ⟨made, ?_⟩
    rw [taken_allocate, made]
    simp

/-- The key itself and two of its suffixes are taken, and so is a suffix that is not reached. -/
example : (allocate ["ids_0_1".toList, "ids_0".toList, "ids_0_4".toList, "ids_0_2".toList]
    ["ids_0".toList]).1 = ["ids_0_3".toList] := by
  decide +kernel

end Keys
end TypedQuery
