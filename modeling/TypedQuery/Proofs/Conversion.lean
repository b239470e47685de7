import TypedQuery.Plan
import TypedQuery.Proofs.Agreement
import TypedQuery.Proofs.IntegerRange

/-!
# What becomes of supplied data

Supplied data is converted and then checked against the declared type. Conversion fails for one
reason alone, an integer without a double, which is the data itself or an item of a list
(`Supplied.convert?_eq_none_iff`).

The check is described without its course. Data conforms to a type as a value (`Plan.Conforms`), or
it misfits with a fault (`Plan.Misfits`): no item of the base type where one is asked for, nothing
that has items where an array is asked for, a first item that is none of the base type, or an array
that was made for another base type although all its items fit. The check accepts what conforms and
refuses what misfits, with the fault (`Plan.conform_eq_ok_iff`, `Plan.conform_eq_error_iff`).
-/

set_option autoImplicit false

namespace TypedQuery

/-! ## Conversion -/

/-- A list of optional results is none if one of them is. -/
theorem mapM_eq_none_iff {α β : Type} {f : α → Option β} {list : List α} :
    list.mapM f = none ↔ ∃ a ∈ list, f a = none := by
  induction list with
  | nil => simp
  | cons first later ih =>
      rw [List.mapM_cons, List.exists_mem_cons_iff, ← ih]
      cases f first with
      | none => simp
      | some result => cases later.mapM f <;> simp

/-- Each of a list of optional results comes from an item of the list. -/
theorem exists_of_mapM_eq_some {α β : Type} {f : α → Option β} {list : List α} {results : List β}
    (converts : list.mapM f = some results) {b : β} (member : b ∈ results) :
    ∃ a ∈ list, f a = some b := by
  induction list generalizing results with
  | nil =>
      obtain rfl := Option.some.inj converts
      cases member
  | cons first later ih =>
      rw [List.mapM_cons] at converts
      obtain ⟨result, here, rest⟩ := Option.bind_eq_some_iff.mp converts
      obtain ⟨results, below, same⟩ := Option.bind_eq_some_iff.mp rest
      obtain rfl := Option.some.inj same
      rcases List.mem_cons.mp member with rfl | member
      · exact ⟨first, List.mem_cons_self, here⟩
      · obtain ⟨a, inside, there⟩ := ih below member
        exact ⟨a, List.mem_cons_of_mem _ inside, there⟩

namespace Supplied

/-- An integer without a double, or a list with one. -/
inductive TooLarge : Supplied → Prop
  | int {number : Int} (beyond : Double.overflowThreshold ≤ number.natAbs) : TooLarge (.int number)
  | list {items : List Supplied} {number : Int} (member : .int number ∈ items)
      (beyond : Double.overflowThreshold ≤ number.natAbs) : TooLarge (.list items)
  | tuple {items : List Supplied} {number : Int} (member : .int number ∈ items)
      (beyond : Double.overflowThreshold ≤ number.natAbs) : TooLarge (.tuple items)

theorem convertItem?_eq_none_iff {given : Supplied} :
    given.convertItem? = none ↔
      ∃ number, given = .int number ∧ Double.overflowThreshold ≤ number.natAbs := by
  cases given with
  | int number => simp [convertItem?, Double.ofInt?_eq_none_iff]
  | _ => simp [convertItem?]

theorem convertItems?_eq_none_iff {base : BaseType} {items : List Supplied} :
    convertItems? base items = none ↔
      ∃ number, .int number ∈ items ∧ Double.overflowThreshold ≤ number.natAbs := by
  rw [convertItems?, Option.map_eq_none_iff, mapM_eq_none_iff]
  constructor
  · rintro ⟨given, member, failed⟩
    obtain ⟨number, rfl, beyond⟩ := convertItem?_eq_none_iff.mp failed
    exact ⟨number, member, beyond⟩
  · rintro ⟨number, member, beyond⟩
    exact ⟨_, member, convertItem?_eq_none_iff.mpr ⟨number, rfl, beyond⟩⟩

/-- **Conversion fails exactly for integers without a double.** -/
theorem convert?_eq_none_iff {given : Supplied} {expected : ParamType} :
    given.convert? expected = none ↔ given.TooLarge := by
  constructor
  · intro failed
    cases given with
    | list items =>
        obtain ⟨number, member, beyond⟩ := convertItems?_eq_none_iff.mp failed
        exact .list member beyond
    | tuple items =>
        obtain ⟨number, member, beyond⟩ := convertItems?_eq_none_iff.mp failed
        exact .tuple member beyond
    | int number =>
        exact .int ((Double.ofInt?_eq_none_iff number).mp (Option.map_eq_none_iff.mp failed))
    | _ => cases failed
  · intro large
    cases large with
    | int beyond => exact convertItem?_eq_none_iff.mpr ⟨_, rfl, beyond⟩
    | list member beyond | tuple member beyond =>
        exact convertItems?_eq_none_iff.mpr ⟨_, member, beyond⟩

/-! ## The type check -/

/-- Data is an item of a base type. -/
def IsItem (base : BaseType) (given : Supplied) : Prop :=
  ∃ item : Scalar, given = .value (.scalar item) ∧ item.base = base

/-- Data stands for an array and has these items: an array has its own, and so has a list. -/
inductive Holds : Supplied → List Supplied → Prop
  | array (base : BaseType) (items : List Scalar) :
      Holds (.value (.array base items)) (items.map fun item => .value (.scalar item))
  | list (items : List Supplied) : Holds (.list items) items

theorem scalar?_eq_some_iff {given : Supplied} {item : Scalar} :
    given.scalar? = some item ↔ given = .value (.scalar item) := by
  unfold scalar?
  split <;> simp_all

/-- Scalars that are the same data are the same scalars. -/
theorem map_scalar_injective :
    Function.Injective (List.map fun item : Scalar => Supplied.value (.scalar item)) :=
  List.map_injective_iff.mpr fun _ _ same => Value.scalar.inj (Supplied.value.inj same)

end Supplied

namespace Plan

/-- Data that passes for a value of a type. -/
inductive Conforms : ParamType → Supplied → Value → Prop
  | scalar {base : BaseType} {item : Scalar} (fits : item.base = base) :
      Conforms (.scalar base) (.value (.scalar item)) (.scalar item)
  | array {base : BaseType} {items : List Scalar} (fit : ∀ item ∈ items, item.base = base) :
      Conforms (.array base) (.value (.array base items)) (.array base items)
  | list {base : BaseType} {items : List Scalar} (fit : ∀ item ∈ items, item.base = base) :
      Conforms (.array base) (.list (items.map fun item => .value (.scalar item)))
        (.array base items)

/-- Data that does not pass for a value of a type, and what is wrong with it. -/
inductive Misfits : ParamType → Supplied → BindingFault → Prop
  /-- It is no item of the base type. -/
  | scalar {base : BaseType} {given : Supplied} (other : ¬ given.IsItem base) :
      Misfits (.scalar base) given (.typeMismatch (.scalar base) given.typeName)
  /-- It is neither an array nor a list. -/
  | itemless {base : BaseType} {given : Supplied} (none : ∀ items, ¬ given.Holds items) :
      Misfits (.array base) given (.typeMismatch (.array base) given.typeName)
  /-- The first item that is none of the base type is at fault. -/
  | item {base : BaseType} {given offending : Supplied} {before after : List Supplied}
      (holds : given.Holds (before ++ offending :: after))
      (fit : ∀ item ∈ before, item.IsItem base) (other : ¬ offending.IsItem base) :
      Misfits (.array base) given (.elementMismatch before.length)
  /-- All items fit, and the array was made for another base type. -/
  | madeFor {base other : BaseType} {items : List Scalar} (fit : ∀ item ∈ items, item.base = base)
      (differs : other ≠ base) :
      Misfits (.array base) (.value (.array other items))
        (.typeMismatch (.array base) (ParamType.array other).text)

theorem scalarsOf_cons {base : BaseType} {item : Scalar} (fits : item.base = base)
    (later : List Supplied) :
    scalarsOf base (.value (.scalar item) :: later) =
      match scalarsOf base later with
      | .ok items => .ok (item :: items)
      | .error index => .error (index + 1) := by
  cases below : scalarsOf base later <;> simp [scalarsOf, Supplied.scalar?, fits, below]

theorem scalarsOf_cons_of_not_isItem {base : BaseType} {given : Supplied}
    (other : ¬ given.IsItem base) (later : List Supplied) :
    scalarsOf base (given :: later) = .error 0 := by
  rw [scalarsOf]
  cases scalar : given.scalar? with
  | none => rfl
  | some item =>
      have differs : item.base ≠ base :=
        fun fits => other ⟨item, Supplied.scalar?_eq_some_iff.mp scalar, fits⟩
      exact if_neg differs

/-- Scalars of a base type pass as they are, and nothing else does. -/
theorem scalarsOf_eq_ok_iff {base : BaseType} {given : List Supplied} {items : List Scalar} :
    scalarsOf base given = .ok items ↔
      given = items.map (fun item => .value (.scalar item)) ∧ ∀ item ∈ items, item.base = base := by
  induction given generalizing items with
  | nil =>
      constructor
      · intro passed
        obtain rfl := Except.ok.inj passed
        exact ⟨rfl, List.forall_mem_nil _⟩
      · rintro ⟨whole, _⟩
        rw [List.map_eq_nil_iff.mp whole.symm, scalarsOf]
  | cons first later ih =>
      by_cases isItem : first.IsItem base
      · obtain ⟨item, rfl, fits⟩ := isItem
        rw [scalarsOf_cons fits]
        constructor
        · intro passed
          split at passed
          · next rest below =>
              obtain rfl := Except.ok.inj passed
              obtain ⟨rfl, fit⟩ := ih.mp below
              exact ⟨rfl, List.forall_mem_cons.mpr ⟨fits, fit⟩⟩
          · cases passed
        · rintro ⟨whole, fit⟩
          obtain ⟨_, rest, rfl, same, below⟩ := List.map_eq_cons_iff.mp whole.symm
          obtain rfl := Value.scalar.inj (Supplied.value.inj same)
          rw [ih.mpr ⟨below.symm, (List.forall_mem_cons.mp fit).2⟩]
      · rw [scalarsOf_cons_of_not_isItem isItem]
        constructor
        · intro passed
          cases passed
        · rintro ⟨whole, fit⟩
          obtain ⟨item, rest, rfl, rfl, _⟩ := List.map_eq_cons_iff.mp whole.symm
          exact absurd ⟨item, rfl, (List.forall_mem_cons.mp fit).1⟩ isItem

/-- The index that the check gives is that of the first item that is no scalar of the base type. -/
theorem scalarsOf_eq_error_iff {base : BaseType} {given : List Supplied} {index : Nat} :
    scalarsOf base given = .error index ↔
      ∃ before offending after, given = before ++ offending :: after ∧
        (∀ item ∈ before, item.IsItem base) ∧ ¬ offending.IsItem base ∧ index = before.length := by
  induction given generalizing index with
  | nil =>
      constructor
      · intro failed
        cases failed
      · rintro ⟨before, offending, after, whole, _⟩
        cases before <;> cases whole
  | cons first later ih =>
      by_cases isItem : first.IsItem base
      · have here := isItem
        obtain ⟨item, rfl, fits⟩ := isItem
        rw [scalarsOf_cons fits]
        constructor
        · intro failed
          split at failed
          · cases failed
          · next below =>
              obtain rfl := Except.error.inj failed
              obtain ⟨before, offending, after, rfl, fit, other, rfl⟩ := ih.mp below
              exact ⟨_ :: before, offending, after, rfl, List.forall_mem_cons.mpr ⟨here, fit⟩,
                other, rfl⟩
        · rintro ⟨before, offending, after, whole, fit, other, rfl⟩
          cases before with
          | nil =>
              obtain ⟨rfl, _⟩ := List.cons.inj whole
              exact absurd here other
          | cons _ before =>
              obtain ⟨_, rfl⟩ := List.cons.inj whole
              have below := (List.forall_mem_cons.mp fit).2
              rw [ih.mpr ⟨before, offending, after, rfl, below, other, rfl⟩]
              rfl
      · rw [scalarsOf_cons_of_not_isItem isItem]
        constructor
        · intro failed
          obtain rfl := Except.error.inj failed
          exact ⟨[], first, later, rfl, List.forall_mem_nil _, isItem, rfl⟩
        · rintro ⟨before, offending, after, whole, fit, other, rfl⟩
          cases before with
          | nil => rfl
          | cons _ before =>
              obtain ⟨rfl, _⟩ := List.cons.inj whole
              exact absurd (List.forall_mem_cons.mp fit).1 isItem

theorem items?_eq_some_iff {given : Supplied} {items : List Supplied} :
    items? given = some items ↔ given.Holds items := by
  constructor
  · intro found
    unfold items? at found
    split at found
    · obtain rfl := Option.some.inj found
      exact .array _ _
    · obtain rfl := Option.some.inj found
      exact .list _
    · cases found
  · intro holds
    cases holds <;> rfl

theorem items?_eq_none_iff {given : Supplied} :
    items? given = none ↔ ∀ items, ¬ given.Holds items := by
  rw [Option.eq_none_iff_forall_ne_some]
  exact forall_congr' fun items => not_congr items?_eq_some_iff

theorem conform_scalar {base : BaseType} {item : Scalar} (fits : item.base = base) :
    conform (.scalar base) (.value (.scalar item)) = .ok (.scalar item) := by
  simp only [conform, Supplied.scalar?, if_pos fits]

theorem conform_of_not_isItem {base : BaseType} {given : Supplied} (other : ¬ given.IsItem base) :
    conform (.scalar base) given = .error (.typeMismatch (.scalar base) given.typeName) := by
  simp only [conform]
  split
  · next item scalar =>
      exact if_neg fun fits => other ⟨item, Supplied.scalar?_eq_some_iff.mp scalar, fits⟩
  · rfl

/-- What passes the check conforms. -/
theorem conforms_of_conform {expected : ParamType} {given : Supplied} {value : Value}
    (passed : conform expected given = .ok value) : Conforms expected given value := by
  cases expected with
  | scalar base =>
      by_cases isItem : given.IsItem base
      · obtain ⟨item, rfl, fits⟩ := isItem
        obtain rfl := Except.ok.inj ((conform_scalar fits).symm.trans passed)
        exact .scalar fits
      · rw [conform_of_not_isItem isItem] at passed
        cases passed
  | array base =>
      simp only [conform] at passed
      split at passed
      · cases passed
      · next items held =>
          split at passed
          · cases passed
          · next scalars checked =>
              obtain ⟨whole, fit⟩ := scalarsOf_eq_ok_iff.mp checked
              split at passed
              · next made =>
                  obtain rfl := Except.ok.inj passed
                  cases items?_eq_some_iff.mp held with
                  | array other items =>
                      obtain rfl := Supplied.map_scalar_injective whole
                      obtain rfl : other = base := made
                      exact .array fit
                  | list =>
                      rw [whole]
                      exact .list fit
              · cases passed

/-- What the check refuses misfits. -/
theorem misfits_of_conform {expected : ParamType} {given : Supplied} {fault : BindingFault}
    (failed : conform expected given = .error fault) : Misfits expected given fault := by
  cases expected with
  | scalar base =>
      by_cases isItem : given.IsItem base
      · obtain ⟨item, rfl, fits⟩ := isItem
        rw [conform_scalar fits] at failed
        cases failed
      · obtain rfl := Except.error.inj ((conform_of_not_isItem isItem).symm.trans failed)
        exact .scalar isItem
  | array base =>
      simp only [conform] at failed
      split at failed
      · next none =>
          obtain rfl := Except.error.inj failed
          exact .itemless (items?_eq_none_iff.mp none)
      · next items held =>
          split at failed
          · next index checked =>
              obtain rfl := Except.error.inj failed
              obtain ⟨before, offending, after, rfl, fit, other, rfl⟩ :=
                scalarsOf_eq_error_iff.mp checked
              exact .item (items?_eq_some_iff.mp held) fit other
          · next scalars checked =>
              obtain ⟨whole, fit⟩ := scalarsOf_eq_ok_iff.mp checked
              split at failed
              · cases failed
              · next differs =>
                  obtain rfl := Except.error.inj failed
                  cases items?_eq_some_iff.mp held with
                  | array other items =>
                      obtain rfl := Supplied.map_scalar_injective whole
                      exact .madeFor fit differs
                  | list => exact absurd rfl differs

/-- **The check accepts what conforms**, as the value that it passes for. -/
theorem conform_eq_ok_iff {expected : ParamType} {given : Supplied} {value : Value} :
    conform expected given = .ok value ↔ Conforms expected given value := by
  refine ⟨conforms_of_conform, fun conforms => ?_⟩
  cases conforms with
  | scalar fits => exact conform_scalar fits
  | array fit | list fit =>
      simp only [conform, items?, scalarsOf_eq_ok_iff.mpr ⟨rfl, fit⟩, madeFor, if_true]

/-- **The check refuses what misfits**, with the fault. -/
theorem conform_eq_error_iff {expected : ParamType} {given : Supplied} {fault : BindingFault} :
    conform expected given = .error fault ↔ Misfits expected given fault := by
  refine ⟨misfits_of_conform, fun misfits => ?_⟩
  cases misfits with
  | scalar other => exact conform_of_not_isItem other
  | itemless none => simp only [conform, items?_eq_none_iff.mpr none]
  | item holds fit other =>
      simp only [conform, items?_eq_some_iff.mpr holds,
        scalarsOf_eq_error_iff.mpr ⟨_, _, _, rfl, fit, other, rfl⟩]
  | madeFor fit differs =>
      simp only [conform, items?, scalarsOf_eq_ok_iff.mpr ⟨rfl, fit⟩, madeFor]
      exact if_neg differs

end Plan
end TypedQuery
