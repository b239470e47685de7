import Mathlib.Logic.Relation
import TypedQuery.Proofs.ArgumentBinding

/-!
# The order of argument texts

Each declared parameter takes the texts that are given under its name, in their order. The order in
which pairs of different names come makes no difference, nor do pairs whose name is not declared
(`Arguments.only_texts_matter`). Two lists of pairs have the same texts for each declared name
exactly if one can be rearranged into the other by exchanging neighbours of different names and by
adding and removing such pairs (`Arguments.rearranged_iff`).

Where several parameters are at fault, the first one in the order of the declarations is reported.
What is at fault is said of its texts alone (`Arguments.Refuses`): there are none and there is no
default, there are several for a scalar, or there is one that stands for no item. In the last case
the first such text is reported, with its own error.
-/

set_option autoImplicit false

namespace TypedQuery

namespace Arguments

/-! ## Rearranged pairs -/

section Rearrangement

variable {names : List Text} {pairs others later later' : List (Text × Text)}

/-- A pair whose name is not declared gives no text to a declared name. -/
theorem textsOf_cons_of_undeclared {pair : Text × Text} (undeclared : pair.1 ∉ names)
    {name : Text} (declared : name ∈ names) (later : List (Text × Text)) :
    textsOf (pair :: later) name = textsOf later name := by
  have other : pair.1 ≠ name := fun same => undeclared (same ▸ declared)
  rw [textsOf_cons, if_neg other]

/-- Where a name has texts, the first of them stands in a pair in front of which no pair has the
name. -/
theorem exists_first_pair {name text : Text} {texts : List Text}
    (given : textsOf pairs name = text :: texts) : ∃ front back,
      pairs = front ++ (name, text) :: back ∧ (∀ pair ∈ front, pair.1 ≠ name) ∧
        textsOf back name = texts := by
  obtain ⟨⟨name', text'⟩, rest, kept, rfl, rfl⟩ := List.map_eq_cons_iff.mp given
  obtain ⟨front, back, rfl, passed, here, rfl⟩ := List.filter_eq_cons_iff.mp kept
  obtain rfl : name' = name := of_decide_eq_true here
  exact ⟨front, back, rfl, fun pair member same => passed pair member (decide_eq_true same), rfl⟩

/-- Neighbours of different names are exchanged, or a pair whose name is not declared is removed. -/
inductive Moves (names : List Text) : List (Text × Text) → List (Text × Text) → Prop
  | exchange (front : List (Text × Text)) {first second : Text × Text} (back : List (Text × Text))
      (apart : first.1 ≠ second.1) :
      Moves names (front ++ first :: second :: back) (front ++ second :: first :: back)
  | remove (front : List (Text × Text)) {pair : Text × Text} (back : List (Text × Text))
      (undeclared : pair.1 ∉ names) : Moves names (front ++ pair :: back) (front ++ back)

/-- One list of pairs becomes another by moves in either direction. -/
def Rearranged (names : List Text) : List (Text × Text) → List (Text × Text) → Prop :=
  Relation.EqvGen (Moves names)

theorem Moves.textsOf_eq (moves : Moves names pairs others) {name : Text}
    (declared : name ∈ names) : textsOf pairs name = textsOf others name := by
  cases moves with
  | @exchange front first second back apart =>
      simp only [textsOf_append, textsOf_cons]
      by_cases here : first.1 = name
      · have there : second.1 ≠ name := fun same => apart (here.trans same.symm)
        simp only [if_pos here, if_neg there]
      · simp only [if_neg here]
  | @remove front pair back undeclared =>
      rw [textsOf_append, textsOf_append, textsOf_cons_of_undeclared undeclared declared]

theorem Moves.cons (moves : Moves names later later') (pair : Text × Text) :
    Moves names (pair :: later) (pair :: later') := by
  cases moves with
  | exchange front back apart => exact .exchange (pair :: front) back apart
  | remove front back undeclared => exact .remove (pair :: front) back undeclared

namespace Rearranged

theorem of_moves (moves : Moves names pairs others) : Rearranged names pairs others :=
  .rel _ _ moves

theorem cons (rearranged : Rearranged names later later') (pair : Text × Text) :
    Rearranged names (pair :: later) (pair :: later') := by
  induction rearranged with
  | rel _ _ moves => exact of_moves (moves.cons pair)
  | refl => exact .refl _
  | symm _ _ _ ih => exact .symm _ _ ih
  | trans _ _ _ _ _ ih ih' => exact .trans _ _ _ ih ih'

/-- A pair comes to the front of pairs with other names. -/
theorem to_front {front : List (Text × Text)} {pair : Text × Text}
    (apart : ∀ other ∈ front, other.1 ≠ pair.1) (back : List (Text × Text)) :
    Rearranged names (front ++ pair :: back) (pair :: (front ++ back)) := by
  induction front with
  | nil => exact .refl _
  | cons first front ih =>
      obtain ⟨here, rest⟩ := List.forall_mem_cons.mp apart
      have below := (ih rest).cons first
      exact .trans _ _ _ below (of_moves (.exchange [] (front ++ back) here))

/-- Pairs without a declared name may all be removed. -/
theorem of_none (none : ∀ name ∈ names, textsOf pairs name = []) : Rearranged names pairs [] := by
  induction pairs with
  | nil => exact .refl _
  | cons pair later ih =>
      have undeclared : pair.1 ∉ names := by
        intro declared
        have some := none pair.1 declared
        rw [textsOf_cons, if_pos rfl] at some
        cases some
      have below : ∀ name ∈ names, textsOf later name = [] := by
        intro name declared
        rw [← none name declared, textsOf_cons_of_undeclared undeclared declared]
      exact .trans _ _ _ (of_moves (.remove [] later undeclared)) (ih below)

theorem of_textsOf (same : ∀ name ∈ names, textsOf pairs name = textsOf others name) :
    Rearranged names pairs others := by
  induction pairs generalizing others with
  | nil => exact .symm _ _ (of_none fun name declared => (same name declared).symm)
  | cons pair later ih =>
      by_cases declared : pair.1 ∈ names
      · have first := same pair.1 declared
        rw [textsOf_cons, if_pos rfl] at first
        obtain ⟨front, back, rfl, apart, texts⟩ := exists_first_pair first.symm
        have below : Rearranged names later (front ++ back) := by
          refine ih fun name member => ?_
          have whole := same name member
          rw [textsOf_append, textsOf_cons, textsOf_cons] at whole
          rw [textsOf_append]
          by_cases here : pair.1 = name
          · have none : textsOf front name = [] := by
              refine textsOf_eq_nil fun inside => ?_
              obtain ⟨other, inFront, named⟩ := List.mem_map.mp inside
              exact apart other inFront (named.trans here.symm)
            simpa [here, none] using whole
          · simpa [here] using whole
        exact .trans _ _ _ (below.cons pair) (.symm _ _ (to_front apart back))
      · refine .trans _ _ _ (of_moves (.remove [] later declared)) (ih fun name member => ?_)
        rw [← same name member, textsOf_cons_of_undeclared declared member]

end Rearranged

/-- **Two lists of pairs have the same texts for each declared name exactly if one can be
rearranged into the other.** -/
theorem rearranged_iff :
    Rearranged names pairs others ↔ ∀ name ∈ names, textsOf pairs name = textsOf others name := by
  refine ⟨fun rearranged name declared => ?_, Rearranged.of_textsOf⟩
  induction rearranged with
  | rel _ _ moves => exact moves.textsOf_eq declared
  | refl => rfl
  | symm _ _ _ ih => exact ih.symm
  | trans _ _ _ _ _ ih ih' => exact ih.trans ih'

end Rearrangement

/-! ## What a parameter refuses -/

section Refusal

variable {declaration : Declaration} {texts : List Text} {error : Error}

/-- The texts given under a name are no value of its parameter. -/
inductive Unfit (declaration : Declaration) : List Text → Prop
  | missing (required : declaration.default = none) : Unfit declaration []
  | repeated {first second : Text} {later : List Text}
      (scalar : declaration.type.isArray = false) : Unfit declaration (first :: second :: later)
  | rejected {texts : List Text} {text : Text} {cause : LiteralError} (member : text ∈ texts)
      (rejects : Literal.coerce declaration.type.base text = .error cause) :
      Unfit declaration texts

/-- The error with which a parameter refuses the texts given under its name. A text that stands for
no item is named if it is the first one, and a scalar looks at no text if there are several. -/
inductive Refuses (declaration : Declaration) : List Text → Error → Prop
  | missing (required : declaration.default = none) :
      Refuses declaration [] (.binding ⟨.missing, declaration.name, none⟩)
  | repeated {first second : Text} {later : List Text}
      (scalar : declaration.type.isArray = false) :
      Refuses declaration (first :: second :: later)
        (.binding ⟨.invalidArgument (Text.join [',', ' '] (first :: second :: later)) none,
          declaration.name, none⟩)
  | rejected {before after : List Text} {text : Text} {cause : LiteralError}
      (single : declaration.type.isArray = false → before = [] ∧ after = [])
      (taken : ∀ other ∈ before, ∃ item, Literal.coerce declaration.type.base other = .ok item)
      (rejects : Literal.coerce declaration.type.base text = .error cause) :
      Refuses declaration (before ++ text :: after)
        (.binding ⟨.invalidArgument text (some cause), declaration.name, none⟩)

theorem Refuses.unfit (refuses : Refuses declaration texts error) : Unfit declaration texts := by
  cases refuses with
  | missing required => exact .missing required
  | repeated scalar => exact .repeated scalar
  | rejected _ _ rejects => exact .rejected (List.mem_append_right _ List.mem_cons_self) rejects

theorem item_eq_ok_iff {text : Text} {found : Scalar} : item declaration text = .ok found ↔
    Literal.coerce declaration.type.base text = .ok found := by
  unfold item
  split
  · next taken => rw [taken, Except.ok.injEq, Except.ok.injEq]
  · next rejects => simp [rejects]

theorem item_eq_error_iff {text : Text} : item declaration text = .error error ↔
    ∃ cause, Literal.coerce declaration.type.base text = .error cause ∧
      error = .binding ⟨.invalidArgument text (some cause), declaration.name, none⟩ := by
  unfold item
  split
  · next taken => simp [taken]
  · next rejects => simp [rejects, eq_comm]

theorem items_eq_mapM (texts : List Text) :
    items declaration texts = texts.mapM (item declaration) := by
  induction texts with
  | nil => rfl
  | cons text later ih =>
      rw [items, mapM_cons, ih]
      cases item declaration text <;> rfl

theorem value_of_array {base : BaseType} (isArray : declaration.type = .array base)
    (some : texts ≠ []) :
    value declaration texts = (texts.mapM (item declaration)).map (.array base) := by
  obtain ⟨text, later, rfl⟩ := List.exists_cons_of_ne_nil some
  rw [← items_eq_mapM]
  simp only [value, isArray]

/-- **A parameter fails with the error of its texts**, and only where they are refused. -/
theorem value_eq_error_iff :
    value declaration texts = .error error ↔ Refuses declaration texts error := by
  constructor
  · intro failed
    unfold value at failed
    split at failed
    · split at failed
      · cases failed
      · next required =>
          obtain rfl := Except.error.inj failed
          exact .missing required
    · next isArray =>
        rw [map_eq_error_iff, items_eq_mapM, mapM_eq_error_iff] at failed
        obtain ⟨before, text, after, rfl, taken, here⟩ := failed
        obtain ⟨cause, rejects, rfl⟩ := item_eq_error_iff.mp here
        refine .rejected (fun scalar => ?_) ?_ rejects
        · rw [isArray] at scalar
          cases scalar
        · intro other member
          obtain ⟨found, there⟩ := taken other member
          exact ⟨found, item_eq_ok_iff.mp there⟩
    · next text _ _ =>
        obtain ⟨cause, rejects, rfl⟩ := item_eq_error_iff.mp (map_eq_error_iff.mp failed)
        exact @Refuses.rejected _ [] [] _ _ (fun _ => ⟨rfl, rfl⟩) (List.forall_mem_nil _) rejects
    · next texts _ _ base some several isScalar =>
        obtain rfl := Except.error.inj failed
        have scalar : declaration.type.isArray = false := by
          rw [isScalar]
          rfl
        rcases texts with _ | ⟨first, _ | ⟨second, later⟩⟩
        · exact absurd rfl some
        · exact absurd rfl (several first)
        · exact .repeated scalar
  · intro refuses
    cases refuses with
    | missing required => simp only [value, required]
    | repeated scalar =>
        cases type : declaration.type with
        | scalar base => simp only [value, type]
        | array base =>
            rw [type] at scalar
            cases scalar
    | @rejected before after text cause single taken rejects =>
        have here := item_eq_error_iff.mpr ⟨cause, rejects, rfl⟩
        cases type : declaration.type with
        | scalar base =>
            rw [type] at single
            obtain ⟨rfl, rfl⟩ := single rfl
            simp only [List.nil_append, value, type, here]
            rfl
        | array base =>
            rw [value_of_array type (by simp), map_eq_error_iff, mapM_eq_error_iff]
            refine ⟨before, text, after, rfl, fun other member => ?_, here⟩
            obtain ⟨found, there⟩ := taken other member
            exact ⟨found, item_eq_ok_iff.mpr there⟩

/-- A parameter takes a value only if each of its texts stands for an item. -/
theorem exists_item_of_value {found : Value} (taken : value declaration texts = .ok found) :
    ∀ text ∈ texts, ∃ found, item declaration text = .ok found := by
  unfold value at taken
  split at taken
  · exact List.forall_mem_nil _
  · obtain ⟨found, all, _⟩ := map_eq_ok_iff.mp taken
    rw [items_eq_mapM] at all
    exact fun text member => exists_of_mapM_ok all member
  · obtain ⟨found, here, _⟩ := map_eq_ok_iff.mp taken
    exact List.forall_mem_singleton.mpr ⟨found, here⟩
  · cases taken

/-- **A parameter takes a value from its texts exactly if they are not unfit for it.** -/
theorem exists_value_iff :
    (∃ found, value declaration texts = .ok found) ↔ ¬ Unfit declaration texts := by
  constructor
  · rintro ⟨found, taken⟩ unfit
    cases unfit with
    | missing required => cases taken.symm.trans (value_eq_error_iff.mpr (.missing required))
    | repeated scalar => cases taken.symm.trans (value_eq_error_iff.mpr (.repeated scalar))
    | rejected member rejects =>
        obtain ⟨found, here⟩ := exists_item_of_value taken _ member
        cases rejects.symm.trans (item_eq_ok_iff.mp here)
  · intro fit
    cases taken : value declaration texts with
    | ok found => exact ⟨found, rfl⟩
    | error error => exact absurd (value_eq_error_iff.mp taken).unfit fit

end Refusal

/-! ## All parameters -/

section Parameters

variable (declarations : List Declaration) (pairs : List (Text × Text))

/-- A declared name with the value that its parameter takes from some pairs. -/
def entry (declaration : Declaration) : Except Error (Text × Value) :=
  (value declaration (textsOf pairs declaration.name)).map (declaration.name, ·)

theorem entries_eq_mapM :
    entries (collect pairs) declarations = declarations.mapM (entry pairs) := by
  induction declarations with
  | nil => rfl
  | cons declaration later ih =>
      rw [entries, textsUnder_collect, mapM_cons, ih, entry]
      cases value declaration (textsOf pairs declaration.name) <;> rfl

theorem exists_entry_iff (declaration : Declaration) :
    (∃ found, entry pairs declaration = .ok found) ↔
      ¬ Unfit declaration (textsOf pairs declaration.name) := by
  rw [← exists_value_iff]
  constructor
  · rintro ⟨_, taken⟩
    obtain ⟨found, here, _⟩ := map_eq_ok_iff.mp taken
    exact ⟨found, here⟩
  · rintro ⟨found, here⟩
    exact ⟨_, map_eq_ok_iff.mpr ⟨found, here, rfl⟩⟩

theorem entry_eq_error_iff (declaration : Declaration) (error : Error) :
    entry pairs declaration = .error error ↔
      Refuses declaration (textsOf pairs declaration.name) error := by
  rw [entry, map_eq_error_iff, value_eq_error_iff]

/-- What the pairs of a name and a text decide: nothing but the texts of each declared name, in
their order, makes a difference. The parameter that comes first of those whose texts are unfit
refuses them. -/
structure OnlyTextsMatter : Prop where
  same : ∀ others, (∀ declaration ∈ declarations,
      textsOf pairs declaration.name = textsOf others declaration.name) →
    values declarations pairs = values declarations others
  rearranged : ∀ others, Rearranged (declarations.map Declaration.name) pairs others →
    values declarations pairs = values declarations others
  succeeds : (∃ found, values declarations pairs = .ok found) ↔
    ∀ declaration ∈ declarations, ¬ Unfit declaration (textsOf pairs declaration.name)
  fails : ∀ error, values declarations pairs = .error error ↔
    ∃ earlier declaration later, declarations = earlier ++ declaration :: later ∧
      (∀ other ∈ earlier, ¬ Unfit other (textsOf pairs other.name)) ∧
      Refuses declaration (textsOf pairs declaration.name) error

theorem values_congr {declarations : List Declaration} {pairs others : List (Text × Text)}
    (same : ∀ declaration ∈ declarations,
      textsOf pairs declaration.name = textsOf others declaration.name) :
    values declarations pairs = values declarations others := by
  have each : ∀ declaration ∈ declarations, entry pairs declaration = entry others declaration :=
    fun declaration member => by rw [entry, entry, same declaration member]
  rw [values, values, entries_eq_mapM, entries_eq_mapM, mapM_congr each]

theorem values_eq_error_iff (error : Error) : values declarations pairs = .error error ↔
    ∃ earlier declaration later, declarations = earlier ++ declaration :: later ∧
      (∀ other ∈ earlier, ¬ Unfit other (textsOf pairs other.name)) ∧
      Refuses declaration (textsOf pairs declaration.name) error := by
  simp only [values, map_eq_error_iff, entries_eq_mapM, mapM_eq_error_iff, exists_entry_iff,
    entry_eq_error_iff]

/-- **Only the texts of each declared name matter**, in their own order, for the values and for the
error. -/
theorem only_texts_matter : OnlyTextsMatter declarations pairs where
  same _ := values_congr
  rearranged others moved := by
    have texts := rearranged_iff.mp moved
    exact values_congr fun declaration member => texts _ (List.mem_map_of_mem member)
  succeeds := by
    constructor
    · rintro ⟨found, taken⟩ declaration member
      obtain ⟨_, all, _⟩ := map_eq_ok_iff.mp taken
      rw [entries_eq_mapM] at all
      exact (exists_entry_iff pairs declaration).mp (exists_of_mapM_ok all member)
    · intro fit
      cases taken : values declarations pairs with
      | ok found => exact ⟨found, rfl⟩
      | error error =>
          obtain ⟨_, declaration, _, rfl, _, refuses⟩ :=
            (values_eq_error_iff declarations pairs error).mp taken
          exact absurd refuses.unfit (fit _ (List.mem_append_right _ List.mem_cons_self))
  fails := values_eq_error_iff declarations pairs

end Parameters

/-- Two parameters are at fault, and the first one for two texts. -/
example :
    let ids : Declaration := ⟨"ids".toList, .array .num, none, "ids".toList, 0⟩
    let limit : Declaration := ⟨"limit".toList, .scalar .num, none, "limit".toList, 1⟩
    let pairs := [("limit".toList, "ten".toList), ("ids".toList, "1".toList),
      ("ids".toList, "two".toList), ("page".toList, "3".toList), ("ids".toList, "four".toList)]
    (values [ids, limit] pairs).map Table.entries = .error (.binding
      ⟨.invalidArgument "two".toList (some ⟨.invalidNumber, "two".toList, 0⟩), "ids".toList,
        none⟩) := by
  decide +kernel

end Arguments
end TypedQuery
