import TypedQuery.Header
import TypedQuery.Proofs.Agreement
import TypedQuery.Proofs.Lines

/-!
# Declaring lines and the body

A text is split between two lines. The header takes the earlier lines, which declare its parameters
one after the other (`Header.Declared`), and the later ones are the body, of which the first opens
no declaration (`Header.ofLines_eq_ok_iff`). What a line declares depends on the lines above only in
two ways: their number is the order of the declaration, and no name may stand twice. So lines with
different names declare the same parameters in front of any body and in any order
(`Header.declared_of_declares`).

The body is cut into just the later lines again. So a text is its own body, without declarations,
exactly when its first line opens none.
-/

set_option autoImplicit false

namespace TypedQuery

namespace Declaration

/-- A line that opens a declaration starts with the marker. -/
theorem prefix_of_opening? {marker line : Text} {found : Text × Text}
    (opens : opening? marker line = some found) : marker <+: line := by
  unfold opening? at opens
  split at opens
  · cases opens
  · next rest marked => exact ⟨rest, ((Text.dropOpening?_eq_some_iff _ _ _).mp marked).symm⟩

/-- A declaration is read in three steps, one for each of its parts after the name. -/
theorem read_eq_ok_iff {name input : Text} {order : Nat} {declaration : Declaration} :
    read name order input = .ok declaration ↔ ∃ type rest default after help,
      readType input = .ok (type, rest) ∧
      readDefault type (Text.dropBlanks rest) = .ok (default, after) ∧
      readHelp name (Text.dropBlanks after) = .ok help ∧
      declaration = ⟨name, type, default, help, order⟩ := by
  constructor
  · intro taken
    unfold read at taken
    simp only [bind, Except.bind, pure, Except.pure] at taken
    split at taken
    · cases taken
    · next typed first =>
        split at taken
        · cases taken
        · next given second =>
            split at taken
            · cases taken
            · next help third =>
                exact ⟨_, _, _, _, help, first, second, third, (Except.ok.inj taken).symm⟩
  · rintro ⟨type, rest, default, after, help, first, second, third, rfl⟩
    simp only [read, bind, Except.bind, first, second, third, pure, Except.pure]

/-- A line declares a parameter. -/
def Declares (marker line : Text) (declaration : Declaration) : Prop :=
  ∃ rest, opening? marker (Text.chomp line) = some (declaration.name, rest) ∧
    read declaration.name declaration.order rest = .ok declaration

/-- What a line declares does not depend on the lines above but for the order. -/
theorem Declares.renumber {marker line : Text} {declaration : Declaration}
    (declares : Declares marker line declaration) (order : Nat) :
    Declares marker line { declaration with order } := by
  obtain ⟨rest, opens, taken⟩ := declares
  obtain ⟨type, after, default, last, help, first, second, third, same⟩ := read_eq_ok_iff.mp taken
  refine ⟨rest, opens, read_eq_ok_iff.mpr ?_⟩
  exact ⟨type, after, default, last, help, first, second, third, by rw [same]⟩

end Declaration

namespace Header

open Declaration

/-! ## Lines that declare parameters -/

/-- A line declares a parameter below some names if no name above is the same. -/
theorem declare_eq_ok_iff {marker line : Text} {above : List Text} {declaration : Declaration} :
    declare marker above (Text.chomp line) = some (.ok declaration) ↔
      Declares marker line declaration ∧ declaration.order = above.length ∧
        declaration.name ∉ above := by
  constructor
  · intro declared
    obtain ⟨⟨name, rest⟩, opens, outcome⟩ := Option.map_eq_some_iff.mp declared
    simp only at outcome
    split at outcome
    · cases outcome
    · next taken =>
        split at outcome
        · cases outcome
        · next new =>
            obtain rfl := Except.ok.inj outcome
            obtain ⟨_, _, _, _, _, _, _, _, same⟩ := read_eq_ok_iff.mp taken
            subst same
            exact ⟨⟨rest, opens, taken⟩, rfl, new⟩
  · rintro ⟨⟨rest, opens, taken⟩, order, new⟩
    rw [order] at taken
    simp only [declare, opens, Option.map_some, taken, if_neg new]

/-- Lines declare parameters one after the other, below some names: no two names are the same, and
the order of a declaration counts the names above it. -/
inductive Declared (marker : Text) : List Text → List Text → List Declaration → Prop where
  | nil {above : List Text} : Declared marker above [] []
  | cons {above lines : List Text} {line : Text} {declaration : Declaration}
      {later : List Declaration} (declares : Declares marker line declaration)
      (order : declaration.order = above.length) (new : declaration.name ∉ above)
      (below : Declared marker (above ++ [declaration.name]) lines later) :
      Declared marker above (line :: lines) (declaration :: later)

/-- A header goes on below the lines that declare its first parameters. -/
theorem Declared.ofLines_append {marker : Text} {above earlier : List Text}
    {declarations : List Declaration} (declared : Declared marker above earlier declarations)
    (later : List Text) :
    ofLines marker above (earlier ++ later) =
      (ofLines marker (above ++ declarations.map Declaration.name) later).map fun header =>
        ⟨declarations ++ header.declarations, header.body⟩ := by
  induction declared with
  | nil =>
      rw [List.map_nil, List.append_nil, List.nil_append]
      cases ofLines marker _ later <;> rfl
  | @cons above lines line declaration declarations declares order new _ ih =>
      have first := declare_eq_ok_iff.mpr ⟨declares, order, new⟩
      rw [List.cons_append, ofLines, first, List.map_cons, List.append_cons]
      simp only [ih]
      cases ofLines marker _ later <;> rfl

/-- A header takes the earlier lines, which declare its parameters, and leaves the later ones, of
which the first opens no declaration. -/
theorem ofLines_eq_ok_iff {marker : Text} {above lines : List Text} {header : Header} :
    ofLines marker above lines = .ok header ↔ ∃ earlier later, lines = earlier ++ later ∧
      Declared marker above earlier header.declarations ∧ header.body = later.flatten ∧
      ∀ line, later.head? = some line → opening? marker (Text.chomp line) = none := by
  constructor
  · intro taken
    induction lines generalizing above header with
    | nil =>
        obtain rfl := Except.ok.inj taken
        exact ⟨[], [], rfl, .nil, rfl, fun _ first => by cases first⟩
    | cons line later ih =>
        unfold ofLines at taken
        split at taken
        · next closed =>
            obtain rfl := Except.ok.inj taken
            refine ⟨[], line :: later, rfl, .nil, rfl, fun other first => ?_⟩
            obtain rfl := Option.some.inj first
            exact Option.map_eq_none_iff.mp closed
        · cases taken
        · next declaration declared =>
            obtain ⟨rest, below, rfl⟩ := map_eq_ok_iff.mp taken
            obtain ⟨declares, order, new⟩ := declare_eq_ok_iff.mp declared
            obtain ⟨earlier, last, cut, found, body, closed⟩ := ih below
            exact ⟨line :: earlier, last, congrArg (line :: ·) cut, .cons declares order new found,
              body, closed⟩
  · rintro ⟨earlier, later, rfl, declared, body, closed⟩
    have rest (names : List Text) : ofLines marker names later = .ok ⟨[], header.body⟩ := by
      rw [body]
      cases later with
      | nil => rfl
      | cons line later =>
          have unopened : declare marker names (Text.chomp line) = none :=
            Option.map_eq_none_iff.mpr (closed line rfl)
          rw [ofLines, unopened]
    rw [declared.ofLines_append, rest]
    simp only [Except.map, List.append_nil]

variable {marker : Text} {above lines : List Text} {declarations : List Declaration}

theorem Declared.declares (declared : Declared marker above lines declarations) :
    List.Forall₂ (Declares marker) lines declarations := by
  induction declared with
  | nil => exact .nil
  | cons declares _ _ _ ih => exact .cons declares ih

theorem Declared.orders (declared : Declared marker above lines declarations) :
    declarations.map Declaration.order = List.range' above.length declarations.length := by
  induction declared with
  | nil => rfl
  | cons _ order _ _ ih =>
      rw [List.map_cons, order, ih, List.length_append, List.length_singleton]
      rfl

theorem Declared.exists_line (declared : Declared marker above lines declarations)
    {declaration : Declaration} (member : declaration ∈ declarations) :
    ∃ line ∈ lines, Declares marker line declaration := by
  induction declared with
  | nil => cases member
  | cons declares _ _ _ ih =>
      rcases List.mem_cons.mp member with rfl | member
      · exact ⟨_, List.mem_cons_self, declares⟩
      · obtain ⟨line, inside, declares⟩ := ih member
        exact ⟨line, List.mem_cons_of_mem _ inside, declares⟩

/-- No two names are the same if the names above are not. -/
theorem Declared.distinct (declared : Declared marker above lines declarations)
    (separate : above.Nodup) : (above ++ declarations.map Declaration.name).Nodup := by
  induction declared with
  | nil => rwa [List.map_nil, List.append_nil]
  | cons _ _ new _ ih =>
      rw [List.map_cons, List.append_cons]
      refine ih (List.nodup_append.mpr ⟨separate, List.pairwise_singleton _ _, ?_⟩)
      intro name member other last same
      rw [List.mem_singleton.mp last] at same
      exact new (same ▸ member)

/-- Lines that declare parameters with different names declare them one after the other, with the
orders counted anew. -/
theorem declared_of_declares (declares : List.Forall₂ (Declares marker) lines declarations)
    (distinct : (above ++ declarations.map Declaration.name).Nodup) :
    Declared marker above lines (declarations.mapIdx fun index declaration =>
      { declaration with order := above.length + index }) := by
  induction declares generalizing above with
  | nil => exact .nil
  | @cons line declaration lines later first _ ih =>
      rw [List.map_cons, List.append_cons] at distinct
      have below := ih distinct
      rw [List.mapIdx_cons]
      refine .cons (first.renumber _) rfl ?_ ?_
      · intro member
        have apart := (List.nodup_append.mp (List.nodup_append.mp distinct).1).2.2
        exact apart _ member _ List.mem_cons_self rfl
      · rw [List.length_append, List.length_singleton] at below
        have shift : ∀ index, above.length + 1 + index = above.length + (index + 1) := by
          intro index
          omega
        simpa only [shift] using below

/-! ## The body -/

/-- No declaration opens in the first line of a text, if it has one. -/
def OpensNone (marker text : Text) : Prop :=
  ∀ line, (Text.lines text).head? = some line →
    Declaration.opening? marker (Text.chomp line) = none

/-- A body opens no declaration. -/
theorem opensNone_body {marker text : Text} {header : Header}
    (taken : read marker text = .ok header) : OpensNone marker header.body := by
  obtain ⟨earlier, later, cut, _, body, closed⟩ := ofLines_eq_ok_iff.mp taken
  intro line first
  rw [body, Text.lines_flatten_append cut] at first
  exact closed line first

/-- A text that opens no declaration is its own body, whatever names are declared above. -/
theorem ofLines_of_opensNone {marker text : Text} (closed : OpensNone marker text)
    (above : List Text) : ofLines marker above (Text.lines text) = .ok ⟨[], text⟩ :=
  ofLines_eq_ok_iff.mpr ⟨[], Text.lines text, rfl, .nil, (Text.flatten_lines text).symm, closed⟩

theorem read_of_opensNone {marker text : Text} (closed : OpensNone marker text) :
    read marker text = .ok ⟨[], text⟩ :=
  ofLines_of_opensNone closed []

end Header
end TypedQuery
