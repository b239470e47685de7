import Mathlib.Data.List.Find
import TypedQuery.Proofs.Continuation
import TypedQuery.Proofs.Resolution
import TypedQuery.Proofs.Soundness
import TypedQuery.Proofs.Substitution
import TypedQuery.Proofs.Tables

/-!
# The names of parameters do not matter

A renaming takes names to names and keeps those apart that a query mentions. The query with the
new names is the old one in every respect that a caller of the database can see
(`Query.rename_alike`).

This is shown along the steps of a run. A name ends where the next token starts, so new names
between the same tokens are read as the new names: the references of the new body are the old ones
under their new names, and each is moved by what the names before it have grown
(`Body.relocated_references`). Declarations and supplied values are found under the new names as
they were under the old ones, so the references are resolved to the same values or refused for the
same faults (`Plan.bindOne_rename`). What a value writes by position does not depend on a name, and
around the references the two bodies are equal (`Plan.render_rename`).
-/

set_option autoImplicit false

namespace TypedQuery

variable {r : Text → Text}

/-- Names are taken to names. -/
def Text.PreservesNames (r : Text → Text) : Prop :=
  ∀ name, Text.isName name = true → Text.isName (r name) = true

namespace Body

/-! ## Bodies with other names -/

/-- A token with another name, if it is a reference. -/
def Token.rename (r : Text → Text) : Token → Token
  | .reference name => .reference (r name)
  | token => token

theorem Token.rename_of_kept {token : Token} (kept : ∀ name, token ≠ .reference name) :
    token.rename r = token := by
  cases token with
  | reference name => exact absurd rfl (kept name)
  | plain | span | server => rfl

/-- A body with an at sign and another name in the place of each reference. -/
def respell (r : Text → Text) (body : Text) : Text :=
  splice body 0 ((references body).map fun reference => (reference, '@' :: r reference.name))

/-- Other names in the place of references are other names of tokens. -/
theorem textOf_substitute_locate (r : Text → Text) (tokens : List Token) (offset : Nat) :
    textOf (substitute tokens
        ((locate offset tokens).map fun reference => '@' :: r reference.name)) =
      textOf (tokens.map (Token.rename r)) := by
  induction tokens generalizing offset with
  | nil => rfl
  | cons token later ih =>
      rcases token.kept_or_reference with kept | ⟨name, rfl⟩
      · rw [locate_of_kept kept, substitute_cons kept, textOf_cons, ih, List.map_cons,
          Token.rename_of_kept kept, textOf_cons]
      · rw [locate, List.map_cons, substitute, textOf_plain_append, ih]
        rfl

theorem respell_eq_textOf (r : Text → Text) (body : Text) :
    respell r body = textOf ((tokens body).map (Token.rename r)) := by
  rw [respell, splice_references, List.map_map]
  · exact textOf_substitute_locate r (tokens body) 0
  · rw [List.map_map]
    exact List.map_id _

/-- A reference is whole under another name where it was whole. -/
theorem Front.rename (named : Text.PreservesNames r) {token : Token} {rest rest' : Text}
    (front : Front token rest) (start : SameStart rest rest') : Front (token.rename r) rest' := by
  rcases token.kept_or_reference with kept | ⟨name, rfl⟩
  · rw [Token.rename_of_kept kept]
    exact front.sameStart start
  · cases front with
    | reference isName ends => exact .reference (named name isName) (start.endsName ends)

/-- Texts that start with a token under different names start in the same way. -/
theorem Front.sameStart_rename {token : Token} {rest : Text} (front : Front token rest)
    (rest' : Text) : SameStart (token.text ++ rest) ((token.rename r).text ++ rest') := by
  rcases token.kept_or_reference with kept | ⟨name, rfl⟩
  · rw [Token.rename_of_kept kept]
    exact front.sameStart_append rest'
  · exact .same

/-- **A body with other names is cut into the same tokens with other names.** -/
theorem tokens_rename (named : Text.PreservesNames r) (body : Text) :
    tokens (textOf ((tokens body).map (Token.rename r))) = (tokens body).map (Token.rename r) ∧
      SameStart body (textOf ((tokens body).map (Token.rename r))) := by
  induction body using token_induction with
  | nil =>
      have empty : tokens [] = [] := by rw [tokens]
      rw [empty]
      exact ⟨empty, .ended⟩
  | cons token rest front ih =>
      obtain ⟨cut, start⟩ := ih
      rw [tokens_of_front front, List.map_cons, textOf_cons,
        tokens_of_front (front.rename named start), cut]
      exact ⟨rfl, front.sameStart_rename _⟩

theorem tokens_respell (named : Text.PreservesNames r) (body : Text) :
    tokens (respell r body) = (tokens body).map (Token.rename r) := by
  rw [respell_eq_textOf, (tokens_rename named body).1]

/-! ## References under other names -/

/-- How much longer a name becomes. -/
def growth (r : Text → Text) (name : Text) : Int := (r name).length - name.length

/-- References under other names, in their order, each moved by what the names before it have
grown. -/
inductive Relocated (r : Text → Text) : Int → List Reference → List Reference → Prop where
  | nil (shift : Int) : Relocated r shift [] []
  | cons {shift : Int} {reference moved : Reference} {later later' : List Reference}
      (name : moved.name = r reference.name) (start : moved.start = reference.start + shift)
      (stop : moved.stop = reference.stop + (shift + growth r reference.name))
      (rest : Relocated r (shift + growth r reference.name) later later') :
      Relocated r shift (reference :: later) (moved :: later')

theorem relocated_locate (r : Text → Text) (tokens : List Token) {offset offset' : Nat}
    {shift : Int} (moved : offset' = offset + shift) :
    Relocated r shift (locate offset tokens) (locate offset' (tokens.map (Token.rename r))) := by
  induction tokens generalizing offset offset' shift with
  | nil => exact .nil shift
  | cons token later ih =>
      rcases token.kept_or_reference with kept | ⟨name, rfl⟩
      · rw [List.map_cons, Token.rename_of_kept kept, locate_of_kept kept, locate_of_kept kept]
        exact ih (by omega)
      · have stop : ((offset' + (Token.reference (r name)).text.length : Nat) : Int) =
            (offset + (Token.reference name).text.length : Nat) + (shift + growth r name) := by
          simp only [Token.text, List.length_cons, growth]
          omega
        exact .cons rfl moved stop (ih stop)

theorem relocated_references (named : Text.PreservesNames r) (body : Text) :
    Relocated r 0 (references body) (references (respell r body)) := by
  rw [references, references, tokens_respell named]
  exact relocated_locate r (tokens body) rfl

/-- Where each reference has a text in its place, its name does not matter. -/
theorem substitute_rename {tokens : List Token} {offset : Nat} {pieces : List Text}
    (count : pieces.length = (locate offset tokens).length) :
    substitute (tokens.map (Token.rename r)) pieces = substitute tokens pieces := by
  induction tokens generalizing offset pieces with
  | nil => rfl
  | cons token later ih =>
      rcases token.kept_or_reference with kept | ⟨name, rfl⟩
      · rw [locate_of_kept kept] at count
        rw [List.map_cons, Token.rename_of_kept kept, substitute_cons kept, substitute_cons kept,
          ih count]
      · cases pieces with
        | nil => cases count
        | cons piece pieces =>
            rw [List.map_cons, Token.rename, substitute, substitute, ih (Nat.succ.inj count)]

theorem fillIn_respell (named : Text.PreservesNames r) {body : Text} {pieces : List Text}
    (count : pieces.length = (references body).length) :
    fillIn (respell r body) pieces = fillIn body pieces := by
  rw [fillIn, tokens_respell named, substitute_rename count, fillIn]

end Body

/-! ## Queries with other names -/

/-- A declaration with another name. -/
def Declaration.rename (r : Text → Text) (declaration : Declaration) : Declaration :=
  { declaration with name := r declaration.name }

namespace Query

/-- A query with other names. -/
def rename (r : Text → Text) (query : Query) : Query :=
  let body := Body.respell r query.body
  ⟨query.declarations.map (Declaration.rename r), body, Body.references body⟩

/-- The names that a query declares or refers to. -/
def mentioned (query : Query) : List Text := query.names ++ query.references.map Reference.name

/-- Names are taken to names, and those that a query mentions are kept apart. -/
structure Renaming (query : Query) (r : Text → Text) : Prop where
  named : Text.PreservesNames r
  apart : ∀ first ∈ query.mentioned, ∀ second ∈ query.mentioned, r first = r second →
    first = second

/-- The declaration of a name is found under its other name. -/
theorem Renaming.declaration? {query : Query} (renames : query.Renaming r) {name : Text}
    (mentioned : name ∈ query.mentioned) :
    (query.rename r).declaration? (r name) =
      (query.declaration? name).map (Declaration.rename r) := by
  have same : ∀ declaration ∈ query.declarations,
      (decide ((declaration.rename r).name = r name)) = decide (declaration.name = name) := by
    intro declaration member
    have declared : declaration.name ∈ query.mentioned :=
      List.mem_append_left _ (List.mem_map_of_mem member)
    exact decide_eq_decide.mpr ⟨renames.apart _ declared _ mentioned, congrArg r⟩
  rw [Query.declaration?, Query.declaration?, rename, List.find?_map]
  exact congrArg (Option.map _) (List.find?_congr same)

theorem Sound.rename {query : Query} (sound : query.Sound) (r : Text → Text) :
    (query.rename r).Sound := by
  intro declaration member
  obtain ⟨first, inside, rfl⟩ := List.mem_map.mp member
  exact sound first inside

end Query

/-! ## Binding -/

/-- An error of a query and the error of the query with other names: a fault of one parameter,
asked for by references that belong together, or no fault of a parameter. -/
inductive Error.Renamed (r : Text → Text) (together : List (Reference × Reference)) :
    Error → Error → Prop where
  | binding (fault : BindingFault) {reference moved : Reference}
      (pair : (reference, moved) ∈ together) :
      Renamed r together (.binding ⟨fault, reference.name, some reference.start⟩)
        (.binding ⟨fault, r reference.name, some moved.start⟩)
  | integerTooLarge : Renamed r together .integerTooLarge .integerTooLarge

namespace Plan

/-- A parameter is resolved under another name as it was, if what is supplied for it is. -/
theorem resolve_rename {declaration : Declaration} {values values' : Table Supplied}
    (same : values'.get? (r declaration.name) = values.get? declaration.name)
    {together : List (Reference × Reference)} {reference moved : Reference}
    (pair : (reference, moved) ∈ together) (named : declaration.name = reference.name) :
    Matched (Error.Renamed r together) Eq (resolve declaration values reference.start)
      (resolve (declaration.rename r) values' moved.start) := by
  have fault : ∀ fault, Error.Renamed r together
      (.binding ⟨fault, declaration.name, some reference.start⟩)
      (.binding ⟨fault, r declaration.name, some moved.start⟩) := by
    intro fault
    rw [named]
    exact .binding fault pair
  simp only [resolve, Declaration.rename, same]
  split
  · split
    · exact .error .integerTooLarge
    · split
      · exact .ok rfl
      · exact .error (fault _)
  · split
    · exact .ok rfl
    · exact .error (fault _)

/-- One step: a reference is bound under its other name as it was. -/
theorem bindOne_rename {query : Query} (renames : query.Renaming r) (values : Table Supplied)
    {together : List (Reference × Reference)} {reference moved : Reference}
    (pair : (reference, moved) ∈ together) (inside : reference ∈ query.references)
    (name : moved.name = r reference.name) :
    Matched (Error.Renamed r together) (fun first second => first.value = second.value)
      (bindOne query values reference)
      (bindOne (query.rename r) ((values.keep query.names).rename r) moved) := by
  have mentioned : reference.name ∈ query.mentioned :=
    List.mem_append_right _ (List.mem_map_of_mem inside)
  rw [bindOne, bindOne, name, renames.declaration? mentioned]
  cases declared : query.declaration? reference.name with
  | none => exact .error (.binding .undefinedReference pair)
  | some declaration =>
      obtain ⟨member, named⟩ := Query.mem_of_declaration? declared
      have known : declaration.name ∈ query.names := List.mem_map_of_mem member
      have kept : ∀ name ∈ (values.keep query.names).names, name ∈ query.mentioned := by
        intro name member
        obtain ⟨entry, inside, rfl⟩ := List.mem_map.mp member
        exact List.mem_append_left _ (of_decide_eq_true (List.mem_filter.mp inside).2)
      have same : ((values.keep query.names).rename r).get? (r declaration.name) =
          values.get? declaration.name := by
        rw [Table.get?_rename renames.apart kept (List.mem_append_left _ known), Table.get?_keep,
          if_pos known]
      exact (resolve_rename same pair named).map fun _ _ value => value

end Plan

/-! ## Rendering -/

/-- What a binding writes by position does not depend on the name of its parameter. -/
theorem Binding.written_congr (text : Text) {binding binding' : Binding}
    (same : binding.value = binding'.value) :
    binding.written (fun _ => text) = binding'.written fun _ => text := by
  rw [written, written, same, Value.fill_template_congr]

namespace Plan

/-- Plans that a placeholder by position, asked for in any way, makes the same rendering of. -/
def RenderAlike (plan plan' : Plan) : Prop :=
  ∀ asked dialect placeholder, Placeholder.choose asked dialect = .ok placeholder →
    placeholder ≠ .named → ∃ rendering, plan.renderAs asked dialect = .ok rendering ∧
      plan'.renderAs asked dialect = .ok rendering

/-- Plans for bodies with different names, and with the same values, render alike. -/
theorem render_rename (named : Text.PreservesNames r) {plan plan' : Plan}
    {last last' : Table Value} (drawn : Binding.DrawnFrom last plan.bindings)
    (drawn' : Binding.DrawnFrom last' plan'.bindings)
    (order : plan.bindings.map Binding.reference = Body.references plan.body)
    (order' : plan'.bindings.map Binding.reference = Body.references plan'.body)
    (body : plan'.body = Body.respell r plan.body)
    (values : List.Forall₂ (fun first second => first.value = second.value) plan.bindings
      plan'.bindings) : plan.RenderAlike plan' := by
  intro asked dialect placeholder chosen positional
  -- whatever depends on the values only is the same for both
  have carried {β : Type} (f : Binding → β)
      (byValue : ∀ first second : Binding, first.value = second.value → f first = f second) :
      plan'.bindings.map f = plan.bindings.map f := by
    rw [← List.forall₂_eq_eq_eq, List.forall₂_map_left_iff, List.forall₂_map_right_iff]
    exact values.flip.imp fun first second same => byValue first second same.symm
  have pieces := carried _ fun _ _ => Binding.written_congr placeholder.text
  have arguments : Binding.argumentsOf plan'.bindings = Binding.argumentsOf plan.bindings := by
    rw [Binding.argumentsOf, Binding.argumentsOf, List.flatMap_def, List.flatMap_def,
      carried _ fun _ _ => congrArg Value.arguments]
  have count : (plan.bindings.map (Binding.written fun _ => placeholder.text)).length =
      (Body.references plan.body).length := by
    rw [List.length_map, ← order, List.length_map]
  have first := render_fillIn positional drawn order
  have second := render_fillIn positional drawn' order'
  rw [pieces, arguments, body, Body.fillIn_respell named count, ← first] at second
  have asked (plan : Plan) : plan.renderAs asked dialect = plan.render placeholder := by
    rw [renderAs, chosen]
  exact ⟨_, (asked plan).trans first, (asked plan').trans (second.trans first)⟩

end Plan

/-! ## Queries -/

theorem Body.Relocated.names {shift : Int} {references references' : List Reference}
    (relocated : Relocated r shift references references') :
    List.Forall₂ (fun reference moved => moved.name = r reference.name) references references' := by
  induction relocated with
  | nil => exact .nil
  | cons name _ _ _ ih => exact .cons name ih

namespace Query

/-- A whole run: references are bound under other names as they were. -/
theorem bind_rename {query : Query} (renames : query.Renaming r)
    (relocated : Body.Relocated r 0 query.references (query.rename r).references)
    (values : Table Supplied) :
    Matched (Error.Renamed r (query.references.zip (query.rename r).references))
      (fun plan plan' => List.Forall₂ (fun first second => first.value = second.value)
        plan.bindings plan'.bindings)
      (query.bind values) ((query.rename r).bind ((values.keep query.names).rename r)) := by
  obtain ⟨count, names⟩ := List.forall₂_iff_zip.mp relocated.names
  have related : List.Forall₂ (fun reference moved =>
      (reference, moved) ∈ query.references.zip (query.rename r).references)
      query.references (query.rename r).references :=
    List.forall₂_iff_zip.mpr ⟨count, fun pair => pair⟩
  rw [bind_eq_mapM, bind_eq_mapM]
  have bound := Matched.mapM related fun _ _ pair =>
    Plan.bindOne_rename renames values pair (List.of_mem_zip pair).1 (names pair)
  exact bound.map fun _ _ same => same

/-- **The names of parameters do not matter.** In the body of a query with an at sign and another
name in the place of each reference, the references are the same under the other names, each moved
by what the names before it have grown. With the values under the other names, the query with the
other names is refused for the same fault of the same parameter, or it is rendered by position to
the same text with the same arguments. -/
theorem rename_alike {marker text : Text} {strict : Bool} {query : Query}
    (parsed : Query.parse marker strict text = .ok query) (renames : query.Renaming r) :
    Body.Relocated r 0 query.references (Body.references (Body.respell r query.body)) ∧
      ∀ values, Matched (Error.Renamed r (query.references.zip (query.rename r).references))
        Plan.RenderAlike (query.bind values)
        ((query.rename r).bind ((values.keep query.names).rename r)) := by
  have read := Query.read_of_parse parsed
  have sound := Query.sound_of_read read
  have located := Query.references_of_read read
  have relocated := Body.relocated_references renames.named query.body
  rw [← located] at relocated
  refine ⟨relocated, fun values => ?_⟩
  refine (bind_rename renames relocated values).imp fun plan plan' bound bound' same => ?_
  obtain ⟨body, order, _⟩ := Query.bind_resolves bound
  obtain ⟨body', order', _⟩ := Query.bind_resolves bound'
  obtain ⟨_, drawn⟩ := Query.drawn_of_sound sound bound
  obtain ⟨_, drawn'⟩ := Query.drawn_of_sound (sound.rename r) bound'
  have located' : (query.rename r).references = Body.references plan'.body :=
    congrArg Body.references body'.symm
  rw [located, ← body] at order
  rw [located'] at order'
  exact Plan.render_rename renames.named drawn drawn' order order'
    (body'.trans (congrArg (Body.respell r) body.symm)) same

/-- Two parameters that exchange their names, of different length, in a body that also has one of
the names in a comment, in a text and in a variable of the server. -/
theorem rename_alike_exchanged :
    let header := "--? a: num\n--? ids: [str] = ['x']\n".toList
    let body := "@a, @ids@a -- @a\nor '@a' = @@a in (@ids)".toList
    let r : Text → Text := fun name =>
      if name = ['a'] then "ids".toList else if name = "ids".toList then ['a'] else name
    let query : Query := ⟨[⟨['a'], .scalar .num, none, ['a'], 0⟩,
        ⟨"ids".toList, .array .str, some (.array .str [.str ['x']]), "ids".toList, 1⟩],
      body,
      [⟨['a'], 0, 2⟩, ⟨"ids".toList, 4, 8⟩, ⟨['a'], 8, 10⟩, ⟨"ids".toList, 35, 39⟩]⟩
    Query.parse ['-', '-', '?'] true (header ++ body) = .ok query ∧ query.Renaming r ∧
      Body.respell r query.body = "@ids, @a@ids -- @a\nor '@a' = @@a in (@a)".toList ∧
      Body.Relocated r 0 query.references (Body.references (Body.respell r query.body)) ∧
      ∀ values, Matched (Error.Renamed r (query.references.zip (query.rename r).references))
        Plan.RenderAlike (query.bind values)
        ((query.rename r).bind ((values.keep query.names).rename r)) := by
  intro header body r query
  have parsed : Query.parse ['-', '-', '?'] true (header ++ body) = .ok query := by
    decide +kernel
  have named : Text.PreservesNames r := by
    intro name isName
    simp only [r]
    split
    · decide
    · split
      · decide
      · exact isName
  have apart : ∀ first ∈ query.mentioned, ∀ second ∈ query.mentioned, r first = r second →
      first = second := by decide +kernel
  exact ⟨parsed, ⟨named, apart⟩, by decide +kernel, rename_alike parsed ⟨named, apart⟩⟩

end Query
end TypedQuery
