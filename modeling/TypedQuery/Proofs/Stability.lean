import TypedQuery.Proofs.Continuation
import TypedQuery.Proofs.Splitting
import TypedQuery.Proofs.Substitution
import TypedQuery.Settings

/-!
# Rendered SQL is stable

What is written in the place of a reference starts with a question mark, a percent sign or a
colon and goes on with characters that open nothing (`Body.Quiet`, `Binding.quiet_written`). So
rendering leaves every other token as it is, and the SQL is cut into these tokens again
(`Body.tokens_fillIn`).

With the marker of two dashes and more, a declaration in the first line is a line comment to the
cut. A first line that is a comment is the same before and after rendering, so the SQL opens a
declaration only where the body did, which is nowhere (`Header.opensNone_fillIn`). From there
rendered SQL has no references and no header, and to render it again changes nothing
(`render_stable`).
-/

set_option autoImplicit false

namespace TypedQuery

namespace Body

/-! ## The cut of a body with quiet texts in the place of references -/

/-- A text that is cut into its characters wherever it stands. -/
structure Quiet (piece : Text) : Prop where
  start : ∃ c later, piece = c :: later ∧ isQuiet c = true
  inert : ∀ c ∈ piece, isInert c = true

/-- Characters that open nothing are cut off one by one. -/
theorem tokens_inert_append {piece : Text} (inert : ∀ c ∈ piece, isInert c = true) (rest : Text) :
    tokens (piece ++ rest) = piece.map .plain ++ tokens rest := by
  induction piece with
  | nil => rfl
  | cons c piece ih =>
      obtain ⟨opens, later⟩ := List.forall_mem_cons.mp inert
      have front : Front (.plain c) (piece ++ rest) := .inert opens
      exact (tokens_of_front front).trans (congrArg (.plain c :: ·) (ih later))

/-- **Quiet texts in the place of references leave the other tokens as they are.** The body that
they are filled into is cut into the same tokens, with their characters in the place of the
references, and it starts in the same way. -/
theorem tokens_fillIn (body : Text) {pieces : List Text} (quiet : ∀ piece ∈ pieces, Quiet piece) :
    tokens (fillIn body pieces) = substitute (tokens body) pieces ∧
      SameStart body (fillIn body pieces) := by
  induction body using token_induction generalizing pieces with
  | nil =>
      have empty : tokens [] = [] := by rw [tokens]
      rw [fillIn, empty, substitute]
      exact ⟨empty, .ended⟩
  | cons token rest front ih =>
      rcases token.kept_or_reference with kept | ⟨name, rfl⟩
      · obtain ⟨cut, start⟩ := ih quiet
        rw [fillIn_kept front kept, tokens_of_front (front.sameStart start), cut,
          tokens_of_front front, substitute_cons kept]
        exact ⟨rfl, front.sameStart_append _⟩
      · cases pieces with
        | nil =>
            rw [fillIn_nil, substitute_nil]
            exact ⟨rfl, front.sameStart_append rest⟩
        | cons piece pieces =>
            obtain ⟨here, later⟩ := List.forall_mem_cons.mp quiet
            obtain ⟨cut, _⟩ := ih later
            rw [fillIn_reference front, tokens_inert_append here.inert, cut,
              tokens_of_front front, substitute]
            obtain ⟨c, tail, rfl, isQuiet⟩ := here.start
            exact ⟨rfl, .quiet isQuiet⟩

/-- Where each reference has a text in its place, none is left. -/
theorem references_fillIn {body : Text} {pieces : List Text}
    (quiet : ∀ piece ∈ pieces, Quiet piece) (count : pieces.length = (references body).length) :
    references (fillIn body pieces) = [] := by
  rw [references, (tokens_fillIn body quiet).1]
  exact locate_substitute count 0

/-! ## What is written is quiet -/

/-- A character that may continue a name opens nothing. -/
theorem isInert_of_isNameChar {c : Char} (char : Text.isNameChar c = true) : isInert c = true := by
  rw [isInert, Bool.not_eq_true', decide_eq_false_iff_not]
  intro member
  simp only [List.mem_cons, List.not_mem_nil, or_false] at member
  rcases member with rfl | rfl | rfl | rfl | rfl | rfl <;> exact absurd char (by decide)

theorem inert_of_isName {name : Text} (named : Text.isName name = true) :
    ∀ c ∈ name, isInert c = true := by
  obtain ⟨c, later, rfl, start, continued⟩ := Text.exists_of_isName named
  intro d member
  rcases List.mem_cons.mp member with rfl | member
  · exact isInert_of_isNameChar (Text.isNameChar_of_isNameStart start)
  · exact isInert_of_isNameChar (continued d member)

/-- Every writing of a placeholder is quiet. -/
theorem quiet_of_writes {placeholder : Placeholder} {text : Text}
    (writes : placeholder.Writes text) : Quiet text := by
  cases placeholder with
  | named =>
      obtain ⟨key, named, rfl⟩ := writes
      refine ⟨⟨':', key, rfl, rfl⟩, fun c member => ?_⟩
      rcases List.mem_cons.mp member with rfl | member
      · rfl
      · exact inert_of_isName named c member
  | question =>
      obtain rfl : text = ['?'] := writes
      exact ⟨⟨'?', [], rfl, rfl⟩, List.forall_mem_singleton.mpr (by decide)⟩
  | percent =>
      obtain rfl : text = ['%', 's'] := writes
      refine ⟨⟨'%', ['s'], rfl, rfl⟩, List.forall_mem_cons.mpr ⟨by decide, ?_⟩⟩
      exact List.forall_mem_singleton.mpr (by decide)

/-- A quiet text stays so when it goes on with characters that open nothing. -/
theorem Quiet.append {piece more : Text} (quiet : Quiet piece)
    (inert : ∀ c ∈ more, isInert c = true) : Quiet (piece ++ more) where
  start := by
    obtain ⟨c, later, rfl, isQuiet⟩ := quiet.start
    exact ⟨c, later ++ more, rfl, isQuiet⟩
  inert := by
    intro c member
    rcases List.mem_append.mp member with here | there
    · exact quiet.inert c here
    · exact inert c there

/-- Quiet texts with commas between them are quiet, if there are any. -/
theorem quiet_join {pieces : List Text} (some : pieces ≠ [])
    (quiet : ∀ piece ∈ pieces, Quiet piece) : Quiet (Text.join [','] pieces) := by
  induction pieces with
  | nil => exact absurd rfl some
  | cons piece later ih =>
      obtain ⟨here, rest⟩ := List.forall_mem_cons.mp quiet
      cases later with
      | nil => rwa [Text.join_singleton]
      | cons next later =>
          have more := ih (List.cons_ne_nil next later) rest
          rw [Text.join_cons_cons]
          refine here.append fun c member => ?_
          rcases List.mem_append.mp member with comma | member
          · rw [List.mem_singleton.mp comma]
            decide
          · exact more.inert c member

end Body

/-- A value that is not raw and not empty is written quietly. -/
theorem Binding.quiet_written {placeholder : Placeholder} {write : Slot → Text}
    {binding : Binding} {type : ParamType} (fits : binding.value.Fits type)
    (notRaw : type.base ≠ .raw) (notEmpty : ∀ base, binding.value ≠ .array base [])
    (writes : ∀ slot ∈ (binding.value.template binding.reference.name).slots,
      placeholder.Writes (write slot)) : Body.Quiet (binding.written write) := by
  obtain ⟨reference, value⟩ := binding
  match value with
  | .scalar (.raw text) => exact absurd (congrArg ParamType.base fits) notRaw
  | .scalar (.str _) | .scalar (.num _) =>
      have quiet := Body.quiet_of_writes (writes _ List.mem_cons_self)
      exact quiet.append fun _ member => by cases member
  | .array .raw items => exact absurd (congrArg ParamType.base fits.1) notRaw
  | .array .str items | .array .num items =>
      simp only [Value.slots_template_array, ne_eq, reduceCtorEq, not_false_eq_true] at writes
      rw [written, Value.slots_template_array (by decide), Value.template,
        Template.fill_separated_slot _ _ (List.length_map write).symm]
      · refine Body.quiet_join (fun none => ?_) fun piece member => ?_
        · have count := List.map_eq_nil_iff.mp (List.map_eq_nil_iff.mp none)
          rw [List.range_eq_nil, List.length_eq_zero_iff] at count
          rw [count] at notEmpty
          exact notEmpty _ rfl
        · obtain ⟨slot, inSlots, rfl⟩ := List.mem_map.mp member
          exact Body.quiet_of_writes (writes slot inSlots)
      · exact fun isRaw => by cases isRaw

/-! ## The first line -/

namespace Body

/-- Two dashes are cut off with their line. -/
theorem tokens_dashes (tail : Text) :
    tokens ('-' :: '-' :: tail) =
      .span ('-' :: '-' :: tail.take (lengthThrough '\n' tail)) ::
        tokens (tail.drop (lengthThrough '\n' tail)) := by
  rw [tokens]
  rfl

/-- The first line of a text reaches through the first line feed. -/
theorem head?_lines (c : Char) (tail : Text) :
    (Text.lines (c :: tail)).head? =
      some ((c :: tail).take (lengthThrough '\n' (c :: tail))) := by
  induction tail generalizing c with
  | nil => simp [Text.lines, lengthThrough]
  | cons d tail ih =>
      unfold Text.lines lengthThrough
      split
      · rfl
      · have rest := ih d
        split
        · next none =>
            rw [none] at rest
            cases rest
        · next line later cut =>
            rw [cut] at rest
            exact congrArg (Option.map (c :: ·)) rest

theorem head?_lines_dashes (tail : Text) :
    (Text.lines ('-' :: '-' :: tail)).head? =
      some ('-' :: '-' :: tail.take (lengthThrough '\n' tail)) :=
  head?_lines '-' ('-' :: tail)

/-- Quiet texts in the place of references make no span. -/
theorem span_of_substitute {list later : List Token} {pieces : List Text} {text : Text}
    (quiet : ∀ piece ∈ pieces, Quiet piece)
    (found : substitute list pieces = .span text :: later) :
    ∃ later, list = .span text :: later := by
  cases list with
  | nil => cases found
  | cons token list =>
      rcases token.kept_or_reference with kept | ⟨name, rfl⟩
      · rw [substitute_cons kept] at found
        exact ⟨list, by rw [(List.cons_eq_cons.mp found).1]⟩
      · cases pieces with
        | nil => cases found
        | cons piece pieces =>
            obtain ⟨c, tail, rfl, _⟩ := (quiet piece List.mem_cons_self).start
            cases (List.cons_eq_cons.mp found).1

/-- A body that starts with two dashes when quiet texts are filled in has the same first line
before. -/
theorem head?_lines_fillIn {body tail : Text} {pieces : List Text}
    (quiet : ∀ piece ∈ pieces, Quiet piece) (dashes : fillIn body pieces = '-' :: '-' :: tail) :
    (Text.lines body).head? = (Text.lines (fillIn body pieces)).head? := by
  have cut := (tokens_fillIn body quiet).1
  rw [dashes, tokens_dashes] at cut
  obtain ⟨later, found⟩ := span_of_substitute quiet cut.symm
  -- so the body starts with two dashes as well, and the comment is the same
  obtain ⟨tail', rfl⟩ : ∃ tail', body = '-' :: '-' :: tail' := by
    rw [← textOf_tokens body, found]
    exact ⟨_, rfl⟩
  rw [tokens_dashes] at found
  obtain ⟨same, _⟩ := List.cons_eq_cons.mp found
  rw [dashes, head?_lines_dashes, head?_lines_dashes, Token.span.inj same]

end Body

/-- A marker of two dashes and more opens a declaration in the first line only where it did before
quiet texts were filled in. -/
theorem Header.opensNone_fillIn {more body : Text} {pieces : List Text}
    (quiet : ∀ piece ∈ pieces, Body.Quiet piece) (closed : OpensNone ('-' :: '-' :: more) body) :
    OpensNone ('-' :: '-' :: more) (Body.fillIn body pieces) := by
  intro line first
  cases opens : Declaration.opening? ('-' :: '-' :: more) (Text.chomp line) with
  | none => rfl
  | some found =>
      obtain ⟨tail, dashes⟩ := (Declaration.prefix_of_opening? opens).trans
        ((Text.chomp_prefix line).trans (Text.prefix_of_head?_lines first))
      rw [← Body.head?_lines_fillIn quiet dashes.symm] at first
      rw [closed line first] at opens
      cases opens

/-! ## Rendering again -/

/-- A text without declarations and references is rendered as it is, whatever is supplied. -/
theorem render_plain {marker text : Text} (header : Header.read marker text = .ok ⟨[], text⟩)
    (none : Body.references text = []) (values : Table Supplied) (placeholder : Placeholder) :
    render marker text values placeholder.text .none = .ok ⟨text, [], .empty⟩ := by
  have read : Query.read marker text = .ok ⟨[], text, []⟩ := by
    rw [Query.read, header, Except.map, Query.ofHeader, none]
  rw [render, read]
  cases placeholder <;> rfl

/-- **Rendering leaves nothing to substitute and does not disturb the lexical structure.** Where
no parameter that is referred to is raw and no array is empty, rendered SQL has no references
and no declarations, and it is rendered as it is, with no arguments, whatever is supplied and
whichever placeholder is asked for. -/
theorem render_stable {text : Text} {query : Query}
    (read : Query.read ({} : Settings).marker text = .ok query) {values : Table Supplied}
    {plan : Plan} (bound : query.bind values = .ok plan) {asked : Text}
    {dialect : Option Dialect} {result : Rendering}
    (rendered : render ({} : Settings).marker text values asked dialect = .ok result)
    (noRaw : ∀ reference ∈ query.references, ∀ declaration,
      query.declaration? reference.name = some declaration → declaration.type.base ≠ .raw)
    (noEmpty : ∀ binding ∈ plan.bindings, ∀ base, binding.value ≠ .array base []) :
    Body.references result.sql = [] ∧
      Header.read ({} : Settings).marker result.sql = .ok ⟨[], result.sql⟩ ∧
      ∀ (others : Table Supplied) (placeholder : Placeholder),
        render ({} : Settings).marker result.sql others placeholder.text none =
          .ok ⟨result.sql, [], .empty⟩ := by
  obtain ⟨placeholder, rendered⟩ : ∃ placeholder, plan.render placeholder = .ok result := by
    rw [render, read] at rendered
    simp only [bound, Plan.renderAs] at rendered
    split at rendered
    · cases rendered
    · exact ⟨_, rendered⟩
  obtain ⟨write, writes, sql⟩ := Query.sql_of_render read bound rendered
  obtain ⟨_, order, last, typed, fromLast⟩ := Query.bind_resolved read bound
  have quiet : ∀ piece ∈ plan.bindings.map (Binding.written write), Body.Quiet piece := by
    intro piece written
    obtain ⟨binding, member, rfl⟩ := List.mem_map.mp written
    obtain ⟨declaration, declared, fits⟩ := typed _ _ (fromLast binding member)
    have referred : binding.reference ∈ query.references := by
      rw [← order]
      exact List.mem_map_of_mem member
    exact Binding.quiet_written fits (noRaw _ referred declaration declared)
      (noEmpty binding member) (writes binding member)
  have none : Body.references result.sql = [] := by
    rw [sql]
    refine Body.references_fillIn quiet ?_
    rw [List.length_map, ← List.length_map Binding.reference, order,
      Query.references_of_read read]
  have plain : Header.read ({} : Settings).marker result.sql = .ok ⟨[], result.sql⟩ := by
    refine Header.read_of_opensNone ?_
    obtain ⟨header, taken, rfl⟩ := map_eq_ok_iff.mp read
    rw [sql]
    exact Header.opensNone_fillIn quiet (Header.opensNone_body taken)
  exact ⟨none, plain, render_plain plain none⟩

/-- A dash and a slash before references, a variable of the server after one, and a quote that is
never closed. -/
theorem render_stable_adjacent :
    let text := "--? id: str\n--? names: [str]\n-@id/@names@@id '@id".toList
    let values : Table Supplied := .ofPairs [("id".toList, .text ['-']),
      ("names".toList, .list [.text ['a'], .text ['@', 'b']])]
    let sql := "-?/?,?@@id '@id".toList
    ((render ({} : Settings).marker text values ['?'] none).map Rendering.sql).toOption =
        some sql ∧
      Body.references sql = [] ∧ Header.read ({} : Settings).marker sql = .ok ⟨[], sql⟩ ∧
      ∀ (others : Table Supplied) (placeholder : Placeholder),
        render ({} : Settings).marker sql others placeholder.text none =
          .ok ⟨sql, [], .empty⟩ := by
  intro text values sql
  let query : Query := ⟨[⟨"id".toList, .scalar .str, none, "id".toList, 0⟩,
    ⟨"names".toList, .array .str, none, "names".toList, 1⟩], "-@id/@names@@id '@id".toList,
    [⟨"id".toList, 1, 4⟩, ⟨"names".toList, 5, 11⟩]⟩
  let plan : Plan := ⟨query.body, [⟨⟨"id".toList, 1, 4⟩, .scalar (.str ['-'])⟩,
    ⟨⟨"names".toList, 5, 11⟩, .array .str [.str ['a'], .str ['@', 'b']]⟩]⟩
  have read : Query.read ({} : Settings).marker text = .ok query := by decide +kernel
  have bound : query.bind values = .ok plan := by decide +kernel
  have shown : ((render ({} : Settings).marker text values ['?'] none).map
      Rendering.sql).toOption = some sql := by decide +kernel
  refine ⟨shown, ?_⟩
  cases rendered : render ({} : Settings).marker text values ['?'] none with
  | error error =>
      rw [rendered] at shown
      cases shown
  | ok result =>
      rw [rendered] at shown
      rw [← show result.sql = sql from Option.some.inj shown]
      refine render_stable read bound rendered ?_ ?_
      · intro reference member declaration declared
        rcases List.mem_cons.mp member with rfl | member
        · obtain rfl := Option.some.inj declared
          decide
        · obtain rfl := List.mem_singleton.mp member
          obtain rfl := Option.some.inj declared
          decide
      · intro binding member base
        rcases List.mem_cons.mp member with rfl | member
        · intro same
          cases same
        · obtain rfl := List.mem_singleton.mp member
          intro same
          cases same

end TypedQuery
