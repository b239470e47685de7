import TypedQuery.Proofs.Soundness
import TypedQuery.Proofs.Substitution

/-!
# Rendering copies what stands between the references

The references of a body leave gaps: what stands in front of the first one, between two neighbours,
and after the last one. Given where the references stand there is one way to cut a body into gaps
(`Body.Gaps.unique`), and the body is the gaps with the references between them. The text alone
would not decide it, since a reference may also be spelled out in a quoted piece.

Rendering by position puts what the values show between the same gaps, and passes on what the values
have for arguments, in the same order (`Query.copies_gaps`). A value shows a placeholder for each
argument that it has.
-/

set_option autoImplicit false

namespace TypedQuery

/-! ## Gaps -/

/-- Gaps with pieces between them. -/
def Text.weave : List Text → List Text → Text
  | gap :: gaps, piece :: pieces => gap ++ (piece ++ weave gaps pieces)
  | gaps, _ => gaps.flatten

namespace Body

/-- A text from an offset on is cut into gaps by references: each one stands at its offsets, as an
at sign and its name. -/
inductive Gaps : Nat → Text → List Reference → List Text → Prop
  | last (offset : Nat) (text : Text) : Gaps offset text [] [text]
  | cons {offset : Nat} {text gap rest : Text} {reference : Reference} {later : List Reference}
      {gaps : List Text} (cut : text = gap ++ ('@' :: reference.name ++ rest))
      (start : reference.start = offset + gap.length)
      (stop : reference.stop = reference.start + (reference.name.length + 1))
      (below : Gaps reference.stop rest later gaps) :
      Gaps offset text (reference :: later) (gap :: gaps)

namespace Gaps

variable {offset : Nat} {text : Text} {references : List Reference} {gaps : List Text}

/-- **There is one way to cut a text into gaps.** -/
theorem unique (cut : Gaps offset text references gaps) {others : List Text}
    (cut' : Gaps offset text references others) : others = gaps := by
  induction cut generalizing others with
  | last =>
      cases cut'
      rfl
  | cons cut start stop _ ih =>
      cases cut' with
      | cons again start' _ below' =>
          have length : _ = _ := Nat.add_left_cancel (start'.symm.trans start)
          obtain ⟨rfl, rest⟩ := List.append_inj (again.symm.trans cut) length
          obtain rfl := List.append_cancel_left rest
          rw [ih below']

/-- There is a gap after the last reference. -/
theorem ne_nil (cut : Gaps offset text references gaps) : gaps ≠ [] := by
  cases cut <;> exact List.cons_ne_nil _ _

/-- The text is the gaps with the references between them. -/
theorem weave_references (cut : Gaps offset text references gaps) :
    text = Text.weave gaps (references.map fun reference => '@' :: reference.name) := by
  induction cut with
  | last => simp [Text.weave]
  | cons cut _ _ _ ih => rw [cut, List.map_cons, Text.weave, ← ih]

/-- A front that is put before a text belongs to its first gap. -/
theorem extend {front : Text} (cut : Gaps (offset + front.length) text references gaps) :
    Gaps offset (front ++ text) references (gaps.modifyHead (front ++ ·)) := by
  cases cut with
  | last => exact .last offset (front ++ text)
  | cons cut start stop below =>
      refine .cons ?_ ?_ stop below
      · rw [cut, List.append_assoc]
      · rw [start, List.length_append, Nat.add_assoc]

end Gaps

/-- The gaps that the references among some tokens leave. -/
def gapsOf : List Token → List Text
  | [] => [[]]
  | .reference _ :: later => [] :: gapsOf later
  | token :: later => (gapsOf later).modifyHead (token.text ++ ·)

theorem gapsOf_of_kept {token : Token} (kept : ∀ name, token ≠ .reference name)
    (later : List Token) :
    gapsOf (token :: later) = (gapsOf later).modifyHead (token.text ++ ·) := by
  cases token with
  | reference name => exact absurd rfl (kept name)
  | plain | span | server => rfl

/-- The references among some tokens cut the text of the tokens into their gaps. -/
theorem gaps_locate (tokens : List Token) (offset : Nat) :
    Gaps offset (textOf tokens) (locate offset tokens) (gapsOf tokens) := by
  induction tokens generalizing offset with
  | nil => exact .last offset []
  | cons token later ih =>
      rw [textOf_cons]
      rcases token.kept_or_reference with kept | ⟨name, rfl⟩
      · rw [locate_of_kept kept, gapsOf_of_kept kept]
        exact (ih _).extend
      · exact .cons (List.nil_append _).symm rfl rfl (ih _)

/-- A front of the first gap is a front of the whole. -/
theorem weave_extend {gaps : List Text} (some : gaps ≠ []) (front : Text) (pieces : List Text) :
    Text.weave (gaps.modifyHead (front ++ ·)) pieces = front ++ Text.weave gaps pieces := by
  cases gaps with
  | nil => exact absurd rfl some
  | cons gap gaps => cases pieces <;> simp [Text.weave]

/-- Texts in the place of references are texts between the gaps. -/
theorem textOf_substitute_eq_weave {tokens : List Token} {offset : Nat} {pieces : List Text}
    (count : pieces.length = (locate offset tokens).length) :
    textOf (substitute tokens pieces) = Text.weave (gapsOf tokens) pieces := by
  induction tokens generalizing offset pieces with
  | nil =>
      obtain rfl := List.length_eq_zero_iff.mp count
      rfl
  | cons token later ih =>
      rcases token.kept_or_reference with kept | ⟨name, rfl⟩
      · rw [locate_of_kept kept] at count
        rw [substitute_cons kept, textOf_cons, ih count, gapsOf_of_kept kept,
          weave_extend (gaps_locate later 0).ne_nil]
      · cases pieces with
        | nil => cases count
        | cons piece pieces =>
            rw [substitute, textOf_plain_append, ih (Nat.succ.inj count)]
            rfl

end Body

/-! ## What values show -/

namespace Value

/-- What a value shows by position: a raw piece itself, and a placeholder for any other item, with
commas between the items of an array. -/
def shown (placeholder : Text) : Value → Text
  | .scalar (.raw text) => text
  | .scalar _ => placeholder
  | .array .raw items => Text.join [','] (items.map Scalar.chars)
  | .array _ items => Text.join [','] (List.replicate items.length placeholder)

/-- How many placeholders a value shows. -/
def placeholders : Value → Nat
  | .scalar (.raw _) => 0
  | .scalar _ => 1
  | .array .raw _ => 0
  | .array _ items => items.length

theorem fill_template_eq_shown (name placeholder : Text) (value : Value) :
    (value.template name).fill ((value.template name).slots.map fun _ => placeholder) =
      value.shown placeholder := by
  match value with
  | .scalar (.raw _) | .scalar (.str _) | .scalar (.num _) => exact List.append_nil _
  | .array .raw items =>
      rw [template, Template.slots_separated_text, List.map_nil, Template.fill_separated_text]
      rfl
  | .array .str items | .array .num items =>
      simp only [template, Template.slots_separated_slot]
      rw [Template.fill_separated_slot _ _ (List.length_map _).symm]
      simp [shown, Function.comp_def]

/-- A value shows a placeholder for each of its arguments. -/
theorem placeholders_eq_length (value : Value) : value.placeholders = value.arguments.length := by
  match value with
  | .scalar (.raw _) | .scalar (.str _) | .scalar (.num _) => rfl
  | .array .raw _ | .array .str _ | .array .num _ => rfl

end Value

/-! ## Rendering -/

/-- A plan has a body of these gaps with its references between them, and is rendered by position to
the same gaps with what its values show between them. -/
structure Plan.CopiesGaps (plan : Plan) (gaps : List Text) : Prop where
  cut : Body.Gaps 0 plan.body (plan.bindings.map Binding.reference) gaps
  unique : ∀ others, Body.Gaps 0 plan.body (plan.bindings.map Binding.reference) others →
    others = gaps
  body : plan.body =
    Text.weave gaps (plan.bindings.map fun binding => '@' :: binding.reference.name)
  rendered : ∀ asked dialect placeholder, Placeholder.choose asked dialect = .ok placeholder →
    placeholder ≠ .named →
    plan.renderAs asked dialect =
      .ok ⟨Text.weave gaps (plan.bindings.map fun binding => binding.value.shown placeholder.text),
        plan.bindings.flatMap fun binding => binding.value.arguments, .empty⟩
  inStep : (plan.bindings.map fun binding => binding.value.placeholders).sum =
    (plan.bindings.flatMap fun binding => binding.value.arguments).length

/-- **Rendering copies everything but the references, and keeps the arguments in step.** The
references of a plan that is bound cut its body into gaps in one way. Rendered by position, it is
the same gaps with what its values show between them, and it passes on the arguments of its values
in the same order: as many as there are placeholders. -/
theorem Query.copies_gaps {marker text : Text} {strict : Bool} {query : Query}
    (parsed : Query.parse marker strict text = .ok query) {values : Table Supplied} {plan : Plan}
    (bound : query.bind values = .ok plan) : ∃ gaps, plan.CopiesGaps gaps := by
  have read := Query.read_of_parse parsed
  have order := Query.order_of_bind read bound
  obtain ⟨last, drawn⟩ := Query.drawn_of_bind read bound
  have cut := Body.gaps_locate (Body.tokens plan.body) 0
  rw [Body.textOf_tokens, ← Body.references, ← order] at cut
  refine ⟨_, cut, fun _ => cut.unique, ?_, ?_, ?_⟩
  · refine cut.weave_references.trans ?_
    rw [List.map_map]
    rfl
  · intro asked dialect placeholder chosen positional
    have count : (plan.bindings.map (Binding.written fun _ => placeholder.text)).length =
        (Body.references plan.body).length := by
      rw [← order, List.length_map, List.length_map]
    have written : (plan.bindings.map (Binding.written fun _ => placeholder.text)) =
        plan.bindings.map fun binding => binding.value.shown placeholder.text :=
      List.map_congr_left fun binding _ => Value.fill_template_eq_shown _ _ _
    simp only [Plan.renderAs, chosen]
    rw [Plan.render_fillIn positional drawn order, Body.fillIn,
      Body.textOf_substitute_eq_weave count, written]
    rfl
  · simp only [Value.placeholders_eq_length, List.length_flatMap]

/-- References that touch, one that is spelled out in a quoted piece as well, a raw piece and an
empty array. -/
theorem Query.copies_gaps_adjacent :
    let text := ("--? ids: [num]\n--? by: raw = #a, b#\n--? no: [str] = []\n" ++
      "'@ids'(@ids)@no@by@ids").toList
    let values : Table Supplied := .ofPairs [("ids".toList, .list [.int 1, .int 2])]
    ((render ['-', '-', '?'] text values ['?'] none).map Rendering.sql).toOption =
      some "'@ids'(?,?)a, b?,?".toList ∧
    ∃ query plan, Query.parse ['-', '-', '?'] true text = .ok query ∧
      query.bind values = .ok plan ∧ ∃ gaps, plan.CopiesGaps gaps := by
  intro text values
  refine ⟨by decide +kernel, ?_⟩
  have succeeds : ((Query.parse ['-', '-', '?'] true text).bind (Query.bind · values)).toBool := by
    decide +kernel
  obtain ⟨query, plan, parsed, bound⟩ := exists_of_bind succeeds
  exact ⟨query, plan, parsed, bound, Query.copies_gaps parsed bound⟩

end TypedQuery
