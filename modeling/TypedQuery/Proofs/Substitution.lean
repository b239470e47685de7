import TypedQuery.Proofs.NamedFilling
import TypedQuery.Proofs.Tokens

/-!
# Rendering replaces references and nothing else

A plan copies its body between the offsets of the references. The references are located by the
cut of the body, so what is copied are whole tokens: a rendered body is the text of its tokens,
with a text in the place of each reference (`Plan.fill_template`). Offsets are dealt with once, for
any texts that are spliced into a body at the spans of its references (`Body.splice_references`).

What is written into a slot is the same for every kind of placeholder up to its writing
(`Placeholder.Writes`): the text of the placeholder, or a colon and a name, whatever keys the
search for keys comes up with (`Plan.sql_of_render`). So the SQL of a query is its body with these
writings in the place of the references (`Query.sql_of_render`).
-/

set_option autoImplicit false

namespace TypedQuery

namespace Body

/-! ## Texts in the place of references -/

/-- The text of some tokens. -/
def textOf (tokens : List Token) : Text := (tokens.map Token.text).flatten

/-- Tokens with the characters of texts in the place of the references, one after the other. -/
def substitute : List Token → List Text → List Token
  | [], _ => []
  | .reference _ :: later, piece :: pieces => piece.map .plain ++ substitute later pieces
  | token :: later, pieces => token :: substitute later pieces

theorem textOf_tokens (body : Text) : textOf (tokens body) = body := flatten_tokens body

theorem textOf_cons (token : Token) (later : List Token) :
    textOf (token :: later) = token.text ++ textOf later := rfl

theorem textOf_plain_append (piece : Text) (later : List Token) :
    textOf (piece.map .plain ++ later) = piece ++ textOf later := by
  induction piece with
  | nil => rfl
  | cons c piece ih => exact congrArg (c :: ·) ih

/-- Without texts, the references stay. -/
theorem substitute_nil (tokens : List Token) : substitute tokens [] = tokens := by
  induction tokens with
  | nil => rfl
  | cons token later ih => cases token <;> exact congrArg _ ih

/-- A token that is no reference stays. -/
theorem substitute_cons {token : Token} (kept : ∀ name, token ≠ .reference name)
    (later : List Token) (pieces : List Text) :
    substitute (token :: later) pieces = token :: substitute later pieces := by
  cases token with
  | reference name => exact absurd rfl (kept name)
  | plain | span | server => rfl

/-- A token that is no reference is not located. -/
theorem locate_of_kept {token : Token} (kept : ∀ name, token ≠ .reference name) (offset : Nat)
    (later : List Token) :
    locate offset (token :: later) = locate (offset + token.text.length) later := by
  cases token with
  | reference name => exact absurd rfl (kept name)
  | plain | span | server => rfl

theorem locate_plain_append (offset : Nat) (piece : Text) (later : List Token) :
    locate offset (piece.map .plain ++ later) = locate (offset + piece.length) later := by
  induction piece generalizing offset with
  | nil => rfl
  | cons c piece ih =>
      rw [List.map_cons, List.cons_append, locate_cons, ih, List.length_cons,
        Nat.add_comm piece.length, ← Nat.add_assoc]
      rfl

/-- Where each reference has a text in its place, none is left. -/
theorem locate_substitute {tokens : List Token} {offset : Nat} {pieces : List Text}
    (count : pieces.length = (locate offset tokens).length) (offset' : Nat) :
    locate offset' (substitute tokens pieces) = [] := by
  induction tokens generalizing offset pieces offset' with
  | nil => rfl
  | cons token later ih =>
      rcases token.kept_or_reference with kept | ⟨name, rfl⟩
      · rw [locate_of_kept kept] at count
        rw [substitute_cons kept, locate_of_kept kept]
        exact ih count _
      · cases pieces with
        | nil => cases count
        | cons piece pieces =>
            rw [substitute, locate_plain_append]
            exact ih (Nat.succ.inj count) _

/-- A body with texts in the place of its references. -/
def fillIn (body : Text) (pieces : List Text) : Text := textOf (substitute (tokens body) pieces)

theorem fillIn_nil (body : Text) : fillIn body [] = body := by
  rw [fillIn, substitute_nil, textOf_tokens]

theorem fillIn_kept {token : Token} {rest : Text} (front : Front token rest)
    (kept : ∀ name, token ≠ .reference name) (pieces : List Text) :
    fillIn (token.text ++ rest) pieces = token.text ++ fillIn rest pieces := by
  rw [fillIn, tokens_of_front front, substitute_cons kept, textOf_cons, fillIn]

theorem fillIn_reference {name rest : Text} (front : Front (.reference name) rest) (piece : Text)
    (pieces : List Text) :
    fillIn ((Token.reference name).text ++ rest) (piece :: pieces) =
      piece ++ fillIn rest pieces := by
  rw [fillIn, tokens_of_front front, substitute, textOf_plain_append, fillIn]

/-- Every reference of a body has a name. -/
theorem isName_of_mem_locate {body : Text} {offset : Nat} {reference : Reference}
    (member : reference ∈ locate offset (tokens body)) : Text.isName reference.name = true := by
  induction body using token_induction generalizing offset with
  | nil =>
      rw [tokens] at member
      cases member
  | cons token rest front ih =>
      rw [tokens_of_front front, locate_cons] at member
      rcases List.mem_append.mp member with here | later
      · cases front with
        | reference named ends =>
            rw [List.mem_singleton.mp here]
            exact named
        | _ => cases here
      · exact ih later

/-! ## Texts in the place of spans -/

/-- A body from an offset on, with texts in the place of references. -/
def splice (body : Text) : Nat → List (Reference × Text) → Text
  | cursor, [] => body.drop cursor
  | cursor, (reference, piece) :: later =>
      Text.slice body cursor reference.start ++ (piece ++ splice body reference.stop later)

/-- Where texts stand for the references of the later tokens of a body, splicing them in copies the
earlier tokens from the cursor on and substitutes in the later ones. -/
theorem splice_append {body before : Text} {later : List Token}
    (whole : body = before ++ textOf later) {pieces : List (Reference × Text)}
    (marked : pieces.map Prod.fst = locate before.length later) {cursor : Nat}
    (within : cursor ≤ before.length) :
    splice body cursor pieces =
      before.drop cursor ++ textOf (substitute later (pieces.map Prod.snd)) := by
  induction later generalizing before pieces cursor with
  | nil =>
      obtain rfl := List.map_eq_nil_iff.mp marked
      simp [splice, whole, textOf, substitute]
  | cons token later ih =>
      have whole' : body = (before ++ token.text) ++ textOf later := by
        rw [whole, textOf_cons, List.append_assoc]
      have length : (before ++ token.text).length = before.length + token.text.length :=
        List.length_append
      rcases token.kept_or_reference with kept | ⟨name, rfl⟩
      · rw [locate_of_kept kept, ← length] at marked
        rw [ih whole' marked (by omega), substitute_cons kept, textOf_cons,
          List.drop_append_of_le_length within, List.append_assoc]
      · rw [locate, ← length] at marked
        obtain ⟨⟨reference, piece⟩, pieces, rfl, here, below⟩ := List.map_eq_cons_iff.mp marked
        obtain rfl : reference = _ := here
        have rest := ih whole' below (Nat.le_refl _)
        rw [List.drop_length, List.nil_append] at rest
        rw [splice, rest, Text.slice, whole, List.take_left, List.map_cons, substitute,
          textOf_plain_append]

/-- Texts in the place of the spans of all references are texts in the place of the tokens. -/
theorem splice_references {body : Text} {pieces : List (Reference × Text)}
    (marked : pieces.map Prod.fst = references body) :
    splice body 0 pieces = fillIn body (pieces.map Prod.snd) := by
  have whole : body = [] ++ textOf (tokens body) := (textOf_tokens body).symm
  exact splice_append whole marked (Nat.le_refl 0)

end Body

/-! ## Filling in a template -/

/-- What stands in the place of a reference when its slots are filled in. -/
def Binding.written (write : Slot → Text) (binding : Binding) : Text :=
  (binding.value.template binding.reference.name).fill
    ((binding.value.template binding.reference.name).slots.map write)

/-- A template that is filled in is the body with what is written in the place of the
references. -/
theorem Template.fill_ofBindings (write : Slot → Text) (body : Text) (cursor : Nat)
    (bindings : List Binding) :
    (Template.ofBindings body cursor bindings).fill
        ((Template.ofBindings body cursor bindings).slots.map write) =
      Body.splice body cursor
        (bindings.map fun binding => (binding.reference, binding.written write)) := by
  induction bindings generalizing cursor with
  | nil => exact List.append_nil _
  | cons binding later ih =>
      rw [ofBindings, slots, fill, slots_append, List.map_append,
        fill_append _ _ (List.length_map _), ih]
      rfl

/-- **A plan that is filled in is its body with texts in the place of the references.** -/
theorem Plan.fill_template {plan : Plan}
    (order : plan.bindings.map Binding.reference = Body.references plan.body)
    (write : Slot → Text) :
    plan.template.fill (plan.template.slots.map write) =
      Body.fillIn plan.body (plan.bindings.map (Binding.written write)) := by
  have marked : (plan.bindings.map fun binding => (binding.reference, binding.written write)).map
      Prod.fst = Body.references plan.body := by
    rw [← order, List.map_map]
    rfl
  rw [Plan.template, Template.fill_ofBindings, Body.splice_references marked, List.map_map]
  rfl

/-- By position, a plan is its body with the placeholder where its values write it. -/
theorem Plan.render_fillIn {placeholder : Placeholder} (positional : placeholder ≠ .named)
    {plan : Plan} {values : Table Value} (drawn : Binding.DrawnFrom values plan.bindings)
    (order : plan.bindings.map Binding.reference = Body.references plan.body) :
    plan.render placeholder =
      .ok ⟨Body.fillIn plan.body (plan.bindings.map (Binding.written fun _ => placeholder.text)),
        Binding.argumentsOf plan.bindings, .empty⟩ := by
  rw [render_positional positional drawn, fill_template order]

/-! ## What is written into slots -/

namespace Text

/-- A name goes on with characters that may continue one. -/
theorem isName_append {name more : Text} (named : isName name = true)
    (continued : ∀ c ∈ more, isNameChar c = true) : isName (name ++ more) = true := by
  obtain ⟨c, later, rfl, start, inside⟩ := exists_of_isName named
  simp only [List.cons_append, isName, List.all_append, start, Bool.true_and, Bool.and_eq_true]
  exact ⟨List.all_eq_true.mpr inside, List.all_eq_true.mpr continued⟩

/-- A name with a line and a number after it is a name. -/
theorem isName_suffix {name : Text} (named : isName name = true) (n : Nat) :
    isName (name ++ '_' :: ofNat n) = true := by
  refine isName_append named fun c member => ?_
  rcases List.mem_cons.mp member with rfl | member
  · decide
  · exact isNameChar_of_mem_ofNat member

end Text

namespace Keys

theorem isName_candidate {key : Text} (named : Text.isName key = true) (n : Nat) :
    Text.isName (candidate key n) = true := by
  cases n with
  | zero => exact named
  | succ n => exact Text.isName_suffix named (n + 1)

/-- The key of a slot of a named parameter is a name. -/
theorem isName_keyOf {reserved : List Text} {keys : Keys} (separate : keys.Separate reserved)
    {slot : Slot} (covers : keys.Covers slot) (named : Text.isName slot.name = true) :
    Text.isName (keys.keyOf slot) = true := by
  obtain ⟨name, index⟩ := slot
  cases index with
  | none => exact named
  | some index =>
      obtain ⟨made, known, within⟩ := covers index rfl
      obtain ⟨index', n, same⟩ :=
        separate.candidate name made known made[index] (List.getElem_mem within)
      have key : keys.keyOf ⟨name, some index⟩ = made[index] := by
        simp [keyOf, show keys.arrays.get? name = some made from known, within]
      rw [key, same]
      exact isName_candidate (Text.isName_suffix named index') n

end Keys

/-- A text is a writing of a kind of placeholder: of one that goes by position its own text, and
of the other one a colon and a name. -/
def Placeholder.Writes (placeholder : Placeholder) (text : Text) : Prop :=
  match placeholder with
  | .named => ∃ key, Text.isName key = true ∧ text = ':' :: key
  | positional => text = positional.text

/-- The keys that a plan has by the end of its rendering are written as names. -/
theorem Plan.writes_keyOf {plan : Plan} {values : Table Value}
    (drawn : Binding.DrawnFrom values plan.bindings)
    (named : ∀ binding ∈ plan.bindings, Text.isName binding.reference.name = true) :
    ∀ slot ∈ plan.template.slots, Placeholder.named.Writes (':' :: plan.lastKeys.keyOf slot) := by
  intro slot member
  obtain ⟨binding, bound, same, _⟩ := Template.name_of_mem_slots member
  have covers := (render_named drawn).2 slot member
  refine ⟨_, Keys.isName_keyOf plan.separate_lastKeys covers ?_, rfl⟩
  rw [same]
  exact named binding bound

/-- **The SQL of a plan is its template with a writing of the placeholder in each slot.** -/
theorem Plan.sql_of_render {plan : Plan} {values : Table Value}
    (drawn : Binding.DrawnFrom values plan.bindings)
    (named : ∀ binding ∈ plan.bindings, Text.isName binding.reference.name = true)
    {placeholder : Placeholder} {result : Rendering}
    (rendered : plan.render placeholder = .ok result) :
    ∃ write : Slot → Text, (∀ slot ∈ plan.template.slots, placeholder.Writes (write slot)) ∧
      result.sql = plan.template.fill (plan.template.slots.map write) := by
  cases placeholder with
  | named =>
      obtain rfl := Except.ok.inj ((render_named drawn).1.symm.trans rendered)
      exact ⟨_, writes_keyOf drawn named, rfl⟩
  | question | percent =>
      obtain rfl := Except.ok.inj ((render_positional (by decide) drawn).symm.trans rendered)
      exact ⟨_, fun _ _ => rfl, rfl⟩

theorem Query.references_of_read {marker text : Text} {query : Query}
    (read : Query.read marker text = .ok query) :
    query.references = Body.references query.body := by
  obtain ⟨header, _, rfl⟩ := map_eq_ok_iff.mp read
  rfl

/-- The references of a plan that is bound are those of its body. -/
theorem Query.order_of_bind {marker text : Text} {query : Query}
    (read : Query.read marker text = .ok query) {values : Table Supplied} {plan : Plan}
    (bound : query.bind values = .ok plan) :
    plan.bindings.map Binding.reference = Body.references plan.body := by
  obtain ⟨whole, order, _⟩ := Query.bind_resolved read bound
  rw [order, whole, Query.references_of_read read]

/-- Every reference of a plan has a name. -/
theorem Plan.isName_of_order {plan : Plan}
    (order : plan.bindings.map Binding.reference = Body.references plan.body) :
    ∀ binding ∈ plan.bindings, Text.isName binding.reference.name = true := by
  intro binding member
  have located := List.mem_map_of_mem (f := Binding.reference) member
  rw [order] at located
  exact Body.isName_of_mem_locate located

/-- The SQL of a query is its body with what the values write in the place of the references. -/
theorem Query.sql_of_render {marker text : Text} {query : Query}
    (read : Query.read marker text = .ok query) {values : Table Supplied} {plan : Plan}
    (bound : query.bind values = .ok plan) {placeholder : Placeholder} {result : Rendering}
    (rendered : plan.render placeholder = .ok result) :
    ∃ write : Slot → Text,
      (∀ binding ∈ plan.bindings, ∀ slot ∈ (binding.value.template binding.reference.name).slots,
        placeholder.Writes (write slot)) ∧
      result.sql = Body.fillIn query.body (plan.bindings.map (Binding.written write)) := by
  have order := Query.order_of_bind read bound
  obtain ⟨whole, _⟩ := Query.bind_resolved read bound
  obtain ⟨last, drawn⟩ := Query.drawn_of_bind read bound
  obtain ⟨write, writes, sql⟩ := Plan.sql_of_render drawn (Plan.isName_of_order order) rendered
  rw [Plan.fill_template order, whole] at sql
  refine ⟨write, fun binding member slot inSlots => writes slot ?_, sql⟩
  rw [Plan.template, Template.slots_ofBindings]
  exact List.mem_flatMap.mpr ⟨binding, member, inSlots⟩

end TypedQuery
