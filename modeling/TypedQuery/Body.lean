import TypedQuery.Text.Name

/-!
# Bodies and their references

A body refers to a parameter by an at sign and a name. Not every at sign is a reference: what
stands between quotes or number signs and what is commented out is passed over, two at signs
open a variable of the server, and an at sign without a name stands for itself.

A body is cut into tokens, and nothing is lost by the cut (`flatten_tokens`). A span takes a
quoted piece, a piece between number signs, or a comment as a whole; inside quotes, a doubled
quote does not close the span. A span that is never closed reaches to the end of the body. The
references are the tokens of that kind with the offsets at which they stand.
-/

set_option autoImplicit false

namespace TypedQuery

/-- A reference to a parameter, from the offset of its at sign to the offset after its
name. -/
structure Reference where
  name : Text
  start : Nat
  stop : Nat
  deriving DecidableEq, Repr

namespace Body

/-- A piece of a body. -/
inductive Token where
  /-- A character of the code. -/
  | plain (c : Char)
  /-- A quoted piece, a piece between number signs, or a comment. -/
  | span (text : Text)
  /-- Two at signs and the name of a variable of the server, if one follows. -/
  | server (name : Text)
  /-- An at sign and the name of a parameter. -/
  | reference (name : Text)
  deriving DecidableEq, Repr

/-- The text of a token. -/
def Token.text : Token → Text
  | .plain c => [c]
  | .span text => text
  | .server name => '@' :: '@' :: name
  | .reference name => '@' :: name

/-! ## Spans -/

/-- How many characters there are up to the quote that closes a span, that quote included. A
doubled quote does not close. -/
def quotedLength (quote : Char) : Text → Nat
  | [] => 0
  | c :: rest =>
      if c = quote then
        match rest with
        | [] => 1
        | next :: later => if next = quote then quotedLength quote later + 2 else 1
      else quotedLength quote rest + 1

/-- How many characters there are up to the first of a kind, that one included. -/
def lengthThrough (last : Char) : Text → Nat
  | [] => 0
  | c :: rest => if c = last then 1 else lengthThrough last rest + 1

/-- How many characters there are up to the end of a block comment, its two signs included. -/
def blockLength : Text → Nat
  | [] => 0
  | '*' :: '/' :: _ => 2
  | _ :: rest => blockLength rest + 1

/-- The length of the span at the front of a body, if one opens there. -/
def spanLength? : Text → Option Nat
  | '\'' :: rest => some (quotedLength '\'' rest + 1)
  | '"' :: rest => some (quotedLength '"' rest + 1)
  | '#' :: rest => some (lengthThrough '#' rest + 1)
  | '-' :: '-' :: rest => some (lengthThrough '\n' rest + 2)
  | '/' :: '*' :: rest => some (blockLength rest + 2)
  | _ => none

/-! ## Tokens -/

/-- The token at the front of a body that is not over, and what follows it. -/
def nextToken (c : Char) (rest : Text) : Token × Text :=
  match spanLength? (c :: rest) with
  | some length => (.span ((c :: rest).take length), (c :: rest).drop length)
  | none =>
      if c = '@' then
        match rest with
        | '@' :: rest =>
            match Text.readName? rest with
            | some (name, rest) => (.server name, rest)
            | none => (.server [], rest)
        | _ =>
            match Text.readName? rest with
            | some (name, rest) => (.reference name, rest)
            | none => (.plain c, rest)
      else (.plain c, rest)

/-- A span has at least the character that opens it. -/
theorem spanLength?_pos (text : Text) (length : Nat) (opens : spanLength? text = some length) :
    0 < length := by
  unfold spanLength? at opens
  split at opens
  all_goals cases opens
  all_goals exact Nat.succ_pos _

/-- A token and what follows it make up the body. -/
theorem text_append_nextToken (c : Char) (rest : Text) :
    (nextToken c rest).1.text ++ (nextToken c rest).2 = c :: rest := by
  unfold nextToken
  split
  · exact List.take_append_drop _ _
  · split
    · next isAt =>
        subst isAt
        split
        · split
          · next after name later named =>
              rw [(Text.isName_of_readName? named).2]
              rfl
          · rfl
        · split
          · next name later named =>
              rw [(Text.isName_of_readName? named).2]
              rfl
          · rfl
    · rfl

/-- A token takes at least one character. -/
theorem length_nextToken_lt (c : Char) (rest : Text) :
    (nextToken c rest).2.length < (c :: rest).length := by
  have positive : 0 < (nextToken c rest).1.text.length := by
    unfold nextToken
    split
    · next length opens =>
        have some := spanLength?_pos _ _ opens
        simp only [Token.text, List.length_take, List.length_cons]
        omega
    · split
      · split
        · split <;> exact Nat.succ_pos _
        · split <;> exact Nat.succ_pos _
      · exact Nat.succ_pos _
  have whole := congrArg List.length (text_append_nextToken c rest)
  rw [List.length_append] at whole
  omega

/-- The tokens of a body. -/
def tokens : Text → List Token
  | [] => []
  | c :: rest => (nextToken c rest).1 :: tokens (nextToken c rest).2
termination_by body => body.length
decreasing_by exact length_nextToken_lt c rest

/-- Cutting into tokens loses nothing. -/
theorem flatten_tokens (body : Text) : ((tokens body).map Token.text).flatten = body := by
  fun_induction tokens body with
  | case1 => rfl
  | case2 c rest ih => rw [List.map_cons, List.flatten_cons, ih, text_append_nextToken]

/-! ## References -/

/-- The references among tokens of which the first stands at an offset. -/
def locate : Nat → List Token → List Reference
  | _, [] => []
  | offset, token :: later =>
      match token with
      | .reference name =>
          ⟨name, offset, offset + token.text.length⟩ ::
            locate (offset + token.text.length) later
      | _ => locate (offset + token.text.length) later

/-- The references of a body in their order. -/
def references (body : Text) : List Reference := locate 0 (tokens body)

end Body
end TypedQuery
