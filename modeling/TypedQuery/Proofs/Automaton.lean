import TypedQuery.Proofs.Tokens

/-!
# The references of a body, one character at a time

The cut of a body jumps: it searches for the end of a comment, steps over doubled quotes, and
takes a name as a whole. The automaton of this module consumes one character after the other and
keeps nothing but a mode, the offset it has reached and the references it has found.

* Its modes are code, the inside of a quote, the inside of number signs, a line comment and a
  block comment. In code it remembers what the last characters may have begun: a dash, a slash,
  an at sign, two at signs, a variable of the server, a reference.
* A quote inside its own quotes leads back to code. So a doubled quote is not special: it closes
  a span and opens the next.
* A token that is whole in front of a rest takes the automaton from code to code, as far as the
  rest can tell (`run_token`).

Both find the same references at the same offsets in every body (`references_eq_automaton`).
-/

set_option autoImplicit false

namespace TypedQuery
namespace Body
namespace Automaton

/-! ## Modes and steps -/

/-- Where the automaton stands. -/
inductive Mode where
  /-- In code, and nothing has begun. -/
  | code
  /-- In code, after a dash. -/
  | dash
  /-- In code, after a slash. -/
  | slash
  /-- In code, after the at sign at an offset. -/
  | sign (start : Nat)
  /-- In code, after two at signs. -/
  | signs
  /-- In the name of a variable of the server. -/
  | server
  /-- In the name of a reference, after its at sign at an offset and its first characters. -/
  | name (start : Nat) (read : Text)
  /-- Inside a quote. -/
  | quoted (quote : Char)
  /-- Inside number signs. -/
  | raw
  /-- In a line comment. -/
  | line
  /-- In a block comment. -/
  | block
  /-- In a block comment, after a star. -/
  | star
  deriving DecidableEq, Repr

/-- What the automaton knows: its mode, how many characters it has consumed, and the references
it has found. -/
structure State where
  mode : Mode
  offset : Nat
  found : List Reference
  deriving DecidableEq, Repr

/-- One character is consumed. -/
def State.move (state : State) (mode : Mode) : State :=
  { state with mode := mode, offset := state.offset + 1 }

/-- The mode after a character of the code at an offset. -/
def opened (offset : Nat) (c : Char) : Mode :=
  if c = '\'' ∨ c = '"' then .quoted c
  else if c = '#' then .raw
  else if c = '-' then .dash
  else if c = '/' then .slash
  else if c = '@' then .sign offset
  else .code

/-- A character of the code is consumed. -/
def State.enter (state : State) (c : Char) : State := state.move (opened state.offset c)

/-- A reference has ended at the offset that is reached. -/
def State.emit (state : State) (start : Nat) (name : Text) : State :=
  { state with found := state.found ++ [⟨name, start, state.offset⟩] }

/-- The automaton consumes a character. -/
def step (state : State) (c : Char) : State :=
  match state.mode with
  | .code => state.enter c
  | .dash => if c = '-' then state.move .line else state.enter c
  | .slash => if c = '*' then state.move .block else state.enter c
  | .sign start =>
      if c = '@' then state.move .signs
      else if Text.isNameStart c then state.move (.name start [c])
      else state.enter c
  | .signs => if Text.isNameStart c then state.move .server else state.enter c
  | .server => if Text.isNameChar c then state.move .server else state.enter c
  | .name start read =>
      if Text.isNameChar c then state.move (.name start (read ++ [c]))
      else (state.emit start read).enter c
  | .quoted quote => state.move (if c = quote then .code else .quoted quote)
  | .raw => state.move (if c = '#' then .code else .raw)
  | .line => state.move (if c = '\n' then .code else .line)
  | .block => state.move (if c = '*' then .star else .block)
  | .star => state.move (if c = '/' then .code else if c = '*' then .star else .block)

/-- The references that are found when the body is over. -/
def State.finish (state : State) : List Reference :=
  match state.mode with
  | .name start read => (state.emit start read).found
  | _ => state.found

/-- The references that are found when the automaton consumes the rest of a body. -/
def run (state : State) (rest : Text) : List Reference := (rest.foldl step state).finish

/-- The automaton in code, with nothing begun. -/
def inCode (offset : Nat) (found : List Reference) : State := ⟨.code, offset, found⟩

/-- The references the automaton finds in a body. -/
def references (body : Text) : List Reference := run (inCode 0 []) body

/-! ## Spans -/

theorem run_cons (state : State) (c : Char) (rest : Text) :
    run state (c :: rest) = run (step state c) rest := rfl

/-- Two states that a rest cannot tell apart by its first character, nor by having none, find the
same references in it. -/
theorem run_congr {state other : State} {rest : Text} (finished : state.finish = other.finish)
    (same : ∀ c, rest.head? = some c → step state c = step other c) :
    run state rest = run other rest := by
  cases rest with
  | nil => exact finished
  | cons c rest => rw [run_cons, run_cons, same c rfl]

variable (offset : Nat) (found : List Reference)

/-- From inside a quote, the automaton is back in code where the span ends. -/
theorem run_quoted {quote : Char} (isQuote : quote = '\'' ∨ quote = '"') (text : Text) :
    run ⟨.quoted quote, offset, found⟩ text =
      run (inCode (offset + quotedLength quote text) found)
        (text.drop (quotedLength quote text)) := by
  fun_induction quotedLength quote text generalizing offset with
  | case1 => rfl
  | case2 => simp [run_cons, step, State.move, inCode]
  | case3 later ih =>
      have opens : opened (offset + 1) quote = .quoted quote := if_pos isQuote
      have twice := ih (offset + 2)
      simp only [run_cons, step, State.move, State.enter, if_true, opens, List.drop_succ_cons]
      rw [twice, Nat.add_right_comm]
      rfl
  | case4 next later single => simp [run_cons, step, State.move, inCode]
  | case5 c rest other ih =>
      simp only [run_cons, step, State.move, if_neg other, List.drop_succ_cons]
      rw [ih (offset + 1), Nat.add_right_comm]
      rfl

/-- From a mode that one character ends, the automaton is back in code after that character. -/
theorem run_lengthThrough (mode : Mode) {last : Char}
    (steps : ∀ offset c, step ⟨mode, offset, found⟩ c =
      ⟨if c = last then .code else mode, offset + 1, found⟩)
    (stays : ∀ offset, State.finish ⟨mode, offset, found⟩ = found) (text : Text) :
    run ⟨mode, offset, found⟩ text =
      run (inCode (offset + lengthThrough last text) found)
        (text.drop (lengthThrough last text)) := by
  fun_induction lengthThrough last text generalizing offset with
  | case1 => exact stays offset
  | case2 rest => rw [run_cons, steps, if_pos rfl]; rfl
  | case3 c rest other ih =>
      rw [run_cons, steps, if_neg other, ih (offset + 1), List.drop_succ_cons,
        Nat.add_right_comm]
      rfl

/-- From inside a block comment, the automaton is back in code after the two signs. -/
theorem run_block (text : Text) :
    run ⟨.block, offset, found⟩ text =
      run (inCode (offset + blockLength text) found) (text.drop (blockLength text)) := by
  fun_induction blockLength text generalizing offset with
  | case1 => rfl
  | case2 later => rfl
  | case3 c rest unclosed ih =>
      rw [run_cons, List.drop_succ_cons, ← Nat.add_assoc, Nat.add_right_comm, ← ih (offset + 1)]
      by_cases isStar : c = '*'
      · subst isStar
        refine run_congr rfl fun d next => ?_
        obtain ⟨tail, rfl⟩ := List.head?_eq_some_iff.mp next
        have noSlash : d ≠ '/' := fun isSlash => unclosed tail rfl (by rw [isSlash])
        simp [step, State.move, noSlash]
      · simp [step, State.move, isStar]

/-! ## Names -/

/-- The automaton consumes the name of a variable of the server. -/
theorem foldl_server {name : Text} (all : ∀ c ∈ name, Text.isNameChar c = true) :
    name.foldl step ⟨.server, offset, found⟩ = ⟨.server, offset + name.length, found⟩ := by
  induction name generalizing offset with
  | nil => rfl
  | cons c name ih =>
      obtain ⟨char, later⟩ := List.forall_mem_cons.mp all
      have consumed : step ⟨.server, offset, found⟩ c = ⟨.server, offset + 1, found⟩ := if_pos char
      rw [List.foldl_cons, consumed, ih (offset + 1) later, List.length_cons,
        Nat.add_right_comm, Nat.add_assoc]

/-- The automaton consumes the name of a reference. -/
theorem foldl_name {start : Nat} {read name : Text}
    (all : ∀ c ∈ name, Text.isNameChar c = true) :
    name.foldl step ⟨.name start read, offset, found⟩ =
      ⟨.name start (read ++ name), offset + name.length, found⟩ := by
  induction name generalizing offset read with
  | nil => rw [List.append_nil]; rfl
  | cons c name ih =>
      obtain ⟨char, later⟩ := List.forall_mem_cons.mp all
      have consumed : step ⟨.name start read, offset, found⟩ c =
          ⟨.name start (read ++ [c]), offset + 1, found⟩ := if_pos char
      rw [List.foldl_cons, consumed, ih (offset + 1) later, List.length_cons,
        Nat.add_right_comm, Nat.add_assoc, List.append_assoc]
      rfl

/-- From after the signs before it, the automaton passes over the name of a variable of the
server. -/
theorem run_server {name rest : Text} (named : Text.isName name = true) (ends : rest.EndsName) :
    run ⟨.signs, offset, found⟩ (name ++ rest) =
      run (inCode (offset + name.length) found) rest := by
  obtain ⟨c, tail, rfl, start, continued⟩ := Text.exists_of_isName named
  have entered : step ⟨.signs, offset, found⟩ c = ⟨.server, offset + 1, found⟩ := if_pos start
  rw [List.cons_append, run_cons, entered, run, List.foldl_append,
    foldl_server (offset + 1) found continued, List.length_cons, Nat.add_right_comm,
    Nat.add_assoc]
  exact run_congr rfl fun d next => if_neg (Bool.eq_false_iff.mp (ends d next))

/-- From after an at sign, the automaton finds the reference. -/
theorem run_name {name rest : Text} (named : Text.isName name = true) (ends : rest.EndsName) :
    run ⟨.sign offset, offset + 1, found⟩ (name ++ rest) =
      run (inCode (offset + (name.length + 1))
        (found ++ [⟨name, offset, offset + (name.length + 1)⟩])) rest := by
  obtain ⟨c, tail, rfl, start, continued⟩ := Text.exists_of_isName named
  have other : c ≠ '@' := by
    rintro rfl
    exact absurd start (by decide)
  have entered : step ⟨.sign offset, offset + 1, found⟩ c =
      ⟨.name offset [c], offset + 2, found⟩ := (if_neg other).trans (if_pos start)
  rw [List.cons_append, run_cons, entered, run, List.foldl_append,
    foldl_name (offset + 2) found continued, List.length_cons, Nat.add_assoc, Nat.add_comm 2]
  exact run_congr rfl fun d next => if_neg (Bool.eq_false_iff.mp (ends d next))

/-! ## Tokens -/

/-- A mode that a character leaves as code does, and that has nothing to report, is code. -/
theorem run_resumed (mode : Mode) {rest : Text}
    (stays : State.finish ⟨mode, offset, found⟩ = found)
    (leaves : ∀ c, rest.head? = some c →
      step ⟨mode, offset, found⟩ c = (inCode offset found).enter c) :
    run ⟨mode, offset, found⟩ rest = run (inCode offset found) rest :=
  run_congr stays leaves

/-- A span that is as long as it is measured to be leads back to code in front of the rest. -/
theorem run_span {mode : Mode} {opening length : Nat} {inner rest : Text}
    (back : run ⟨mode, offset + opening, found⟩ (inner ++ rest) =
      run (inCode (offset + opening + length) found) ((inner ++ rest).drop length))
    (closed : length = inner.length) :
    run ⟨mode, offset + opening, found⟩ (inner ++ rest) =
      run (inCode (offset + (inner.length + opening)) found) rest := by
  rw [back, closed, List.drop_left, Nat.add_assoc, Nat.add_comm opening]

/-- **A token that is whole in front of a rest takes the automaton from code to code**, and adds
the reference it is. -/
theorem run_token {token : Token} {rest : Text} (front : Front token rest) :
    run (inCode offset found) (token.text ++ rest) =
      run (inCode (offset + token.text.length) (found ++ token.located offset)) rest := by
  cases front with
  | inert opens =>
      next c =>
      have plain : opened offset c = .code := by
        simp only [isInert, Bool.not_eq_true', decide_eq_false_iff_not, List.mem_cons,
          List.not_mem_nil, or_false, not_or] at opens
        simp [opened, opens]
      simp [Token.text, Token.located, run_cons, step, State.enter, State.move, inCode, plain]
  | dash single =>
      simp only [Token.located, List.append_nil]
      refine run_resumed (offset + 1) found .dash rfl fun c next => if_neg ?_
      rintro rfl
      exact single next
  | slash single =>
      simp only [Token.located, List.append_nil]
      refine run_resumed (offset + 1) found .slash rfl fun c next => if_neg ?_
      rintro rfl
      exact single next
  | sign single unnamed =>
      simp only [Token.located, List.append_nil]
      refine run_resumed (offset + 1) found (.sign offset) rfl fun c next => ?_
      have other : c ≠ '@' := by
        rintro rfl
        exact single next
      exact (if_neg other).trans (if_neg (Bool.eq_false_iff.mp (unnamed c next)))
  | quoted isQuote closed =>
      next quote inner =>
      have opens : opened offset quote = .quoted quote := if_pos isQuote
      have inside := run_span offset found (run_quoted (offset + 1) found isQuote _) closed
      rw [← opens] at inside
      simp only [Token.located, List.append_nil]
      exact inside
  | raw closed =>
      have inside := run_span offset found (run_lengthThrough (offset + 1) found .raw
        (fun _ _ => rfl) (fun _ => rfl) _) closed
      simp only [Token.located, List.append_nil]
      exact inside
  | line closed =>
      have inside := run_span offset found (run_lengthThrough (offset + 2) found .line
        (fun _ _ => rfl) (fun _ => rfl) _) closed
      simp only [Token.located, List.append_nil]
      exact inside
  | block closed =>
      have inside := run_span offset found (run_block (offset + 2) found _) closed
      simp only [Token.located, List.append_nil]
      exact inside
  | unnamedServer unnamed =>
      simp only [Token.located, List.append_nil]
      refine run_resumed (offset + 2) found .signs rfl fun c next => ?_
      exact if_neg (Bool.eq_false_iff.mp (unnamed c next))
  | server named ends =>
      next name =>
      simp only [Token.located, List.append_nil]
      have inside := run_server (offset + 2) found named ends
      exact inside.trans (by rw [Nat.add_assoc, Nat.add_comm 2]; rfl)
  | reference named ends => exact run_name offset found named ends

end Automaton

/-- From code, the automaton finds the references that the cut of the rest locates. -/
theorem run_inCode (body : Text) (offset : Nat) (found : List Reference) :
    Automaton.run (Automaton.inCode offset found) body = found ++ locate offset (tokens body) := by
  induction body using token_induction generalizing offset found with
  | nil => rw [tokens, locate, List.append_nil]; rfl
  | cons token rest front ih =>
      rw [tokens_of_front front, locate_cons, Automaton.run_token offset found front, ih,
        List.append_assoc]

/-- **The references of a body are those that the automaton finds**, in the same order and at
the same offsets. -/
theorem references_eq_automaton (body : Text) : references body = Automaton.references body :=
  (run_inCode body 0 []).symm

/-- A block comment is not closed by the star that opens it, the third at sign in a row starts
over, and a doubled quote does not let a reference out. -/
example :
    Automaton.references "/*/ @a */ @@@b '''@c' @d".toList =
      [⟨"b".toList, 12, 14⟩, ⟨"d".toList, 22, 24⟩] := by
  decide +kernel

end Body
end TypedQuery
