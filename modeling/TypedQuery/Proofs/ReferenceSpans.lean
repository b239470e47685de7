import TypedQuery.Proofs.Continuation
import TypedQuery.Proofs.Substitution

/-!
# Where references stand

A reference stands in its body: between its offsets there are an at sign and its name, the name is
not continued, and no two references overlap (`Body.references_stand`). That is read off the cut of
the body, token by token.

At signs in a row are told apart by their number. Two of them open a variable of the server, so a
reference starts with the last of an odd number of at signs. The cut keeps the number of at signs
that end the tokens before a reference even, or else what follows starts with no at sign
(`Body.Front.evenSigns`): an at sign that stands for itself is the only token that leaves an
odd number, and it is followed by neither an at sign nor a name. Inside a span at signs may stand in
any number, but a span ends with the character that closes it or with the body.
-/

set_option autoImplicit false

namespace TypedQuery

/-! ## At signs in a row -/

/-- How many at signs stand in a row at the end of a text. -/
def Text.signsAtEnd (text : Text) : Nat := (text.reverse.takeWhile (· == '@')).length

namespace Text

theorem signsAtEnd_append_sign (text : Text) : signsAtEnd (text ++ ['@']) = signsAtEnd text + 1 := by
  simp [signsAtEnd]

/-- A text that ends with another character has no at sign at its end, whatever stands before it. -/
theorem signsAtEnd_append {c : Char} {text : Text} (last : text.getLast? = some c)
    (other : c ≠ '@') (before : Text) : signsAtEnd (before ++ text) = 0 := by
  obtain ⟨front, rfl⟩ := List.getLast?_eq_some_iff.mp last
  simp [signsAtEnd, other]

/-- A name ends with a character that is no at sign. -/
theorem exists_last_of_isName {name : Text} (named : isName name = true) :
    ∃ c, name.getLast? = some c ∧ c ≠ '@' := by
  obtain ⟨first, later, rfl, start, continued⟩ := exists_of_isName named
  refine ⟨_, List.getLast?_eq_some_getLast (List.cons_ne_nil first later), fun isAt => ?_⟩
  have char : isNameChar '@' = true := by
    rw [← isAt]
    rcases List.mem_cons.mp (List.getLast_mem (List.cons_ne_nil first later)) with same | inside
    · rw [same]
      exact isNameChar_of_isNameStart start
    · exact continued _ inside
  cases char

end Text

namespace Body

/-! ## How spans end -/

theorem getLast?_cons_of_some {c last : Char} {text : Text} (found : text.getLast? = some last) :
    (c :: text).getLast? = some last := by
  rw [List.getLast?_cons, found]
  rfl

/-- A quoted span ends with its quote, or with the body. -/
theorem getLast?_of_quotedLength {quote : Char} {inner rest : Text}
    (closed : quotedLength quote (inner ++ rest) = inner.length) :
    rest = [] ∨ inner.getLast? = some quote := by
  fun_induction quotedLength quote inner with
  | case1 => exact .inl (eq_nil_of_quotedLength closed)
  | case2 => exact .inr rfl
  | case3 later ih =>
      simp only [List.cons_append, quotedLength, if_true, List.length_cons,
        Nat.add_right_cancel_iff] at closed
      exact (ih closed).imp_right fun found => getLast?_cons_of_some (getLast?_cons_of_some found)
  | case4 next later differ => simp [quotedLength, differ] at closed
  | case5 c inner other ih =>
      rw [List.cons_append, quotedLength_cons_of_ne other] at closed
      exact (ih (Nat.succ.inj closed)).imp_right getLast?_cons_of_some

/-- A span that one character closes ends with that character, or with the body. -/
theorem getLast?_of_lengthThrough {last : Char} {inner rest : Text}
    (closed : lengthThrough last (inner ++ rest) = inner.length) :
    rest = [] ∨ inner.getLast? = some last := by
  fun_induction lengthThrough last inner with
  | case1 => exact .inl (eq_nil_of_lengthThrough closed)
  | case2 inner =>
      simp only [List.cons_append, lengthThrough, if_true, List.length_cons] at closed
      rw [List.length_eq_zero_iff.mp (Nat.succ.inj closed).symm]
      exact .inr rfl
  | case3 c inner other ih =>
      simp only [List.cons_append, lengthThrough, if_neg other, List.length_cons,
        Nat.add_right_cancel_iff] at closed
      exact (ih closed).imp_right getLast?_cons_of_some

/-- A block comment ends with a slash, or with the body. -/
theorem getLast?_of_blockLength {inner rest : Text}
    (closed : blockLength (inner ++ rest) = inner.length) :
    rest = [] ∨ inner.getLast? = some '/' := by
  fun_induction blockLength inner with
  | case1 => exact .inl (eq_nil_of_blockLength closed)
  | case2 later =>
      have none : later = [] := by
        simpa [blockLength] using closed.symm
      rw [none]
      exact .inr rfl
  | case3 c inner unclosed ih =>
      cases inner with
      | nil => exact .inl (eq_nil_of_blockLength_cons closed)
      | cons d inner =>
          have open' : ∀ tail, c = '*' → d :: inner ++ rest = '/' :: tail → False := by
            intro tail isStar same
            obtain ⟨rfl, _⟩ := List.cons_eq_cons.mp same
            exact unclosed inner isStar rfl
          rw [List.cons_append, blockLength_cons open'] at closed
          exact (ih (Nat.succ.inj closed)).imp_right getLast?_cons_of_some

/-! ## How tokens end -/

/-- A token ends with another character than an at sign, or it is two at signs without a name, or no
at sign follows it. -/
theorem Front.ends {token : Token} {rest : Text} (front : Front token rest) :
    (∃ c, token.text.getLast? = some c ∧ c ≠ '@') ∨ token = .server [] ∨
      rest.head? ≠ some '@' := by
  have ended (none : rest = []) : rest.head? ≠ some '@' := by simp [none]
  cases front with
  | inert opens => exact .inl ⟨_, rfl, by rintro rfl; exact absurd opens (by decide)⟩
  | dash => exact .inl ⟨_, rfl, by decide⟩
  | slash => exact .inl ⟨_, rfl, by decide⟩
  | sign single => exact .inr (.inr single)
  | quoted isQuote closed =>
      rcases getLast?_of_quotedLength closed with none | found
      · exact .inr (.inr (ended none))
      · refine .inl ⟨_, getLast?_cons_of_some found, ?_⟩
        rcases isQuote with rfl | rfl <;> decide
  | raw closed =>
      rcases getLast?_of_lengthThrough closed with none | found
      · exact .inr (.inr (ended none))
      · exact .inl ⟨_, getLast?_cons_of_some found, by decide⟩
  | line closed =>
      rcases getLast?_of_lengthThrough closed with none | found
      · exact .inr (.inr (ended none))
      · exact .inl ⟨_, getLast?_cons_of_some (getLast?_cons_of_some found), by decide⟩
  | block closed =>
      rcases getLast?_of_blockLength closed with none | found
      · exact .inr (.inr (ended none))
      · exact .inl ⟨_, getLast?_cons_of_some (getLast?_cons_of_some found), by decide⟩
  | unnamedServer => exact .inr (.inl rfl)
  | server named =>
      obtain ⟨c, last, other⟩ := Text.exists_last_of_isName named
      exact .inl ⟨c, getLast?_cons_of_some (getLast?_cons_of_some last), other⟩
  | reference named =>
      obtain ⟨c, last, other⟩ := Text.exists_last_of_isName named
      exact .inl ⟨c, getLast?_cons_of_some last, other⟩

/-- Between two tokens, an even number of at signs ends what stands before, or no at sign starts
what follows. -/
def EvenSigns (before rest : Text) : Prop :=
  Text.signsAtEnd before % 2 = 0 ∨ rest.head? ≠ some '@'

/-- **A token keeps the number of at signs before an at sign even.** -/
theorem Front.evenSigns {token : Token} {rest before : Text} (front : Front token rest)
    (even : EvenSigns before (token.text ++ rest)) : EvenSigns (before ++ token.text) rest := by
  rcases front.ends with ⟨c, last, other⟩ | rfl | none
  · exact .inl (congrArg (· % 2) (Text.signsAtEnd_append last other before))
  · have twice : before ++ (Token.server []).text = before ++ ['@'] ++ ['@'] := by
      simp [Token.text]
    have started : Text.signsAtEnd before % 2 = 0 := even.resolve_right fun none => none rfl
    refine .inl ?_
    rw [twice, Text.signsAtEnd_append_sign, Text.signsAtEnd_append_sign]
    omega
  · exact .inr none

/-! ## References -/

/-- A reference that is located behind a text stands there: an even number of at signs, an at sign,
its name, and a rest that does not continue the name. -/
theorem exists_front_of_mem_locate {body before : Text} {reference : Reference}
    (even : EvenSigns before body) (member : reference ∈ locate before.length (tokens body)) :
    ∃ front rest, before ++ body = front ++ (('@' :: reference.name) ++ rest) ∧
      reference.start = front.length ∧
      reference.stop = front.length + ('@' :: reference.name).length ∧
      Text.isName reference.name = true ∧ rest.EndsName ∧ Text.signsAtEnd front % 2 = 0 := by
  induction body using token_induction generalizing before with
  | nil =>
      rw [tokens] at member
      cases member
  | cons token rest front ih =>
      rw [tokens_of_front front, locate_cons] at member
      rcases List.mem_append.mp member with here | later
      · cases front with
        | reference named ends =>
            obtain rfl := List.mem_singleton.mp here
            exact ⟨before, rest, rfl, rfl, rfl, named, ends, even.resolve_right fun none => none rfl⟩
        | _ => cases here
      · rw [← List.length_append] at later
        rw [← List.append_assoc]
        exact ih (front.evenSigns even) later

/-- The name of a reference is not continued where the reference stops. -/
theorem endsName_drop_stop {body : Text} {reference : Reference}
    (member : reference ∈ references body) : Text.EndsName (body.drop reference.stop) := by
  obtain ⟨front, rest, whole, _, stop, _, ends, _⟩ :=
    exists_front_of_mem_locate (show EvenSigns [] body from .inl rfl) member
  have cut : body = (front ++ '@' :: reference.name) ++ rest := by
    rw [List.append_assoc]
    exact whole
  have length : reference.stop = (front ++ '@' :: reference.name).length := by
    rw [stop, List.length_append]
  rw [length, cut, List.drop_left]
  exact ends

/-- References among tokens stand behind the offset of the first token, one after the other. -/
theorem apart_locate (offset : Nat) (tokens : List Token) :
    (∀ reference ∈ locate offset tokens, offset ≤ reference.start) ∧
      (locate offset tokens).Pairwise fun first second => first.stop ≤ second.start := by
  induction tokens generalizing offset with
  | nil => exact ⟨List.forall_mem_nil _, .nil⟩
  | cons token later ih =>
      obtain ⟨behind, apart⟩ := ih (offset + token.text.length)
      have behind' : ∀ reference ∈ locate (offset + token.text.length) later,
          offset ≤ reference.start :=
        fun reference member => (Nat.le_add_right _ _).trans (behind reference member)
      rcases token.kept_or_reference with kept | ⟨name, rfl⟩
      · rw [locate_of_kept kept]
        exact ⟨behind', apart⟩
      · exact ⟨List.forall_mem_cons.mpr ⟨Nat.le_refl offset, behind'⟩, .cons behind apart⟩

/-- A reference stands in a body: its span is an at sign and its name, which is not continued, and
the at sign is the last of an odd number of them in a row. -/
structure StandsIn (body : Text) (reference : Reference) : Prop where
  forward : reference.start < reference.stop
  within : reference.stop ≤ body.length
  spelled : Text.slice body reference.start reference.stop = '@' :: reference.name
  named : Text.isName reference.name = true
  longest : ∀ c, body[reference.stop]? = some c → Text.isNameChar c = false
  odd : Text.signsAtEnd (body.take (reference.start + 1)) % 2 = 1

/-- The references of a body stand in it, one after the other. -/
structure ReferencesStand (body : Text) : Prop where
  each : ∀ reference ∈ references body, StandsIn body reference
  apart : (references body).Pairwise fun first second => first.stop ≤ second.start

/-- **References are well formed.** -/
theorem references_stand (body : Text) : ReferencesStand body where
  each := by
    intro reference member
    obtain ⟨front, rest, whole, start, stop, named, ends, even⟩ :=
      exists_front_of_mem_locate (show EvenSigns [] body from .inl rfl) member
    rw [List.nil_append] at whole
    refine ⟨?_, ?_, ?_, named, ?_, ?_⟩
    · rw [start, stop, List.length_cons]
      omega
    · rw [stop, whole, List.length_append, List.length_append]
      omega
    · rw [start, stop, whole, Text.slice_append]
    · intro c next
      rw [stop, whole, ← List.append_assoc, ← List.length_append,
        List.getElem?_append_right (Nat.le_refl _), Nat.sub_self] at next
      exact ends c (List.head?_eq_getElem?.trans next)
    · have through : body.take (reference.start + 1) = front ++ ['@'] := by
        rw [start, whole, List.take_length_add_append]
        rfl
      rw [through, Text.signsAtEnd_append_sign]
      omega
  apart := (apart_locate 0 (tokens body)).2

/-- Three at signs are a variable of the server without a name, and the start of a reference. -/
example : references "@@a@@@b".toList = [⟨['b'], 5, 7⟩] ∧
    Text.signsAtEnd ("@@a@@@b".toList.take 6) = 3 := by decide +kernel

end Body
end TypedQuery
