import TypedQuery.Proofs.Tokens

/-!
# Tokens in front of another rest

What a token looks at beyond its own text is at most one character. So a token that is whole in
front of a rest is whole in front of every rest that starts with the same character
(`Body.Front.sameStart`). The same character is not needed everywhere: where an at sign stands, a
question mark, a percent sign or a colon may stand as well, since nothing that stands before it
opens something or goes on with it (`Body.isQuiet`).

A span that nothing closes is only followed by the end of the body, so the end has to stay the
end; one that is closed does not look at what follows, except that a quote must not be doubled.
-/

set_option autoImplicit false

namespace TypedQuery
namespace Body

/-! ## Rests that start in the same way -/

/-- A character that can stand in the place of an at sign: it opens nothing, and nothing that
stands before it goes on with it. -/
def isQuiet (c : Char) : Bool := c ∈ ['?', '%', ':']

/-- A rest starts in the same way as another one, or with a quiet character in the place of an
at sign. -/
inductive SameStart : Text → Text → Prop where
  | ended : SameStart [] []
  | same {c : Char} {rest rest' : Text} : SameStart (c :: rest) (c :: rest')
  | quiet {c : Char} {rest rest' : Text} (isQuiet : isQuiet c = true) :
      SameStart ('@' :: rest) (c :: rest')

theorem SameStart.eq_nil {rest rest' : Text} (start : SameStart rest rest') (ended : rest = []) :
    rest' = [] := by
  cases start with
  | ended => rfl
  | same => cases ended
  | quiet => cases ended

theorem SameStart.head? {rest rest' : Text} (start : SameStart rest rest') {c : Char}
    (next : rest'.head? = some c) : rest.head? = some c ∨ isQuiet c = true := by
  cases start with
  | ended => cases next
  | same => exact .inl next
  | quiet isQuiet =>
      obtain rfl := Option.some.inj next
      exact .inr isQuiet

theorem isNameChar_of_isQuiet {c : Char} (quiet : isQuiet c = true) :
    Text.isNameChar c = false := by
  have chars : c = '?' ∨ c = '%' ∨ c = ':' := by simpa [isQuiet] using quiet
  rcases chars with rfl | rfl | rfl <;> decide

theorem SameStart.endsName {rest rest' : Text} (start : SameStart rest rest')
    (ends : rest.EndsName) : rest'.EndsName := by
  intro c next
  rcases start.head? next with same | quiet
  · exact ends c same
  · exact isNameChar_of_isQuiet quiet

theorem SameStart.startsNoName {rest rest' : Text} (start : SameStart rest rest')
    (unnamed : rest.StartsNoName) : rest'.StartsNoName := by
  intro c next
  rcases start.head? next with same | quiet
  · exact unnamed c same
  · refine Bool.eq_false_iff.mpr fun isStart => ?_
    have isChar := Text.isNameChar_of_isNameStart isStart
    rw [isNameChar_of_isQuiet quiet] at isChar
    cases isChar

/-! ## Spans in front of another rest -/

theorem quotedLength_cons_of_ne {quote c : Char} (other : c ≠ quote) (rest : Text) :
    quotedLength quote (c :: rest) = quotedLength quote rest + 1 := by
  cases rest <;> simp [quotedLength, other]

theorem eq_nil_of_quotedLength {quote : Char} {text : Text} (zero : quotedLength quote text = 0) :
    text = [] := by
  fun_cases quotedLength quote text with
  | case1 => rfl
  | case2 => simp [quotedLength] at zero
  | case3 => simp [quotedLength] at zero
  | case4 next later differ => simp [quotedLength, differ] at zero
  | case5 c rest other => simp [quotedLength_cons_of_ne other] at zero

theorem eq_nil_of_lengthThrough {last : Char} {text : Text} (zero : lengthThrough last text = 0) :
    text = [] := by
  cases text with
  | nil => rfl
  | cons c rest =>
      unfold lengthThrough at zero
      split at zero <;> cases zero

theorem blockLength_cons {c : Char} {rest : Text}
    (unclosed : ∀ tail, c = '*' → rest = '/' :: tail → False) :
    blockLength (c :: rest) = blockLength rest + 1 := by
  rw [blockLength]
  exact unclosed

theorem eq_nil_of_blockLength {text : Text} (zero : blockLength text = 0) : text = [] := by
  fun_cases blockLength text with
  | case1 => rfl
  | case2 => cases zero
  | case3 c rest unclosed =>
      rw [blockLength_cons unclosed] at zero
      cases zero

theorem eq_nil_of_blockLength_cons {c : Char} {rest : Text}
    (single : blockLength (c :: rest) = 1) : rest = [] := by
  unfold blockLength at single
  split at single
  · cases single
  · cases single
  · next same =>
      obtain ⟨rfl, rfl⟩ := List.cons_eq_cons.mp same
      exact eq_nil_of_blockLength (Nat.succ.inj single)

/-- A quoted span that is not closed goes on to the end of the body, and one that is closed is
not doubled by what follows. So it stays whole in front of another rest. -/
theorem quotedLength_congr {quote : Char} {inner rest rest' : Text} (ended : rest = [] → rest' = [])
    (single : rest'.head? = some quote → rest.head? = some quote)
    (closed : quotedLength quote (inner ++ rest) = inner.length) :
    quotedLength quote (inner ++ rest') = inner.length := by
  fun_induction quotedLength quote inner with
  | case1 => rw [ended (eq_nil_of_quotedLength closed)]; rfl
  | case2 =>
      cases rest' with
      | nil => simp [quotedLength]
      | cons d later =>
          have differ : d ≠ quote := by
            rintro rfl
            obtain ⟨tail, rfl⟩ := List.head?_eq_some_iff.mp (single rfl)
            simp [quotedLength] at closed
          simp [quotedLength, differ]
  | case3 later ih =>
      simp only [List.cons_append, quotedLength, if_true, List.length_cons,
        Nat.add_right_cancel_iff] at closed ⊢
      exact ih closed
  | case4 next later differ => simp [quotedLength, differ] at closed
  | case5 c inner other ih =>
      rw [List.cons_append, quotedLength_cons_of_ne other] at closed ⊢
      rw [ih (Nat.succ.inj closed), List.length_cons]

theorem lengthThrough_congr {last : Char} {inner rest rest' : Text} (ended : rest = [] → rest' = [])
    (closed : lengthThrough last (inner ++ rest) = inner.length) :
    lengthThrough last (inner ++ rest') = inner.length := by
  fun_induction lengthThrough last inner with
  | case1 => rw [ended (eq_nil_of_lengthThrough closed)]; rfl
  | case2 inner =>
      simp only [List.cons_append, lengthThrough, if_true] at closed ⊢
      exact closed
  | case3 c inner other ih =>
      simp only [List.cons_append, lengthThrough, if_neg other, List.length_cons,
        Nat.add_right_cancel_iff] at closed ⊢
      exact ih closed

theorem blockLength_congr {inner rest rest' : Text} (ended : rest = [] → rest' = [])
    (closed : blockLength (inner ++ rest) = inner.length) :
    blockLength (inner ++ rest') = inner.length := by
  fun_induction blockLength inner with
  | case1 => rw [ended (eq_nil_of_blockLength closed)]; rfl
  | case2 later => exact closed
  | case3 c inner unclosed ih =>
      cases inner with
      | nil =>
          -- a star here is not closed by the rest, or the span would be longer
          have none : rest = [] := eq_nil_of_blockLength_cons closed
          rw [none] at closed
          rw [ended none]
          exact closed
      | cons d inner =>
          have open' : ∀ more tail, c = '*' → d :: inner ++ more = '/' :: tail → False := by
            intro more tail isStar same
            obtain ⟨rfl, _⟩ := List.cons_eq_cons.mp same
            exact unclosed inner isStar rfl
          rw [List.cons_append, blockLength_cons (open' _)] at closed ⊢
          exact congrArg (· + 1) (ih (Nat.succ.inj closed))

/-! ## Tokens in front of another rest -/

theorem SameStart.head?_ne {rest rest' : Text} (start : SameStart rest rest') {c : Char}
    (loud : isQuiet c = false) (single : rest.head? ≠ some c) : rest'.head? ≠ some c := by
  intro next
  rcases start.head? next with same | quiet
  · exact single same
  · rw [loud] at quiet
    cases quiet

/-- **A token that is whole in front of a rest is whole in front of any other that starts in the
same way.** -/
theorem Front.sameStart {token : Token} {rest rest' : Text} (front : Front token rest)
    (start : SameStart rest rest') : Front token rest' := by
  cases front with
  | inert opens => exact .inert opens
  | dash single => exact .dash (start.head?_ne (by decide) single)
  | slash single => exact .slash (start.head?_ne (by decide) single)
  | sign single unnamed =>
      exact .sign (start.head?_ne (by decide) single) (start.startsNoName unnamed)
  | quoted isQuote closed =>
      refine .quoted isQuote (quotedLength_congr start.eq_nil (fun next => ?_) closed)
      rcases start.head? next with same | quiet
      · exact same
      · rcases isQuote with rfl | rfl <;> cases quiet
  | raw closed => exact .raw (lengthThrough_congr start.eq_nil closed)
  | line closed => exact .line (lengthThrough_congr start.eq_nil closed)
  | block closed => exact .block (blockLength_congr start.eq_nil closed)
  | unnamedServer unnamed => exact .unnamedServer (start.startsNoName unnamed)
  | server named ends => exact .server named (start.endsName ends)
  | reference named ends => exact .reference named (start.endsName ends)

/-- Texts that start with the same token start in the same way. -/
theorem Front.sameStart_append {token : Token} {rest : Text} (front : Front token rest)
    (rest' : Text) : SameStart (token.text ++ rest) (token.text ++ rest') := by
  cases front <;> exact .same

end Body
end TypedQuery
