import TypedQuery.Body
import TypedQuery.Proofs.Runs

/-!
# One character decides where a token ends

A body is cut from the front, and what a token looks at is its own text and at most one
character after it. `Body.Front token rest` says that a token is whole in front of a rest, kind
by kind: a span is closed within its text or nothing follows it, a name is not continued, and a
dash, a slash or an at sign does not open something with the next character.

The relation and the cut are two views of one thing (`front_nextToken`, `tokens_of_front`). So a
statement about all bodies is proved token by token, by induction along the cut
(`token_induction`), and a body that is put together from tokens is cut into these tokens again.
-/

set_option autoImplicit false

namespace TypedQuery

namespace Text

/-- No name starts in front of the text. -/
def StartsNoName (text : Text) : Prop := ∀ c, text.head? = some c → isNameStart c = false

/-- No name is continued in front of the text. -/
def EndsName (text : Text) : Prop := ∀ c, text.head? = some c → isNameChar c = false

/-- A name has a character that may open it, and goes on with characters that may continue it. -/
theorem exists_of_isName {name : Text} (named : isName name = true) :
    ∃ c later, name = c :: later ∧ isNameStart c = true ∧ ∀ d ∈ later, isNameChar d = true := by
  cases name with
  | nil => cases named
  | cons c later =>
      obtain ⟨start, continued⟩ := (Bool.and_eq_true _ _).mp named
      exact ⟨c, later, rfl, start, List.all_eq_true.mp continued⟩

/-- A character that opens a name may continue one. -/
theorem isNameChar_of_isNameStart {c : Char} (start : isNameStart c = true) :
    isNameChar c = true := by
  unfold isNameStart at start
  unfold isNameChar Char.isAlphanum
  rcases (Bool.or_eq_true _ _).mp start with letter | line
  · simp [letter]
  · simp [line]

/-- A character that may continue a name is a letter, a digit or an underscore. -/
theorem range_of_isNameChar {c : Char} (char : isNameChar c = true) :
    (65 ≤ c.toNat ∧ c.toNat ≤ 90) ∨ (97 ≤ c.toNat ∧ c.toNat ≤ 122) ∨
      (48 ≤ c.toNat ∧ c.toNat ≤ 57) ∨ c = '_' := by
  rcases (Bool.or_eq_true _ _).mp char with alphanum | line
  · rcases (Bool.or_eq_true _ _).mp alphanum with letter | digit
    · rcases (Bool.or_eq_true _ _).mp letter with upper | lower
      · exact .inl (of_decide_eq_true upper)
      · obtain ⟨first, last⟩ := (Bool.and_eq_true _ _).mp lower
        exact .inr (.inl ⟨of_decide_eq_true first, of_decide_eq_true last⟩)
    · obtain ⟨first, last⟩ := (Bool.and_eq_true _ _).mp digit
      exact .inr (.inr (.inl ⟨of_decide_eq_true first, of_decide_eq_true last⟩))
  · exact .inr (.inr (.inr (eq_of_beq line)))

/-- No white space continues a name. -/
theorem isSpace_of_isNameChar {c : Char} (char : isNameChar c = true) : isSpace c = false := by
  rcases range_of_isNameChar char with upper | lower | digit | rfl
  · simp [isSpace, spaceRuns]
    omega
  · simp [isSpace, spaceRuns]
    omega
  · simp [isSpace, spaceRuns]
    omega
  · decide

theorem isNameChar_of_isSpace {c : Char} (space : isSpace c = true) : isNameChar c = false := by
  refine Bool.eq_false_iff.mpr fun char => ?_
  rw [isSpace_of_isNameChar char] at space
  cases space

/-- A name starts with no blank. -/
theorem stops_isBlank_of_isName {name : Text} (named : isName name = true) (rest : Text) :
    Stops isBlank (name ++ rest) := by
  obtain ⟨c, later, rfl, start, _⟩ := exists_of_isName named
  exact stops_cons (isBlank_eq_false (isSpace_of_isNameChar (isNameChar_of_isNameStart start))) _

/-- A name has no white space, and so none at its ends. -/
theorem trimmed_of_isName {name : Text} (named : isName name = true) : Trimmed name := by
  have noSpace : ∀ c ∈ name, isSpace c = false := by
    obtain ⟨c, later, rfl, start, continued⟩ := exists_of_isName named
    refine List.forall_mem_cons.mpr ⟨?_, fun d member => isSpace_of_isNameChar (continued d member)⟩
    exact isSpace_of_isNameChar (isNameChar_of_isNameStart start)
  exact ⟨fun c first => noSpace c (List.mem_of_mem_head? first),
    fun c last => noSpace c (List.mem_reverse.mp (List.mem_of_mem_head? last))⟩

/-- No line feed stands in a name. -/
theorem newline_not_mem_of_isName {name : Text} (named : isName name = true) :
    '\n' ∉ name := by
  obtain ⟨c, later, rfl, start, continued⟩ := exists_of_isName named
  intro member
  rcases List.mem_cons.mp member with rfl | member
  · cases start
  · cases continued _ member

theorem readName?_of_startsNoName {text : Text} (none : text.StartsNoName) :
    readName? text = .none := by
  cases text with
  | nil => rfl
  | cons c rest => simp [readName?, none c rfl]

theorem startsNoName_of_readName? {text : Text} (none : readName? text = .none) :
    text.StartsNoName := by
  cases text with
  | nil => exact fun _ found => by cases found
  | cons c rest =>
      intro other found
      obtain rfl := Option.some.inj found
      cases start : isNameStart c with
      | false => rfl
      | true => simp [readName?, start] at none

/-- A name is read up to where it is not continued. -/
theorem readName?_append {name rest : Text} (named : isName name = true) (ends : rest.EndsName) :
    readName? (name ++ rest) = some (name, rest) := by
  obtain ⟨c, tail, rfl, start, continued⟩ := exists_of_isName named
  simp only [List.cons_append, readName?, start, if_true, takeWhile_append continued ends,
    dropWhile_append continued ends]

theorem endsName_of_readName? {text name rest : Text}
    (read : readName? text = some (name, rest)) : rest.EndsName := by
  cases text with
  | nil => cases read
  | cons c tail =>
      simp only [readName?] at read
      split at read
      · obtain ⟨_, rfl⟩ := Prod.mk.inj (Option.some.inj read)
        exact stops_dropWhile isNameChar tail
      · cases read

end Text

namespace Body

/-! ## Lengths of spans -/

theorem quotedLength_le (quote : Char) (text : Text) : quotedLength quote text ≤ text.length := by
  fun_induction quotedLength quote text with
  | case1 => exact Nat.le_refl _
  | case2 => exact Nat.le_refl _
  | case3 _ ih => exact Nat.add_le_add_right ih 2
  | case4 => exact Nat.succ_le_succ (Nat.zero_le _)
  | case5 _ _ _ ih => exact Nat.add_le_add_right ih 1

theorem lengthThrough_le (last : Char) (text : Text) : lengthThrough last text ≤ text.length := by
  fun_induction lengthThrough last text with
  | case1 => exact Nat.le_refl _
  | case2 => exact Nat.succ_le_succ (Nat.zero_le _)
  | case3 _ _ _ ih => exact Nat.add_le_add_right ih 1

theorem blockLength_le (text : Text) : blockLength text ≤ text.length := by
  fun_induction blockLength text with
  | case1 => exact Nat.le_refl _
  | case2 => exact Nat.succ_le_succ (Nat.succ_le_succ (Nat.zero_le _))
  | case3 _ _ _ ih => exact Nat.add_le_add_right ih 1

/-! ## Tokens in front of a rest -/

/-- A character that opens nothing. -/
def isInert (c : Char) : Bool := !(c ∈ ['\'', '"', '#', '-', '/', '@'])

/-- A token is whole in front of a rest. -/
inductive Front : Token → Text → Prop where
  | inert {c : Char} {rest : Text} (opens : isInert c = true) : Front (.plain c) rest
  | dash {rest : Text} (single : rest.head? ≠ some '-') : Front (.plain '-') rest
  | slash {rest : Text} (single : rest.head? ≠ some '*') : Front (.plain '/') rest
  | sign {rest : Text} (single : rest.head? ≠ some '@') (unnamed : rest.StartsNoName) :
      Front (.plain '@') rest
  | quoted {quote : Char} {inner rest : Text} (isQuote : quote = '\'' ∨ quote = '"')
      (closed : quotedLength quote (inner ++ rest) = inner.length) :
      Front (.span (quote :: inner)) rest
  | raw {inner rest : Text} (closed : lengthThrough '#' (inner ++ rest) = inner.length) :
      Front (.span ('#' :: inner)) rest
  | line {inner rest : Text} (closed : lengthThrough '\n' (inner ++ rest) = inner.length) :
      Front (.span ('-' :: '-' :: inner)) rest
  | block {inner rest : Text} (closed : blockLength (inner ++ rest) = inner.length) :
      Front (.span ('/' :: '*' :: inner)) rest
  | unnamedServer {rest : Text} (unnamed : rest.StartsNoName) : Front (.server []) rest
  | server {name rest : Text} (named : Text.isName name = true) (ends : rest.EndsName) :
      Front (.server name) rest
  | reference {name rest : Text} (named : Text.isName name = true) (ends : rest.EndsName) :
      Front (.reference name) rest

/-- The first part of a text is as long as it is measured to be, measured in front of the
rest. -/
theorem measured_take {measure : Text → Nat} (bound : ∀ text, measure text ≤ text.length)
    (text : Text) : measure (text.take (measure text) ++ text.drop (measure text)) =
      (text.take (measure text)).length := by
  rw [List.take_append_drop, List.length_take, Nat.min_eq_left (bound text)]

/-- The cut of a body gives a token that is whole in front of what follows. -/
theorem front_nextToken (c : Char) (rest : Text) :
    Front (nextToken c rest).1 (nextToken c rest).2 := by
  unfold nextToken
  split
  · next length opens =>
      unfold spanLength? at opens
      split at opens
      · next inner same =>
          obtain ⟨rfl, rfl⟩ := List.cons_eq_cons.mp same
          obtain rfl := Option.some.inj opens
          exact .quoted (.inl rfl) (measured_take (quotedLength_le '\'') rest)
      · next inner same =>
          obtain ⟨rfl, rfl⟩ := List.cons_eq_cons.mp same
          obtain rfl := Option.some.inj opens
          exact .quoted (.inr rfl) (measured_take (quotedLength_le '"') rest)
      · next inner same =>
          obtain ⟨rfl, rfl⟩ := List.cons_eq_cons.mp same
          obtain rfl := Option.some.inj opens
          exact .raw (measured_take (lengthThrough_le '#') rest)
      · next inner same =>
          obtain ⟨rfl, rfl⟩ := List.cons_eq_cons.mp same
          obtain rfl := Option.some.inj opens
          exact .line (measured_take (lengthThrough_le '\n') inner)
      · next inner same =>
          obtain ⟨rfl, rfl⟩ := List.cons_eq_cons.mp same
          obtain rfl := Option.some.inj opens
          exact .block (measured_take blockLength_le inner)
      · cases opens
  · next opens =>
      split
      · next isAt =>
          subst isAt
          split
          · next after =>
              split
              · next name later named =>
                  exact .server (Text.isName_of_readName? named).1
                    (Text.endsName_of_readName? named)
              · next unnamed => exact .unnamedServer (Text.startsNoName_of_readName? unnamed)
          · next single =>
              split
              · next name later named =>
                  exact .reference (Text.isName_of_readName? named).1
                    (Text.endsName_of_readName? named)
              · next unnamed =>
                  refine .sign (fun isAt => ?_) (Text.startsNoName_of_readName? unnamed)
                  obtain ⟨tail, rfl⟩ := List.head?_eq_some_iff.mp isAt
                  exact single tail rfl
      · next notAt =>
          by_cases isDash : c = '-'
          · subst isDash
            refine .dash fun double => ?_
            obtain ⟨tail, rfl⟩ := List.head?_eq_some_iff.mp double
            cases opens
          · by_cases isSlash : c = '/'
            · subst isSlash
              refine .slash fun opening => ?_
              obtain ⟨tail, rfl⟩ := List.head?_eq_some_iff.mp opening
              cases opens
            · refine .inert ?_
              have single : c ≠ '\'' := by rintro rfl; cases opens
              have double : c ≠ '"' := by rintro rfl; cases opens
              have number : c ≠ '#' := by rintro rfl; cases opens
              simp [isInert, single, double, number, isDash, isSlash, notAt]

theorem spanLength?_of_inert {c : Char} (opens : isInert c = true) (rest : Text) :
    spanLength? (c :: rest) = none := by
  unfold spanLength?
  split
  all_goals
    first
      | rfl
      | next same =>
          obtain ⟨rfl, _⟩ := List.cons_eq_cons.mp same
          exact absurd opens (by decide)

/-- A span is cut off when it is as long as the span that opens there. -/
theorem nextToken_of_span {inner rest tail : Text} {c : Char} (same : inner ++ rest = c :: tail)
    (opens : spanLength? (inner ++ rest) = some inner.length) :
    nextToken c tail = (.span inner, rest) := by
  unfold nextToken
  rw [← same, opens]
  simp only [List.take_left, List.drop_left]

/-- A character that is no at sign is cut off where no span opens. -/
theorem nextToken_of_plain {c : Char} {rest : Text} (opens : spanLength? (c :: rest) = none)
    (notAt : c ≠ '@') : nextToken c rest = (.plain c, rest) := by
  unfold nextToken
  rw [opens]
  exact if_neg notAt

/-- A token that is whole in front of a rest is cut off. -/
theorem nextToken_of_front {token : Token} {rest : Text} (front : Front token rest) {c : Char}
    {tail : Text} (same : token.text ++ rest = c :: tail) : nextToken c tail = (token, rest) := by
  cases front with
  | inert opens =>
      obtain ⟨rfl, rfl⟩ := List.cons_eq_cons.mp same
      exact nextToken_of_plain (spanLength?_of_inert opens _)
        (by rintro rfl; exact absurd opens (by decide))
  | dash single =>
      obtain ⟨rfl, rfl⟩ := List.cons_eq_cons.mp same
      refine nextToken_of_plain ?_ (by decide)
      unfold spanLength?
      split <;> simp_all
  | slash single =>
      obtain ⟨rfl, rfl⟩ := List.cons_eq_cons.mp same
      refine nextToken_of_plain ?_ (by decide)
      unfold spanLength?
      split <;> simp_all
  | @sign rest single unnamed =>
      obtain ⟨rfl, rfl⟩ := List.cons_eq_cons.mp same
      have read := Text.readName?_of_startsNoName unnamed
      cases rest with
      | nil => rfl
      | cons d later =>
          have other : d ≠ '@' := fun isAt => single (congrArg some isAt)
          simp [nextToken, spanLength?, other, read]
  | quoted isQuote closed =>
      refine nextToken_of_span same ?_
      rcases isQuote with rfl | rfl
      · exact congrArg (fun length => some (length + 1)) closed
      · exact congrArg (fun length => some (length + 1)) closed
  | raw closed =>
      exact nextToken_of_span same (congrArg (fun length => some (length + 1)) closed)
  | line closed =>
      exact nextToken_of_span same (congrArg (fun length => some (length + 2)) closed)
  | block closed =>
      exact nextToken_of_span same (congrArg (fun length => some (length + 2)) closed)
  | unnamedServer unnamed =>
      obtain ⟨rfl, rfl⟩ := List.cons_eq_cons.mp same
      simp [nextToken, spanLength?, Text.readName?_of_startsNoName unnamed]
  | server named ends =>
      obtain ⟨rfl, rfl⟩ := List.cons_eq_cons.mp same
      simp [nextToken, spanLength?, Text.readName?_append named ends]
  | @reference name rest named ends =>
      obtain ⟨rfl, rfl⟩ := List.cons_eq_cons.mp same
      have read := Text.readName?_append named ends
      obtain ⟨d, later, rfl, start, _⟩ := Text.exists_of_isName named
      have other : d ≠ '@' := by
        rintro rfl
        exact absurd start (by decide)
      rw [List.cons_append] at read
      simp [nextToken, spanLength?, other, read]

/-! ## Induction along the cut -/

/-- What a token that is whole in front of a rest adds to the cut of the rest. -/
theorem tokens_of_front {token : Token} {rest : Text} (front : Front token rest) :
    tokens (token.text ++ rest) = token :: tokens rest := by
  obtain ⟨c, tail, same⟩ : ∃ c tail, token.text ++ rest = c :: tail := by
    cases front <;> exact ⟨_, _, rfl⟩
  rw [same, tokens, nextToken_of_front front same]

/-- What holds of the empty body, and of a body when it holds of what follows its first token,
holds of every body. -/
theorem token_induction {motive : Text → Prop} (nil : motive [])
    (cons : ∀ token rest, Front token rest → motive rest → motive (token.text ++ rest))
    (body : Text) : motive body := by
  fun_induction tokens body with
  | case1 => exact nil
  | case2 c rest ih =>
      rw [← text_append_nextToken c rest]
      exact cons _ _ (front_nextToken c rest) ih

/-! ## References token by token -/

theorem Token.kept_or_reference (token : Token) :
    (∀ name, token ≠ .reference name) ∨ ∃ name, token = .reference name := by
  cases token with
  | reference name => exact .inr ⟨name, rfl⟩
  | plain | span | server => exact .inl fun _ same => by cases same

/-- The reference that a token is when it stands at an offset, if it is one. -/
def Token.located (offset : Nat) : Token → List Reference
  | .reference name => [⟨name, offset, offset + (name.length + 1)⟩]
  | _ => []

/-- The references among tokens are those of the first and those of the later ones. -/
theorem locate_cons (offset : Nat) (token : Token) (later : List Token) :
    locate offset (token :: later) =
      token.located offset ++ locate (offset + token.text.length) later := by
  cases token <;> rfl

end Body
end TypedQuery
