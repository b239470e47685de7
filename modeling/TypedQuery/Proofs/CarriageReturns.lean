import TypedQuery.Proofs.Continuation
import TypedQuery.Proofs.Splitting
import TypedQuery.Proofs.Substitution

/-!
# Carriage returns in front of line feeds

A text may be written with a carriage return in front of each line feed (`Text.crlf`). A query is
read from that text as it was read from the text before (`Query.read_crlf`): it is refused for the
same error, or it has the same declarations, its body is written in that way, and the references
are the same, each moved by the line feeds in front of it.

The header does not see the difference, since the line ends that close a line are dropped before the
line is read. For the body the cut into tokens is followed. A carriage return opens nothing, closes
nothing and continues no name, so a token that is whole in front of a rest is whole in front of the
rest as it is written now (`Body.Front.tokens_crlf`); the only token that becomes two is a line feed
of the code.
-/

set_option autoImplicit false

namespace TypedQuery

/-! ## Texts -/

namespace Text

/-- A text with a carriage return in front of each line feed. -/
def crlf (text : Text) : Text := text.flatMap fun c => if c = '\n' then ['\r', '\n'] else [c]

/-- The offset that an offset of a text becomes when carriage returns are put in: it grows by the
number of line feeds before it. -/
def moved (text : Text) (offset : Nat) : Nat := offset + (text.take offset).count '\n'

theorem crlf_nil : crlf [] = [] := rfl

theorem crlf_append (first second : Text) :
    crlf (first ++ second) = crlf first ++ crlf second :=
  List.flatMap_append

theorem crlf_cons_of_ne {c : Char} (other : c ≠ '\n') (rest : Text) :
    crlf (c :: rest) = c :: crlf rest := by
  simp [crlf, other]

theorem crlf_newline (rest : Text) : crlf ('\n' :: rest) = '\r' :: '\n' :: crlf rest := rfl

/-- A text without a line feed stays as it is. -/
theorem crlf_of_not_mem {text : Text} (inLine : '\n' ∉ text) : crlf text = text := by
  induction text with
  | nil => rfl
  | cons c rest ih =>
      obtain ⟨other, later⟩ := List.ne_and_not_mem_of_not_mem_cons inLine
      rw [crlf_cons_of_ne (Ne.symm other), ih later]

theorem crlf_flatten (texts : List Text) : crlf texts.flatten = (texts.map crlf).flatten := by
  induction texts with
  | nil => rfl
  | cons text later ih => rw [List.flatten_cons, crlf_append, ih, List.map_cons, List.flatten_cons]

theorem length_crlf (text : Text) : (crlf text).length = text.length + text.count '\n' := by
  induction text with
  | nil => rfl
  | cons c rest ih =>
      by_cases feed : c = '\n'
      · subst feed
        rw [crlf_newline, List.length_cons, List.length_cons, ih, List.length_cons,
          List.count_cons_self]
        omega
      · rw [crlf_cons_of_ne feed, List.length_cons, ih, List.length_cons,
          List.count_cons_of_ne feed]
        omega

/-- The end of a front of a text is moved to the end of that front with carriage returns. -/
theorem moved_length (front rest : Text) :
    moved (front ++ rest) front.length = (crlf front).length := by
  rw [moved, List.take_left, length_crlf]

/-- A text starts with the same character, or with a carriage return where it started with a line
feed. -/
theorem head?_of_crlf {text : Text} {c : Char} (first : (crlf text).head? = some c) :
    c = '\r' ∨ text.head? = some c := by
  cases text with
  | nil => cases first
  | cons d rest =>
      by_cases feed : d = '\n'
      · subst feed
        exact .inl (Option.some.inj first).symm
      · rw [crlf_cons_of_ne feed] at first
        exact .inr first

/-- A class of characters without the carriage return does not start a text where it did not start
it before. -/
theorem Stops.crlf {p : Char → Bool} (other : p '\r' = false) {text : Text} (stops : Stops p text) :
    Stops p (Text.crlf text) := by
  intro c first
  rcases head?_of_crlf first with rfl | same
  · exact other
  · exact stops c same

theorem head?_crlf_ne {text : Text} {c : Char} (other : c ≠ '\r') (single : text.head? ≠ some c) :
    (crlf text).head? ≠ some c := by
  intro first
  rcases head?_of_crlf first with same | same
  · exact other same
  · exact single same

/-! ## Lines -/

/-- The lines of a text with carriage returns are its lines with carriage returns. -/
theorem lines_crlf (text : Text) : lines (crlf text) = (lines text).map crlf := by
  induction text using line_induction with
  | nil => rfl
  | last line some inLine =>
      rw [crlf_of_not_mem inLine, lines_of_not_mem some inLine, List.map_singleton,
        crlf_of_not_mem inLine]
  | cons line rest inLine ih =>
      have inLine' : '\n' ∉ line ++ ['\r'] := by simp [inLine]
      have parts : crlf (line ++ '\n' :: rest) = (line ++ ['\r']) ++ '\n' :: crlf rest := by
        rw [crlf_append, crlf_of_not_mem inLine, crlf_newline, List.append_assoc]
        rfl
      have ended : crlf (line ++ ['\n']) = (line ++ ['\r']) ++ ['\n'] := by
        rw [crlf_append, crlf_of_not_mem inLine, List.append_assoc]
        rfl
      rw [parts, lines_append inLine', ih, lines_append inLine, List.map_cons, ended]

theorem chomp_crlf {text line : Text} (member : line ∈ lines text) :
    chomp (crlf line) = chomp line := by
  obtain ⟨i, there⟩ := List.getElem?_of_mem member
  rcases ended_of_lines there with ⟨content, inLine, rfl⟩ | ⟨inLine, _⟩
  · have ends : ∀ c ∈ crlf ['\n'], isLineEnd c = true :=
      List.forall_mem_cons.mpr ⟨rfl, List.forall_mem_singleton.mpr rfl⟩
    rw [crlf_append, crlf_of_not_mem inLine, chomp_append_lineEnds ends, chomp_append_newline]
  · rw [crlf_of_not_mem inLine]

end Text

/-! ## Headers -/

/-- A header whose body has a carriage return in front of each line feed. -/
def Header.crlf (header : Header) : Header := { header with body := Text.crlf header.body }

theorem Header.ofLines_crlf (marker : Text) {lines : List Text}
    (same : ∀ line ∈ lines, Text.chomp (Text.crlf line) = Text.chomp line) (above : List Text) :
    ofLines marker above (lines.map Text.crlf) = (ofLines marker above lines).map crlf := by
  induction lines generalizing above with
  | nil => rfl
  | cons line later ih =>
      obtain ⟨here, rest⟩ := List.forall_mem_cons.mp same
      rw [List.map_cons, ofLines, ofLines, here]
      cases declare marker above (Text.chomp line) with
      | none =>
          rw [← List.map_cons, ← Text.crlf_flatten]
          rfl
      | some outcome =>
          cases outcome with
          | error error => rfl
          | ok declaration =>
              simp only [ih rest]
              cases ofLines marker (above ++ [declaration.name]) later <;> rfl

/-- A header is read as it was, and the body is left with carriage returns. -/
theorem Header.read_crlf (marker text : Text) :
    read marker (Text.crlf text) = (read marker text).map crlf := by
  rw [read, Text.lines_crlf]
  exact ofLines_crlf marker (fun line member => Text.chomp_crlf member) []

/-! ## Bodies -/

/-- A reference of a body as it stands in the body with carriage returns: both of its offsets are
moved. -/
def Reference.crlf (body : Text) (reference : Reference) : Reference :=
  ⟨reference.name, body.moved reference.start, body.moved reference.stop⟩

namespace Body

/-- The tokens that a token is cut into with carriage returns. -/
def Token.crlf : Token → List Token
  | .plain c => (Text.crlf [c]).map .plain
  | .span text => [.span (Text.crlf text)]
  | .server name => [.server (Text.crlf name)]
  | .reference name => [.reference name]

theorem quotedLength_crlf {quote : Char} (isQuote : quote = '\'' ∨ quote = '"') (text : Text) :
    quotedLength quote (Text.crlf text) =
      (Text.crlf (text.take (quotedLength quote text))).length := by
  have notReturn : '\r' ≠ quote := by rcases isQuote with rfl | rfl <;> decide
  have notFeed : '\n' ≠ quote := by rcases isQuote with rfl | rfl <;> decide
  have kept (rest : Text) : Text.crlf (quote :: rest) = quote :: Text.crlf rest :=
    Text.crlf_cons_of_ne (Ne.symm notFeed) rest
  fun_induction quotedLength quote text with
  | case1 => rfl
  | case2 => simp [kept, Text.crlf_nil, quotedLength]
  | case3 later ih => simp [kept, quotedLength, ih]
  | case4 next later single =>
      have single' : (Text.crlf (next :: later)).head? ≠ some quote :=
        Text.head?_crlf_ne (Ne.symm notReturn) fun first => single (Option.some.inj first)
      rw [kept]
      cases same : Text.crlf (next :: later) with
      | nil => simp [kept, Text.crlf_nil, quotedLength]
      | cons d tail =>
          rw [same] at single'
          have other : d ≠ quote := fun isQuote => single' (congrArg some isQuote)
          simp [kept, Text.crlf_nil, quotedLength, other]
  | case5 c rest other ih =>
      rw [List.take_succ_cons]
      by_cases feed : c = '\n'
      · subst feed
        rw [Text.crlf_newline, Text.crlf_newline, quotedLength_cons_of_ne notReturn,
          quotedLength_cons_of_ne notFeed, ih]
        rfl
      · rw [Text.crlf_cons_of_ne feed, Text.crlf_cons_of_ne feed, quotedLength_cons_of_ne other, ih]
        rfl

theorem lengthThrough_crlf {last : Char} (notReturn : last ≠ '\r') (text : Text) :
    lengthThrough last (Text.crlf text) =
      (Text.crlf (text.take (lengthThrough last text))).length := by
  have pass (rest : Text) : lengthThrough last ('\r' :: rest) = lengthThrough last rest + 1 :=
    if_neg (Ne.symm notReturn)
  fun_induction lengthThrough last text with
  | case1 => rfl
  | case2 rest =>
      by_cases feed : last = '\n'
      · subst feed
        rw [Text.crlf_newline, pass, lengthThrough, if_pos rfl]
        rfl
      · rw [Text.crlf_cons_of_ne feed, lengthThrough, if_pos rfl, List.take_succ_cons,
          Text.crlf_cons_of_ne feed]
        rfl
  | case3 c rest other ih =>
      rw [List.take_succ_cons]
      by_cases feed : c = '\n'
      · subst feed
        rw [Text.crlf_newline, Text.crlf_newline, pass, lengthThrough, if_neg other, ih]
        rfl
      · rw [Text.crlf_cons_of_ne feed, Text.crlf_cons_of_ne feed, lengthThrough, if_neg other, ih]
        rfl

theorem blockLength_crlf (text : Text) :
    blockLength (Text.crlf text) = (Text.crlf (text.take (blockLength text))).length := by
  fun_induction blockLength text with
  | case1 => rfl
  | case2 rest => rfl
  | case3 c rest unclosed ih =>
      rw [List.take_succ_cons]
      by_cases feed : c = '\n'
      · subst feed
        rw [Text.crlf_newline, Text.crlf_newline, blockLength_cons (by simp),
          blockLength_cons (by simp), ih]
        rfl
      · -- no slash comes to stand after the star
        have unclosed' : ∀ tail, c = '*' → Text.crlf rest = '/' :: tail → False := by
          intro tail isStar same
          have slash : (Text.crlf rest).head? = some '/' := by rw [same, List.head?_cons]
          refine Text.head?_crlf_ne (by decide) (fun first => ?_) slash
          obtain ⟨later, rfl⟩ := List.head?_eq_some_iff.mp first
          exact unclosed later isStar rfl
        rw [Text.crlf_cons_of_ne feed, Text.crlf_cons_of_ne feed, blockLength_cons unclosed', ih]
        rfl

/-- A span that reaches through its text reaches through the text with carriage returns. -/
theorem measured_crlf {measure : Text → Nat}
    (carried : ∀ text, measure (Text.crlf text) = (Text.crlf (text.take (measure text))).length)
    {inner rest : Text} (closed : measure (inner ++ rest) = inner.length) :
    measure (Text.crlf inner ++ Text.crlf rest) = (Text.crlf inner).length := by
  rw [← Text.crlf_append, carried, closed, List.take_left]

/-- **A token that is whole in front of a rest is cut off in front of the rest with carriage
returns**, as one token or, if it is a line feed of the code, as two. -/
theorem Front.tokens_crlf {token : Token} {rest : Text} (front : Front token rest) :
    tokens (Text.crlf token.text ++ Text.crlf rest) = token.crlf ++ tokens (Text.crlf rest) := by
  have one {token' : Token} (front' : Front token' (Text.crlf rest)) :
      tokens (token'.text ++ Text.crlf rest) = token' :: tokens (Text.crlf rest) :=
    tokens_of_front front'
  cases front with
  | @inert c _ opens =>
      by_cases feed : c = '\n'
      · subst feed
        have second : Front (.plain '\n') (Text.crlf rest) := .inert opens
        have first : Front (.plain '\r') ('\n' :: Text.crlf rest) := .inert rfl
        exact (tokens_of_front first).trans (congrArg (.plain '\r' :: ·) (one second))
      · have same : Text.crlf [c] = [c] := Text.crlf_cons_of_ne feed []
        rw [Token.crlf, Token.text, same]
        exact one (.inert opens)
  | dash single => exact one (.dash (Text.head?_crlf_ne (by decide) single))
  | slash single => exact one (.slash (Text.head?_crlf_ne (by decide) single))
  | sign single unnamed =>
      exact one (.sign (Text.head?_crlf_ne (by decide) single) (Text.Stops.crlf rfl unnamed))
  | @quoted quote _ _ isQuote closed =>
      have closed' := measured_crlf (quotedLength_crlf isQuote) closed
      have other : quote ≠ '\n' := by rcases isQuote with rfl | rfl <;> decide
      rw [Token.crlf, Token.text, Text.crlf_cons_of_ne other]
      exact one (.quoted isQuote closed')
  | raw closed => exact one (.raw (measured_crlf (lengthThrough_crlf (by decide)) closed))
  | line closed => exact one (.line (measured_crlf (lengthThrough_crlf (by decide)) closed))
  | block closed => exact one (.block (measured_crlf blockLength_crlf closed))
  | unnamedServer unnamed => exact one (.unnamedServer (Text.Stops.crlf rfl unnamed))
  | @server name _ named ends =>
      have same : Text.crlf name = name :=
        Text.crlf_of_not_mem (Text.newline_not_mem_of_isName named)
      have front' : Front (.server (Text.crlf name)) (Text.crlf rest) := by
        rw [same]
        exact .server named (Text.Stops.crlf rfl ends)
      exact one front'
  | @reference name _ named ends =>
      have same : Text.crlf ('@' :: name) = '@' :: name :=
        Text.crlf_of_not_mem (by simp [Text.newline_not_mem_of_isName named])
      rw [Token.text, same]
      exact one (.reference named (Text.Stops.crlf rfl ends))

/-- A body with carriage returns is cut into its tokens with carriage returns. -/
theorem tokens_crlf (body : Text) : tokens (Text.crlf body) = (tokens body).flatMap Token.crlf := by
  induction body using token_induction with
  | nil =>
      have empty : tokens [] = [] := by rw [tokens]
      rw [Text.crlf_nil, empty]
      rfl
  | cons token rest front ih =>
      rw [Text.crlf_append, front.tokens_crlf, ih, tokens_of_front front, List.flatMap_cons]

/-! ## References -/

/-- Tokens that a token becomes are passed over if the token is no reference. -/
theorem locate_crlf_append {token : Token} (kept : ∀ name, token ≠ .reference name) (offset : Nat)
    (later : List Token) :
    locate offset (token.crlf ++ later) =
      locate (offset + (Text.crlf token.text).length) later := by
  cases token with
  | plain c => exact locate_plain_append offset (Text.crlf [c]) later
  | span text => rfl
  | server name => rfl
  | reference name => exact absurd rfl (kept name)

/-- The references of the end of a body are moved by the line feeds in front of them, in the whole
body. -/
theorem locate_crlf (body before : Text) :
    locate (Text.crlf before).length (tokens (Text.crlf body)) =
      (locate before.length (tokens body)).map (Reference.crlf (before ++ body)) := by
  induction body using token_induction generalizing before with
  | nil =>
      have empty : tokens [] = [] := by rw [tokens]
      rw [Text.crlf_nil, empty]
      rfl
  | cons token rest front ih =>
      have later := ih (before ++ token.text)
      rw [Text.crlf_append, List.length_append, List.length_append, List.append_assoc] at later
      rw [Text.crlf_append, front.tokens_crlf, tokens_of_front front]
      rcases token.kept_or_reference with kept | ⟨name, rfl⟩
      · rw [locate_crlf_append kept, locate_of_kept kept, later]
      · cases front with
        | reference named _ =>
            have start := Text.moved_length before ((Token.reference name).text ++ rest)
            have stop := Text.moved_length (before ++ (Token.reference name).text) rest
            have plain : Text.crlf (Token.reference name).text = (Token.reference name).text :=
              Text.crlf_of_not_mem (by simp [Token.text, Text.newline_not_mem_of_isName named])
            rw [List.append_assoc, List.length_append, Text.crlf_append, List.length_append,
              plain] at stop
            rw [plain] at later
            rw [Token.crlf, List.singleton_append, locate, locate, later, List.map_cons,
              Reference.crlf, start, stop]

/-- **The references of a body with carriage returns are those of the body, each moved by the line
feeds in front of it.** -/
theorem references_crlf (body : Text) :
    references (Text.crlf body) = (references body).map (Reference.crlf body) :=
  locate_crlf body []

/-! ## Texts in the place of references -/

theorem textOf_crlf_append {token : Token} (kept : ∀ name, token ≠ .reference name)
    (later : List Token) :
    textOf (token.crlf ++ later) = Text.crlf token.text ++ textOf later := by
  cases token with
  | plain c => exact textOf_plain_append (Text.crlf [c]) later
  | span text => rfl
  | server name => rfl
  | reference name => exact absurd rfl (kept name)

theorem substitute_crlf_append {token : Token} (kept : ∀ name, token ≠ .reference name)
    (later : List Token) (pieces : List Text) :
    substitute (token.crlf ++ later) pieces = token.crlf ++ substitute later pieces := by
  cases token with
  | plain c =>
      by_cases feed : c = '\n'
      · subst feed
        rfl
      · have same : Text.crlf [c] = [c] := Text.crlf_cons_of_ne feed []
        rw [Token.crlf, same]
        rfl
  | span text => rfl
  | server name => rfl
  | reference name => exact absurd rfl (kept name)

theorem textOf_substitute_crlf {tokens : List Token} {offset : Nat} {pieces : List Text}
    (count : pieces.length = (locate offset tokens).length)
    (inLine : ∀ piece ∈ pieces, '\n' ∉ piece) :
    textOf (substitute (tokens.flatMap Token.crlf) pieces) =
      Text.crlf (textOf (substitute tokens pieces)) := by
  induction tokens generalizing offset pieces with
  | nil => rfl
  | cons token later ih =>
      rw [List.flatMap_cons]
      rcases token.kept_or_reference with kept | ⟨name, rfl⟩
      · rw [locate_of_kept kept] at count
        rw [substitute_crlf_append kept, textOf_crlf_append kept, ih count inLine,
          substitute_cons kept, textOf_cons, Text.crlf_append]
      · cases pieces with
        | nil => cases count
        | cons piece pieces =>
            obtain ⟨here, rest⟩ := List.forall_mem_cons.mp inLine
            rw [Token.crlf, List.singleton_append, substitute, textOf_plain_append,
              ih (Nat.succ.inj count) rest, substitute, textOf_plain_append, Text.crlf_append,
              Text.crlf_of_not_mem here]

/-- Texts without line feeds are put in the place of references in the same way. -/
theorem fillIn_crlf {body : Text} {pieces : List Text}
    (count : pieces.length = (references body).length)
    (inLine : ∀ piece ∈ pieces, '\n' ∉ piece) :
    fillIn (Text.crlf body) pieces = Text.crlf (fillIn body pieces) := by
  rw [fillIn, tokens_crlf]
  exact textOf_substitute_crlf count inLine

end Body

/-! ## Queries -/

/-- A query whose body has a carriage return in front of each line feed. -/
def Query.crlf (query : Query) : Query :=
  ⟨query.declarations, Text.crlf query.body, query.references.map (Reference.crlf query.body)⟩

/-- **A query is read with carriage returns as it is read without them**: it is refused for the same
error, or it has the same declarations, carriage returns in its body, and the same references, each
moved by the line feeds in front of it. -/
theorem Query.read_crlf (marker text : Text) :
    read marker (Text.crlf text) = (read marker text).map crlf := by
  rw [read, Header.read_crlf, read]
  cases Header.read marker text with
  | error error => rfl
  | ok header =>
      have located := Body.references_crlf header.body
      simp only [Except.map, ofHeader, Header.crlf, crlf, located]

end TypedQuery
