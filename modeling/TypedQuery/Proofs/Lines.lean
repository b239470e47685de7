import TypedQuery.Proofs.Runs

/-!
# Lines of a text

A text is cut into lines after each line feed. What follows some lines is cut into the later lines
again (`Text.lines_flatten_append`), and lines that are put together are cut where they were, if a
line feed ends each of them (`Text.lines_flatten_ended`). A statement about all texts is proved line
by line (`Text.line_induction`).

The line ends that close a line are dropped before it is read. What stands in front of another
character is kept by that (`Text.chomp_append_cons`).
-/

set_option autoImplicit false

namespace TypedQuery

namespace Text

/-- What follows the first line is cut into the later lines. -/
theorem lines_flatten_later {text line : Text} {later : List Text}
    (cut : lines text = line :: later) : lines later.flatten = later := by
  induction text generalizing line later with
  | nil => cases cut
  | cons c rest ih =>
      unfold lines at cut
      split at cut
      · obtain ⟨_, rfl⟩ := List.cons_eq_cons.mp cut
        rw [flatten_lines]
      · split at cut
        · obtain ⟨_, rfl⟩ := List.cons_eq_cons.mp cut
          rfl
        · next more =>
            obtain ⟨_, rfl⟩ := List.cons_eq_cons.mp cut
            exact ih more

/-- What follows some lines is cut into the later lines. -/
theorem lines_flatten_append {text : Text} {earlier later : List Text}
    (cut : lines text = earlier ++ later) : lines later.flatten = later := by
  induction earlier generalizing text with
  | nil =>
      have whole := flatten_lines text
      rw [cut, List.nil_append] at whole
      rw [whole, cut, List.nil_append]
  | cons line earlier ih => exact ih (lines_flatten_later cut)

/-- A line without a line feed is cut off by the line feed after it. -/
theorem lines_append {line : Text} (inLine : '\n' ∉ line) (rest : Text) :
    lines (line ++ '\n' :: rest) = (line ++ ['\n']) :: lines rest := by
  induction line with
  | nil => simp [lines]
  | cons c line ih =>
      obtain ⟨other, later⟩ := List.ne_and_not_mem_of_not_mem_cons inLine
      rw [List.cons_append, lines, if_neg (Ne.symm other), ih later]
      rfl

/-- A line that a line feed ends. -/
def Ended (line : Text) : Prop := ∃ content, '\n' ∉ content ∧ line = content ++ ['\n']

/-- A line without a line feed is not cut. -/
theorem lines_of_not_mem {line : Text} (some : line ≠ []) (inLine : '\n' ∉ line) :
    lines line = [line] := by
  induction line with
  | nil => exact absurd rfl some
  | cons c rest ih =>
      obtain ⟨other, later⟩ := List.ne_and_not_mem_of_not_mem_cons inLine
      rw [lines, if_neg (Ne.symm other)]
      cases rest with
      | nil => rfl
      | cons d rest => rw [ih (List.cons_ne_nil d rest) later]

/-- What holds of the empty text, of a line without a line feed, and of a text when it holds of
what follows its first line feed, holds of every text. -/
theorem line_induction {motive : Text → Prop} (nil : motive [])
    (last : ∀ line, line ≠ [] → '\n' ∉ line → motive line)
    (cons : ∀ line rest, '\n' ∉ line → motive rest → motive (line ++ '\n' :: rest))
    (text : Text) : motive text := by
  by_cases more : '\n' ∈ text
  · obtain ⟨line, rest, whole, inLine⟩ := List.eq_append_cons_of_mem more
    have shorter : rest.length < text.length := by
      rw [whole, List.length_append, List.length_cons]
      omega
    rw [whole]
    exact cons line rest inLine (line_induction nil last cons rest)
  · by_cases empty : text = []
    · rw [empty]
      exact nil
    · exact last text empty more
termination_by text.length

/-- A line feed ends each line of a text but the last one, which may have none. -/
theorem ended_of_lines {text line : Text} {i : Nat} (there : (lines text)[i]? = some line) :
    line.Ended ∨ ('\n' ∉ line ∧ i + 1 = (lines text).length) := by
  induction text using line_induction generalizing i with
  | nil => cases there
  | last only some inLine =>
      rw [lines_of_not_mem some inLine] at there ⊢
      cases i with
      | zero => exact .inr ⟨Option.some.inj there ▸ inLine, rfl⟩
      | succ i => cases there
  | cons first rest inLine ih =>
      rw [lines_append inLine] at there ⊢
      cases i with
      | zero => exact .inl ⟨first, inLine, (Option.some.inj there).symm⟩
      | succ i =>
          rcases ih there with ended | ⟨open', last⟩
          · exact .inl ended
          · exact .inr ⟨open', congrArg (· + 1) last⟩

/-- A line that is cut out of a text is not cut again. -/
theorem lines_of_mem_lines {text line : Text} (member : line ∈ lines text) :
    lines line = [line] := by
  induction text using line_induction with
  | nil => cases member
  | last only some inLine =>
      have alone := lines_of_not_mem some inLine
      rw [alone] at member
      rw [List.mem_singleton.mp member, alone]
  | cons first rest inLine ih =>
      rw [lines_append inLine] at member
      rcases List.mem_cons.mp member with rfl | later
      · rw [lines_append inLine]
        rfl
      · exact ih later

/-- Ended lines are cut again where they were put together. -/
theorem lines_flatten_ended {ended : List Text} (all : ∀ line ∈ ended, line.Ended) (rest : Text) :
    lines (ended.flatten ++ rest) = ended ++ lines rest := by
  induction ended with
  | nil => rfl
  | cons line later ih =>
      obtain ⟨⟨content, inLine, rfl⟩, below⟩ := List.forall_mem_cons.mp all
      have parts : ((content ++ ['\n']) :: later).flatten ++ rest =
          content ++ '\n' :: (later.flatten ++ rest) := by simp
      rw [parts, lines_append inLine, ih below]
      rfl

/-- Lines that are put together are cut again where they were. -/
theorem lines_flatMap {texts : List Text} (inLine : ∀ text ∈ texts, '\n' ∉ text) (rest : Text) :
    lines (texts.flatMap (· ++ ['\n']) ++ rest) = texts.map (· ++ ['\n']) ++ lines rest := by
  rw [List.flatMap_def]
  refine lines_flatten_ended (fun line member => ?_) rest
  obtain ⟨text, inside, rfl⟩ := List.mem_map.mp member
  exact ⟨text, inLine text inside, rfl⟩

theorem prefix_of_head?_lines {text line : Text} (first : (lines text).head? = some line) :
    line <+: text := by
  obtain ⟨later, cut⟩ := List.head?_eq_some_iff.mp first
  have whole := flatten_lines text
  rw [cut, List.flatten_cons] at whole
  exact ⟨later.flatten, whole⟩

/-- A line without its line ends is at the front of the line. -/
theorem chomp_prefix (line : Text) : chomp line <+: line := dropRightWhile_prefix isLineEnd line

/-- Line ends are dropped behind any other character. -/
theorem chomp_append_cons {c : Char} (inside : isLineEnd c = false) (front tail : Text) :
    chomp (front ++ c :: tail) = front ++ c :: chomp tail := by
  have reversed : (front ++ c :: tail).reverse = tail.reverse ++ c :: front.reverse := by simp
  have stays : (c :: front.reverse).dropWhile isLineEnd = c :: front.reverse := by simp [inside]
  rw [chomp, dropRightWhile, reversed, List.dropWhile_append, stays]
  split
  · next all => simp [chomp, dropRightWhile, List.isEmpty_iff.mp all]
  · simp [chomp, dropRightWhile]

/-- The line ends that close a line are dropped, whichever they are. -/
theorem chomp_append_lineEnds {ends : Text} (all : ∀ c ∈ ends, isLineEnd c = true) (line : Text) :
    chomp (line ++ ends) = chomp line := by
  have dropped : (ends.reverse ++ line.reverse).dropWhile isLineEnd =
      line.reverse.dropWhile isLineEnd :=
    List.dropWhile_append_of_pos fun c member => all c (List.mem_reverse.mp member)
  rw [chomp, dropRightWhile, List.reverse_append, dropped]
  rfl

theorem chomp_append_newline (line : Text) : chomp (line ++ ['\n']) = chomp line :=
  chomp_append_lineEnds (List.forall_mem_singleton.mpr rfl) line

/-- A line that ends with no line end is left as it is. -/
theorem chomp_of_stops {line : Text} (stops : Stops isLineEnd line.reverse) :
    chomp line = line := by
  rw [chomp, dropRightWhile, dropWhile_of_stops stops, List.reverse_reverse]

theorem chomp_of_getLast? {line : Text} (inLine : '\n' ∉ line)
    (noReturn : line.getLast? ≠ some '\r') : chomp line = line := by
  refine chomp_of_stops fun c last => ?_
  rw [List.head?_reverse] at last
  have noFeed : c ≠ '\n' := fun same => inLine (List.mem_of_getLast? (same ▸ last))
  have notReturn : c ≠ '\r' := fun same => noReturn (same ▸ last)
  simp [isLineEnd, noFeed, notReturn]

/-- A text that is empty or ends with a line feed is cut off from what follows it. -/
theorem lines_append_of_getLast? {text : Text} (ended : text = [] ∨ text.getLast? = some '\n')
    (rest : Text) : lines (text ++ rest) = lines text ++ lines rest := by
  induction text using line_induction with
  | nil => rfl
  | last line some inLine =>
      rcases ended with none | last
      · exact absurd none some
      · exact absurd (List.mem_of_getLast? last) inLine
  | cons line later inLine ih =>
      have below : later = [] ∨ later.getLast? = some '\n' := by
        cases later with
        | nil => exact .inl rfl
        | cons c more => exact .inr (by simpa using ended)
      rw [List.append_assoc, List.cons_append, lines_append inLine, lines_append inLine, ih below]
      rfl

end Text

end TypedQuery
