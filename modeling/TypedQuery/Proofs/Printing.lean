import TypedQuery.Value.Literal
import TypedQuery.Proofs.Literals

/-!
# Values that survive their literal

A value survives if its literal is read as a literal of its type and the value that is found is
equal to it (`Value.Survives`). Not every value does: a line end has no escape, a number sign
closes a raw piece, a value that is no number has no numeral, and an array may hold items of
another base type than its own. Which values do is said without reading anything
(`Value.Representable`), but for the numbers, where it is said of each number alone.

The two agree (`Value.survives_iff_representable`). Each item of a representable array is written
by its own literal, and the array by those with commas between. Conversely, a number literal has
no delimiter, so the numbers of an array that is read again can only have been cut where they were
joined. Texts and raw pieces need no such argument: no literal writes a line end, or a number sign
within a raw piece, wherever it may be cut.
-/

set_option autoImplicit false

namespace TypedQuery

open Literal

/-! ## Survival -/

/-- The literal of a value is read as an equal value. -/
def Value.Survives (value : Value) : Prop :=
  ∃ again, parse value.type value.literal = .ok again ∧ again.agrees value = true

/-- An item that a literal can express: a text on one line, a raw piece on one line without a
number sign, or a number that survives. -/
def Scalar.Representable : Scalar → Prop
  | .str text => text.OneLine
  | .raw text => ∀ c ∈ text, c ≠ '#' ∧ Text.isLineEnd c = false
  | .num number => (Value.scalar (.num number)).Survives

/-- A value that a literal can express: its items are of its base type and can be expressed. -/
def Value.Representable : Value → Prop
  | .scalar item => item.Representable
  | .array base items => ∀ item ∈ items, item.base = base ∧ item.Representable

/-! ## Equal values -/

/-- Equal items are of the same base type. -/
theorem Scalar.base_eq_of_agrees {item item' : Scalar} (agree : item.agrees item' = true) :
    item.base = item'.base := by
  cases item <;> cases item' <;> first | rfl | cases agree

/-- An item that is equal to another one and is no number is that one. -/
theorem Scalar.eq_of_agrees {item item' : Scalar} (agree : item.agrees item' = true)
    (notNum : item.base ≠ .num) : item = item' := by
  cases item with
  | num => exact absurd rfl notNum
  | str => cases item' <;> exact eq_of_beq agree
  | raw => cases item' <;> exact eq_of_beq agree

/-- Arrays are equal if their base types are and their items are, one by one. -/
theorem Value.agrees_array_iff {base base' : BaseType} {items items' : List Scalar} :
    (Value.array base items).agrees (.array base' items') = true ↔
      base = base' ∧ List.Forall₂ (fun item item' => item.agrees item' = true) items items' := by
  simp only [Value.agrees, Bool.and_eq_true, beq_iff_eq, List.all_eq_true, and_assoc,
    List.forall₂_iff_zip]
  refine and_congr_right fun _ => and_congr_right fun _ => ?_
  exact ⟨fun all item item' member => all (item, item') member, fun all pair => all⟩

/-! ## The characters of a number literal -/

/-- A text without a delimiter of numbers. -/
def Literal.Undelimited (text : Text) : Prop := ∀ c ∈ text, isNumberChar c = true

namespace Literal

theorem Undelimited.of_all {text : Text} (all : text.all isNumberChar = true) : Undelimited text :=
  List.all_eq_true.mp all

theorem Undelimited.append {text more : Text} (first : Undelimited text)
    (second : Undelimited more) : Undelimited (text ++ more) :=
  List.forall_mem_append.mpr ⟨first, second⟩

theorem Undelimited.cons {c : Char} {text : Text} (first : isNumberChar c = true)
    (later : Undelimited text) : Undelimited (c :: text) :=
  List.forall_mem_cons.mpr ⟨first, later⟩

theorem Undelimited.of_subset {text part : Text} (whole : Undelimited text)
    (within : part ⊆ text) : Undelimited part :=
  fun c member => whole c (within member)

theorem undelimited_zeros (n : Nat) : Undelimited (List.replicate n '0') :=
  fun c member => isNumberChar_of_isDigit (Numeral.isDigit_zeros n c member)

/-- A decimal text has digits only. -/
theorem undelimited_ofNat (n : Nat) : Undelimited (Text.ofNat n) :=
  fun c member => isNumberChar_of_isDigit ((Numeral.digits_ofNat n).all c member)

end Literal

namespace Double

theorem undelimited_signText (negative : Bool) : Undelimited (signText negative) := by
  cases negative <;> exact .of_all rfl

theorem undelimited_positional {digits : Text} (plain : Undelimited digits) (whole : Nat) :
    Undelimited (positional digits whole) := by
  have before : Undelimited (digits.take whole) := plain.of_subset (List.take_subset _ _)
  have after : Undelimited (digits.drop whole) := plain.of_subset (List.drop_subset _ _)
  refine (before.append (undelimited_zeros _)).append (.cons rfl ?_)
  split
  · exact .of_all rfl
  · exact after

theorem undelimited_scientific {digits : Text} (plain : Undelimited digits) (power : Int) :
    Undelimited (scientific digits power) := by
  have first : Undelimited (digits.take 1) := plain.of_subset (List.take_subset _ _)
  have others : Undelimited (digits.drop 1) := plain.of_subset (List.drop_subset _ _)
  have fraction : Undelimited (if digits.length ≤ 1 then [] else '.' :: digits.drop 1) := by
    split
    · exact .of_all rfl
    · exact .cons rfl others
  have sign : isNumberChar (if power < 0 then '-' else '+') = true := by split <;> rfl
  have places := (undelimited_zeros (2 - (Text.ofNat power.natAbs).length)).append
    (undelimited_ofNat power.natAbs)
  exact (first.append fraction).append (.cons rfl (.cons sign places))

theorem undelimited_decimalText (decimal : Decimal) : Undelimited (decimalText decimal) := by
  have kept := Text.dropRightWhile_prefix (· == '0') (Text.ofNat decimal.digits)
  have digits := (undelimited_ofNat decimal.digits).of_subset kept.subset
  simp only [decimalText]
  split
  · exact undelimited_scientific digits _
  · split
    · exact .cons rfl (.cons rfl ((undelimited_zeros _).append digits))
    · exact undelimited_positional digits _

theorem undelimited_text (number : Double) : Undelimited number.text := by
  cases number with
  | nan => exact .of_all rfl
  | infinite negative => exact (undelimited_signText negative).append (.of_all rfl)
  | finite negative magnitude =>
      refine (undelimited_signText negative).append ?_
      unfold magnitudeText
      split
      · exact .of_all rfl
      · exact undelimited_decimalText _

/-- **The literal of a number has no delimiter.** -/
theorem undelimited_literal (number : Double) : Undelimited number.literal := by
  unfold literal
  split
  · split
    · split
      · exact (undelimited_signText _).append (undelimited_ofNat _)
      · exact undelimited_text _
    · exact undelimited_text _
  · exact undelimited_text _

theorem decimalText_ne_nil (decimal : Decimal) : decimalText decimal ≠ [] := by
  simp only [decimalText]
  split
  · simp [scientific]
  · split
    · exact List.cons_ne_nil _ _
    · simp [positional]

theorem text_ne_nil (number : Double) : number.text ≠ [] := by
  cases number with
  | nan => exact List.cons_ne_nil _ _
  | infinite negative => cases negative <;> exact List.cons_ne_nil _ _
  | finite negative magnitude =>
      refine List.append_ne_nil_of_right_ne_nil _ ?_
      unfold magnitudeText
      split
      · exact List.cons_ne_nil _ _
      · exact decimalText_ne_nil _

theorem literal_ne_nil (number : Double) : number.literal ≠ [] := by
  unfold literal
  split
  · split
    · split
      · exact List.append_ne_nil_of_right_ne_nil _ (Numeral.digits_ofNat _).ne_nil
      · exact text_ne_nil _
    · exact text_ne_nil _
  · exact text_ne_nil _

end Double

/-- The literal of an item starts as an item may. -/
theorem Scalar.opens_literal (item : Scalar) : OpensItem item.literal := by
  cases item with
  | str text => exact .intro _ rfl rfl (by decide)
  | raw text => exact .intro _ rfl rfl (by decide)
  | num number =>
      have plain := number.undelimited_literal
      rw [Scalar.literal]
      obtain ⟨c, later, same⟩ := List.exists_cons_of_ne_nil number.literal_ne_nil
      rw [same] at plain ⊢
      exact .of_isNumberChar (plain c List.mem_cons_self) later

/-- The literals of items, joined by commas, start as an item may. -/
theorem opens_join (item : Scalar) (more : List Scalar) :
    OpensItem (Text.join [',', ' '] ((item :: more).map Scalar.literal)) := by
  cases more with
  | nil =>
      rw [List.map_singleton, Text.join_singleton]
      exact item.opens_literal
  | cons next more =>
      rw [List.map_cons, List.map_cons, Text.join_cons_cons]
      exact item.opens_literal.append _

theorem Scalar.undelimited_literal {item : Scalar} (isNum : item.base = .num) :
    Undelimited item.literal := by
  cases item with
  | num number => exact number.undelimited_literal
  | str => cases isNum
  | raw => cases isNum

/-! ## What is representable survives -/

/-- The escapes of a text on one line stand for it. -/
theorem Literal.units_escape {text : Text} (inLine : text.OneLine) :
    Units '\'' (text.flatMap Scalar.escapeChar) text := by
  induction text with
  | nil => exact .done
  | cons c text ih =>
      obtain ⟨first, later⟩ := List.forall_mem_cons.mp inLine
      rw [List.flatMap_cons]
      unfold Scalar.escapeChar
      split
      · exact .escaped first (ih later)
      · next plain =>
          obtain ⟨notEscape, notQuote⟩ := not_or.mp plain
          exact .plain first notQuote notEscape (ih later)

/-- The literal of a representable item is a literal of an equal item. -/
theorem Scalar.exists_writes {item : Scalar} (representable : item.Representable) :
    ∃ again, WritesItem item.literal again ∧ again.agrees item = true := by
  cases item with
  | str text => exact ⟨.str text, .str (.inl rfl) (units_escape representable), beq_self_eq_true _⟩
  | raw text => exact ⟨.raw text, .raw representable, beq_self_eq_true _⟩
  | num number =>
      obtain ⟨again, parsed, agree⟩ := representable
      obtain ⟨before, literal, after, blank, writes, blank', same⟩ := writes_of_parse parsed
      obtain ⟨item, rfl, _, written⟩ := Writes.exists_item writes
      have printed : number.literal = before ++ (literal ++ after) := same
      -- no blanks were skipped around the numeral, since blanks are delimiters
      have noBlank : ∀ blanks, Text.Blanks blanks → blanks ⊆ number.literal → blanks = [] := by
        intro blanks blank within
        refine List.eq_nil_iff_forall_not_mem.mpr fun c member => ?_
        have delimits := isNumberChar_of_isBlank (blank c member)
        rw [number.undelimited_literal c (within member)] at delimits
        cases delimits
      have noneBefore : before = [] := noBlank before blank (by simp [printed])
      have noneAfter : after = [] := noBlank after blank' (by simp [printed])
      rw [noneBefore, noneAfter, List.nil_append, List.append_nil] at printed
      rw [← printed] at written
      exact ⟨item, written, agree⟩

/-- The literals of representable items, joined by commas, are literals of equal items. -/
theorem exists_writesItems_join {base : BaseType} {item : Scalar} {more : List Scalar}
    (all : ∀ each ∈ item :: more, each.base = base ∧ each.Representable) :
    ∃ again, WritesItems base (Text.join [',', ' '] ((item :: more).map Scalar.literal)) again ∧
      List.Forall₂ (fun again each => again.agrees each = true) again (item :: more) := by
  induction more generalizing item with
  | nil =>
      obtain ⟨based, representable⟩ := all item List.mem_cons_self
      obtain ⟨again, writes, agree⟩ := Scalar.exists_writes representable
      rw [List.map_singleton, Text.join_singleton]
      exact ⟨[again], .last ((Scalar.base_eq_of_agrees agree).trans based) writes, .cons agree .nil⟩
  | cons next more ih =>
      obtain ⟨⟨based, representable⟩, later⟩ := List.forall_mem_cons.mp all
      obtain ⟨again, writes, agree⟩ := Scalar.exists_writes representable
      obtain ⟨rest, written, agrees⟩ := ih later
      refine ⟨again :: rest, ?_, .cons agree agrees⟩
      have joined := WritesItems.cons ((Scalar.base_eq_of_agrees agree).trans based) writes
        Text.blanks_nil Text.blanks_space written
      rw [List.map_cons, List.map_cons, Text.join_cons_cons]
      exact joined

/-- A literal by itself has its value. -/
theorem Literal.Writes.parse_eq {type : ParamType} {text : Text} {value : Value}
    (writes : Writes type text value) : parse type text = .ok value := by
  have parsed := parse_of_writes Text.blanks_nil writes Text.blanks_nil
  rwa [List.nil_append, List.append_nil] at parsed

/-- An item whose literal is a literal of an equal item survives. -/
theorem Scalar.survives_of_writes {item again : Scalar} (writes : WritesItem item.literal again)
    (agree : again.agrees item = true) : (Value.scalar item).Survives := by
  have parsed := (Writes.scalar writes).parse_eq
  rw [Scalar.base_eq_of_agrees agree] at parsed
  exact ⟨.scalar again, parsed, agree⟩

theorem Value.survives_of_representable {value : Value} (representable : value.Representable) :
    value.Survives := by
  cases value with
  | scalar item =>
      obtain ⟨again, writes, agree⟩ := Scalar.exists_writes representable
      exact Scalar.survives_of_writes writes agree
  | array base items =>
      cases items with
      | nil =>
          have parsed := (Writes.empty base Text.blanks_nil).parse_eq
          exact ⟨.array base [], parsed, Value.agrees_array_iff.mpr ⟨rfl, .nil⟩⟩
      | cons item more =>
          obtain ⟨again, writes, agree⟩ := exists_writesItems_join representable
          have parsed := (Writes.items Text.blanks_nil writes Text.blanks_nil).parse_eq
          exact ⟨.array base again, parsed, Value.agrees_array_iff.mpr ⟨rfl, agree⟩⟩

/-! ## What survives is representable -/

/-- A text or a raw piece that has a literal is representable. -/
theorem Literal.WritesItem.representable {text : Text} {item : Scalar}
    (writes : WritesItem text item) (notNum : item.base ≠ .num) : item.Representable := by
  cases writes with
  | str _ inside => exact inside.oneLine.2
  | raw inside => exact inside
  | num => exact absurd rfl notNum

/-- A literal of a number has no delimiter. -/
theorem Literal.WritesItem.undelimited {text : Text} {item : Scalar} (writes : WritesItem text item)
    (isNum : item.base = .num) : Undelimited text := by
  cases writes with
  | num writes => exact isNumberChar_of_writes writes
  | str => cases isNum
  | raw => cases isNum

/-- Each of some items is equal to one of those that they are equal to one by one. -/
theorem exists_agrees {found printed : List Scalar}
    (agree : List.Forall₂ (fun again item => again.agrees item = true) found printed) :
    ∀ item ∈ printed, ∃ again ∈ found, again.agrees item = true := by
  induction agree with
  | nil => exact List.forall_mem_nil _
  | cons first _ ih =>
      refine List.forall_mem_cons.mpr ⟨⟨_, List.mem_cons_self, first⟩, fun item member => ?_⟩
      obtain ⟨again, inside, agree⟩ := ih item member
      exact ⟨again, List.mem_cons_of_mem _ inside, agree⟩

/-- Where number literals that are joined by commas are read as numbers equal to those printed, each
of them is cut out as it was. -/
theorem exists_writes_of_join {text : Text} {found printed : List Scalar}
    (writes : WritesItems .num text found)
    (agree : List.Forall₂ (fun again item => again.agrees item = true) found printed)
    (numbers : ∀ item ∈ printed, item.base = .num) {blanks rest : Text}
    (blank : Text.Blanks blanks)
    (same : text ++ (blanks ++ ']' :: rest) =
      Text.join [',', ' '] (printed.map Scalar.literal) ++ [']']) :
    ∀ item ∈ printed, ∃ again, WritesItem item.literal again ∧ again.agrees item = true := by
  -- on how the array was read; both texts start with a number that ends at a delimiter
  induction writes generalizing printed with
  | @last text again isNum writes =>
      cases agree with
      | @cons _ item _ _ agree none =>
      cases none
      have plain := Scalar.undelimited_literal (numbers item List.mem_cons_self)
      have ends : Text.Stops isNumberChar (blanks ++ ']' :: rest) :=
        stops_isNumberChar blank (Text.stops_cons rfl rest)
      rw [List.map_singleton, Text.join_singleton] at same
      obtain ⟨cut, _⟩ := Text.run_unique (writes.undelimited isNum) plain ends
        (Text.stops_cons rfl []) same
      exact List.forall_mem_singleton.mpr ⟨again, cut ▸ writes, agree⟩
  | @cons text before after later again found isNum writes blank' blank'' more ih =>
      cases agree with
      | @cons _ item _ printed agree agrees =>
      cases agrees with
      | nil => cases more
      | @cons _ next _ printed first agrees =>
      obtain ⟨plain, later'⟩ := List.forall_mem_cons.mp numbers
      have parts : text ++ (before ++ ',' :: (after ++ (later ++ (blanks ++ ']' :: rest)))) =
          item.literal ++ (',' :: ([' '] ++
            (Text.join [',', ' '] ((next :: printed).map Scalar.literal) ++ [']']))) := by
        rw [List.map_cons, List.map_cons, Text.join_cons_cons] at same
        simpa using same
      have ends : ∀ rest, Text.Stops isNumberChar (before ++ ',' :: rest) := fun rest =>
        stops_isNumberChar blank' (Text.stops_cons rfl rest)
      obtain ⟨cut, separated⟩ := Text.run_unique (writes.undelimited isNum)
        (Scalar.undelimited_literal plain) (ends _) (Text.stops_cons rfl _) parts
      obtain ⟨_, comma⟩ := Text.run_unique blank' Text.blanks_nil (Text.stops_cons rfl _)
        (Text.stops_cons rfl _) separated
      obtain ⟨_, tail⟩ := Text.run_unique blank'' Text.blanks_space (more.opens.append _).stops
        ((opens_join next printed).append [']']).stops (List.cons_eq_cons.mp comma).2
      exact List.forall_mem_cons.mpr
        ⟨⟨again, cut ▸ writes, agree⟩, ih (.cons first agrees) later' tail⟩

/-- Items that are equal to those read from their own literals are representable. -/
theorem representable_of_join {base : BaseType} {text : Text} {found items : List Scalar}
    (writes : WritesItems base text found)
    (agrees : List.Forall₂ (fun again item => again.agrees item = true) found items)
    {before after rest : Text} (blank : Text.Blanks before) (blank' : Text.Blanks after)
    (same : before ++ (text ++ (after ++ ']' :: rest)) =
      Text.join [',', ' '] (items.map Scalar.literal) ++ [']']) :
    ∀ item ∈ items, item.base = base ∧ item.Representable := by
  have based : ∀ item ∈ items, item.base = base := by
    intro item member
    obtain ⟨again, inside, agree⟩ := exists_agrees agrees item member
    exact (Scalar.base_eq_of_agrees agree).symm.trans (writes.exists_item again inside).1
  refine fun item member => ⟨based item member, ?_⟩
  by_cases isNum : base = .num
  · subst isNum
    obtain ⟨first, more, rfl⟩ := List.exists_cons_of_ne_nil (List.ne_nil_of_mem member)
    obtain ⟨_, inside⟩ := Text.run_unique blank Text.blanks_nil
      (writes.opens.append _).stops ((opens_join first more).append _).stops same
    obtain ⟨again, written, agree⟩ :=
      exists_writes_of_join writes agrees based blank' inside item member
    cases item with
    | num => exact Scalar.survives_of_writes written agree
    | str => cases based _ member
    | raw => cases based _ member
  · obtain ⟨again, inside, agree⟩ := exists_agrees agrees item member
    obtain ⟨based, _, written⟩ := writes.exists_item again inside
    obtain rfl := Scalar.eq_of_agrees agree (by rwa [based])
    exact written.representable (by rwa [based])

theorem Value.representable_of_survives {value : Value} (survives : value.Survives) :
    value.Representable := by
  obtain ⟨again, parsed, agree⟩ := survives
  obtain ⟨before, literal, after, blank, writes, _, same⟩ := writes_of_parse parsed
  cases value with
  | scalar item =>
      by_cases isNum : item.base = .num
      · cases item with
        | num number => exact ⟨again, parsed, agree⟩
        | str => cases isNum
        | raw => cases isNum
      · obtain ⟨found, rfl, _, written⟩ := Writes.exists_item writes
        obtain rfl := Scalar.eq_of_agrees agree (by rwa [Scalar.base_eq_of_agrees agree])
        exact written.representable isNum
  | array base items =>
      have cut : before ++ (literal ++ after) =
          [] ++ ('[' :: (Text.join [',', ' '] (items.map Scalar.literal) ++ [']'])) := same.symm
      obtain ⟨_, whole⟩ := Text.run_unique blank Text.blanks_nil (writes.stops after)
        (Text.stops_cons rfl _) cut
      cases writes with
      | empty =>
          obtain ⟨_, none⟩ := Value.agrees_array_iff.mp agree
          cases none
          exact List.forall_mem_nil _
      | @items _ blanks text blanks' _ blank writes blank' =>
          obtain ⟨_, agrees⟩ := Value.agrees_array_iff.mp agree
          have inside : blanks ++ (text ++ (blanks' ++ ']' :: after)) =
              Text.join [',', ' '] (items.map Scalar.literal) ++ [']'] := by simpa using whole
          exact representable_of_join writes agrees blank blank' inside

/-- **A value survives its literal exactly if it is representable.** -/
theorem Value.survives_iff_representable (value : Value) :
    value.Survives ↔ value.Representable :=
  ⟨Value.representable_of_survives, Value.survives_of_representable⟩

end TypedQuery
