import TypedQuery.Proofs.DeclarationGrammar
import TypedQuery.Proofs.Soundness
import TypedQuery.Proofs.Substitution
import Mathlib.Data.List.Sort

/-!
# Strict reading

A query is checked against its own text: the body may refer to declared names only, and it has to
refer to each of them (`Query.Checks`). A reference at fault comes before a declaration at fault,
and of each kind the first one is reported.

No declaration has the number of its line. The header starts with the first line and takes every
line up to the body, so the order of a declaration tells how many lines stand above it
(`Query.exists_lines_of_read`), and the number that is reported for a declaration is that of the line
on which it stands.

The names in the body are listed by their first occurrence (`ListsOnce`, which one list only
satisfies).
-/

set_option autoImplicit false

namespace TypedQuery

/-! ## First occurrences -/

/-- A list has the different texts of another one, in the order in which each first occurs there. -/
structure ListsOnce (texts names : List Text) : Prop where
  same : ∀ name, name ∈ names ↔ name ∈ texts
  once : names.Nodup
  order : names.Pairwise fun first second => texts.idxOf first < texts.idxOf second

@[simp]
theorem mem_firstOccurrences {text : Text} {texts : List Text} :
    text ∈ firstOccurrences texts ↔ text ∈ texts := by
  induction texts with
  | nil => rfl
  | cons first later ih =>
      by_cases same : text = first
      · simp [firstOccurrences, same]
      · simp [firstOccurrences, same, ih]

theorem pairwise_firstOccurrences (texts : List Text) :
    (firstOccurrences texts).Pairwise fun first second =>
      texts.idxOf first < texts.idxOf second := by
  induction texts with
  | nil => exact .nil
  | cons text later ih =>
      refine List.pairwise_cons.mpr ⟨fun other member => ?_, ?_⟩
      · have different : other ≠ text := by simpa using List.of_mem_filter member
        rw [List.idxOf_cons_self, List.idxOf_cons_ne later different.symm]
        exact Nat.zero_lt_succ _
      · refine (ih.filter _).imp_of_mem fun {first second} left right below => ?_
        have notFirst : first ≠ text := by simpa using List.of_mem_filter left
        have notSecond : second ≠ text := by simpa using List.of_mem_filter right
        rw [List.idxOf_cons_ne later notFirst.symm, List.idxOf_cons_ne later notSecond.symm]
        exact Nat.succ_lt_succ below

/-- One list has the different texts of another in the order in which they first occur. -/
theorem listsOnce_iff {texts names : List Text} :
    ListsOnce texts names ↔ names = firstOccurrences texts := by
  have order := pairwise_firstOccurrences texts
  have once : (firstOccurrences texts).Nodup :=
    order.imp fun below same => absurd (congrArg texts.idxOf same) (Nat.ne_of_lt below)
  constructor
  · intro lists
    have perm : names.Perm (firstOccurrences texts) :=
      (List.perm_ext_iff_of_nodup lists.once once).mpr fun name =>
        (lists.same name).trans mem_firstOccurrences.symm
    refine perm.eq_of_pairwise (fun first second _ _ below above => ?_) lists.order order
    exact absurd below (Nat.lt_asymm above)
  · rintro rfl
    exact ⟨fun _ => mem_firstOccurrences, once, order⟩

namespace Query

variable {marker text : Text} {query : Query}

/-! ## Names in the body -/

/-- The body refers to a name. -/
def Mentions (query : Query) (name : Text) : Prop :=
  ∃ reference ∈ query.references, reference.name = name

theorem mem_referencedNames {name : Text} : name ∈ query.referencedNames ↔ query.Mentions name := by
  rw [referencedNames, mem_firstOccurrences, List.mem_map]
  rfl

/-- The declared names are those that the body never refers to, and those that it refers to. -/
theorem perm_names (query : Query) :
    query.names.Perm (query.unused.map Declaration.name ++
      query.names.filter (· ∈ query.referencedNames)) := by
  have unmentioned : query.unused.map Declaration.name =
      query.names.filter (· ∉ query.referencedNames) := by
    rw [names, List.filter_map, unused]
    rfl
  have parts := List.filter_append_perm (fun name => decide (name ∉ query.referencedNames))
    query.names
  simpa only [unmentioned, decide_not, Bool.not_not] using parts.symm

/-! ## The check -/

/-- The first reference of the body to a name that is not declared. -/
structure FirstUndeclared (query : Query) (reference : Reference) : Prop where
  cut : ∃ earlier later, query.references = earlier ++ reference :: later ∧
    ∀ other ∈ earlier, other.name ∈ query.names
  undeclared : reference.name ∉ query.names

theorem FirstUndeclared.mentions {reference : Reference}
    (first : query.FirstUndeclared reference) : query.Mentions reference.name := by
  obtain ⟨earlier, later, cut, _⟩ := first.cut
  exact ⟨reference, by simp [cut], rfl⟩

/-- The first declaration of a name that the body never refers to. -/
structure FirstUnmentioned (query : Query) (declaration : Declaration) : Prop where
  cut : ∃ earlier later, query.declarations = earlier ++ declaration :: later ∧
    ∀ other ∈ earlier, query.Mentions other.name
  unmentioned : ¬ query.Mentions declaration.name

theorem FirstUnmentioned.mem_names {declaration : Declaration}
    (first : query.FirstUnmentioned declaration) : declaration.name ∈ query.names := by
  obtain ⟨earlier, later, cut, _⟩ := first.cut
  simp [names, cut]

/-- How a query fares that is checked. -/
inductive Checks (query : Query) : Except Error Query → Prop
  | undeclared {reference : Reference} (first : query.FirstUndeclared reference) :
      Checks query (.error (.binding
        ⟨.undefinedReference, reference.name, some reference.start⟩))
  | unmentioned {declaration : Declaration}
      (declared : ∀ name, query.Mentions name → name ∈ query.names)
      (first : query.FirstUnmentioned declaration) :
      Checks query (.error (.declaration
        ⟨.unused, declaration.name, declaration.order + 1, none⟩))
  | accepted (same : ∀ name, query.Mentions name ↔ name ∈ query.names) : Checks query (.ok query)

theorem checks_check (query : Query) : query.Checks query.check := by
  unfold check
  split
  · next reference found =>
      obtain ⟨undeclared, earlier, later, cut, above⟩ := List.find?_eq_some_iff_append.mp found
      exact .undeclared ⟨⟨earlier, later, cut, by simpa using above⟩, of_decide_eq_true undeclared⟩
  · next none =>
      have declared (name : Text) (mentions : query.Mentions name) : name ∈ query.names := by
        obtain ⟨reference, member, rfl⟩ := mentions
        simpa using List.find?_eq_none.mp none reference member
      split
      · next declaration _ first =>
          obtain ⟨earlier, later, cut, above, unmentioned, _⟩ := List.filter_eq_cons_iff.mp first
          simp only [decide_eq_true_eq, mem_referencedNames, not_not] at above unmentioned
          exact .unmentioned declared ⟨⟨earlier, later, cut, above⟩, unmentioned⟩
      · next empty =>
          refine .accepted fun name => ⟨declared name, fun member => ?_⟩
          obtain ⟨declaration, inside, rfl⟩ := List.mem_map.mp member
          have used := List.filter_eq_nil_iff.mp empty declaration inside
          simpa only [decide_eq_true_eq, mem_referencedNames, not_not] using used

/-- A query is accepted exactly if its body and its header speak of the same names. -/
theorem check_eq_ok_iff :
    query.check = .ok query ↔ ∀ name, query.Mentions name ↔ name ∈ query.names := by
  have checks := checks_check query
  generalize query.check = outcome at checks ⊢
  cases checks with
  | undeclared first =>
      exact iff_of_false nofun fun same => first.undeclared ((same _).mp first.mentions)
  | unmentioned _ first =>
      exact iff_of_false nofun fun same => first.unmentioned ((same _).mpr first.mem_names)
  | accepted same => exact iff_of_true rfl same

theorem check_of_undeclared {name : Text} (mentioned : query.Mentions name)
    (undeclared : name ∉ query.names) :
    ∃ reference, query.FirstUndeclared reference ∧ query.check =
      .error (.binding ⟨.undefinedReference, reference.name, some reference.start⟩) := by
  have checks := checks_check query
  generalize query.check = outcome at checks ⊢
  cases checks with
  | undeclared first => exact ⟨_, first, rfl⟩
  | unmentioned declared => exact absurd (declared name mentioned) undeclared
  | accepted same => exact absurd ((same name).mp mentioned) undeclared

theorem check_of_unmentioned (declared : ∀ name, query.Mentions name → name ∈ query.names)
    {name : Text} (member : name ∈ query.names) (unmentioned : ¬ query.Mentions name) :
    ∃ declaration, query.FirstUnmentioned declaration ∧ query.check =
      .error (.declaration ⟨.unused, declaration.name, declaration.order + 1, none⟩) := by
  have checks := checks_check query
  generalize query.check = outcome at checks ⊢
  cases checks with
  | undeclared first => exact absurd (declared _ first.mentions) first.undeclared
  | unmentioned _ first => exact ⟨_, first, rfl⟩
  | accepted same => exact absurd ((same name).mpr member) unmentioned

/-- The strict reading of a text that has a query is the check of the query. -/
theorem parse_strict_of_parse (parsed : parse marker false text = .ok query) :
    parse marker true text = query.check := by
  rw [parse, read_of_parse parsed]
  rfl

/-! ## The lines of the declarations -/

/-- The declarations of a query stand on the first lines of its text, each on the line that its
order counts. -/
theorem exists_lines_of_read (taken : read marker text = .ok query) :
    ∃ lines below, Text.lines text = lines ++ below ∧
      List.Forall₂ (Declaration.Spells marker) lines query.declarations ∧
      query.declarations.map Declaration.order = List.range' 0 query.declarations.length := by
  obtain ⟨header, found, rfl⟩ := map_eq_ok_iff.mp taken
  obtain ⟨lines, below, cut, declared, _, _⟩ := Header.ofLines_eq_ok_iff.mp found
  exact ⟨lines, below, cut,
    declared.declares.imp fun _ _ => Declaration.declares_iff_spells.mp, declared.orders⟩

/-- A declaration of a query stands on a line of its text: the lines above it are those of the
declarations above. -/
inductive StandsOn (marker text : Text) (query : Query) (declaration : Declaration) : Nat → Prop
  | intro {earlier later : List Declaration} {above below : List Text} {line : Text}
      (order : query.declarations = earlier ++ declaration :: later)
      (lines : Text.lines text = above ++ line :: below)
      (upper : List.Forall₂ (Declaration.Spells marker) above earlier)
      (spells : Declaration.Spells marker line declaration) :
      StandsOn marker text query declaration (above.length + 1)

theorem standsOn_of_read (taken : read marker text = .ok query) {earlier later : List Declaration}
    {declaration : Declaration} (order : query.declarations = earlier ++ declaration :: later) :
    StandsOn marker text query declaration (declaration.order + 1) := by
  obtain ⟨lines, below, cut, spelled, orders⟩ := exists_lines_of_read taken
  rw [order] at spelled orders
  have counted : declaration.order = earlier.length := by
    simpa using congrArg (·[earlier.length]?) orders
  have upper := List.forall₂_take_append _ _ _ spelled
  obtain ⟨line, rest, spells, _, last⟩ :=
    List.forall₂_cons_right_iff.mp (List.forall₂_drop_append _ _ _ spelled)
  rw [counted, ← upper.length_eq]
  have stands : Text.lines text = lines.take earlier.length ++ line :: (rest ++ below) := by
    rw [cut, ← List.cons_append, ← List.append_assoc, ← last, List.take_append_drop]
  exact .intro order stands upper spells

/-! ## Strict reading -/

/-- What a strict reading makes of a text that has a query. -/
structure ReadsStrictly (marker text : Text) (query : Query) : Prop where
  /-- The names are those that the scanner finds in the body. -/
  references : query.references = Body.references query.body
  /-- The query is accepted exactly if the body refers to the declared names. -/
  accepted : parse marker true text = .ok query ↔
    ∀ name, query.Mentions name ↔ name ∈ query.names
  /-- The first reference to a name that is not declared is refused. -/
  undeclared : (∃ name, query.Mentions name ∧ name ∉ query.names) →
    ∃ reference, query.FirstUndeclared reference ∧ parse marker true text =
      .error (.binding ⟨.undefinedReference, reference.name, some reference.start⟩)
  /-- Without one, the first declaration that is never referred to is refused. -/
  unmentioned : (∀ name, query.Mentions name → name ∈ query.names) →
    (∃ name ∈ query.names, ¬ query.Mentions name) →
    ∃ declaration lineNumber, query.FirstUnmentioned declaration ∧
      StandsOn marker text query declaration lineNumber ∧ parse marker true text =
        .error (.declaration ⟨.unused, declaration.name, lineNumber, none⟩)
  split : query.names.Perm (query.unused.map Declaration.name ++
    query.names.filter (· ∈ query.referencedNames))
  apart : (query.unused.map Declaration.name).Disjoint query.referencedNames
  listed : ListsOnce (query.references.map Reference.name) query.referencedNames

/-- **Strict reading is exact.** -/
theorem reads_strictly (parsed : parse marker false text = .ok query) :
    ReadsStrictly marker text query := by
  have taken := read_of_parse parsed
  have strict := parse_strict_of_parse parsed
  refine ⟨references_of_read taken, ?_, ?_, ?_, perm_names query, ?_, listsOnce_iff.mpr rfl⟩
  · rw [strict, check_eq_ok_iff]
  · rintro ⟨name, mentioned, undeclared⟩
    rw [strict]
    exact check_of_undeclared mentioned undeclared
  · rintro declared ⟨name, member, unmentioned⟩
    obtain ⟨declaration, first, refused⟩ := check_of_unmentioned declared member unmentioned
    obtain ⟨earlier, later, cut, _⟩ := first.cut
    exact ⟨declaration, _, first, standsOn_of_read taken cut, strict.trans refused⟩
  · intro name inside member
    obtain ⟨declaration, unused, rfl⟩ := List.mem_map.mp inside
    exact of_decide_eq_true (List.mem_filter.mp unused).2 member

/-- The only references to the second name are in a comment, in quotes and to a server variable. -/
theorem reads_strictly_second :
    let marker := "--?".toList
    let body := "select @c, @@b, '@b' -- @b\nfrom t where @a < @c".toList
    let text := "--? a: num\r\n--? b: str // @b\n--? c: [raw]\n".toList ++ body
    let query : Query := ⟨[⟨['a'], .scalar .num, none, ['a'], 0⟩,
      ⟨['b'], .scalar .str, none, ['@', 'b'], 1⟩, ⟨['c'], .array .raw, none, ['c'], 2⟩],
      body, [⟨['c'], 7, 9⟩, ⟨['a'], 40, 42⟩, ⟨['c'], 45, 47⟩]⟩
    parse marker false text = .ok query ∧ ReadsStrictly marker text query ∧
      query.referencedNames = [['c'], ['a']] ∧
      parse marker true text = .error (.declaration ⟨.unused, ['b'], 2, none⟩) := by
  intro marker body text query
  have parsed : parse marker false text = .ok query := by decide +kernel
  exact ⟨parsed, reads_strictly parsed, by decide +kernel, by decide +kernel⟩

end Query
end TypedQuery
