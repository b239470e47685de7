import Mathlib.Data.List.Perm.Basic
import TypedQuery.Proofs.HeaderLines
import TypedQuery.Proofs.Resolution
import TypedQuery.Proofs.Tables
import TypedQuery.Rendering.Basic

/-!
# The order of declarations does not matter

What a line declares depends on the lines above only in the order of the declaration, and a
parameter is found by its name. So the lines of a header can be put in any order: they declare the
same parameters, numbered anew, in front of the same body, and every rendering stays the same
(`render_reordered`).

Two facts carry this. Lines with different names declare their parameters in any order
(`Header.declared_of_declares`), and binding finds declarations by their names and never looks at
their orders (`Query.bind_renumbered`).
-/

set_option autoImplicit false

namespace TypedQuery

/-! ## Queries that differ in the order of their declarations -/

/-- Two declarations say the same of one parameter and stand in different places at most. -/
def Declaration.Renumbered (first second : Declaration) : Prop :=
  ∃ order, second = { first with order }

/-- Declarations numbered by their places. -/
def Declaration.renumber (declarations : List Declaration) : List Declaration :=
  declarations.mapIdx fun order declaration => { declaration with order }

theorem Declaration.map_name_renumber (declarations : List Declaration) :
    (renumber declarations).map Declaration.name = declarations.map Declaration.name := by
  refine List.ext_getElem (by simp [renumber]) fun i _ _ => ?_
  simp [renumber]

theorem Declaration.exists_mem_renumber {declarations : List Declaration}
    {declaration : Declaration} (member : declaration ∈ declarations) :
    ∃ other ∈ renumber declarations, declaration.Renumbered other := by
  obtain ⟨order, within, rfl⟩ := List.getElem_of_mem member
  exact ⟨_, List.mem_mapIdx.mpr ⟨order, within, rfl⟩, order, rfl⟩

namespace Query

/-- Binding does not look at the order of declarations. -/
theorem bind_renumbered {query query' : Query} (body : query.body = query'.body)
    (references : query.references = query'.references)
    (found : ∀ name, Option.Rel Declaration.Renumbered (query.declaration? name)
      (query'.declaration? name)) (values : Table Supplied) :
    query.bind values = query'.bind values := by
  refine bind_congr body references fun reference _ => ?_
  have declared := found reference.name
  unfold Plan.bindOne
  generalize query.declaration? reference.name = first at declared
  generalize query'.declaration? reference.name = second at declared
  cases declared with
  | none => rfl
  | some renumbered =>
      obtain ⟨order, rfl⟩ := renumbered
      rfl

/-- Declarations with different names are found by their names in any order. -/
theorem declaration?_renumber {query query' : Query} {declarations : List Declaration}
    (distinct : query.names.Nodup) (reordered : declarations.Perm query.declarations)
    (renumbered : query'.declarations = Declaration.renumber declarations) (name : Text) :
    Option.Rel Declaration.Renumbered (query.declaration? name) (query'.declaration? name) := by
  have same : query'.names.Perm query.names := by
    rw [names, renumbered, Declaration.map_name_renumber]
    exact reordered.map Declaration.name
  cases declared : query.declaration? name with
  | none =>
      have absent : name ∉ query'.names := fun member =>
        declaration?_eq_none_iff.mp declared (same.mem_iff.mp member)
      rw [declaration?_eq_none_iff.mpr absent]
      exact .none
  | some declaration =>
      obtain ⟨member, named⟩ := (find?_key_eq_some_iff distinct).mp declared
      obtain ⟨other, inside, order, rfl⟩ :=
        Declaration.exists_mem_renumber (reordered.mem_iff.mpr member)
      have found : query'.declaration? name = some { declaration with order } :=
        (find?_key_eq_some_iff (same.nodup_iff.mpr distinct)).mpr ⟨renumbered ▸ inside, named⟩
      rw [found]
      exact .some ⟨order, rfl⟩

end Query

/-! ## Lines in another order -/

namespace Header

open Declaration

/-- A text that consists of ended lines, one for each declaration, and the body is cut into these
lines, and they declare the parameters. -/
theorem declared_of_read {marker text : Text} {header : Header}
    (taken : read marker text = .ok header) {lines : List Text}
    (whole : text = lines.flatten ++ header.body)
    (count : lines.length = header.declarations.length) (ended : ∀ line ∈ lines, line.Ended) :
    Declared marker [] lines header.declarations := by
  obtain ⟨earlier, later, cut, declared, body, _⟩ := ofLines_eq_ok_iff.mp taken
  have again : Text.lines header.body = later := by
    rw [body, Text.lines_flatten_append cut]
  rw [whole, Text.lines_flatten_ended ended, again] at cut
  have length : lines.length = earlier.length := by
    rw [count, declared.declares.length_eq]
  rw [List.append_inj_left cut length]
  exact declared

/-- Lines that are put in another order take their declarations with them. -/
theorem exists_reordered {marker : Text} {lines lines' : List Text}
    {declarations : List Declaration}
    (declares : List.Forall₂ (Declares marker) lines declarations)
    (reordered : lines'.Perm lines) :
    ∃ declarations', List.Forall₂ (Declares marker) lines' declarations' ∧
      (lines'.zip declarations').Perm (lines.zip declarations) := by
  obtain ⟨count, declared⟩ := List.forall₂_iff_zip.mp declares
  have fronts : (lines.zip declarations).map Prod.fst = lines :=
    List.map_fst_zip (Nat.le_of_eq count)
  have split := congrFun₂ (List.eq_map_comp_perm (Prod.fst : Text × Declaration → Text)) lines'
    (lines.zip declarations)
  obtain ⟨moved, rfl, permuted⟩ := split.mpr (by rwa [fronts])
  refine ⟨moved.map Prod.snd, ?_, ?_⟩
  · rw [List.forall₂_map_left_iff, List.forall₂_map_right_iff, List.forall₂_same]
    exact fun pair member => declared (permuted.mem_iff.mp member)
  · rw [List.zip_map', List.map_id']
    exact permuted

/-- Ended lines that declare parameters with different names are the header of any body. -/
theorem read_of_declared_lines {marker : Text} {lines : List Text} {declarations : List Declaration}
    (declares : List.Forall₂ (Declares marker) lines declarations)
    (distinct : (declarations.map Declaration.name).Nodup) (ended : ∀ line ∈ lines, line.Ended)
    {body : Text} (closed : OpensNone marker body) :
    read marker (lines.flatten ++ body) = .ok ⟨renumber declarations, body⟩ := by
  have declared := @declared_of_declares marker [] lines declarations declares distinct
  simp only [List.length_nil, Nat.zero_add] at declared
  exact ofLines_eq_ok_iff.mpr ⟨lines, Text.lines body, Text.lines_flatten_ended ended body,
    declared, (Text.flatten_lines body).symm, closed⟩

end Header

/-- **The order of declarations does not matter.** Where ended lines declare the parameters of a
text, the same lines in any order, in front of the same body, declare the same parameters, numbered
by their new places. Every rendering of the two texts ends in the same way. -/
theorem render_reordered {marker text : Text} {header : Header}
    (taken : Header.read marker text = .ok header) {lines : List Text}
    (whole : text = lines.flatten ++ header.body)
    (count : lines.length = header.declarations.length) (ended : ∀ line ∈ lines, line.Ended)
    {lines' : List Text} (reordered : lines'.Perm lines) :
    ∃ declarations', declarations'.length = lines'.length ∧
      (lines'.zip declarations').Perm (lines.zip header.declarations) ∧
      Header.read marker (lines'.flatten ++ header.body) =
        .ok ⟨Declaration.renumber declarations', header.body⟩ ∧
      ∀ values asked dialect, render marker (lines'.flatten ++ header.body) values asked dialect =
        render marker text values asked dialect := by
  have declared := Header.declared_of_read taken whole count ended
  have distinct : (Query.ofHeader header).names.Nodup := declared.distinct List.nodup_nil
  obtain ⟨declarations', declares, moved⟩ := Header.exists_reordered declared.declares reordered
  have permuted : declarations'.Perm header.declarations := by
    have seconds := moved.map Prod.snd
    rwa [List.map_snd_zip (Nat.le_of_eq declares.length_eq.symm),
      List.map_snd_zip (Nat.le_of_eq count.symm)] at seconds
  have taken' := Header.read_of_declared_lines declares
    ((permuted.map Declaration.name).nodup_iff.mpr distinct)
    (fun line member => ended line (reordered.mem_iff.mp member)) (Header.opensNone_body taken)
  refine ⟨declarations', declares.length_eq.symm, moved, taken', fun values asked dialect => ?_⟩
  have bound : (Query.ofHeader header).bind values =
      (Query.ofHeader ⟨Declaration.renumber declarations', header.body⟩).bind values := by
    refine Query.bind_renumbered ?_ ?_ (fun name => ?_) values
    · rfl
    · rfl
    · exact Query.declaration?_renumber distinct permuted rfl name
  have read : Query.read marker text = .ok (Query.ofHeader header) := by
    rw [Query.read, taken]
    rfl
  have read' : Query.read marker (lines'.flatten ++ header.body) =
      .ok (Query.ofHeader ⟨Declaration.renumber declarations', header.body⟩) := by
    rw [Query.read, taken']
    rfl
  simp only [render, read, read', bound]

/-- Three lines, of which the last one comes first and one ends in a carriage return. -/
theorem render_reordered_three :
    let marker := "--?".toList
    let ids := "--? ids: [str]\n".toList
    let order := "--? by: raw = #id# // sort key\r\n".toList
    let limit := "--? limit: num\n".toList
    let body := "in (@ids) order by @by limit @limit".toList
    let declarations : List Declaration :=
      [⟨"ids".toList, .array .str, none, "ids".toList, 0⟩,
        ⟨"by".toList, .scalar .raw, some (.scalar (.raw "id".toList)), "sort key".toList, 1⟩,
        ⟨"limit".toList, .scalar .num, none, "limit".toList, 2⟩]
    Header.read marker ([ids, order, limit].flatten ++ body) = .ok ⟨declarations, body⟩ ∧
      [limit, ids, order].Perm [ids, order, limit] ∧
      ∃ declarations', declarations'.length = 3 ∧
        ([limit, ids, order].zip declarations').Perm ([ids, order, limit].zip declarations) ∧
        Header.read marker ([limit, ids, order].flatten ++ body) =
          .ok ⟨Declaration.renumber declarations', body⟩ ∧
        ∀ values asked dialect,
          render marker ([limit, ids, order].flatten ++ body) values asked dialect =
            render marker ([ids, order, limit].flatten ++ body) values asked dialect := by
  intro marker ids order limit body declarations
  have taken : Header.read marker ([ids, order, limit].flatten ++ body) =
      .ok ⟨declarations, body⟩ := by decide +kernel
  have reordered : [limit, ids, order].Perm [ids, order, limit] := by decide +kernel
  have ended : ∀ line ∈ [ids, order, limit], Text.Ended line := by
    refine List.forall_mem_cons.mpr ⟨⟨ids.dropLast, by decide, rfl⟩, ?_⟩
    refine List.forall_mem_cons.mpr ⟨⟨order.dropLast, by decide, rfl⟩, ?_⟩
    exact List.forall_mem_singleton.mpr ⟨limit.dropLast, by decide, rfl⟩
  exact ⟨taken, reordered, render_reordered taken rfl rfl ended reordered⟩

end TypedQuery
