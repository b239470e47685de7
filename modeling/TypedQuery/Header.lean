import TypedQuery.Declaration

/-!
# Headers

The lines at the top of a text that open as declarations are its header, and the rest is the
body. The first line that does not open so ends the header, even if it is empty, and
belongs to the body. Lines end at line feeds; the line ends that close a line are no part
of its declaration.

No two lines declare the same name. Since every line of a header declares one parameter,
the number of names before a line is both the order of its declaration and the count of
lines above it.
-/

set_option autoImplicit false

namespace TypedQuery

/-- The declarations of a text, and the rest of it. -/
structure Header where
  declarations : List Declaration
  body : Text
  deriving DecidableEq

namespace Header

/-- The declaration of a line that opens as one, given the names that are declared above. -/
def declare (marker : Text) (above : List Text) (line : Text) :
    Option (Except Error Declaration) :=
  (Declaration.opening? marker line).map fun (name, rest) =>
    match Declaration.read name above.length rest with
    | .error fault => .error (fault.toError name (above.length + 1) line)
    | .ok declaration =>
        if name ∈ above then
          .error (.declaration ⟨.duplicate, name, above.length + 1, some line⟩)
        else .ok declaration

/-- The header of some lines, given the names that are declared above. -/
def ofLines (marker : Text) (above : List Text) : List Text → Except Error Header
  | [] => .ok ⟨[], []⟩
  | line :: later =>
      match declare marker above (Text.chomp line) with
      | none => .ok ⟨[], (line :: later).flatten⟩
      | some (.error error) => .error error
      | some (.ok declaration) =>
          (ofLines marker (above ++ [declaration.name]) later).map fun header =>
            ⟨declaration :: header.declarations, header.body⟩

/-- The header of a text whose declarations open with a marker. -/
def read (marker text : Text) : Except Error Header := ofLines marker [] (Text.lines text)

end Header
end TypedQuery
