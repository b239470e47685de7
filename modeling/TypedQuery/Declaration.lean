import TypedQuery.Error
import TypedQuery.Literal.Reading
import TypedQuery.Text.Name

/-!
# Declarations

A declaration is a line that opens with the marker, a name and a colon. After the colon
stand the type, optionally an equals sign and a literal of that type as the default, and
optionally two slashes and a help text up to the end of the line:

```
--? ages: [num] = [1, 2] // the ages to look for
```

Blanks may stand between the parts. The opening alone decides whether a line is a
declaration (`opening?`); a line that opens as one and does not go on as one is at fault.
Without a help text a parameter is explained by its name.
-/

set_option autoImplicit false

namespace TypedQuery

/-- A declared parameter. `order` counts the declarations before it. -/
structure Declaration where
  name : Text
  type : ParamType
  default : Option Value
  help : Text
  order : Nat
  deriving DecidableEq

namespace Declaration

/-- A parameter without a default needs a value. -/
def required (declaration : Declaration) : Bool := declaration.default.isNone

/-- What is wrong with the rest of a line that opens as a declaration. -/
inductive Fault where
  | malformed
  | unknownType (keyword : Text)
  | nestedArray
  | badDefault (fault : Literal.Fault)
  deriving DecidableEq, Repr

/-- The name that a line declares, and the line after the colon, if the line opens as a
declaration. -/
def opening? (marker line : Text) : Option (Text × Text) :=
  match Text.dropOpening? marker line with
  | none => none
  | some rest =>
      match Text.readName? (Text.dropBlanks rest) with
      | none => none
      | some (name, rest) =>
          match Text.dropBlanks rest with
          | ':' :: rest => some (name, Text.dropBlanks rest)
          | _ => none

/-- A base type by its keyword. Where no name stands, the next character is at fault. -/
def readBase (input : Text) : Except Fault (BaseType × Text) :=
  let (keyword, rest) := (Text.readName? input).getD (input.take 1, input.drop 1)
  match BaseType.ofKeyword? keyword with
  | some base => .ok (base, rest)
  | none => .error (.unknownType keyword)

/-- A type: a base type, or a base type between brackets. -/
def readType : Text → Except Fault (ParamType × Text)
  | '[' :: inner =>
      match Text.dropBlanks inner with
      | '[' :: _ => .error .nestedArray
      | inner =>
          match readBase inner with
          | .error fault => .error fault
          | .ok (base, rest) =>
              match Text.dropBlanks rest with
              | ']' :: rest => .ok (.array base, rest)
              | _ => .error .malformed
  | input => (readBase input).map fun (base, rest) => (.scalar base, rest)

/-- A default after an equals sign, or none. -/
def readDefault (type : ParamType) : Text → Except Fault (Option Value × Text)
  | '=' :: rest =>
      match Literal.read type (Text.dropBlanks rest) with
      | .ok (value, rest) => .ok (some value, rest)
      | .error fault => .error (.badDefault fault)
  | input => .ok (none, input)

/-- The help text after two slashes. Without one, and without anything else, it is the name. -/
def readHelp (name : Text) : Text → Except Fault Text
  | '/' :: '/' :: note => .ok (if Text.strip note = [] then name else Text.strip note)
  | rest => if rest.all Text.isSpace then .ok name else .error .malformed

/-- The declaration of a name by the rest of its line. -/
def read (name : Text) (order : Nat) (input : Text) : Except Fault Declaration := do
  let (type, rest) ← readType input
  let (default, rest) ← readDefault type (Text.dropBlanks rest)
  let help ← readHelp name (Text.dropBlanks rest)
  return ⟨name, type, default, help, order⟩

/-- The error of a line at fault. A default of the wrong form is an error of the declaration,
with the error of the literal as its cause; any other fault of a default is an error of the
literal. -/
def Fault.toError (fault : Fault) (name : Text) (lineNumber : Nat) (line : Text) : Error :=
  match fault with
  | .malformed => .declaration ⟨.malformed, name, lineNumber, some line⟩
  | .unknownType keyword => .declaration ⟨.unknownType keyword, name, lineNumber, some line⟩
  | .nestedArray => .declaration ⟨.nestedArray, name, lineNumber, some line⟩
  | .badDefault fault =>
      match fault.kind with
      | .typeMismatch _ _ =>
          .declaration ⟨.defaultMismatch (fault.locate line 0), name, lineNumber, some line⟩
      | _ => .literal (fault.locate line 0)

end Declaration
end TypedQuery
