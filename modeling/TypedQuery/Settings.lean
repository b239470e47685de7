import TypedQuery.Text.Basic

/-!
# Settings

Three settings decide how queries are read and how errors are worded: the marker that opens a
declaration, the language of reports, and whether a report about a line shows the line. They
are passed to the functions that need them.
-/

set_option autoImplicit false

namespace TypedQuery

/-- The languages of reports. -/
inductive Language where
  | japanese
  | english
  deriving DecidableEq, Repr

/-- The language of a language code. Reports are in Japanese unless English is asked for. -/
def Language.ofCode (code : Text) : Language :=
  if code = ['e', 'n'] then .english else .japanese

/-- The settings of a session. -/
structure Settings where
  language : Language := .japanese
  showsLine : Bool := false
  marker : Text := ['-', '-', '?']
  deriving DecidableEq, Repr

end TypedQuery
