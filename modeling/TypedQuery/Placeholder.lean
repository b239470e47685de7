import TypedQuery.Error

/-!
# Placeholders and dialects

What stands for an argument in the rendered query is decided by the database. Two kinds of
placeholder are filled by position; the third carries the name of its argument. A dialect
is a database system with the kind it asks for, and it can be told from the module that a
connection comes from.
-/

set_option autoImplicit false

namespace TypedQuery

/-- The kinds of placeholder. -/
inductive Placeholder where
  | question
  | percent
  | named
  deriving DecidableEq, Repr

namespace Placeholder

/-- How a kind of placeholder is written where it is asked for. -/
def text : Placeholder → Text
  | .question => ['?']
  | .percent => ['%', 's']
  | .named => [':', 'n', 'a', 'm', 'e']

/-- The kind of placeholder that is written in a given way. -/
def ofText? (text : Text) : Option Placeholder :=
  [Placeholder.question, .percent, .named].find? fun placeholder => placeholder.text = text

end Placeholder

/-- The database systems that are told apart. -/
inductive Dialect where
  | sqlite
  | postgresql
  | mysql
  | oracle
  deriving DecidableEq, Repr

namespace Dialect

/-- The identifier of a dialect. -/
def identifier : Dialect → Text
  | .sqlite => "sqlite".toList
  | .postgresql => "postgresql".toList
  | .mysql => "mysql".toList
  | .oracle => "oracle".toList

/-- The kind of placeholder that a dialect asks for. -/
def placeholder : Dialect → Placeholder
  | .sqlite => .question
  | .postgresql => .percent
  | .mysql => .percent
  | .oracle => .named

/-- The piece of a module name that tells a dialect. -/
def moduleMark : Dialect → Text
  | .sqlite => "sqlite3".toList
  | .postgresql => "psycopg".toList
  | .mysql => "pymysql".toList
  | .oracle => "oracledb".toList

/-- The dialect of a connection by the name of the module that it comes from. -/
def detect? (moduleName : Text) : Option Dialect :=
  [Dialect.sqlite, .postgresql, .mysql, .oracle].find? fun dialect =>
    Text.occursIn dialect.moduleMark moduleName

end Dialect

/-- The kind of placeholder to render with. A dialect decides it alone, so no other than the
default one may be asked for beside a dialect. -/
def Placeholder.choose (asked : Text) (dialect : Option Dialect) : Except Error Placeholder :=
  match dialect with
  | some dialect =>
      if asked = Placeholder.question.text then .ok dialect.placeholder
      else .error (.rendering .placeholderBesideDialect)
  | none =>
      match Placeholder.ofText? asked with
      | some placeholder => .ok placeholder
      | none => .error (.rendering (.unsupportedPlaceholder asked))

end TypedQuery
