import TypedQuery.Error
import TypedQuery.Settings
import TypedQuery.Text.Quoted
import TypedQuery.Text.Space

/-!
# Reports

An error is reported on one line: a headline in the language of the settings, and then the
details by name. A detail that is a text is shown in its display form, so nothing that a query
or a caller contains can end the line or hide in it. If the settings ask for it, the line of a
faulty declaration follows between quotes, without the white space around it.
-/

set_option autoImplicit false

namespace TypedQuery

/-- The headlines of reports. The last three are for errors that are of a kind and no more. -/
inductive Headline where
  | unterminatedLiteral
  | unmatchedDelimiter
  | invalidNumber
  | trailingComma
  | literalMismatch
  | duplicateName
  | unknownType
  | nestedArray
  | defaultMismatch
  | malformedDeclaration
  | unusedParameter
  | undefinedReference
  | missingValue
  | typeMismatch
  | elementMismatch
  | invalidArgument
  | someLiteral
  | someDeclaration
  | someBinding
  deriving DecidableEq, Repr

namespace Headline

/-- A headline in Japanese. -/
def japanese : Headline → String
  | .unterminatedLiteral => "リテラルが閉じられていません"
  | .unmatchedDelimiter => "区切り文字が対応していません"
  | .invalidNumber => "数値の形式が不正です"
  | .trailingComma => "配列の末尾にカンマがあります"
  | .literalMismatch => "リテラルの型が一致しません"
  | .duplicateName => "パラメータが重複しています"
  | .unknownType => "未知の型です"
  | .nestedArray => "配列の入れ子は使用できません"
  | .defaultMismatch => "デフォルト値の型が宣言と一致しません"
  | .malformedDeclaration => "パラメータ宣言の形式が不正です"
  | .unusedParameter => "宣言されたパラメータが参照されていません"
  | .undefinedReference => "宣言されていないパラメータを参照しています"
  | .missingValue => "必須パラメータが指定されていません"
  | .typeMismatch => "パラメータの型が一致しません"
  | .elementMismatch => "配列要素の型が一致しません"
  | .invalidArgument => "引数の値が不正です"
  | .someLiteral => "literal_error"
  | .someDeclaration => "header_error"
  | .someBinding => "bind_error"

/-- A headline in English. -/
def english : Headline → String
  | .unterminatedLiteral => "Unterminated literal"
  | .unmatchedDelimiter => "Unmatched delimiter"
  | .invalidNumber => "Invalid number format"
  | .trailingComma => "Trailing comma in array literal"
  | .literalMismatch => "Literal type mismatch"
  | .duplicateName => "Duplicate parameter"
  | .unknownType => "Unknown type"
  | .nestedArray => "Nested array type is not allowed"
  | .defaultMismatch => "Default value does not match the declared type"
  | .malformedDeclaration => "Invalid parameter declaration"
  | .unusedParameter => "Declared parameter is never referenced"
  | .undefinedReference => "Reference to undeclared parameter"
  | .missingValue => "Required parameter is missing"
  | .typeMismatch => "Parameter type mismatch"
  | .elementMismatch => "Array element type mismatch"
  | .invalidArgument => "Invalid argument value"
  | .someLiteral => "literal_error"
  | .someDeclaration => "header_error"
  | .someBinding => "bind_error"

/-- A headline in a language. -/
def text (headline : Headline) : Language → Text
  | .japanese => headline.japanese.toList
  | .english => headline.english.toList

end Headline

/-- A detail of a report. -/
inductive Detail where
  | text (chars : Text)
  | number (value : Int)
  deriving DecidableEq, Repr

/-- How a detail is shown. -/
def Detail.display : Detail → Text
  | .text chars => Text.display chars
  | .number value => Text.ofInt value

/-- A headline, details by name, and the line that is at fault. -/
structure Report where
  headline : Headline
  details : List (Text × Detail)
  line : Option Text
  deriving DecidableEq, Repr

namespace Report

/-- A detail beside its name. -/
def showDetail (detail : Text × Detail) : Text := detail.1 ++ '=' :: detail.2.display

/-- The line of text that a report is. -/
def message (report : Report) (settings : Settings) : Text :=
  let details := Text.join [' '] (report.details.map showDetail)
  let line :=
    match report.line with
    | some line => if settings.showsLine then " sql='".toList ++ Text.strip line ++ ['\''] else []
    | none => []
  report.headline.text settings.language ++
    (if report.details.isEmpty then [] else ':' :: ' ' :: details) ++ line

/-- A detail that is a text. -/
def note (name : String) (text : Text) : Text × Detail := (name.toList, .text text)

/-- A detail that is a number. -/
def count (name : String) (number : Int) : Text × Detail := (name.toList, .number number)

end Report

/-! ## Reports of errors -/

/-- The report of a literal that cannot be read: where, what was expected, and in which text. -/
def LiteralError.report (error : LiteralError) : Report :=
  let report (headline : Headline) (details : List (Text × Detail)) : Report :=
    ⟨headline,
      Report.count "position" error.position :: details ++ [Report.note "text" error.text], none⟩
  match error.kind with
  | .unterminated => report .unterminatedLiteral []
  | .unmatchedDelimiter => report .unmatchedDelimiter []
  | .invalidNumber => report .invalidNumber []
  | .trailingComma => report .trailingComma []
  | .typeMismatch expected actual =>
      report .literalMismatch
        [Report.note "expected" expected.text, Report.note "actual" actual.text]

/-- The report of a declaration that cannot be accepted: on which line, of which name. -/
def DeclarationError.report (error : DeclarationError) : Report :=
  let report (headline : Headline) (details : List (Text × Detail)) : Report :=
    ⟨headline,
      Report.count "line" error.lineNumber :: Report.note "param" error.name :: details,
      error.line⟩
  match error.fault with
  | .duplicate => report .duplicateName []
  | .unknownType keyword => report .unknownType [Report.note "type" keyword]
  | .nestedArray => report .nestedArray []
  | .defaultMismatch _ => report .defaultMismatch []
  | .malformed => report .malformedDeclaration []
  | .unused => report .unusedParameter []

/-- The report of a parameter without a value: of which name, what is wrong, and where the body
asks for it. -/
def BindingError.report (error : BindingError) : Report :=
  let position := (error.position.map fun position => Report.count "position" position).toList
  let report (headline : Headline) (details : List (Text × Detail)) : Report :=
    ⟨headline, Report.note "param" error.name :: details ++ position, none⟩
  match error.fault with
  | .undefinedReference => report .undefinedReference []
  | .missing => report .missingValue []
  | .typeMismatch expected actual =>
      report .typeMismatch [Report.note "expected" expected.text, Report.note "actual" actual]
  | .elementMismatch index => report .elementMismatch [Report.count "index" index]
  | .invalidArgument text _ => report .invalidArgument [Report.note "text" text]

/-- The wording of a request that cannot be rendered, which is the same under all settings. -/
def RenderingError.message : RenderingError → Text
  | .placeholderBesideDialect => "dialect と placeholder は同時に指定できません".toList
  | .unsupportedPlaceholder placeholder =>
      "未対応のプレースホルダ形式です: ".toList ++ Text.display placeholder
  | .numberAmongPieces index =>
      "sequence item ".toList ++ Text.ofNat index ++ ": expected str instance, float found".toList

/-- The wording of an error. -/
def Error.message (settings : Settings) : Error → Text
  | .literal error => error.report.message settings
  | .declaration error => error.report.message settings
  | .binding error => error.report.message settings
  | .rendering error => error.message
  | .integerTooLarge => "int too large to convert to float".toList
  | .arrayInArray => "ArrayValue cannot contain ArrayValue".toList

end TypedQuery
