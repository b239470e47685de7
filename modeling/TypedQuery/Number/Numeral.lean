import TypedQuery.Text.DecimalDigit
import TypedQuery.Number.Decimal

/-!
# Numerals

A numeral is an optional sign, digits with an optional point among them, and an optional
power of ten: `12`, `-0.5`, `.5`, `3.`, `6.02e23`. At least one digit stands before the
power, and at least one in it. The digits are those of any script.

Reading is greedy from left to right and never has to go back, because no part can begin
with a character that continues the part before it.
-/

set_option autoImplicit false

namespace TypedQuery
namespace Numeral

/-- Whether a sign is there and says minus, and what follows it. -/
def readSign : Text → Bool × Text
  | '-' :: rest => (true, rest)
  | '+' :: rest => (false, rest)
  | rest => (false, rest)

/-- The longest run of digits at the front of a text. -/
def digitRun (text : Text) : Text := text.takeWhile Text.isDigit

/-- What follows the longest run of digits. -/
def afterDigits (text : Text) : Text := text.dropWhile Text.isDigit

/-- What a run of digits is worth. -/
def digitsValue (run : Text) : Nat :=
  run.foldl (fun value c => 10 * value + (Text.digitValue? c).getD 0) 0

/-- The digits after a decimal point, if one comes next, and what follows them. -/
def readFraction : Text → Text × Text
  | '.' :: rest => (digitRun rest, afterDigits rest)
  | rest => ([], rest)

/-- A power of ten up to the end of the text: nothing, or the letter `e` in either case, a sign
and at least one digit. -/
def power? : Text → Option Int
  | [] => some 0
  | c :: rest =>
      if c = 'e' ∨ c = 'E' then
        let (negative, run) := readSign rest
        if run.isEmpty || !run.all Text.isDigit then none
        else some (if negative then -(digitsValue run : Int) else digitsValue run)
      else none

/-- The decimal that a text denotes, if the whole of it is a numeral. -/
def decimal? (text : Text) : Option Decimal :=
  let (negative, unsigned) := readSign text
  let whole := digitRun unsigned
  let (fraction, rest) := readFraction (afterDigits unsigned)
  if whole.isEmpty && fraction.isEmpty then none
  else (power? rest).map fun power =>
    ⟨negative, digitsValue (whole ++ fraction), power - fraction.length⟩

/-- The finite double that a text denotes. A numeral beyond the greatest double denotes
none. -/
def double? (text : Text) : Option Double :=
  ((decimal? text).map Double.ofDecimal).filter Double.isFinite

end Numeral

/-- The double that a text denotes, where infinities and the value that is no number have texts
of their own and a numeral beyond the greatest double denotes an infinity. -/
def Double.ofText? (text : Text) : Option Double :=
  if text = ['n', 'a', 'n'] then some .nan
  else if text = ['i', 'n', 'f'] then some (.infinite false)
  else if text = ['-', 'i', 'n', 'f'] then some (.infinite true)
  else (Numeral.decimal? text).map Double.ofDecimal

end TypedQuery
