import Compositor.Decimal.Rounding
import Compositor.Text.Blank
import Compositor.Text.DecimalDigit
import Compositor.Value

namespace Compositor

/-- A numeral at the front of a text, as written. The fraction of a numeral
without a point and the exponent of one without a mark are absent. -/
structure Numeral where
  negative : Bool
  whole : List Char
  fraction : List Char := []
  exponent : Option (Bool × List Char) := none
  deriving DecidableEq, Repr

namespace Numeral

open Text

/-- Takes one sign off the front and says whether it is a minus. -/
def readSign : List Char → Bool × List Char
  | '+' :: rest => (false, rest)
  | '-' :: rest => (true, rest)
  | text => (false, text)

def readDigits (text : List Char) : List Char × List Char :=
  (text.takeWhile isDecimalDigit, text.dropWhile isDecimalDigit)

def digitsValue (digits : List Char) : Nat :=
  digits.foldl (fun value c => 10 * value + (c.toNat - '0'.toNat)) 0

def fitsInt64 (value : Int) : Bool :=
  Int64.minValue.toInt ≤ value && value ≤ Int64.maxValue.toInt

/-- Only ASCII digits have a value, though digits of every script belong to a
numeral. -/
def isAscii (numeral : Numeral) : Bool :=
  numeral.whole.all Char.isDigit && numeral.fraction.all Char.isDigit &&
    match numeral.exponent with
    | none => true
    | some (_, digits) => digits.all Char.isDigit

def decimal (numeral : Numeral) : Decimal where
  digits := digitsValue (numeral.whole ++ numeral.fraction)
  exponent :=
    (match numeral.exponent with
      | none => 0
      | some (false, digits) => (digitsValue digits : Int)
      | some (true, digits) => -(digitsValue digits : Int)) -
      numeral.fraction.length

def toFloat (numeral : Numeral) : Float :=
  numeral.decimal.toSignedFloat numeral.negative

def readInteger? (text : List Char) : Option Numeral :=
  let (negative, rest) := readSign text
  let (whole, _) := readDigits rest
  if whole.isEmpty then none else some { negative, whole }

/-- An exponent counts only if a digit follows its mark and sign. -/
def readExponent (text : List Char) : Option (Bool × List Char) :=
  match text with
  | mark :: rest =>
      if mark = 'e' || mark = 'E' then
        let (negative, rest) := readSign rest
        let (digits, _) := readDigits rest
        if digits.isEmpty then none else some (negative, digits)
      else none
  | [] => none

/-- The longest decimal numeral at the front: digits with a point before,
between or after them, and an exponent. -/
def readDecimal? (text : List Char) : Option Numeral :=
  let (negative, rest) := readSign text
  let (whole, rest) := readDigits rest
  let (fraction, rest) :=
    match rest with
    | '.' :: after => readDigits after
    | _ => ([], rest)
  if whole.isEmpty && fraction.isEmpty then none
  else some { negative, whole, fraction, exponent := readExponent rest }

def infinityWord : List Char := "Infinity".toList

variable {ρ : Type}

/-- The integer that a text begins with. Whatever follows it is ignored; one
that does not fit 64 bits becomes a double. -/
def intValue (text : String) : Value ρ :=
  match readInteger? (trimLeft text.toList) with
  | none => .notANumber
  | some numeral =>
      if numeral.isAscii then
        let magnitude : Int := digitsValue numeral.whole
        let value := if numeral.negative then -magnitude else magnitude
        if fitsInt64 value then .int (Int64.ofInt value)
        else .float numeral.toFloat
      else .notANumber

/-- The double that a text begins with. Whatever follows it is ignored. -/
def floatValue (text : String) : Value ρ :=
  let body := trimLeft text.toList
  let (negative, rest) := readSign body
  if infinityWord.isPrefixOf rest then
    .float (if negative then -(1 / 0) else 1 / 0)
  else
    match readDecimal? body with
    | none => .notANumber
    | some numeral =>
        if numeral.isAscii then .float numeral.toFloat else .notANumber

end Numeral

end Compositor
