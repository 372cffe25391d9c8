import Compositor.Numeral

namespace Compositor.Json

def isNumberChar (c : Char) : Bool :=
  c.isDigit || c = '-' || c = '+' || c = '.' || c = 'e' || c = 'E'

def readFraction? : List Char → Option (List Char × List Char)
  | '.' :: rest =>
      let digits := rest.takeWhile Char.isDigit
      if digits.isEmpty then none else some (digits, rest.dropWhile Char.isDigit)
  | text => some ([], text)

/-- A whole text as a numeral: no plus sign in front, no idle zero, digits on
both sides of a point and after an exponent mark. -/
def numeral? (text : List Char) : Option Numeral := do
  let (negative, rest) :=
    match text with
    | '-' :: rest => (true, rest)
    | _ => (false, text)
  let whole := rest.takeWhile Char.isDigit
  if whole.isEmpty || (whole.head? = some '0' && whole.length ≠ 1) then none
  let (fraction, rest) ← readFraction? (rest.dropWhile Char.isDigit)
  match rest with
  | [] => pure { negative, whole, fraction }
  | mark :: rest =>
      if mark = 'e' || mark = 'E' then
        let (negativeExponent, digits) := Numeral.readSign rest
        if digits.isEmpty || !digits.all Char.isDigit then none
        else
          pure { negative, whole, fraction, exponent := some (negativeExponent, digits) }
      else none

/-! The double of a numeral is made quickly and may miss the closest one. -/

/-- Takes digits onto a number as long as it fits 64 bits, and gives those left. -/
def takeDigits (value : Nat) : List Char → Nat × List Char
  | [] => (value, [])
  | c :: rest =>
      let longer := 10 * value + (c.toNat - '0'.toNat)
      if longer < 2 ^ 64 then takeDigits longer rest else (value, c :: rest)

/-- The digits that count. Those of the whole part that do not fit are taken for zeros,
those of the fraction are left out. -/
def counted (numeral : Numeral) : Decimal :=
  let (value, dropped) := takeDigits 0 numeral.whole
  let (digits, ignored) := takeDigits value numeral.fraction
  let written : Int :=
    match numeral.exponent with
    | none => 0
    | some (false, digits) => Numeral.digitsValue digits
    | some (true, digits) => -Numeral.digitsValue digits
  { digits
    exponent := written + dropped.length - (numeral.fraction.length - ignored.length : Nat) }

def greatestPower : Nat := 308

def powerOfTen (exponent : Nat) : Float := Float.ofScientific 1 false exponent

/-- Multiplies or divides by the double of a power of ten, which rounds once more;
below the least such power it divides twice. A double that overflows is refused. -/
def scaled? (d : Decimal) : Option Float :=
  let double := Float.ofNat d.digits
  let distance := d.exponent.natAbs
  if 0 ≤ d.exponent then
    if distance ≤ greatestPower then
      let product := double * powerOfTen distance
      if product.isInf then none else some product
    else if d.digits = 0 then some 0
    else none
  else if distance ≤ greatestPower then some (double / powerOfTen distance)
  else if distance ≤ 2 * greatestPower then
    some (double / powerOfTen greatestPower / powerOfTen (distance - greatestPower))
  else some 0

end Compositor.Json
