import Compositor.Decimal.Shortest

namespace Compositor.Decimal

/-- How a finite double is laid out. `positional` says for which exponents of
the leading digit no exponent is written, `wholePoint` whether a whole number
ends in `.0`. -/
structure Style where
  tie : Tie
  positional : Int → Bool
  wholePoint : Bool

namespace Style

def zeros (count : Nat) : List Char :=
  List.replicate count '0'

/-- Digits with the decimal point after the first `point` of them. -/
def positionalText (style : Style) (digits : List Char) (point : Int) :
    List Char :=
  if point ≤ 0 then '0' :: '.' :: zeros (-point).toNat ++ digits
  else if digits.length ≤ point.toNat then
    digits ++ zeros (point.toNat - digits.length) ++
      (if style.wholePoint then ['.', '0'] else [])
  else digits.take point.toNat ++ '.' :: digits.drop point.toNat

/-- One digit before the point and a signed exponent. -/
def scientificText (digits : List Char) (exponent : Int) : List Char :=
  let mantissa :=
    match digits with
    | first :: second :: rest => first :: '.' :: second :: rest
    | _ => digits
  mantissa ++ 'e' :: (if exponent < 0 then '-' else '+') ::
    Nat.toDigits 10 exponent.natAbs

def magnitudeText (style : Style) (x : Magnitude) : List Char :=
  if x.significand = 0 then
    if style.wholePoint then ['0', '.', '0'] else ['0']
  else
    let decimal := x.shortest style.tie
    let digits := Nat.toDigits 10 decimal.digits
    let point := digits.length + decimal.exponent
    if style.positional (point - 1) then style.positionalText digits point
    else scientificText digits (point - 1)

/-- The text of a finite double; zero keeps its sign. -/
def write (style : Style) (x : Float) : List Char :=
  let text := style.magnitudeText (.ofFloat x)
  if x.toBits.toNat < Nat.pow 2 63 then text else '-' :: text

end Style

end Compositor.Decimal
