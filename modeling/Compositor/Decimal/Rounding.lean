import Compositor.Decimal.Shortest

namespace Compositor.Decimal

/-- The closest double, infinite from half a step above the greatest one. Tiny
and huge exponents are settled without their powers of ten. -/
def toFloat (d : Decimal) : Float :=
  if d.digits = 0 then 0
  else if 400 < d.exponent then 1 / 0
  else if Nat.log2 d.digits + 1 + 3 * d.exponent < -1100 then 0
  else Float.ofScientific d.digits (d.exponent < 0) d.exponent.natAbs

def toSignedFloat (d : Decimal) (negative : Bool) : Float :=
  if negative then -d.toFloat else d.toFloat

end Compositor.Decimal
