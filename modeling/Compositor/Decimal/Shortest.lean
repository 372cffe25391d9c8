namespace Compositor

/-- The number `digits * 10 ^ exponent`. -/
structure Decimal where
  digits : Nat
  exponent : Int
  deriving DecidableEq, Repr

/-- Which of two equally close decimals is taken. -/
inductive Tie where
  | toEven
  | up
  deriving DecidableEq, Repr

/-- The finite number `significand * 2 ^ exponent` and the room around it. The
gap below a power of two is half the gap above it. -/
structure Magnitude where
  significand : Nat
  exponent : Int
  narrowBelow : Bool
  deriving DecidableEq, Repr

namespace Magnitude

def ofFloat (x : Float) : Magnitude :=
  let bits := x.toBits.toNat
  let fraction : Nat := bits % Nat.pow 2 52
  let scale : Nat := bits / Nat.pow 2 52 % Nat.pow 2 11
  if scale = 0 then ⟨fraction, -1074, false⟩
  else ⟨Nat.pow 2 52 + fraction, (scale : Int) - 1075, fraction = 0 && scale > 1⟩

/-- A quarter of the gap above, the unit in which the bounds are whole. -/
def unitExponent (x : Magnitude) : Int := x.exponent - 2

def lower (x : Magnitude) : Nat :=
  4 * x.significand - (if x.narrowBelow then 1 else 2)

def upper (x : Magnitude) : Nat :=
  4 * x.significand + 2

/-- Factors that put units of the magnitude and multiples of a power of ten on
one scale. -/
def unitFactor (x : Magnitude) (grid : Int) : Nat :=
  Nat.pow 2 x.unitExponent.toNat * Nat.pow 10 (-grid).toNat

def gridFactor (x : Magnitude) (grid : Int) : Nat :=
  Nat.pow 2 (-x.unitExponent).toNat * Nat.pow 10 grid.toNat

/-- The decimal rounds to this magnitude: it lies between the midpoints to the
neighbours, which count when the significand is even. -/
def Holds (x : Magnitude) (d : Decimal) : Prop :=
  let point := d.digits * x.gridFactor d.exponent
  let low := x.lower * x.unitFactor d.exponent
  let high := x.upper * x.unitFactor d.exponent
  if x.significand % 2 = 0 then low ≤ point ∧ point ≤ high
  else low < point ∧ point < high

instance (x : Magnitude) (d : Decimal) : Decidable (x.Holds d) := by
  unfold Holds
  infer_instance

/-- The multiple of `10 ^ grid` that is closest to the magnitude among the two
around it that round to it. -/
def nearest? (x : Magnitude) (tie : Tie) (grid : Int) : Option Decimal :=
  let value := 4 * x.significand * x.unitFactor grid
  let step := x.gridFactor grid
  let below : Decimal := ⟨value / step, grid⟩
  let above : Decimal := ⟨value / step + 1, grid⟩
  let remainder := value % step
  if x.Holds below then
    if x.Holds above then
      if 2 * remainder < step then some below
      else if step < 2 * remainder then some above
      else
        match tie with
        | .up => some above
        | .toEven => if below.digits % 2 = 0 then some below else some above
    else some below
  else if x.Holds above then some above
  else none

def exact (x : Magnitude) : Decimal :=
  if 0 ≤ x.exponent then ⟨x.significand * Nat.pow 2 x.exponent.toNat, 0⟩
  else ⟨x.significand * Nat.pow 5 (-x.exponent).toNat, x.exponent⟩

/-- An exponent of ten above the magnitude, by less than a third more than the
binary exponent asks for. -/
def topGrid (x : Magnitude) : Int :=
  let bits := x.exponent + Nat.log2 x.significand + 1
  if 0 ≤ bits then bits * 31 / 100 + 1 else bits * 30 / 100 + 1

/-- The decimal with the fewest digits that rounds to the magnitude, and of
these the closest: the first hit on ever finer grids. Seventeen digits always
hit, and the grids start at most fifteen above the first digit. -/
def shortest (x : Magnitude) (tie : Tie) : Decimal :=
  ((List.range 36).findSome? fun (step : Nat) =>
    x.nearest? tie (x.topGrid - step)).getD x.exact

end Magnitude

end Compositor
