import Compositor.Decimal.Style
import Compositor.Value

namespace Compositor

/-- Doubles in text are written without an exponent; a whole number has no
point. -/
def Decimal.Style.plain : Decimal.Style where
  tie := .up
  positional := fun _ => true
  wholePoint := false

def floatText (value : Float) : String :=
  if value.isNaN then "NaN"
  else if value.isInf then if 0 < value then "Infinity" else "-Infinity"
  else String.ofList (Decimal.Style.plain.write value)

namespace Value

variable {ρ : Type}

mutual

/-- A value as plain text. Null, maps and deferred values have none. -/
def text : Value ρ → String
  | .null => ""
  | .bool value => if value then "true" else "false"
  | .int value => toString value.toInt
  | .float value => floatText value
  | .string text => text
  | .list items => textOfItems items
  | .map _ => ""
  | .deferred _ => ""

def textOfItems : List (Value ρ) → String
  | [] => ""
  | item :: items => item.text ++ textOfItems items

end

/-- The identifier that a value stands for, unless its text is empty. -/
def identifier? (value : Value ρ) : Option String :=
  if value.text = "" then none else some value.text

end Value

end Compositor
