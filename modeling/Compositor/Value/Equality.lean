import Compositor.Value

namespace Compositor.Value

variable {ρ : Type} [DecidableEq ρ]

/-! Lists are compared item by item, maps by key in any order, and doubles as
numbers, so that a value with a NaN in it differs from itself. -/

mutual

def equals : Value ρ → Value ρ → Bool
  | .null, .null => true
  | .bool first, .bool second => first == second
  | .int first, .int second => first == second
  | .float first, .float second => first == second
  | .string first, .string second => first == second
  | .list first, .list second => itemsEqual first second
  | .map first, .map second =>
      first.length == second.length && entriesWithin first second
  | .deferred first, .deferred second => first == second
  | _, _ => false

def itemsEqual : List (Value ρ) → List (Value ρ) → Bool
  | [], [] => true
  | first :: firsts, second :: seconds =>
      first.equals second && itemsEqual firsts seconds
  | _, _ => false

/-- Each entry has its key and an equal value in `others`. -/
def entriesWithin : List (String × Value ρ) → List (String × Value ρ) → Bool
  | [], _ => true
  | (key, value) :: rest, others =>
      (match Entries.get? others key with
        | some other => value.equals other
        | none => false) && entriesWithin rest others

end

instance : BEq (Value ρ) := ⟨equals⟩

end Compositor.Value
