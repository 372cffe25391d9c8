import Compositor.Document
import Compositor.Proofs.ValueParts

namespace Compositor

variable {ρ : Type}

namespace Value

variable [DecidableEq ρ]

/-! Two values are one if they are built alike. Unlike the comparison of values, this
tells the two zeros and the orders of keys apart, and a NaN is itself. -/

mutual

def isSame : Value ρ → Value ρ → Bool
  | .null, .null => true
  | .bool first, .bool second => first = second
  | .int first, .int second => first = second
  | .float first, .float second => first = second
  | .string first, .string second => first = second
  | .list first, .list second => itemsSame first second
  | .map first, .map second => entriesSame first second
  | .deferred first, .deferred second => first = second
  | _, _ => false

def itemsSame : List (Value ρ) → List (Value ρ) → Bool
  | [], [] => true
  | first :: firsts, second :: seconds => first.isSame second && itemsSame firsts seconds
  | _, _ => false

def entriesSame : List (String × Value ρ) → List (String × Value ρ) → Bool
  | [], [] => true
  | (key, first) :: firsts, (other, second) :: seconds =>
      key = other && first.isSame second && entriesSame firsts seconds
  | _, _ => false

end

theorem itemsSame_iff {items : List (Value ρ)}
    (each : ∀ item ∈ items, ∀ other, item.isSame other = true ↔ item = other)
    (others : List (Value ρ)) : itemsSame items others = true ↔ items = others := by
  induction items generalizing others with
  | nil => cases others <;> simp [itemsSame]
  | cons item items induction =>
      obtain ⟨head, tail⟩ := List.forall_mem_cons.mp each
      cases others with
      | nil => simp [itemsSame]
      | cons other others => simp [itemsSame, head, induction tail]

theorem entriesSame_iff {entries : Entries (Value ρ)}
    (each : ∀ entry ∈ entries, ∀ other, entry.2.isSame other = true ↔ entry.2 = other)
    (others : Entries (Value ρ)) : entriesSame entries others = true ↔ entries = others := by
  induction entries generalizing others with
  | nil => cases others <;> simp [entriesSame]
  | cons entry entries induction =>
      obtain ⟨head, tail⟩ := List.forall_mem_cons.mp each
      cases others with
      | nil => simp [entriesSame]
      | cons other others => simp [entriesSame, head, induction tail, Prod.ext_iff]

theorem isSame_iff (value other : Value ρ) : value.isSame other = true ↔ value = other := by
  induction value using nested_induction generalizing other with
  | list items each => cases other <;> simp [isSame, itemsSame_iff each]
  | map entries each => cases other <;> simp [isSame, entriesSame_iff each]
  | _ => cases other <;> simp [isSame]

instance : DecidableEq (Value ρ) :=
  fun value other => decidable_of_iff _ (isSame_iff value other)

end Value

instance [DecidableEq ρ] : DecidableEq (Document ρ) :=
  fun _ _ => decidable_of_iff _ Document.ext_iff.symm

instance exceptDecidableEq {ε α : Type} [DecidableEq ε] [DecidableEq α] :
    DecidableEq (Except ε α)
  | .ok value, .ok other => decidable_of_iff (value = other) (by simp)
  | .error reason, .error other => decidable_of_iff (reason = other) (by simp)
  | .ok _, .error _ => .isFalse nofun
  | .error _, .ok _ => .isFalse nofun

end Compositor
