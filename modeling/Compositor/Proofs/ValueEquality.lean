import Mathlib.Data.List.Forall2
import Mathlib.Data.List.Perm.Subperm
import Compositor.Proofs.ValueParts
import Compositor.Value.Equality

namespace Compositor

/-! Doubles are compared as numbers: the two zeros are equal, and NaN is equal to
nothing. -/

namespace UnpackedDouble

open Float.Model (UnpackedFloat)
open Float.Model.UnpackedFloat (Sign)

def withoutZeroSign : UnpackedFloat → UnpackedFloat
  | .zero _ => .zero .positive
  | x => x

theorem compare_sign {first second : Sign} :
    compare first second = .eq ↔ first = second := by
  cases first with
  | negative =>
      cases second with
      | negative => exact iff_of_true rfl rfl
      | positive => exact ⟨nofun, nofun⟩
  | positive =>
      cases second with
      | negative => exact ⟨nofun, nofun⟩
      | positive => exact iff_of_true rfl rfl

theorem beq_iff_of_apart {x y : UnpackedFloat} (differ : x.beq y = false)
    (apart : withoutZeroSign x ≠ withoutZeroSign y) :
    x.beq y = true ↔ x.isNaN = false ∧ withoutZeroSign x = withoutZeroSign y :=
  iff_of_false (ne_true_of_eq_false differ) fun same => apart same.2

theorem finite_eq_iff {sign : Sign} {mantissa other : Nat} {exponent scale : Int}
    {positive : 0 < mantissa} {otherPositive : 0 < other} :
    exponent = scale ∧ mantissa = other ↔ false = false ∧
      UnpackedFloat.finite sign mantissa exponent positive =
        .finite sign other scale otherPositive := by
  constructor
  · rintro ⟨rfl, rfl⟩
    exact ⟨rfl, rfl⟩
  · rintro ⟨-, same⟩
    cases same
    exact ⟨rfl, rfl⟩

theorem some_swap_beq_eq (order : Ordering) :
    (some order.swap == some .eq) = (some order == some .eq) := by
  cases order <;> rfl

theorem beq_iff {x y : UnpackedFloat} :
    x.beq y = true ↔ x.isNaN = false ∧ withoutZeroSign x = withoutZeroSign y := by
  cases x with
  | notANumber => exact iff_of_false Bool.false_ne_true fun same => nomatch same.1
  | infinity sign =>
      cases y with
      | infinity other =>
          change (some (compare sign other) == some .eq) = true ↔
            false = false ∧ UnpackedFloat.infinity sign = .infinity other
          simp [compare_sign]
      | _ => cases sign <;> exact beq_iff_of_apart rfl nofun
  | zero sign =>
      cases y with
      | notANumber => exact beq_iff_of_apart rfl nofun
      | zero other => exact iff_of_true rfl ⟨rfl, rfl⟩
      | _ other => cases other <;> exact beq_iff_of_apart rfl nofun
  | finite sign mantissa exponent =>
      cases y with
      | notANumber => exact beq_iff_of_apart rfl nofun
      | infinity other => cases other <;> exact beq_iff_of_apart rfl nofun
      | zero other => cases sign <;> exact beq_iff_of_apart rfl nofun
      | finite other otherMantissa otherExponent =>
          let order := (compare exponent otherExponent).then (compare mantissa otherMantissa)
          have same : (some order == some .eq) = true ↔
              exponent = otherExponent ∧ mantissa = otherMantissa := by
            simp [order, Ordering.then_eq_eq]
          cases sign <;> cases other
          · change (some order.swap == some .eq) = true ↔ _
            rw [some_swap_beq_eq, same]
            exact finite_eq_iff
          · exact beq_iff_of_apart rfl nofun
          · exact beq_iff_of_apart rfl nofun
          · exact same.trans finite_eq_iff

theorem isNaN_withoutZeroSign (x : UnpackedFloat) : (withoutZeroSign x).isNaN = x.isNaN := by
  cases x <;> rfl

end UnpackedDouble

open UnpackedDouble

theorem double_beq_iff {x y : Float} :
    (x == y) = true ↔ x.isNaN = false ∧
      withoutZeroSign x.toModel.unpack = withoutZeroSign y.toModel.unpack :=
  UnpackedDouble.beq_iff

instance floatPartialEquivBEq : PartialEquivBEq Float where
  symm := by
    intro x y same
    obtain ⟨number, equal⟩ := double_beq_iff.mp same
    refine double_beq_iff.mpr ⟨?_, equal.symm⟩
    change x.toModel.unpack.isNaN = false at number
    change y.toModel.unpack.isNaN = false
    rw [← isNaN_withoutZeroSign, ← equal, isNaN_withoutZeroSign, number]
  trans := by
    intro x y z first second
    obtain ⟨number, equal⟩ := double_beq_iff.mp first
    exact double_beq_iff.mpr ⟨number, equal.trans (double_beq_iff.mp second).2⟩

theorem double_beq_self_iff {x : Float} : (x == x) = true ↔ x.isNaN = false := by
  rw [double_beq_iff]
  exact and_iff_left rfl

variable {ρ : Type}

/-- The same keys lead to related values, whatever the order of the keys. -/
structure Entries.Related {α : Type} (related : α → α → Prop) (first second : Entries α) :
    Prop where
  keys : ∀ key, key ∈ first.keys ↔ key ∈ second.keys
  values : ∀ key value other, first.get? key = some value → second.get? key = some other →
    related value other

theorem Entries.related_self_iff {α : Type} {related : α → α → Prop} {entries : Entries α}
    (distinct : entries.keys.Nodup) :
    entries.Related related entries ↔ ∀ entry ∈ entries, related entry.2 entry.2 := by
  constructor
  · rintro ⟨-, values⟩ ⟨key, value⟩ member
    have found := get?_of_mem distinct member
    exact values key value value found found
  · intro each
    refine ⟨fun _ => Iff.rfl, ?_⟩
    intro key value other found foundOther
    cases found.symm.trans foundOther
    exact each (key, value) (mem_of_get? found)

namespace Value

/-- One step of a comparison: what is inside lists and maps is left to a relation. -/
inductive Compared (related : Value ρ → Value ρ → Prop) : Value ρ → Value ρ → Prop
  | null : Compared related .null .null
  | bool (value : Bool) : Compared related (.bool value) (.bool value)
  | int (value : Int64) : Compared related (.int value) (.int value)
  | float {x y : Float} (same : (x == y) = true) : Compared related (.float x) (.float y)
  | string (text : String) : Compared related (.string text) (.string text)
  | list {items others : List (Value ρ)} (each : List.Forall₂ related items others) :
      Compared related (.list items) (.list others)
  | map {entries others : Entries (Value ρ)} (same : entries.Related related others) :
      Compared related (.map entries) (.map others)
  | deferred (value : Deferred ρ) : Compared related (.deferred value) (.deferred value)

/-- The keys of each map are distinct, at any depth. -/
def KeysDistinct (value : Value ρ) : Prop :=
  ∀ entries : Entries (Value ρ), .map entries ∈ value.parts → entries.keys.Nodup

theorem KeysDistinct.item {items : List (Value ρ)} (distinct : (list items).KeysDistinct)
    {item : Value ρ} (member : item ∈ items) : item.KeysDistinct :=
  fun entries inside => distinct entries (mem_parts_item member inside)

theorem KeysDistinct.keys {entries : Entries (Value ρ)}
    (distinct : (map entries).KeysDistinct) : entries.keys.Nodup :=
  distinct entries (self_mem_parts _)

theorem KeysDistinct.entry {entries : Entries (Value ρ)}
    (distinct : (map entries).KeysDistinct) {entry : String × Value ρ}
    (member : entry ∈ entries) : entry.2.KeysDistinct :=
  fun inner inside => distinct inner (mem_parts_entry member inside)

theorem KeysDistinct.value {entries : Entries (Value ρ)}
    (distinct : (map entries).KeysDistinct) {key : String} {value : Value ρ}
    (found : entries.get? key = some value) : value.KeysDistinct :=
  distinct.entry (Entries.mem_of_get? found)

variable [DecidableEq ρ]

theorem itemsEqual_iff {items others : List (Value ρ)} :
    itemsEqual items others = true ↔
      List.Forall₂ (fun item other => (item == other) = true) items others := by
  induction items generalizing others with
  | nil =>
      cases others with
      | nil => exact iff_of_true rfl .nil
      | cons other others => exact ⟨nofun, nofun⟩
  | cons item items induction =>
      cases others with
      | nil => exact ⟨nofun, nofun⟩
      | cons other others =>
          rw [itemsEqual, Bool.and_eq_true, induction, List.forall₂_cons]
          rfl

theorem entriesWithin_iff {entries others : Entries (Value ρ)} :
    entriesWithin entries others = true ↔ ∀ entry ∈ entries, ∃ other,
      others.get? entry.1 = some other ∧ (entry.2 == other) = true := by
  induction entries with
  | nil => exact iff_of_true rfl (List.forall_mem_nil _)
  | cons entry rest induction =>
      obtain ⟨key, value⟩ := entry
      rw [entriesWithin, Bool.and_eq_true, induction, List.forall_mem_cons]
      refine and_congr_left' ?_
      cases others.get? key with
      | none =>
          refine iff_of_false Bool.false_ne_true ?_
          rintro ⟨other, absent, -⟩
          cases absent
      | some other =>
          constructor
          · intro same
            exact ⟨other, rfl, same⟩
          · rintro ⟨_, equal, same⟩
            cases equal
            exact same

/-- Maps of one size are compared on one side only, which suffices because no key
stands twice on either. -/
theorem mapsEqual_iff {entries others : Entries (Value ρ)} (distinct : entries.keys.Nodup)
    (distinctOthers : others.keys.Nodup) :
    (entries.length == others.length && entriesWithin entries others) = true ↔
      entries.Related (fun value other => (value == other) = true) others := by
  have size (entries : Entries (Value ρ)) : entries.keys.length = entries.length :=
    List.length_map _
  rw [Bool.and_eq_true, beq_iff_eq, entriesWithin_iff]
  constructor
  · rintro ⟨sameSize, within⟩
    have subset : entries.keys ⊆ others.keys := by
      intro key member
      obtain ⟨entry, stored, rfl⟩ := List.mem_map.mp member
      obtain ⟨other, found, -⟩ := within entry stored
      exact Entries.mem_keys_iff.mpr ⟨other, found⟩
    have permuted : entries.keys.Perm others.keys := by
      refine (List.subperm_of_subset distinct subset).perm_of_length_le (Nat.le_of_eq ?_)
      rw [size, size, sameSize]
    refine ⟨fun _ => permuted.mem_iff, ?_⟩
    intro key value other found foundOther
    obtain ⟨same, foundSame, equal⟩ := within (key, value) (Entries.mem_of_get? found)
    cases foundOther.symm.trans foundSame
    exact equal
  · rintro ⟨keys, values⟩
    have permuted := (List.perm_ext_iff_of_nodup distinct distinctOthers).mpr keys
    refine ⟨by rw [← size, ← size, permuted.length_eq], ?_⟩
    rintro ⟨key, value⟩ stored
    have found := Entries.get?_of_mem distinct stored
    obtain ⟨other, foundOther⟩ :=
      Entries.mem_keys_iff.mp ((keys key).mp (Entries.mem_keys_iff.mpr ⟨value, found⟩))
    exact ⟨other, foundOther, values key value other found foundOther⟩

theorem beq_list_iff {items others : List (Value ρ)} :
    (list items == list others) = true ↔
      List.Forall₂ (fun item other => (item == other) = true) items others :=
  itemsEqual_iff

theorem beq_map_iff {entries others : Entries (Value ρ)} (distinct : entries.keys.Nodup)
    (distinctOthers : others.keys.Nodup) :
    (map entries == map others) = true ↔
      entries.Related (fun value other => (value == other) = true) others :=
  mapsEqual_iff distinct distinctOthers

theorem beq_iff_compared {first second : Value ρ} (distinct : first.KeysDistinct)
    (distinctSecond : second.KeysDistinct) :
    (first == second) = true ↔
      Compared (fun value other => (value == other) = true) first second := by
  constructor
  · intro same
    change first.equals second = true at same
    revert same
    fun_cases equals first second with
    | case1 => exact fun _ => .null
    | case2 value other => exact fun same => beq_iff_eq.mp same ▸ .bool value
    | case3 value other => exact fun same => beq_iff_eq.mp same ▸ .int value
    | case4 x y => exact fun same => .float same
    | case5 text other => exact fun same => beq_iff_eq.mp same ▸ .string text
    | case6 items others => exact fun same => .list (beq_list_iff.mp same)
    | case7 entries others =>
        exact fun same => .map ((beq_map_iff distinct.keys distinctSecond.keys).mp same)
    | case8 value other => exact fun same => beq_iff_eq.mp same ▸ .deferred value
    | case9 => exact nofun
  · intro compared
    change first.equals second = true
    cases compared with
    | null => rfl
    | bool value => exact beq_self_eq_true value
    | int value => exact beq_self_eq_true value
    | float same => exact same
    | string text => exact beq_self_eq_true text
    | list each => exact beq_list_iff.mpr each
    | map same => exact (beq_map_iff distinct.keys distinctSecond.keys).mpr same
    | deferred value => exact beq_self_eq_true value

theorem beq_symm {first second : Value ρ} (distinct : first.KeysDistinct)
    (distinctSecond : second.KeysDistinct) (same : (first == second) = true) :
    (second == first) = true := by
  induction first using nested_induction generalizing second with
  | null | bool | int | string | deferred =>
      cases (beq_iff_compared distinct distinctSecond).mp same
      exact same
  | float x =>
      cases (beq_iff_compared distinct distinctSecond).mp same with
      | float equal =>
          exact (beq_iff_compared distinctSecond distinct).mpr (.float (BEq.symm equal))
  | list items induction =>
      cases (beq_iff_compared distinct distinctSecond).mp same with
      | list each =>
          refine (beq_iff_compared distinctSecond distinct).mpr (.list ?_)
          rw [List.forall₂_iff_get] at each ⊢
          refine ⟨each.1.symm, fun i within withinItems => ?_⟩
          have member := List.get_mem items ⟨i, withinItems⟩
          exact induction _ member (distinct.item member)
            (distinctSecond.item (List.get_mem _ ⟨i, within⟩)) (each.2 i withinItems within)
  | map entries induction =>
      cases (beq_iff_compared distinct distinctSecond).mp same with
      | map related =>
          refine (beq_iff_compared distinctSecond distinct).mpr
            (.map ⟨fun key => (related.keys key).symm, ?_⟩)
          intro key other value foundOther found
          exact induction (key, value) (Entries.mem_of_get? found) (distinct.value found)
            (distinctSecond.value foundOther)
            (related.values key value other found foundOther)

theorem beq_trans {first second third : Value ρ} (distinct : first.KeysDistinct)
    (distinctSecond : second.KeysDistinct) (distinctThird : third.KeysDistinct)
    (same : (first == second) = true) (sameThird : (second == third) = true) :
    (first == third) = true := by
  induction first using nested_induction generalizing second third with
  | null | bool | int | string | deferred =>
      cases (beq_iff_compared distinct distinctSecond).mp same
      exact sameThird
  | float x =>
      cases (beq_iff_compared distinct distinctSecond).mp same with
      | float equal =>
          cases (beq_iff_compared distinctSecond distinctThird).mp sameThird with
          | float equalThird =>
              exact (beq_iff_compared distinct distinctThird).mpr
                (.float (PartialEquivBEq.trans equal equalThird))
  | list items induction =>
      cases (beq_iff_compared distinct distinctSecond).mp same with
      | @list _ others each =>
          cases (beq_iff_compared distinctSecond distinctThird).mp sameThird with
          | list eachThird =>
              refine (beq_iff_compared distinct distinctThird).mpr (.list ?_)
              rw [List.forall₂_iff_get] at each eachThird ⊢
              refine ⟨each.1.trans eachThird.1, fun i withinItems within => ?_⟩
              have withinOthers : i < others.length := each.1 ▸ withinItems
              have member := List.get_mem items ⟨i, withinItems⟩
              exact induction _ member (distinct.item member)
                (distinctSecond.item (List.get_mem others ⟨i, withinOthers⟩))
                (distinctThird.item (List.get_mem _ ⟨i, within⟩))
                (each.2 i withinItems withinOthers) (eachThird.2 i withinOthers within)
  | map entries induction =>
      cases (beq_iff_compared distinct distinctSecond).mp same with
      | @map _ others related =>
          cases (beq_iff_compared distinctSecond distinctThird).mp sameThird with
          | map relatedThird =>
              refine (beq_iff_compared distinct distinctThird).mpr
                (.map ⟨fun key => (related.keys key).trans (relatedThird.keys key), ?_⟩)
              intro key value last found foundLast
              obtain ⟨other, foundOther⟩ := Entries.mem_keys_iff.mp
                ((related.keys key).mp (Entries.mem_keys_iff.mpr ⟨value, found⟩))
              exact induction (key, value) (Entries.mem_of_get? found)
                (distinct.value found) (distinctSecond.value foundOther)
                (distinctThird.value foundLast)
                (related.values key value other found foundOther)
                (relatedThird.values key other last foundOther foundLast)

theorem beq_self_iff {value : Value ρ} (distinct : value.KeysDistinct) :
    (value == value) = true ↔ ∀ part ∈ value.parts, part.isNotANumber = false := by
  induction value using nested_induction with
  | null => exact iff_of_true rfl (List.forall_mem_singleton.mpr rfl)
  | bool value =>
      exact iff_of_true (beq_self_eq_true value) (List.forall_mem_singleton.mpr rfl)
  | int value =>
      exact iff_of_true (beq_self_eq_true value) (List.forall_mem_singleton.mpr rfl)
  | float x =>
      have alone : (∀ part ∈ (float x : Value ρ).parts, part.isNotANumber = false) ↔
          x.isNaN = false := List.forall_mem_singleton
      rw [alone]
      exact double_beq_self_iff
  | string text =>
      exact iff_of_true (beq_self_eq_true text) (List.forall_mem_singleton.mpr rfl)
  | list items induction =>
      rw [beq_list_iff, List.forall₂_same, parts, itemParts_eq, List.forall_mem_cons]
      constructor
      · intro each
        refine ⟨rfl, ?_⟩
        intro part member
        obtain ⟨item, stored, inside⟩ := List.mem_flatMap.mp member
        exact (induction item stored (distinct.item stored)).mp (each item stored) part inside
      · rintro ⟨-, numbers⟩ item stored
        exact (induction item stored (distinct.item stored)).mpr fun part inside =>
          numbers part (List.mem_flatMap.mpr ⟨item, stored, inside⟩)
  | map entries induction =>
      rw [beq_map_iff distinct.keys distinct.keys, Entries.related_self_iff distinct.keys,
        parts, entryParts_eq, List.forall_mem_cons]
      constructor
      · intro each
        refine ⟨rfl, ?_⟩
        intro part member
        obtain ⟨entry, stored, inside⟩ := List.mem_flatMap.mp member
        exact (induction entry stored (distinct.entry stored)).mp (each entry stored) part
          inside
      · rintro ⟨-, numbers⟩ entry stored
        exact (induction entry stored (distinct.entry stored)).mpr fun part inside =>
          numbers part (List.mem_flatMap.mpr ⟨entry, stored, inside⟩)
  | deferred value =>
      exact iff_of_true (beq_self_eq_true value) (List.forall_mem_singleton.mpr rfl)

/-- Equality of values is symmetric and transitive, and what is equal to itself holds no
NaN. Lists are compared place by place, and maps key by key. -/
structure EqualityLaws (first second third : Value ρ) : Prop where
  symm : (first == second) = true → (second == first) = true
  trans : (first == second) = true → (second == third) = true → (first == third) = true
  refl_iff : (first == first) = true ↔ ∀ part ∈ first.parts, part.isNotANumber = false
  lists : ∀ items others : List (Value ρ), (list items == list others) = true ↔
    ∃ same : items.length = others.length, ∀ place, (within : place < items.length) →
      (items[place] == others[place]) = true
  maps : ∀ entries others : Entries (Value ρ), entries.keys.Nodup → others.keys.Nodup →
    ((map entries == map others) = true ↔
      (∀ key, key ∈ entries.keys ↔ key ∈ others.keys) ∧
      ∀ key value other, entries.get? key = some value → others.get? key = some other →
        (value == other) = true)

theorem equalityLaws {first second third : Value ρ} (distinct : first.KeysDistinct)
    (distinctSecond : second.KeysDistinct) (distinctThird : third.KeysDistinct) :
    EqualityLaws first second third where
  symm := beq_symm distinct distinctSecond
  trans := beq_trans distinct distinctSecond distinctThird
  refl_iff := beq_self_iff distinct
  lists := by
    intro items others
    rw [beq_list_iff, List.forall₂_iff_get]
    constructor
    · rintro ⟨same, each⟩
      exact ⟨same, fun place within => each place within (same ▸ within)⟩
    · rintro ⟨same, each⟩
      exact ⟨same, fun place within _ => each place within⟩
  maps := by
    intro entries others distinct distinctOthers
    rw [beq_map_iff distinct distinctOthers]
    exact ⟨fun related => ⟨related.keys, related.values⟩,
      fun ⟨keys, values⟩ => ⟨keys, values⟩⟩

/-- Balances with the keys in one order. -/
def balances : Value Empty :=
  .map [("due", .list [.float 0, .null]), ("paid", .map [("by", .int 7), ("on", .null)])]

def balancesReordered : Value Empty :=
  .map [("paid", .map [("on", .null), ("by", .int 7)]), ("due", .list [.float (-0.0), .null])]

def balancesUnknown : Value Empty :=
  .map [("due", .list [.map [("sum", notANumber)]])]

theorem balances_equality :
    balances.KeysDistinct ∧ balancesReordered.KeysDistinct ∧ balancesUnknown.KeysDistinct ∧
      (balances == balancesReordered) = true ∧ (balancesReordered == balances) = true ∧
      (balances == balances) = true ∧ (balancesUnknown == balancesUnknown) ≠ true := by
  have distinct : balances.KeysDistinct := by
    simp [KeysDistinct, balances, parts, entryParts, itemParts]
  have distinctReordered : balancesReordered.KeysDistinct := by
    simp [KeysDistinct, balancesReordered, parts, entryParts, itemParts]
  have distinctUnknown : balancesUnknown.KeysDistinct := by
    simp [KeysDistinct, balancesUnknown, notANumber, parts, entryParts, itemParts]
  have same : (balances == balancesReordered) = true := by decide +kernel
  have laws := equalityLaws distinct distinctReordered distinct
  have unknown := (equalityLaws distinctUnknown distinct distinct).refl_iff
  refine ⟨distinct, distinctReordered, distinctUnknown, same, laws.symm same,
    laws.trans same (laws.symm same), ?_⟩
  intro itself
  have number := unknown.mp itself notANumber (by
    simp [balancesUnknown, notANumber, parts, entryParts, itemParts])
  exact absurd number (by decide +kernel)

end Value

end Compositor
