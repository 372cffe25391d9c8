import Mathlib.Algebra.Group.Int.Defs
import Compositor.Proofs.NumeralGrammar
import Compositor.Proofs.NumeralValue

namespace Compositor

open Text

/-- The longest beginning of the text that has the form. -/
structure Longest (form : List Char → Prop) (first text : List Char) : Prop where
  formed : form first
  begins : first <+: text
  longest : ∀ other, form other → other <+: text → other.length ≤ first.length

namespace Longest

variable {form : List Char → Prop} {first text : List Char}

theorem eq_nil_of_form_append {rest : List Char} (longest : Longest form first (first ++ rest))
    {more : List Char} (within : more <+: rest) (formed : form (first ++ more)) : more = [] := by
  have short := longest.longest (first ++ more) formed
    ((List.prefix_append_right_inj first).mpr within)
  rw [List.length_append] at short
  exact List.eq_nil_of_length_eq_zero (by omega)

end Longest

theorem exists_longest {form : List Char → Prop} {first text : List Char} (formed : form first)
    (begins : first <+: text) : ∃ longest, Longest form longest text := by
  -- on what the text has left behind `first`
  induction room : text.length - first.length using Nat.strongRecOn generalizing first with
  | ind _ induction =>
      by_cases longer : ∃ other, form other ∧ other <+: text ∧ first.length < other.length
      · obtain ⟨other, otherFormed, otherBegins, further⟩ := longer
        have := otherBegins.length_le
        exact induction (text.length - other.length) (by omega) otherFormed otherBegins rfl
      · refine ⟨first, formed, begins, fun other otherFormed otherBegins => ?_⟩
        by_contra further
        exact longer ⟨other, otherFormed, otherBegins, by omega⟩

namespace Numeral

/-! Readers of leading numerals. -/

/-- A reader takes the longest text at the front that spells a value in the
decimal digits of any script. The digits of a value alone say in which class of
digits its text spells it. -/
structure Reader (α : Type) where
  Spelled : (Char → Bool) → List Char → α → Prop
  read? : List Char → Option α
  chars : α → List Char
  read_longest : ∀ {first rest value}, Spelled isDecimalDigit first value →
    Longest (fun text => ∃ value, Spelled isDecimalDigit text value) first (first ++ rest) →
    read? (first ++ rest) = some value
  exists_of_read : ∀ {text value}, read? text = some value →
    ∃ first, first <+: text ∧ ∃ value, Spelled isDecimalDigit first value
  nonempty : ∀ {digit text value}, Spelled digit text value → text ≠ []
  each : ∀ {digit text value}, Spelled digit text value →
    ∀ c ∈ chars value, c ∈ text ∧ digit c = true
  respelled : ∀ {digit text value}, Spelled digit text value →
    ∀ {other : Char → Bool}, (∀ c ∈ chars value, other c = true) → Spelled other text value

namespace Reader

variable {α : Type} (reader : Reader α)

def Form (digit : Char → Bool) (text : List Char) : Prop :=
  ∃ value, reader.Spelled digit text value

variable {reader} {first text : List Char}

theorem Form.wide (formed : reader.Form Char.isDigit first) :
    reader.Form isDecimalDigit first := by
  obtain ⟨value, spelled⟩ := formed
  exact ⟨value, reader.respelled spelled fun c member =>
    isDecimalDigit_of_isDigit (reader.each spelled c member).2⟩

/-- A text whose decimal digits are all ASCII has no longer numeral in other
digits. -/
theorem longest_of_plain (plain : ∀ c ∈ text, isDecimalDigit c = true → c.isDigit = true)
    (longest : Longest (reader.Form Char.isDigit) first text) :
    Longest (reader.Form isDecimalDigit) first text where
  formed := longest.formed.wide
  begins := longest.begins
  longest other formed begins := by
    obtain ⟨value, spelled⟩ := formed
    refine longest.longest other ⟨value, reader.respelled spelled fun c member => ?_⟩ begins
    obtain ⟨within, digit⟩ := reader.each spelled c member
    exact plain c (begins.subset within) digit

theorem longest_self {form : List Char → Prop} (formed : form first) :
    Longest form first first where
  formed := formed
  begins := List.prefix_rfl
  longest _ _ begins := begins.length_le

/-- The longest numeral alone decides what is read. -/
theorem read_of_longest {value : α} (spelled : reader.Spelled Char.isDigit first value)
    (longest : Longest (reader.Form isDecimalDigit) first text) :
    reader.read? text = some value ∧ reader.read? first = some value := by
  have wide : reader.Spelled isDecimalDigit first value :=
    reader.respelled spelled fun c member =>
      isDecimalDigit_of_isDigit (reader.each spelled c member).2
  obtain ⟨rest, rfl⟩ := longest.begins
  refine ⟨reader.read_longest wide longest, ?_⟩
  have alone : Longest (reader.Form isDecimalDigit) first (first ++ []) := by
    rw [List.append_nil]
    exact longest_self ⟨value, wide⟩
  rw [← reader.read_longest wide alone, List.append_nil]

theorem longest_of_read {value : α} (read : reader.read? text = some value)
    (ascii : ∀ c ∈ reader.chars value, c.isDigit = true) :
    ∃ first, Longest (reader.Form Char.isDigit) first text ∧
      Longest (reader.Form isDecimalDigit) first text := by
  -- what was read stands for some beginning, and the longest one reads the same
  obtain ⟨found, begins, formed⟩ := reader.exists_of_read read
  obtain ⟨first, longest⟩ : ∃ first, Longest (reader.Form isDecimalDigit) first text :=
    exists_longest formed begins
  obtain ⟨other, spelled⟩ := longest.formed
  obtain ⟨rest, rfl⟩ := longest.begins
  obtain rfl : other = value :=
    Option.some.inj ((reader.read_longest spelled longest).symm.trans read)
  refine ⟨first, ⟨⟨other, reader.respelled spelled ascii⟩, longest.begins, ?_⟩, longest⟩
  exact fun another formed begins => longest.longest another formed.wide begins

end Reader

/-! Integers. -/

theorem SpelledInteger.snoc {digit : Char → Bool} {first : List Char} {numeral : Numeral}
    (spelled : SpelledInteger digit first numeral) {c : Char} (next : digit c = true) :
    IsInteger digit (first ++ [c]) := by
  obtain ⟨signed, digits⟩ := spelled
  rw [List.append_assoc]
  exact ⟨_, .intro signed (digits.snoc next)⟩

def integers : Reader Numeral where
  Spelled := SpelledInteger
  read? := readInteger?
  chars := chars
  read_longest spelled longest :=
    spelled.read (stopsAt_of_snoc (IsInteger isDecimalDigit) spelled.snoc
      fun _ => longest.eq_nil_of_form_append)
  exists_of_read := exists_integer_of_readInteger?
  nonempty := by
    rintro digit text value ⟨signed, digits⟩ none
    exact digits.nonempty (List.append_eq_nil_iff.mp none).2
  each := SpelledInteger.each
  respelled := SpelledInteger.respelled

/-! Numbers. -/

/-- The word for infinity, or else a decimal. -/
def readNumber? (text : List Char) : Option Number :=
  if infinityWord.isPrefixOf (readSign text).2 then some (.infinity (readSign text).1)
  else (readDecimal? text).map .decimal

def Number.chars : Number → List Char
  | .infinity _ => []
  | .decimal numeral => numeral.chars

theorem Mantissa.not_infinity {mantissa whole fraction : List Char}
    (spelled : Mantissa isDecimalDigit mantissa whole fraction) (rest : List Char) :
    infinityWord.isPrefixOf (mantissa ++ rest) = false := by
  rw [Bool.eq_false_iff]
  intro infinite
  obtain ⟨after, same⟩ := List.isPrefixOf_iff_prefix.mp infinite
  have first : 'I' ∈ (mantissa ++ rest).head? := by
    rw [← same]
    rfl
  rcases spelled.head rest 'I' first with digit | point
  · cases digit
  · cases point

theorem SpelledNumber.read {first rest : List Char} {number : Number}
    (spelled : SpelledNumber isDecimalDigit first number)
    (longest : Longest (IsNumber isDecimalDigit) first (first ++ rest)) :
    readNumber? (first ++ rest) = some number := by
  cases spelled with
  | infinity signed =>
      rw [List.append_assoc, readNumber?, readSign_append signed (by rintro _ ⟨⟩; decide)]
      rfl
  | @decimal _ numeral spelled =>
      have read : readDecimal? (first ++ rest) = some numeral := by
        apply spelled.read
        rintro more within ⟨other, longer⟩
        exact longest.eq_nil_of_form_append within ⟨_, .decimal longer⟩
      have finite : infinityWord.isPrefixOf (readSign (first ++ rest)).2 = false := by
        obtain ⟨signed, mantissa, scaled⟩ := spelled
        rw [List.append_assoc, List.append_assoc, readSign_append signed (mantissa.unsigned _)]
        exact mantissa.not_infinity _
      rw [readNumber?, finite, read]
      rfl

theorem exists_number_of_readNumber? {text : List Char} {number : Number}
    (read : readNumber? text = some number) :
    ∃ first, first <+: text ∧ IsNumber isDecimalDigit first := by
  unfold readNumber? at read
  split at read
  · rename_i infinite
    obtain ⟨sign, signed, parts⟩ := readSign_parts text
    refine ⟨sign ++ infinityWord, ?_, _, .infinity signed⟩
    rw [parts]
    exact (List.prefix_append_right_inj sign).mpr (List.isPrefixOf_iff_prefix.mp infinite)
  · obtain ⟨numeral, found, -⟩ := Option.map_eq_some_iff.mp read
    obtain ⟨first, numeral, begins, spelled⟩ := exists_decimal_of_readDecimal? found
    exact ⟨first, begins, _, .decimal spelled⟩

def numbers : Reader Number where
  Spelled := SpelledNumber
  read? := readNumber?
  chars := Number.chars
  read_longest := SpelledNumber.read
  exists_of_read := exists_number_of_readNumber?
  nonempty := by
    rintro digit text value (⟨signed⟩ | ⟨signed, mantissa, scaled⟩) none
    · cases (List.append_eq_nil_iff.mp none).2
    · have none := (List.append_eq_nil_iff.mp (List.append_eq_nil_iff.mp none).2).1
      cases mantissa with
      | whole digits => exact digits.nonempty none
      | point digits => exact digits.nonempty (List.append_eq_nil_iff.mp none).1
      | fraction digits => cases none
  each spelled := by
    cases spelled with
    | infinity => nofun
    | decimal spelled => exact spelled.each
  respelled spelled other each := by
    cases spelled with
    | infinity signed => exact .infinity signed
    | decimal spelled => exact .decimal (spelled.respelled each)

/-! Whole texts. -/

theorem trimLeft_of_begins {first text : List Char} (begins : first <+: trimLeft text)
    (nonempty : first ≠ []) : trimLeft first = first := by
  cases first with
  | nil => exact absurd rfl nonempty
  | cons c rest =>
      obtain ⟨after, same⟩ := begins
      rw [trimLeft] at same
      have visible : isBlank c = false := by
        have head := List.head?_dropWhile_not isBlank text
        rw [← same] at head
        exact head
      rw [trimLeft_cons, visible]
      rfl

/-- Only the longest numeral behind the blanks decides what is read, but where
digits of another script continue it, nothing is. -/
structure Leading {ρ : Type} (form : (Char → Bool) → List Char → Prop)
    (read : String → Value ρ) (text : String) : Prop where
  decided : ∀ first, Longest (form Char.isDigit) first (trimLeft text.toList) →
    Longest (form isDecimalDigit) first (trimLeft text.toList) →
    read text = read (String.ofList first) ∧ (read text).isNotANumber = false
  undecided : (∀ first, Longest (form Char.isDigit) first (trimLeft text.toList) →
    ¬ Longest (form isDecimalDigit) first (trimLeft text.toList)) → read text = .notANumber
  plain : (∀ c ∈ text.toList, isDecimalDigit c = true → c.isDigit = true) →
    ∀ first, Longest (form Char.isDigit) first (trimLeft text.toList) →
      Longest (form isDecimalDigit) first (trimLeft text.toList)

theorem Reader.leading {ρ α : Type} (reader : Reader α) {read : String → Value ρ}
    (valueOf : Option α → Value ρ)
    (reads : ∀ text : String, read text = valueOf (reader.read? (trimLeft text.toList)))
    (absent : valueOf none = .notANumber)
    (number : ∀ value, (∀ c ∈ reader.chars value, c.isDigit = true) →
      (valueOf (some value)).isNotANumber = false)
    (foreign : ∀ value, ¬ (∀ c ∈ reader.chars value, c.isDigit = true) →
      valueOf (some value) = .notANumber) (text : String) :
    Leading reader.Form read text where
  decided first longest wide := by
    obtain ⟨value, spelled⟩ := longest.formed
    obtain ⟨whole, alone⟩ := reader.read_of_longest spelled wide
    have trimmed : trimLeft first = first :=
      trimLeft_of_begins longest.begins (reader.nonempty spelled)
    rw [reads, reads, whole, String.toList_ofList, trimmed, alone]
    exact ⟨rfl, number value fun c member => (reader.each spelled c member).2⟩
  undecided none := by
    rw [reads]
    cases found : reader.read? (trimLeft text.toList) with
    | none => exact absent
    | some value =>
        apply foreign
        intro ascii
        obtain ⟨first, longest, wide⟩ := longest_of_read found ascii
        exact none first longest wide
  plain plain first longest := by
    refine longest_of_plain (fun c member => ?_) longest
    exact plain c ((List.dropWhile_sublist isBlank).subset member)

section

variable {ρ : Type}

def integerValue : Option Numeral → Value ρ
  | none => .notANumber
  | some numeral =>
      if numeral.isAscii then
        let magnitude : Int := digitsValue numeral.whole
        let value := if numeral.negative then -magnitude else magnitude
        if fitsInt64 value then .int (Int64.ofInt value) else .float numeral.toFloat
      else .notANumber

def numberValue : Option Number → Value ρ
  | none => .notANumber
  | some (.infinity negative) => .float (if negative then -(1 / 0) else 1 / 0)
  | some (.decimal numeral) =>
      if numeral.isAscii then .float numeral.toFloat else .notANumber

theorem intValue_eq (text : String) :
    (intValue text : Value ρ) = integerValue (readInteger? (trimLeft text.toList)) :=
  rfl

theorem floatValue_eq (text : String) :
    (floatValue text : Value ρ) = numberValue (readNumber? (trimLeft text.toList)) := by
  unfold floatValue readNumber?
  dsimp only
  split
  · rfl
  · split <;> rename_i found <;> rw [found] <;> rfl

/-- The integer that the digits before the point name. -/
def integer (numeral : Numeral) : Int :=
  if numeral.negative then -(Nat.ofDigitChars 10 numeral.whole 0 : Int)
  else Nat.ofDigitChars 10 numeral.whole 0

theorem integerValue_ascii {numeral : Numeral} (ascii : ∀ c ∈ numeral.chars, c.isDigit = true) :
    (integerValue (some numeral) : Value ρ) =
      if -2 ^ 63 ≤ numeral.integer ∧ numeral.integer < 2 ^ 63 then
        .int (Int64.ofInt numeral.integer)
      else .float numeral.toFloat := by
  have fits : fitsInt64 numeral.integer = true ↔
      -2 ^ 63 ≤ numeral.integer ∧ numeral.integer < 2 ^ 63 := by
    rw [fitsInt64, Bool.and_eq_true, decide_eq_true_iff, decide_eq_true_iff]
    have least : Int64.minValue.toInt = -2 ^ 63 := rfl
    have greatest : Int64.maxValue.toInt = 2 ^ 63 - 1 := rfl
    omega
  rw [integerValue, if_pos (isAscii_iff.mpr ascii), digitsValue_eq]
  change (if fitsInt64 numeral.integer = true then _ else _) = _
  simp only [fits]
  rfl

theorem isNotANumber_integerValue {numeral : Numeral}
    (ascii : ∀ c ∈ numeral.chars, c.isDigit = true) :
    (integerValue (some numeral) : Value ρ).isNotANumber = false := by
  rw [integerValue_ascii ascii]
  split
  · rfl
  · exact numeral.isNaN_toFloat

theorem isNotANumber_numberValue {number : Number}
    (ascii : ∀ c ∈ number.chars, c.isDigit = true) :
    (numberValue (some number) : Value ρ).isNotANumber = false := by
  cases number with
  | infinity negative =>
      have infinite : (1 / 0 : Float).isNaN = false := by decide +kernel
      cases negative with
      | false => exact infinite
      | true => exact isNaN_neg infinite
  | decimal numeral =>
      rw [numberValue, if_pos (isAscii_iff.mpr ascii)]
      exact numeral.isNaN_toFloat

end

/-- The value of a numeral in ASCII digits is an integer where it fits 64 bits. -/
structure LeadingInteger (ρ : Type) (text : String) : Prop
    extends Leading IsInteger (intValue : String → Value ρ) text where
  fits : ∀ first numeral, SpelledInteger Char.isDigit first numeral →
    Longest (IsInteger isDecimalDigit) first (trimLeft text.toList) →
    -2 ^ 63 ≤ numeral.integer → numeral.integer < 2 ^ 63 →
    ∃ i : Int64, (intValue text : Value ρ) = .int i ∧ i.toInt = numeral.integer
  overflows : ∀ first numeral, SpelledInteger Char.isDigit first numeral →
    Longest (IsInteger isDecimalDigit) first (trimLeft text.toList) →
    ¬ (-2 ^ 63 ≤ numeral.integer ∧ numeral.integer < 2 ^ 63) →
    (intValue text : Value ρ) = .float numeral.toFloat ∧ numeral.toFloat.isNaN = false

theorem intValue_of_longest {ρ : Type} {text : String} {first : List Char} {numeral : Numeral}
    (spelled : SpelledInteger Char.isDigit first numeral)
    (longest : Longest (IsInteger isDecimalDigit) first (trimLeft text.toList)) :
    (intValue text : Value ρ) =
      if -2 ^ 63 ≤ numeral.integer ∧ numeral.integer < 2 ^ 63 then
        .int (Int64.ofInt numeral.integer)
      else .float numeral.toFloat := by
  have read : readInteger? (trimLeft text.toList) = some numeral :=
    (integers.read_of_longest spelled longest).1
  rw [intValue_eq, read]
  exact integerValue_ascii fun c member => (spelled.each c member).2

theorem leadingInteger (ρ : Type) (text : String) : LeadingInteger ρ text where
  toLeading := integers.leading integerValue intValue_eq rfl
    (fun _ => isNotANumber_integerValue)
    (fun _ foreign => if_neg (mt isAscii_iff.mp foreign)) text
  fits _ numeral spelled longest above below :=
    ⟨Int64.ofInt numeral.integer,
      (intValue_of_longest spelled longest).trans (if_pos ⟨above, below⟩),
      Int64.toInt_ofInt_of_le above below⟩
  overflows _ numeral spelled longest outside :=
    ⟨(intValue_of_longest spelled longest).trans (if_neg outside), numeral.isNaN_toFloat⟩

theorem leadingNumber (ρ : Type) (text : String) :
    Leading IsNumber (floatValue : String → Value ρ) text :=
  numbers.leading numberValue floatValue_eq rfl (fun _ => isNotANumber_numberValue)
    (fun number foreign => by
      cases number with
      | infinity => exact absurd nofun foreign
      | decimal numeral => exact if_neg (mt isAscii_iff.mp foreign)) text

theorem leading_numerals (ρ : Type) (text : String) :
    LeadingInteger ρ text ∧ Leading IsNumber (floatValue : String → Value ρ) text :=
  ⟨leadingInteger ρ text, leadingNumber ρ text⟩

theorem longest_integer {digit : Char → Bool} {first : List Char} {c : Char}
    (formed : IsInteger digit first) (other : digit c = false) (unsigned : c ≠ '+' ∧ c ≠ '-')
    (rest : List Char) : Longest (IsInteger digit) first (first ++ c :: rest) where
  formed := formed
  begins := List.prefix_append _ _
  longest longer spelled begins := by
    obtain ⟨numeral, @⟨sign, whole, negative, signed, digits⟩⟩ := spelled
    by_contra further
    have short : first ++ [c] <+: first ++ c :: rest :=
      (List.prefix_append_right_inj first).mpr (List.cons_prefix_cons.mpr ⟨rfl, List.nil_prefix⟩)
    have within : first ++ [c] <+: sign ++ whole := by
      refine List.prefix_of_prefix_length_le short begins ?_
      rw [List.length_append, List.length_singleton]
      omega
    have member : c ∈ sign ++ whole := within.subset (by simp)
    rcases List.mem_append.mp member with inSign | inWhole
    · cases signed with
      | absent => cases inSign
      | plus => exact unsigned.1 (List.mem_singleton.mp inSign)
      | minus => exact unsigned.2 (List.mem_singleton.mp inSign)
    · exact Bool.false_ne_true (other.symm.trans (digits.each c inWhole))

theorem leading_price :
    ∃ i : Int64, (intValue "\t-42 pieces" : Value Empty) = .int i ∧ i.toInt = -42 := by
  have spelled : ∀ digit : Char → Bool, digit '4' = true → digit '2' = true →
      SpelledInteger digit ['-', '4', '2'] { negative := true, whole := ['4', '2'] } :=
    fun _ four two =>
      .intro .minus ⟨nofun, List.forall_mem_cons.mpr ⟨four, List.forall_mem_singleton.mpr two⟩⟩
  have trimmed : trimLeft "\t-42 pieces".toList = ['-', '4', '2'] ++ ' ' :: "pieces".toList := by
    decide +kernel
  have longest : Longest (IsInteger isDecimalDigit) ['-', '4', '2']
      (trimLeft "\t-42 pieces".toList) := by
    rw [trimmed]
    exact longest_integer ⟨_, spelled isDecimalDigit rfl rfl⟩ rfl (by decide) _
  exact (leading_numerals Empty "\t-42 pieces").1.fits _ _ (spelled Char.isDigit rfl rfl) longest
    (by decide) (by decide)

/-- A digit of another script behind the numeral leaves no number at all. -/
theorem leading_foreign_digit :
    Longest (IsInteger Char.isDigit) ['1'] (trimLeft "1\u0663".toList) ∧
      (intValue "1\u0663" : Value Empty) ≠ intValue "1" := by
  have spelled : SpelledInteger Char.isDigit ['1'] { negative := false, whole := ['1'] } :=
    .intro .absent ⟨nofun, List.forall_mem_singleton.mpr rfl⟩
  have trimmed : trimLeft "1\u0663".toList = ['1'] ++ '\u0663' :: [] := by decide +kernel
  have foreign : (intValue "1\u0663" : Value Empty).isNotANumber = true := by decide +kernel
  have plain : (intValue "1" : Value Empty).isNotANumber = false := by decide +kernel
  constructor
  · rw [trimmed]
    exact longest_integer ⟨_, spelled⟩ rfl (by decide) _
  · intro same
    rw [same, plain] at foreign
    cases foreign

end Numeral

end Compositor
