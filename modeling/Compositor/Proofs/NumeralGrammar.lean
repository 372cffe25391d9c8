import Compositor.Numeral
import Compositor.Proofs.SplitText

namespace Compositor

open Text

namespace Numeral

/-! How numerals are spelled, for whichever characters count as digits. -/

/-- An optional sign, and whether it is a minus. -/
inductive Sign : List Char → Bool → Prop
  | absent : Sign [] false
  | plus : Sign ['+'] false
  | minus : Sign ['-'] true

structure Digits (digit : Char → Bool) (text : List Char) : Prop where
  nonempty : text ≠ []
  each : ∀ c ∈ text, digit c = true

/-- The digits before and after the point, which may be absent. -/
inductive Mantissa (digit : Char → Bool) : List Char → List Char → List Char → Prop
  | whole {whole : List Char} (digits : Digits digit whole) : Mantissa digit whole whole []
  | point {whole fraction : List Char} (digits : Digits digit whole)
      (each : ∀ c ∈ fraction, digit c = true) :
      Mantissa digit (whole ++ '.' :: fraction) whole fraction
  | fraction {fraction : List Char} (digits : Digits digit fraction) :
      Mantissa digit ('.' :: fraction) [] fraction

/-- An optional exponent, with the sign and the digits behind its mark. -/
inductive Exponent (digit : Char → Bool) : List Char → Option (Bool × List Char) → Prop
  | absent : Exponent digit [] none
  | present {mark : Char} {sign digits : List Char} {negative : Bool}
      (marks : mark = 'e' ∨ mark = 'E') (signed : Sign sign negative)
      (spelled : Digits digit digits) :
      Exponent digit (mark :: (sign ++ digits)) (some (negative, digits))

inductive SpelledInteger (digit : Char → Bool) : List Char → Numeral → Prop
  | intro {sign whole : List Char} {negative : Bool} (signed : Sign sign negative)
      (digits : Digits digit whole) : SpelledInteger digit (sign ++ whole) { negative, whole }

inductive SpelledDecimal (digit : Char → Bool) : List Char → Numeral → Prop
  | intro {sign mantissa scale whole fraction : List Char} {negative : Bool}
      {exponent : Option (Bool × List Char)} (signed : Sign sign negative)
      (spelled : Mantissa digit mantissa whole fraction)
      (scaled : Exponent digit scale exponent) :
      SpelledDecimal digit (sign ++ (mantissa ++ scale))
        { negative, whole, fraction, exponent }

/-- Besides the decimals there is a word for infinity. -/
inductive Number where
  | infinity (negative : Bool)
  | decimal (numeral : Numeral)

inductive SpelledNumber (digit : Char → Bool) : List Char → Number → Prop
  | infinity {sign : List Char} {negative : Bool} (signed : Sign sign negative) :
      SpelledNumber digit (sign ++ infinityWord) (.infinity negative)
  | decimal {text : List Char} {numeral : Numeral}
      (spelled : SpelledDecimal digit text numeral) : SpelledNumber digit text (.decimal numeral)

def IsInteger (digit : Char → Bool) (text : List Char) : Prop :=
  ∃ numeral, SpelledInteger digit text numeral

def IsNumber (digit : Char → Bool) (text : List Char) : Prop :=
  ∃ number, SpelledNumber digit text number

/-! Reading a spelled piece, whatever stands behind it. -/

theorem ne_sign_of_isDecimalDigit {c : Char} (digit : isDecimalDigit c = true) :
    c ≠ '+' ∧ c ≠ '-' := by
  constructor <;> rintro rfl <;> cases digit

theorem readSign_append {sign rest : List Char} {negative : Bool} (signed : Sign sign negative)
    (unsigned : ∀ c ∈ rest.head?, c ≠ '+' ∧ c ≠ '-') :
    readSign (sign ++ rest) = (negative, rest) := by
  cases signed with
  | plus => rfl
  | minus => rfl
  | absent =>
      rw [List.nil_append]
      unfold readSign
      split
      · exact absurd rfl (unsigned '+' rfl).1
      · exact absurd rfl (unsigned '-' rfl).2
      · rfl

theorem Digits.head {digit : Char → Bool} {digits : List Char} (spelled : Digits digit digits)
    (rest : List Char) : ∀ c ∈ (digits ++ rest).head?, digit c = true := by
  obtain ⟨nonempty, each⟩ := spelled
  cases digits with
  | nil => exact absurd rfl nonempty
  | cons first others =>
      rintro _ ⟨⟩
      exact each first List.mem_cons_self

theorem Digits.unsigned {digits : List Char} (spelled : Digits isDecimalDigit digits)
    (rest : List Char) : ∀ c ∈ (digits ++ rest).head?, c ≠ '+' ∧ c ≠ '-' :=
  fun c first => ne_sign_of_isDecimalDigit (spelled.head rest c first)

theorem readDigits_append {digits rest : List Char} (each : ∀ c ∈ digits, isDecimalDigit c = true)
    (stops : StopsAt isDecimalDigit rest) : readDigits (digits ++ rest) = (digits, rest) := by
  rw [readDigits, stops.takeWhile_append each, stops.dropWhile_append each]

theorem SpelledInteger.read {first rest : List Char} {numeral : Numeral}
    (spelled : SpelledInteger isDecimalDigit first numeral)
    (stops : StopsAt isDecimalDigit rest) : readInteger? (first ++ rest) = some numeral := by
  obtain ⟨signed, digits⟩ := spelled
  rw [List.append_assoc, readInteger?, readSign_append signed (digits.unsigned rest)]
  dsimp only
  rw [readDigits_append digits.each stops]
  simp [digits.nonempty]

theorem Exponent.read {scale rest : List Char} {exponent : Option (Bool × List Char)}
    (scaled : Exponent isDecimalDigit scale exponent) (stops : StopsAt isDecimalDigit rest)
    (absent : exponent = none → readExponent rest = none) :
    readExponent (scale ++ rest) = exponent := by
  cases scaled with
  | absent => exact absent rfl
  | present marks signed spelled =>
      rw [List.cons_append, List.append_assoc, readExponent,
        readSign_append signed (spelled.unsigned rest)]
      dsimp only
      rw [readDigits_append spelled.each stops]
      simp [marks, spelled.nonempty]

/-! What is read is spelled at the front. -/

theorem readSign_parts (text : List Char) :
    ∃ sign, Sign sign (readSign text).1 ∧ text = sign ++ (readSign text).2 := by
  unfold readSign
  split
  · exact ⟨['+'], .plus, rfl⟩
  · exact ⟨['-'], .minus, rfl⟩
  · exact ⟨[], .absent, rfl⟩

theorem readDigits_each (text : List Char) : ∀ c ∈ (readDigits text).1, isDecimalDigit c = true :=
  List.all_eq_true.mp List.all_takeWhile

theorem readDigits_begins (text : List Char) : (readDigits text).1 <+: text :=
  List.takeWhile_prefix isDecimalDigit

theorem exists_exponent_of_readExponent {text : List Char} {exponent : Bool × List Char}
    (read : readExponent text = some exponent) :
    ∃ scale, scale <+: text ∧ Exponent isDecimalDigit scale (some exponent) := by
  unfold readExponent at read
  split at read
  · rename_i mark rest
    split at read
    · rename_i marks
      dsimp only at read
      split at read
      · cases read
      · rename_i nonempty
        cases read
        obtain ⟨sign, signed, parts⟩ := readSign_parts rest
        have begins := readDigits_begins (readSign rest).2
        have spelled : Digits isDecimalDigit (readDigits (readSign rest).2).1 :=
          ⟨by simpa using nonempty, readDigits_each _⟩
        refine ⟨_, ?_, .present (by simpa using marks) signed spelled⟩
        conv => rhs; rw [parts]
        exact List.cons_prefix_cons.mpr ⟨rfl, (List.prefix_append_right_inj sign).mpr begins⟩
    · cases read
  · cases read

theorem exists_integer_of_readInteger? {text : List Char} {numeral : Numeral}
    (read : readInteger? text = some numeral) :
    ∃ first, first <+: text ∧ IsInteger isDecimalDigit first := by
  unfold readInteger? at read
  dsimp only at read
  split at read
  · cases read
  · rename_i nonempty
    obtain ⟨sign, signed, parts⟩ := readSign_parts text
    have spelled : Digits isDecimalDigit (readDigits (readSign text).2).1 :=
      ⟨by simpa using nonempty, readDigits_each _⟩
    refine ⟨_, ?_, _, .intro signed spelled⟩
    conv => rhs; rw [parts]
    exact (List.prefix_append_right_inj sign).mpr (readDigits_begins _)

theorem exists_decimal_of_readDecimal? {text : List Char} {numeral : Numeral}
    (read : readDecimal? text = some numeral) :
    ∃ first numeral, first <+: text ∧ SpelledDecimal isDecimalDigit first numeral := by
  obtain ⟨sign, signed, parts⟩ := readSign_parts text
  suffices mantissa : ∃ mantissa whole fraction, mantissa <+: (readSign text).2 ∧
      Mantissa isDecimalDigit mantissa whole fraction by
    obtain ⟨mantissa, whole, fraction, begins, spelled⟩ := mantissa
    refine ⟨_, _, ?_, .intro signed spelled .absent⟩
    conv => rhs; rw [parts]
    rw [List.append_nil]
    exact (List.prefix_append_right_inj sign).mpr begins
  by_cases none : (readDigits (readSign text).2).1 = []
  · have all : (readDigits (readSign text).2).2 = (readSign text).2 := by
      have joined : (readDigits (readSign text).2).1 ++ (readDigits (readSign text).2).2 =
        (readSign text).2 := List.takeWhile_append_dropWhile
      rwa [none, List.nil_append] at joined
    unfold readDecimal? at read
    dsimp only at read
    rw [none, all] at read
    split at read
    · rename_i after point
      split at read
      · cases read
      · rename_i nonempty
        have spelled : Digits isDecimalDigit (readDigits after).1 :=
          ⟨by simpa using nonempty, readDigits_each after⟩
        refine ⟨_, _, _, ?_, .fraction spelled⟩
        rw [point]
        exact List.cons_prefix_cons.mpr ⟨rfl, readDigits_begins after⟩
    · cases read
  · exact ⟨_, _, _, readDigits_begins _, .whole ⟨none, readDigits_each _⟩⟩

/-! Reading a decimal that goes no further. -/

theorem Mantissa.head {digit : Char → Bool} {mantissa whole fraction : List Char}
    (spelled : Mantissa digit mantissa whole fraction) (rest : List Char) :
    ∀ c ∈ (mantissa ++ rest).head?, digit c = true ∨ c = '.' := by
  cases spelled with
  | whole digits => exact fun c first => .inl (digits.head rest c first)
  | point digits each =>
      rw [List.append_assoc]
      exact fun c first => .inl (digits.head _ c first)
  | fraction digits =>
      rintro _ ⟨⟩
      exact .inr rfl

theorem Mantissa.unsigned {mantissa whole fraction : List Char}
    (spelled : Mantissa isDecimalDigit mantissa whole fraction) (rest : List Char) :
    ∀ c ∈ (mantissa ++ rest).head?, c ≠ '+' ∧ c ≠ '-' := by
  intro c first
  rcases spelled.head rest c first with digit | rfl
  · exact ne_sign_of_isDecimalDigit digit
  · decide

theorem Digits.snoc {digit : Char → Bool} {digits : List Char} (spelled : Digits digit digits)
    {c : Char} (next : digit c = true) : Digits digit (digits ++ [c]) where
  nonempty := by simp
  each := List.forall_mem_append.mpr ⟨spelled.each, List.forall_mem_singleton.mpr next⟩

theorem Mantissa.snoc {digit : Char → Bool} {mantissa whole fraction : List Char}
    (spelled : Mantissa digit mantissa whole fraction) {c : Char} (next : digit c = true) :
    ∃ whole fraction, Mantissa digit (mantissa ++ [c]) whole fraction := by
  cases spelled with
  | whole digits => exact ⟨_, _, .whole (digits.snoc next)⟩
  | point digits each =>
      rw [List.append_assoc, List.cons_append]
      refine ⟨_, _, .point digits (List.forall_mem_append.mpr ⟨each, ?_⟩)⟩
      exact List.forall_mem_singleton.mpr next
  | fraction digits => exact ⟨_, _, .fraction (digits.snoc next)⟩

theorem SpelledDecimal.snoc {digit : Char → Bool} {first : List Char} {numeral : Numeral}
    (spelled : SpelledDecimal digit first numeral) {c : Char} (next : digit c = true) :
    ∃ longer, SpelledDecimal digit (first ++ [c]) longer := by
  obtain ⟨signed, mantissa, scaled⟩ := spelled
  rw [List.append_assoc, List.append_assoc]
  cases scaled with
  | absent =>
      obtain ⟨whole, fraction, longer⟩ := mantissa.snoc next
      rw [List.nil_append, ← List.append_nil (_ ++ [c])]
      exact ⟨_, .intro signed longer .absent⟩
  | present marks signedScale digits =>
      rw [List.cons_append, List.append_assoc]
      exact ⟨_, .intro signed mantissa (.present marks signedScale (digits.snoc next))⟩

/-- Where nothing longer has the form, no digit follows. -/
theorem stopsAt_of_snoc (form : List Char → Prop) {first rest : List Char}
    (snoc : ∀ {c}, isDecimalDigit c = true → form (first ++ [c]))
    (ends : ∀ more, more <+: rest → form (first ++ more) → more = []) :
    StopsAt isDecimalDigit rest := by
  intro c next
  rw [Bool.eq_false_iff]
  intro digit
  cases rest with
  | nil => cases next
  | cons c others =>
      cases next
      have none : [c] = [] :=
        ends [c] (List.cons_prefix_cons.mpr ⟨rfl, List.nil_prefix⟩) (snoc digit)
      cases none

theorem readDecimal?_mantissa {sign mantissa whole fraction tail : List Char} {negative : Bool}
    (signed : Sign sign negative) (spelled : Mantissa isDecimalDigit mantissa whole fraction)
    (stops : StopsAt isDecimalDigit tail)
    (noPoint : Digits isDecimalDigit mantissa → ∀ after, tail ≠ '.' :: after) :
    readDecimal? (sign ++ (mantissa ++ tail)) =
      some { negative, whole, fraction, exponent := readExponent tail } := by
  rw [readDecimal?, readSign_append signed (spelled.unsigned tail)]
  dsimp only
  cases spelled with
  | whole digits =>
      rw [readDigits_append digits.each stops]
      split
      · rename_i after point
        exact absurd point (noPoint digits after)
      · simp [digits.nonempty]
  | point digits each =>
      have stopsPoint : StopsAt isDecimalDigit ('.' :: (fraction ++ tail)) := by
        rintro _ ⟨⟩
        decide
      rw [List.append_assoc, List.cons_append, readDigits_append digits.each stopsPoint]
      simp only
      rw [readDigits_append each stops]
      simp [digits.nonempty]
  | fraction digits =>
      have none : readDigits ('.' :: (fraction ++ tail)) = ([], '.' :: (fraction ++ tail)) := rfl
      rw [List.cons_append, none]
      simp only
      rw [readDigits_append digits.each stops]
      simp [digits.nonempty]

theorem SpelledDecimal.read {first rest : List Char} {numeral : Numeral}
    (spelled : SpelledDecimal isDecimalDigit first numeral)
    (ends : ∀ more, more <+: rest →
      (∃ longer, SpelledDecimal isDecimalDigit (first ++ more) longer) → more = []) :
    readDecimal? (first ++ rest) = some numeral := by
  have stops : StopsAt isDecimalDigit rest :=
    stopsAt_of_snoc (fun text => ∃ longer, SpelledDecimal isDecimalDigit text longer)
      spelled.snoc ends
  obtain @⟨sign, mantissa, scale, whole, fraction, negative, exponent, signed, spelled, scaled⟩ :=
    spelled
  have exponentRead : readExponent (scale ++ rest) = exponent := by
    apply scaled.read stops
    rintro rfl
    cases scaled
    by_contra found
    obtain ⟨exponent, read⟩ := Option.ne_none_iff_exists'.mp found
    obtain ⟨more, begins, longer⟩ := exists_exponent_of_readExponent read
    have none : more = [] := by
      apply ends more begins
      rw [List.append_nil, List.append_assoc]
      exact ⟨_, .intro signed spelled longer⟩
    subst none
    cases longer
  have stopsScale : StopsAt isDecimalDigit (scale ++ rest) := by
    cases scaled with
    | absent => exact stops
    | present marks =>
        rintro _ ⟨⟩
        rcases marks with rfl | rfl <;> decide
  have noPoint : Digits isDecimalDigit mantissa → ∀ after, scale ++ rest ≠ '.' :: after := by
    intro digits after point
    cases scaled with
    | absent =>
        have none : ['.'] = [] := by
          apply ends ['.']
          · rw [← List.nil_append rest, point]
            exact List.cons_prefix_cons.mpr ⟨rfl, List.nil_prefix⟩
          · rw [List.append_nil, List.append_assoc, ← List.append_nil (mantissa ++ ['.'])]
            exact ⟨_, .intro signed (.point digits nofun) .absent⟩
        cases none
    | present marks => rcases marks with rfl | rfl <;> cases point
  rw [List.append_assoc, List.append_assoc, readDecimal?_mantissa signed spelled stopsScale noPoint,
    exponentRead]

/-! Numerals in ASCII digits. -/

/-- The digits of a numeral, before and after its point and in its exponent. -/
def chars (numeral : Numeral) : List Char :=
  numeral.whole ++ (numeral.fraction ++ (numeral.exponent.map Prod.snd).getD [])

theorem isAscii_iff {numeral : Numeral} :
    numeral.isAscii = true ↔ ∀ c ∈ numeral.chars, c.isDigit = true := by
  rw [isAscii, chars, Bool.and_eq_true, Bool.and_eq_true, List.forall_mem_append,
    List.forall_mem_append, List.all_eq_true, List.all_eq_true, and_assoc]
  cases numeral.exponent <;> simp

section

variable {digit : Char → Bool} {text : List Char} {numeral : Numeral}

theorem SpelledInteger.each (spelled : SpelledInteger digit text numeral) :
    ∀ c ∈ numeral.chars, c ∈ text ∧ digit c = true := by
  obtain ⟨signed, digits⟩ := spelled
  rw [chars, List.nil_append, Option.map_none, Option.getD_none, List.append_nil]
  exact fun c member => ⟨List.mem_append_right _ member, digits.each c member⟩

theorem SpelledInteger.respelled (spelled : SpelledInteger digit text numeral)
    {other : Char → Bool} (each : ∀ c ∈ numeral.chars, other c = true) :
    SpelledInteger other text numeral := by
  obtain ⟨signed, digits⟩ := spelled
  exact .intro signed ⟨digits.nonempty, fun c member => each c (List.mem_append_left _ member)⟩

theorem Mantissa.each {mantissa whole fraction : List Char}
    (spelled : Mantissa digit mantissa whole fraction) :
    (∀ c ∈ whole, c ∈ mantissa ∧ digit c = true) ∧
      ∀ c ∈ fraction, c ∈ mantissa ∧ digit c = true := by
  cases spelled with
  | whole digits => exact ⟨fun c member => ⟨member, digits.each c member⟩, nofun⟩
  | point digits each =>
      exact ⟨fun c member => ⟨List.mem_append_left _ member, digits.each c member⟩,
        fun c member => ⟨List.mem_append_right _ (List.mem_cons_of_mem _ member), each c member⟩⟩
  | fraction digits =>
      exact ⟨nofun, fun c member => ⟨List.mem_cons_of_mem _ member, digits.each c member⟩⟩

theorem Exponent.each {scale : List Char} {exponent : Option (Bool × List Char)}
    (scaled : Exponent digit scale exponent) :
    ∀ c ∈ (exponent.map Prod.snd).getD [], c ∈ scale ∧ digit c = true := by
  cases scaled with
  | absent => nofun
  | present marks signed digits =>
      exact fun c member =>
        ⟨List.mem_cons_of_mem _ (List.mem_append_right _ member), digits.each c member⟩

theorem SpelledDecimal.each (spelled : SpelledDecimal digit text numeral) :
    ∀ c ∈ numeral.chars, c ∈ text ∧ digit c = true := by
  obtain ⟨signed, mantissa, scaled⟩ := spelled
  rw [chars, List.forall_mem_append, List.forall_mem_append]
  refine ⟨fun c member => ?_, fun c member => ?_, fun c member => ?_⟩
  · refine (mantissa.each.1 c member).imp_left fun within => ?_
    exact List.mem_append_right _ (List.mem_append_left _ within)
  · refine (mantissa.each.2 c member).imp_left fun within => ?_
    exact List.mem_append_right _ (List.mem_append_left _ within)
  · refine (scaled.each c member).imp_left fun within => ?_
    exact List.mem_append_right _ (List.mem_append_right _ within)

theorem SpelledDecimal.respelled (spelled : SpelledDecimal digit text numeral)
    {other : Char → Bool} (each : ∀ c ∈ numeral.chars, other c = true) :
    SpelledDecimal other text numeral := by
  obtain ⟨signed, mantissa, scaled⟩ := spelled
  obtain ⟨eachWhole, each⟩ := List.forall_mem_append.mp each
  obtain ⟨eachFraction, eachScale⟩ := List.forall_mem_append.mp each
  refine .intro signed ?_ ?_
  · cases mantissa with
    | whole digits => exact .whole ⟨digits.nonempty, eachWhole⟩
    | point digits _ => exact .point ⟨digits.nonempty, eachWhole⟩ eachFraction
    | fraction digits => exact .fraction ⟨digits.nonempty, eachFraction⟩
  · cases scaled with
    | absent => exact .absent
    | present marks signedScale digits =>
        exact .present marks signedScale ⟨digits.nonempty, eachScale⟩

end

end Numeral

end Compositor
