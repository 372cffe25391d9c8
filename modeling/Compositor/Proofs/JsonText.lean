import Mathlib.Data.List.Basic
import Mathlib.Data.List.TakeWhile
import Compositor.Json.Token
import Compositor.Proofs.NumeralValue
import Compositor.Proofs.SplitText

namespace Compositor

namespace Json

open Text

/-! Strings. -/

theorem unescapeLetter?_of_escapeLetter? {c letter : Char}
    (escaped : escapeLetter? c = some letter) : unescapeLetter? letter = some c := by
  unfold escapeLetter? at escaped
  split at escaped <;> cases escaped <;> rfl

theorem readEscape?_letter {c letter : Char} (escaped : escapeLetter? c = some letter)
    (rest : List Char) : readEscape? (letter :: rest) = some (c, rest) := by
  have unescaped := unescapeLetter?_of_escapeLetter? escaped
  have notUnit : letter ≠ 'u' := by
    rintro rfl
    cases unescaped
  unfold readEscape?
  split
  · rename_i heq
    exact absurd (List.cons.inj heq).1 notUnit
  · rename_i heq
    cases heq
    rw [unescaped]
    rfl
  · rename_i heq
    cases heq

theorem hexValue?_hexDigit {value : Nat} (below : value < 16) :
    hexValue? (hexDigit value) = some value := by
  decide +revert

theorem readEscape?_control {c : Char} (control : c.toNat < 0x20) (rest : List Char) :
    readEscape? ('u' :: '0' :: '0' :: hexDigit (c.toNat / 16) :: hexDigit (c.toNat % 16) ::
      rest) = some (c, rest) := by
  have named : unit? '0' '0' (hexDigit (c.toNat / 16)) (hexDigit (c.toNat % 16)) =
      some c.toNat := by
    rw [unit?, hexValue?_hexDigit (by omega), hexValue?_hexDigit (by omega)]
    have zero : hexValue? '0' = some 0 := rfl
    rw [zero]
    simp only [Option.bind_eq_bind, Option.bind_some, Option.pure_def, Option.some.injEq]
    omega
  have low : isLowUnit c.toNat = false := by
    simp only [isLowUnit, Bool.and_eq_false_iff, decide_eq_false_iff_not]
    omega
  have high : isHighUnit c.toNat = false := by
    simp only [isHighUnit, Bool.and_eq_false_iff, decide_eq_false_iff_not]
    omega
  simp [readEscape?, named, low, high]

theorem readString?_escape {text rest : List Char} {c : Char}
    (escape : readEscape? text = some (c, rest)) :
    readString? ('\\' :: text) = (readString? rest).map fun read => (c :: read.1, read.2) := by
  rw [readString?]
  split
  · rename_i failed
    cases failed.symm.trans escape
  · rename_i found
    cases found.symm.trans escape
    rfl

theorem readString?_plain {c : Char} (plain : escapeLetter? c = none)
    (printable : ¬ c.toNat < 0x20) (text : List Char) :
    readString? (c :: text) = (readString? text).map fun read => (c :: read.1, read.2) := by
  rw [readString?, if_neg printable]
  · rintro rfl
    cases plain
  · rintro rfl
    cases plain

theorem readString?_encodeChar (c : Char) (rest : List Char) :
    readString? (encodeChar c ++ rest) =
      (readString? rest).map fun read => (c :: read.1, read.2) := by
  unfold encodeChar
  split
  · rename_i letter escaped
    exact readString?_escape (readEscape?_letter escaped rest)
  · rename_i plain
    split
    · rename_i control
      exact readString?_escape (readEscape?_control control rest)
    · rename_i printable
      exact readString?_plain plain printable rest

theorem readString?_encoded (text rest : List Char) :
    readString? (text.flatMap encodeChar ++ '"' :: rest) = some (text, rest) := by
  induction text with
  | nil => rw [List.flatMap_nil, List.nil_append, readString?]
  | cons c text induction =>
      rw [List.flatMap_cons, List.append_assoc, readString?_encodeChar, induction]
      rfl

/-! Numerals. -/

theorem isNumberChar_of_isDigit {c : Char} (digit : c.isDigit = true) :
    isNumberChar c = true := by
  simp [isNumberChar, digit]

theorem isNumberChar_of_mem_takeWhile {text : List Char} :
    ∀ c ∈ text.takeWhile Char.isDigit, isNumberChar c = true := by
  intro c member
  exact isNumberChar_of_isDigit (List.all_eq_true.mp List.all_takeWhile c member)

theorem isNumberChar_of_readFraction? {text fraction rest : List Char}
    (read : readFraction? text = some (fraction, rest))
    (chars : ∀ c ∈ rest, isNumberChar c = true) : ∀ c ∈ text, isNumberChar c = true := by
  unfold readFraction? at read
  split at read
  · rename_i after
    dsimp only at read
    split at read
    · cases read
    · cases read
      rw [List.forall_mem_cons,
        ← List.takeWhile_append_dropWhile (p := Char.isDigit) (l := after),
        List.forall_mem_append]
      exact ⟨rfl, isNumberChar_of_mem_takeWhile, chars⟩
  · cases read
    exact chars

theorem isNumberChar_of_readSign {text : List Char}
    (digits : (Numeral.readSign text).2.all Char.isDigit = true) :
    ∀ c ∈ text, isNumberChar c = true := by
  have each : ∀ c ∈ (Numeral.readSign text).2, isNumberChar c = true := fun c member =>
    isNumberChar_of_isDigit (List.all_eq_true.mp digits c member)
  unfold Numeral.readSign at each
  split at each
  · exact List.forall_mem_cons.mpr ⟨rfl, each⟩
  · exact List.forall_mem_cons.mpr ⟨rfl, each⟩
  · exact each

/-- The text is made of the characters of numbers and begins as a number does. -/
structure IsNumberText (text : List Char) : Prop where
  head : ∃ first rest, text = first :: rest ∧ (first.isDigit = true ∨ first = '-')
  chars : ∀ c ∈ text, isNumberChar c = true

theorem numeral?_parts {text : List Char} {numeral : Numeral}
    (read : numeral? text = some numeral) :
    ∃ body fraction after, (text = '-' :: body ∨ text = body) ∧
      body.takeWhile Char.isDigit ≠ [] ∧
      readFraction? (body.dropWhile Char.isDigit) = some (fraction, after) ∧
      (after = [] ∨ ∃ mark tail, after = mark :: tail ∧ (mark = 'e' ∨ mark = 'E') ∧
        (Numeral.readSign tail).2.all Char.isDigit = true) := by
  unfold numeral? at read
  split at read
  rename_i negative body sign
  have texts : text = '-' :: body ∨ text = body := by
    split at sign <;> cases sign
    · exact .inl rfl
    · exact .inr rfl
  dsimp only at read
  split at read
  · cases read
  · rename_i leads
    obtain ⟨⟨fraction, after⟩, fractionRead, ends⟩ := Option.bind_eq_some_iff.mp read
    refine ⟨body, fraction, after, texts, ?_, fractionRead, ?_⟩
    · rintro none
      simp [none] at leads
    · dsimp only at ends
      split at ends
      · exact .inl rfl
      · split at ends
        · rename_i marked
          split at ends
          · cases ends
          · rename_i digits
            rw [Bool.or_eq_true, not_or, Bool.not_eq_true', Bool.not_eq_false] at digits
            exact .inr ⟨_, _, rfl, by simpa using marked, digits.2⟩
        · cases ends

theorem isNumberText_of_numeral? {text : List Char} {numeral : Numeral}
    (read : numeral? text = some numeral) : IsNumberText text := by
  obtain ⟨body, fraction, after, texts, whole, fractionRead, ends⟩ := numeral?_parts read
  have afterChars : ∀ c ∈ after, isNumberChar c = true := by
    rcases ends with rfl | ⟨mark, tail, rfl, marked, digits⟩
    · nofun
    · refine List.forall_mem_cons.mpr ⟨?_, isNumberChar_of_readSign digits⟩
      rcases marked with rfl | rfl <;> rfl
  have bodyChars : ∀ c ∈ body, isNumberChar c = true := by
    rw [← List.takeWhile_append_dropWhile (p := Char.isDigit) (l := body),
      List.forall_mem_append]
    exact ⟨isNumberChar_of_mem_takeWhile, isNumberChar_of_readFraction? fractionRead afterChars⟩
  rcases texts with rfl | rfl
  · exact ⟨⟨_, _, rfl, .inr rfl⟩, List.forall_mem_cons.mpr ⟨rfl, bodyChars⟩⟩
  · refine ⟨?_, bodyChars⟩
    cases text with
    | nil => exact absurd rfl whole
    | cons first rest =>
        refine ⟨first, rest, rfl, .inl ?_⟩
        by_contra other
        simp [other] at whole

/-! Integers. -/

theorem digitsValue_toDigits (n : Nat) : Numeral.digitsValue (Nat.toDigits 10 n) = n := by
  rw [Numeral.digitsValue_eq, Nat.ofDigitChars_ten_toDigits]

theorem isDigit_of_mem_toDigits {n : Nat} {c : Char} (member : c ∈ Nat.toDigits 10 n) :
    c.isDigit = true :=
  Nat.isDigit_of_mem_toDigits (by decide) (by decide) member

theorem eq_zero_of_head?_toDigits {n : Nat} (head : (Nat.toDigits 10 n).head? = some '0') :
    n = 0 := by
  induction n using Nat.strongRecOn with
  | ind n induction =>
      rcases Nat.lt_or_ge n 10 with below | above
      · rw [Nat.toDigits_of_lt_base below] at head
        exact Nat.digitChar_eq_zero.mp (Option.some.inj head)
      · rw [Nat.toDigits_of_base_le (by decide) above,
          List.head?_append_of_ne_nil _ Nat.toDigits_ne_nil] at head
        have := induction (n / 10) (by omega) head
        omega

/-- The text of an integer with this sign and this magnitude. -/
def signedDigits (negative : Bool) (n : Nat) : List Char :=
  if negative then '-' :: Nat.toDigits 10 n else Nat.toDigits 10 n

theorem toList_toString (i : Int) :
    (toString i).toList = signedDigits (i < 0) i.natAbs := by
  rw [Int.toString_eq_repr, Int.repr_eq_if]
  rcases Int.lt_or_le i 0 with below | above
  · have magnitude : (-i).toNat = i.natAbs := by omega
    simp [signedDigits, below, Int.not_le.mpr below, magnitude]
  · have magnitude : i.toNat = i.natAbs := by omega
    simp [signedDigits, above, Int.not_lt.mpr above, magnitude]

theorem numeral?_signedDigits (negative : Bool) (n : Nat) :
    numeral? (signedDigits negative n) = some { negative, whole := Nat.toDigits 10 n } := by
  have digital : ∀ c ∈ Nat.toDigits 10 n, c.isDigit = true := fun c => isDigit_of_mem_toDigits
  have taken : (Nat.toDigits 10 n).takeWhile Char.isDigit = Nat.toDigits 10 n :=
    List.takeWhile_eq_self_iff.mpr digital
  have dropped : (Nat.toDigits 10 n).dropWhile Char.isDigit = [] :=
    List.dropWhile_eq_nil_iff.mpr digital
  have lead : (Nat.toDigits 10 n).head? = some '0' → (Nat.toDigits 10 n).length = 1 := by
    intro head
    rw [eq_zero_of_head?_toDigits head]
    rfl
  unfold numeral?
  split
  rename_i read body sign
  obtain ⟨rfl, rfl⟩ : read = negative ∧ body = Nat.toDigits 10 n := by
    cases negative with
    | true =>
        cases sign
        exact ⟨rfl, rfl⟩
    | false =>
        split at sign
        · rename_i rest minus
          change Nat.toDigits 10 n = '-' :: rest at minus
          have digit : '-'.isDigit = true := by
            apply digital
            rw [minus]
            exact List.mem_cons_self
          cases digit
        · cases sign
          exact ⟨rfl, rfl⟩
  simpa [taken, dropped, readFraction?, Nat.toDigits_ne_nil] using lead

theorem numberToken?_int (value : Int64) :
    numberToken? (toString value.toInt).toList = some (.int value) := by
  have fits : Numeral.fitsInt64 value.toInt = true := by
    rw [Numeral.fitsInt64, Bool.and_eq_true, decide_eq_true_iff, decide_eq_true_iff]
    exact ⟨value.minValue_le_toInt, value.toInt_le⟩
  have whole : (if decide (value.toInt < 0) = true then -(value.toInt.natAbs : Int)
      else value.toInt.natAbs) = value.toInt := by
    split
    · rename_i below
      have := of_decide_eq_true below
      omega
    · rename_i above
      have := of_decide_eq_false (Bool.not_eq_true _ ▸ above)
      omega
  have notMinusZero : (decide (value.toInt < 0) && decide (value.toInt = 0)) = false := by
    rw [Bool.and_eq_false_iff, decide_eq_false_iff_not, decide_eq_false_iff_not]
    omega
  rw [toList_toString, numberToken?, numeral?_signedDigits]
  simp only [Option.bind_eq_bind, Option.bind_some, digitsValue_toDigits, whole, fits,
    notMinusZero]
  simp

/-! Tokens. -/

/-- The text of the double names that double, by a numeral that is not an integer. -/
def ReadsBack (x : Float) : Prop :=
  numberToken? (numberStyle.write x) = some (.float x)

def Token.isNumber : Token → Bool
  | .int _ | .float _ => true
  | _ => false

/-- Punctuation that may stand right behind a value. -/
def Token.endsValue : Token → Bool
  | .comma | .closeList | .closeMap => true
  | _ => false

theorem tokens?_cons {first : Char} {text rest : List Char} {token : Token}
    (visible : isSpace first = false) (read : readToken? first text = some (token, rest)) :
    tokens? (first :: text) = (tokens? rest).map (token :: ·) := by
  rw [tokens?, if_neg (Bool.eq_false_iff.mp visible)]
  split
  · rename_i failed
    cases failed.symm.trans read
  · rename_i found
    cases found.symm.trans read
    rfl

theorem readToken?_number {first : Char} (leads : first.isDigit = true ∨ first = '-')
    (text : List Char) :
    readToken? first text =
      (numberToken? (first :: text.takeWhile isNumberChar)).map fun token =>
        (token, text.dropWhile isNumberChar) := by
  unfold readToken?
  split
  case h_11 => rfl
  all_goals rcases leads with digit | minus <;> contradiction

theorem tokens?_number {text rest : List Char} {token : Token}
    (read : numberToken? text = some token) (ends : StopsAt isNumberChar rest) :
    tokens? (text ++ rest) = (tokens? rest).map (token :: ·) := by
  obtain ⟨numeral, numeralRead, -⟩ := Option.bind_eq_some_iff.mp read
  obtain ⟨⟨first, more, rfl, leads⟩, chars⟩ := isNumberText_of_numeral? numeralRead
  have moreChars := (List.forall_mem_cons.mp chars).2
  have visible : isSpace first = false := by
    rw [Bool.eq_false_iff]
    intro space
    simp only [isSpace, Bool.or_eq_true, decide_eq_true_eq] at space
    rcases space with ((rfl | rfl) | rfl) | rfl <;>
      rcases leads with digit | minus <;> contradiction
  refine tokens?_cons visible ?_
  change readToken? first (more ++ rest) = _
  rw [readToken?_number leads, ends.takeWhile_append moreChars, ends.dropWhile_append moreChars,
    read]
  rfl

theorem tokens?_word {token : Token} (other : token.isNumber = false) (rest : List Char) :
    tokens? (token.text ++ rest) = (tokens? rest).map (token :: ·) := by
  cases token with
  | string text =>
      refine tokens?_cons rfl ?_
      change (readString? (text.toList.flatMap encodeChar ++ ['"'] ++ rest)).map _ = _
      rw [List.append_assoc, List.singleton_append, readString?_encoded]
      simp
  | bool value => cases value <;> exact tokens?_cons rfl rfl
  | int value => cases other
  | float value => cases other
  | _ => exact tokens?_cons rfl rfl

/-! Runs of tokens. -/

/-- The text of these tokens is read as these tokens, whatever may stand behind
it apart from more of a number. -/
def Legible (written : List Token) : Prop :=
  ∀ rest, StopsAt isNumberChar rest →
    tokens? (written.flatMap Token.text ++ rest) = (tokens? rest).map (written ++ ·)

theorem legible_nil : Legible [] := by
  intro rest _
  rw [List.flatMap_nil, List.nil_append]
  cases tokens? rest <;> rfl

theorem Legible.cons {token : Token} {written : List Token} (other : token.isNumber = false)
    (legible : Legible written) : Legible (token :: written) := by
  intro rest ends
  rw [List.flatMap_cons, List.append_assoc, tokens?_word other, legible rest ends, Option.map_map]
  rfl

theorem legible_singleton {token : Token} (other : token.isNumber = false) : Legible [token] :=
  legible_nil.cons other

theorem legible_number {token : Token} (read : numberToken? token.text = some token) :
    Legible [token] := by
  intro rest ends
  rw [List.flatMap_cons, List.flatMap_nil, List.append_nil, tokens?_number read ends]
  rfl

theorem Legible.append_cons {first rest : List Token} {token : Token} (legible : Legible first)
    (closes : token.endsValue = true) (behind : Legible (token :: rest)) :
    Legible (first ++ token :: rest) := by
  intro following ends
  have endsFirst : StopsAt isNumberChar ((token :: rest).flatMap Token.text ++ following) := by
    cases token <;> cases closes <;> rintro _ ⟨⟩ <;> rfl
  rw [List.flatMap_append, List.append_assoc, legible _ endsFirst, behind following ends,
    Option.map_map]
  congr 1
  funext read
  exact (List.append_assoc first (token :: rest) read).symm

theorem legible_closed {pieces : List (List Token)} (each : ∀ piece ∈ pieces, Legible piece)
    {close : Token} (closes : close.endsValue = true) :
    Legible ([Token.comma].intercalate pieces ++ [close]) := by
  have closing : Legible [close] := by
    cases close <;> cases closes <;> exact legible_singleton rfl
  induction pieces with
  | nil => exact closing
  | cons first others induction =>
      obtain ⟨legible, behind⟩ := List.forall_mem_cons.mp each
      cases others with
      | nil =>
          rw [List.intercalate_singleton]
          exact legible.append_cons closes closing
      | cons second others =>
          rw [List.intercalate_cons_cons, List.append_assoc, List.append_assoc,
            List.singleton_append]
          exact legible.append_cons rfl ((induction behind).cons rfl)

end Json

end Compositor
