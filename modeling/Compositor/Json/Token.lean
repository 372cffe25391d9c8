import Compositor.Decimal.Style
import Compositor.Json.Number
import Compositor.Text.HexDigit

namespace Compositor.Json

open Text

inductive Token where
  | openList
  | closeList
  | openMap
  | closeMap
  | comma
  | colon
  | null
  | bool (value : Bool)
  | int (value : Int64)
  | float (value : Float)
  | string (text : String)
  deriving DecidableEq

/-- Doubles are written without an exponent from a hundred-thousandth up to
10^16, and a whole number keeps a zero after its point. -/
def numberStyle : Decimal.Style where
  tie := .toEven
  positional := fun exponent => -5 ≤ exponent && exponent < 16
  wholePoint := true

def escapeLetter? : Char → Option Char
  | '"' => some '"'
  | '\\' => some '\\'
  | '\x08' => some 'b'
  | '\x0c' => some 'f'
  | '\n' => some 'n'
  | '\r' => some 'r'
  | '\t' => some 't'
  | _ => none

def encodeChar (c : Char) : List Char :=
  match escapeLetter? c with
  | some letter => ['\\', letter]
  | none =>
      if c.toNat < 0x20 then
        ['\\', 'u', '0', '0', hexDigit (c.toNat / 16), hexDigit (c.toNat % 16)]
      else [c]

def encodeString (text : List Char) : List Char :=
  '"' :: text.flatMap encodeChar ++ ['"']

def Token.text : Token → List Char
  | .openList => ['[']
  | .closeList => [']']
  | .openMap => ['\x7b']
  | .closeMap => ['\x7d']
  | .comma => [',']
  | .colon => [':']
  | .null => "null".toList
  | .bool value => if value then "true".toList else "false".toList
  | .int value => (toString value.toInt).toList
  | .float value => numberStyle.write value
  | .string text => encodeString text.toList

/-! Reading the pieces of a text. -/

def isSpace (c : Char) : Bool :=
  c = ' ' || c = '\t' || c = '\n' || c = '\r'

/-- The 16-bit unit that four hexadecimal digits name. -/
def unit? (a b c d : Char) : Option Nat := do
  let a ← hexValue? a
  let b ← hexValue? b
  let c ← hexValue? c
  let d ← hexValue? d
  pure (((a * 16 + b) * 16 + c) * 16 + d)

def isHighUnit (unit : Nat) : Bool := 0xD800 ≤ unit && unit < 0xDC00

def isLowUnit (unit : Nat) : Bool := 0xDC00 ≤ unit && unit < 0xE000

def pairChar (high low : Nat) : Char :=
  Char.ofNat (0x10000 + (high - 0xD800) * 0x400 + (low - 0xDC00))

def unescapeLetter? : Char → Option Char
  | '"' => some '"'
  | '\\' => some '\\'
  | '/' => some '/'
  | 'b' => some '\x08'
  | 'f' => some '\x0c'
  | 'n' => some '\n'
  | 'r' => some '\r'
  | 't' => some '\t'
  | _ => none

/-- Reads the second half of a surrogate pair. -/
def readLowHalf? (high : Nat) : List Char → Option (Char × List Char)
  | '\\' :: 'u' :: a :: b :: c :: d :: rest =>
      match unit? a b c d with
      | none => none
      | some low => if isLowUnit low then some (pairChar high low, rest) else none
  | _ => none

/-- Reads what follows a backslash. Half of a surrogate pair is refused. -/
def readEscape? : List Char → Option (Char × List Char)
  | 'u' :: a :: b :: c :: d :: rest =>
      match unit? a b c d with
      | none => none
      | some unit =>
          if isHighUnit unit then readLowHalf? unit rest
          else if isLowUnit unit then none
          else some (Char.ofNat unit, rest)
  | letter :: rest => (unescapeLetter? letter).map fun c => (c, rest)
  | [] => none

theorem length_lt_of_readLowHalf? {high : Nat} {text rest : List Char} {c : Char}
    (read : readLowHalf? high text = some (c, rest)) : rest.length < text.length := by
  unfold readLowHalf? at read
  split at read
  · split at read
    · cases read
    · split at read
      · obtain ⟨_, rfl⟩ := Prod.mk.inj (Option.some.inj read)
        simp only [List.length_cons]
        omega
      · cases read
  · cases read

theorem length_lt_of_readEscape? {text rest : List Char} {c : Char}
    (read : readEscape? text = some (c, rest)) : rest.length < text.length := by
  unfold readEscape? at read
  split at read
  · split at read
    · cases read
    · split at read
      · have shorter := length_lt_of_readLowHalf? read
        simp only [List.length_cons]
        omega
      · split at read
        · cases read
        · obtain ⟨_, rfl⟩ := Prod.mk.inj (Option.some.inj read)
          simp only [List.length_cons]
          omega
  · rename_i letter tail _
    obtain ⟨_, _, same⟩ := Option.map_eq_some_iff.mp read
    cases same
    simp
  · cases read

/-- Reads up to the closing quote. Control characters are refused. -/
def readString? : List Char → Option (List Char × List Char)
  | [] => none
  | '"' :: rest => some ([], rest)
  | '\\' :: rest =>
      match escape : readEscape? rest with
      | none => none
      | some (c, after) =>
          have := length_lt_of_readEscape? escape
          (readString? after).map fun read => (c :: read.1, read.2)
  | c :: rest =>
      if c.toNat < 0x20 then none
      else (readString? rest).map fun read => (c :: read.1, read.2)
termination_by text => text.length

theorem length_le_of_readString? {text read rest : List Char}
    (closed : readString? text = some (read, rest)) : rest.length ≤ text.length := by
  fun_induction readString? text generalizing read with
  | case1 => cases closed
  | case2 => cases closed; simp
  | case3 => cases closed
  | case4 tail c after escape shorter induction =>
      obtain ⟨inner, later, same⟩ := Option.map_eq_some_iff.mp closed
      cases same
      have := induction later
      simp only [List.length_cons]
      omega
  | case5 => cases closed
  | case6 c tail _ _ _ induction =>
      obtain ⟨inner, later, same⟩ := Option.map_eq_some_iff.mp closed
      cases same
      have := induction later
      simp only [List.length_cons]
      omega

/-- An integer that fits 64 bits stays one, except `-0`. -/
def numberToken? (text : List Char) : Option Token := do
  let numeral ← numeral? text
  let magnitude : Int := Numeral.digitsValue numeral.whole
  let value := if numeral.negative then -magnitude else magnitude
  if numeral.fraction.isEmpty && numeral.exponent.isNone && Numeral.fitsInt64 value &&
      !(numeral.negative && value = 0) then
    pure (.int (Int64.ofInt value))
  else
    let double ← scaled? (counted numeral)
    pure (.float (if numeral.negative then -double else double))

def readToken? (first : Char) (rest : List Char) : Option (Token × List Char) :=
  match first with
  | '[' => some (.openList, rest)
  | ']' => some (.closeList, rest)
  | '\x7b' => some (.openMap, rest)
  | '\x7d' => some (.closeMap, rest)
  | ',' => some (.comma, rest)
  | ':' => some (.colon, rest)
  | '"' => (readString? rest).map fun (text, rest) => (.string (String.ofList text), rest)
  | 'n' =>
      match rest with
      | 'u' :: 'l' :: 'l' :: rest => some (.null, rest)
      | _ => none
  | 't' =>
      match rest with
      | 'r' :: 'u' :: 'e' :: rest => some (.bool true, rest)
      | _ => none
  | 'f' =>
      match rest with
      | 'a' :: 'l' :: 's' :: 'e' :: rest => some (.bool false, rest)
      | _ => none
  | _ =>
      (numberToken? (first :: rest.takeWhile isNumberChar)).map fun token =>
        (token, rest.dropWhile isNumberChar)

theorem length_le_of_readToken? {first : Char} {text rest : List Char} {token : Token}
    (found : readToken? first text = some (token, rest)) : rest.length ≤ text.length := by
  unfold readToken? at found
  split at found
  case h_7 =>
    obtain ⟨read, closed, same⟩ := Option.map_eq_some_iff.mp found
    cases same
    exact length_le_of_readString? closed
  case h_8 | h_9 | h_10 =>
    split at found <;> cases found
    simp only [List.length_cons]
    omega
  case h_11 =>
    obtain ⟨_, _, same⟩ := Option.map_eq_some_iff.mp found
    cases same
    exact (List.dropWhile_sublist isNumberChar).length_le
  all_goals
    cases found
    exact Nat.le_refl _

def tokens? : List Char → Option (List Token)
  | [] => some []
  | c :: text =>
      if isSpace c then tokens? text
      else
        match found : readToken? c text with
        | none => none
        | some (token, rest) =>
            have := length_le_of_readToken? found
            (tokens? rest).map (token :: ·)
termination_by text => text.length

end Compositor.Json
