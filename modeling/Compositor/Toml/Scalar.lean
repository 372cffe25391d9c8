import Compositor.Numeral
import Compositor.Text.HexDigit
import Compositor.Toml.Value

namespace Compositor.Toml

/-- Reads from the front of a text. A failure takes nothing. -/
abbrev Read := StateT (List Char) Option

namespace Read

def next : Read Char := do
  match ← get with
  | [] => failure
  | c :: rest =>
      set rest
      pure c

def peek? : Read (Option Char) := do
  pure (← get).head?

def satisfy (accepts : Char → Bool) : Read Char := do
  let c ← next
  if accepts c then pure c else failure

def char (expected : Char) : Read Unit := do
  let _ ← satisfy (· = expected)

def word (expected : String) : Read Unit :=
  expected.toList.forM char

def takeWhile (accepts : Char → Bool) : Read (List Char) :=
  modifyGet fun text => (text.takeWhile accepts, text.dropWhile accepts)

def optional? {α : Type} (read : Read α) : Read (Option α) :=
  some <$> read <|> pure none

/-- Reads with as many rounds as the text has characters, and one more. -/
def bounded {α : Type} (read : Nat → Read α) : Read α := do
  read ((← get).length + 1)

end Read

open Read Text

def isSpace (c : Char) : Bool := c = ' ' || c = '\t'

def isBeyondAscii (c : Char) : Bool := 0x80 ≤ c.toNat

/-- What may stand in a comment, and in a string by itself, quotes and escapes
apart. A tab is the only control character among them. -/
def isTextChar (c : Char) : Bool :=
  c = '\t' || (0x20 ≤ c.toNat && c.toNat ≤ 0x7E) || isBeyondAscii c

def space : Read Unit := discard (takeWhile isSpace)

def newline : Read Unit :=
  char '\n' <|> word "\r\n"

def comment : Read Unit := do
  char '#'
  discard (takeWhile isTextChar)

/-! Strings. -/

def codePoint (length : Nat) : Read Char := do
  let value ← (List.range length).foldlM (fun value _ => do
    match hexValue? (← next) with
    | some digit => pure (value * 16 + digit)
    | none => failure) 0
  if valid : value.isValidChar then pure (Char.ofNatAux value valid) else failure

def escape : Read Char := do
  match ← next with
  | 'b' => pure '\x08'
  | 't' => pure '\t'
  | 'n' => pure '\n'
  | 'f' => pure '\x0c'
  | 'r' => pure '\r'
  | '"' => pure '"'
  | '\\' => pure '\\'
  | 'u' => codePoint 4
  | 'U' => codePoint 8
  | _ => failure

def basicRest : Nat → Read (List Char)
  | 0 => failure
  | rounds + 1 => do
      match ← next with
      | '"' => pure []
      | '\\' =>
          let c ← escape
          pure (c :: (← basicRest rounds))
      | c => if isTextChar c then pure (c :: (← basicRest rounds)) else failure

def basicString : Read (List Char) := do
  char '"'
  bounded basicRest

def literalString : Read (List Char) := do
  char '\''
  let text ← takeWhile fun c => isTextChar c && c ≠ '\''
  char '\''
  pure text

/-- A run of quotes closes a text over several lines from the third on; up to
two more in front of the closing three belong to the text. -/
def quotesInside (quote : Char) : Read (List Char × Bool) := do
  let length := ((← get).takeWhile (· = quote)).length
  let closes := 3 ≤ length
  let inside := if closes then min (length - 3) 2 else length
  modify (·.drop (if closes then inside + 3 else inside))
  pure (List.replicate inside quote, closes)

/-- A backslash at the end of a line takes all blanks and line breaks after it
away. -/
def lineContinuation : Read Unit := do
  space
  newline
  let skip : Nat → Read Unit := fun rounds => do
    for _ in List.range rounds do
      discard (optional? (discard (satisfy isSpace) <|> newline))
  bounded skip

/-- The rest of a text over several lines, in which `escapes` says whether a
backslash is special. -/
def longRest (quote : Char) (escapes : Bool) : Nat → Read (List Char)
  | 0 => failure
  | rounds + 1 => do
      match ← peek? with
      | none => failure
      | some c =>
          if c = quote then
            let (inside, closes) ← quotesInside quote
            if closes then pure inside
            else pure (inside ++ (← longRest quote escapes rounds))
          else if c = '\\' && escapes then
            char '\\'
            match ← optional? lineContinuation with
            | some () => longRest quote escapes rounds
            | none =>
                let c ← escape
                pure (c :: (← longRest quote escapes rounds))
          else if c = '\n' || c = '\r' then
            newline
            pure ('\n' :: (← longRest quote escapes rounds))
          else if isTextChar c then
            let c ← next
            pure (c :: (← longRest quote escapes rounds))
          else failure

/-- A text between three quotes; a line break right after them is dropped. -/
def longString (quote : Char) (escapes : Bool) : Read (List Char) := do
  word (String.ofList [quote, quote, quote])
  discard (optional? newline)
  bounded (longRest quote escapes)

def stringValue : Read (List Char) :=
  longString '"' true <|> basicString <|> longString '\'' false <|> literalString

/-! Numbers. -/

/-- Digits with single underscores between them. -/
def digitsRest (isDigit : Char → Bool) : Nat → Read (List Char)
  | 0 => pure []
  | rounds + 1 => do
      match ← peek? with
      | some '_' =>
          char '_'
          let c ← satisfy isDigit
          pure (c :: (← digitsRest isDigit rounds))
      | some c =>
          if isDigit c then
            discard next
            pure (c :: (← digitsRest isDigit rounds))
          else pure []
      | none => pure []

def digits (isDigit : Char → Bool) : Read (List Char) := do
  let first ← satisfy isDigit
  pure (first :: (← bounded (digitsRest isDigit)))

def sign : Read Bool := do
  match ← peek? with
  | some '+' => char '+'; pure false
  | some '-' => char '-'; pure true
  | _ => pure false

/-- An integer without idle zeros: its sign and digits. -/
def decimalInteger : Read (Bool × List Char) := do
  let negative ← sign
  match ← peek? with
  | some '0' => char '0'; pure (negative, ['0'])
  | _ => pure (negative, ← digits Char.isDigit)

def exponent : Read (Bool × List Char) := do
  discard (satisfy fun c => c = 'e' || c = 'E')
  let negative ← sign
  pure (negative, ← digits Char.isDigit)

/-- A decimal with a fraction, an exponent or both. One above the greatest
double is refused, one below the least is not. -/
def decimalFloat : Read Float := do
  let (negative, whole) ← decimalInteger
  let fraction ← optional? (do char '.'; digits Char.isDigit)
  let exponent ← if fraction.isSome then optional? exponent else some <$> exponent
  let numeral : Numeral := { negative, whole, fraction := fraction.getD [], exponent }
  let value := numeral.toFloat
  if value.isInf && !negative then failure else pure value

def specialFloat : Read Float := do
  let negative ← sign
  let value : Float ← (do word "inf"; pure (1 / 0)) <|> (do word "nan"; pure (0 / 0))
  pure (if negative then -value else value)

def inRange (value : Int) : Read Int :=
  if Numeral.fitsInt64 value then pure value else failure

def integerInBase (mark : String) (base : Nat) : Read Int := do
  word mark
  let digits ← digits fun c => (hexValue? c).any (· < base)
  inRange (digits.foldl (fun value c => value * base + (hexValue? c).getD 0) 0 : Nat)

def integer : Read Int :=
  integerInBase "0x" 16 <|> integerInBase "0o" 8 <|> integerInBase "0b" 2 <|> do
    let (negative, digits) ← decimalInteger
    let magnitude : Int := Numeral.digitsValue digits
    inRange (if negative then -magnitude else magnitude)

/-! Dates and times. -/

def fixedDigits (length : Nat) : Read Nat :=
  (List.range length).foldlM (fun value _ => do
    let c ← satisfy Char.isDigit
    pure (10 * value + (c.toNat - '0'.toNat))) 0

def isLeapYear (year : Nat) : Bool :=
  year % 4 = 0 && (year % 100 ≠ 0 || year % 400 = 0)

def daysInMonth (year month : Nat) : Nat :=
  if month = 2 then if isLeapYear year then 29 else 28
  else if month = 4 || month = 6 || month = 9 || month = 11 then 30
  else 31

def date : Read Unit := do
  let year ← fixedDigits 4
  char '-'
  let month ← fixedDigits 2
  char '-'
  let day ← fixedDigits 2
  guard (1 ≤ month ∧ month ≤ 12 ∧ 1 ≤ day ∧ day ≤ daysInMonth year month)

/-- A second may be a leap second. -/
def time : Read Unit := do
  let hour ← fixedDigits 2
  char ':'
  let minute ← fixedDigits 2
  char ':'
  let second ← fixedDigits 2
  guard (hour ≤ 23 ∧ minute ≤ 59 ∧ second ≤ 60)
  discard (optional? (do char '.'; discard (satisfy Char.isDigit); takeWhile Char.isDigit))

def offset : Read Unit :=
  discard (satisfy fun c => c = 'Z' || c = 'z') <|> do
    discard (satisfy fun c => c = '+' || c = '-')
    let hour ← fixedDigits 2
    char ':'
    let minute ← fixedDigits 2
    guard (hour ≤ 23 ∧ minute ≤ 59)

def dateTime : Read String := do
  let before ← get
  (do
    date
    discard (optional? (do
      discard (satisfy fun c => c = 'T' || c = 't' || c = ' ')
      time
      discard (optional? offset)))) <|> time
  let after ← get
  pure (String.ofList (before.take (before.length - after.length)))

end Compositor.Toml
