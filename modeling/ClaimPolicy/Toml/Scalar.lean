import ClaimPolicy.Text.Decimal
import ClaimPolicy.Toml.Quoted
import ClaimPolicy.Toml.Value

/-!
TOML values that are single words: booleans, integers, floats, dates and times. Only booleans are of
use to a document; the others still have to be well formed.
-/
namespace ClaimPolicy.Toml

/-- Digits, with single underscores between digits. -/
def isDigitRun (isDigit : Char → Bool) (text : List Char) : Bool :=
  (text.splitOn '_').all fun piece => !piece.isEmpty && piece.all isDigit

def withoutUnderscores (text : List Char) : List Char := text.filter (· != '_')

/-- Takes a sign off; the flag says whether it was a minus. -/
def splitSign : List Char → Bool × List Char
  | '+' :: rest => (false, rest)
  | '-' :: rest => (true, rest)
  | rest => (false, rest)

/-- A decimal whole number without a sign: no leading zero. -/
def isWhole (text : List Char) : Bool :=
  isDigitRun Char.isDigit text && (text == ['0'] || text.head? != some '0')

/-- A number in a base that is a power of two, after its mark. -/
def isBasedInteger (base : Nat) (text : List Char) : Bool :=
  let digit (c : Char) : Option Nat := (hexDigit? c).filter (· < base)
  let digits := (withoutUnderscores text).filterMap digit
  isDigitRun (fun c => (digit c).isSome) text &&
    digits.foldl (fun value d => base * value + d) 0 < Nat.pow 2 63

def isInteger : List Char → Bool
  | '0' :: 'x' :: rest => isBasedInteger 16 rest
  | '0' :: 'o' :: rest => isBasedInteger 8 rest
  | '0' :: 'b' :: rest => isBasedInteger 2 rest
  | text =>
      let (negative, digits) := splitSign text
      let value := Text.digitsValue (withoutUnderscores digits)
      isWhole digits && if negative then value ≤ Nat.pow 2 63 else value < Nat.pow 2 63

/-- A point with digits on both sides, or an exponent, or both. A float that is too large is refused
unless it is negative. -/
def isFloat (text : List Char) : Bool :=
  let (negative, body) := splitSign text
  if body == ['i', 'n', 'f'] || body == ['n', 'a', 'n'] then true
  else
    let whole := body.takeWhile fun c => c.isDigit || c == '_'
    let rest := body.drop whole.length
    let isExponent (part : List Char) : Bool :=
      match part with
      | letter :: more =>
          (letter == 'e' || letter == 'E') && isDigitRun Char.isDigit (splitSign more).2
      | [] => false
    let shape :=
      match rest with
      | '.' :: more =>
          let fraction := more.takeWhile fun c => c.isDigit || c == '_'
          let tail := more.drop fraction.length
          isDigitRun Char.isDigit fraction && (tail.isEmpty || isExponent tail)
      | part => isExponent part
    let finite :=
      match Text.Decimal.ofChars? (withoutUnderscores body) with
      | some number => negative || !number.overflows
      | none => false
    isWhole whole && shape && finite

def fixedNumber? (count low high : Nat) (text : List Char) : Option (Nat × List Char) :=
  let digits := text.take count
  let value := Text.digitsValue digits
  if digits.length = count ∧ digits.all Char.isDigit = true ∧
      low ≤ value ∧ value ≤ high then
    some (value, text.drop count)
  else none

def expect? (c : Char) : List Char → Option (List Char)
  | first :: rest => if first == c then some rest else none
  | [] => none

def daysIn (year month : Nat) : Nat :=
  if month = 2 then
    if year % 4 = 0 ∧ (year % 100 ≠ 0 ∨ year % 400 = 0) then 29 else 28
  else if month = 4 ∨ month = 6 ∨ month = 9 ∨ month = 11 then 30
  else 31

/-- A calendar date at the start of a text, and what follows it. -/
def afterDate? (text : List Char) : Option (List Char) := do
  let (year, rest) ← fixedNumber? 4 0 9999 text
  let (month, rest) ← fixedNumber? 2 1 12 (← expect? '-' rest)
  let (_, rest) ← fixedNumber? 2 1 (daysIn year month) (← expect? '-' rest)
  return rest

def afterTime? (text : List Char) : Option (List Char) := do
  let (_, rest) ← fixedNumber? 2 0 23 text
  let (_, rest) ← fixedNumber? 2 0 59 (← expect? ':' rest)
  let (_, rest) ← fixedNumber? 2 0 60 (← expect? ':' rest)
  match rest with
  | '.' :: more =>
      if (more.takeWhile Char.isDigit).isEmpty then none else some (more.dropWhile Char.isDigit)
  | _ => some rest

def isOffset : List Char → Bool
  | [] => true
  | ['Z'] | ['z'] => true
  | sign :: rest =>
      (sign == '+' || sign == '-') &&
        match fixedNumber? 2 0 23 rest with
        | some (_, ':' :: minutes) => (fixedNumber? 2 0 59 minutes).any (·.2.isEmpty)
        | _ => false

def isDate (text : List Char) : Bool := afterDate? text == some []

def isTime (text : List Char) : Bool := afterTime? text == some []

def isTimeWithOffset (text : List Char) : Bool := (afterTime? text).any isOffset

def isMoment (text : List Char) : Bool :=
  isTime text ||
    match afterDate? text with
    | some [] => true
    | some (letter :: rest) => (letter == 'T' || letter == 't') && isTimeWithOffset rest
    | none => false

def isWordChar (c : Char) : Bool :=
  c.isAlphanum || c == '_' || c == '+' || c == '-' || c == '.' || c == ':'

/-- A value that is one word. A date may be followed by one space and a time. -/
def readWord (input : List Char) : Option (Value × List Char) :=
  let word := input.takeWhile isWordChar
  let rest := input.dropWhile isWordChar
  if word == ['t', 'r', 'u', 'e'] then some (.boolean true, rest)
  else if word == ['f', 'a', 'l', 's', 'e'] then some (.boolean false, rest)
  else if isDate word then
    match rest with
    | ' ' :: more =>
        if isTimeWithOffset (more.takeWhile isWordChar) then
          some (.moment, more.dropWhile isWordChar)
        else some (.moment, rest)
    | _ => some (.moment, rest)
  else if isMoment word then some (.moment, rest)
  else if isInteger word || isFloat word then some (.number, rest)
  else none

end ClaimPolicy.Toml
