/-!
Decimal numerals, as far as it matters here: which texts are numerals, and whether a numeral is too
large for a double-precision number.
-/
namespace ClaimPolicy.Text

def digitsValue (digits : List Char) : Nat :=
  digits.foldl (fun value digit => 10 * value + (digit.toNat - 48)) 0

structure Decimal where
  mantissa : Nat
  exponent : Int

/-- The number halfway between the largest finite double and the power of two above it. From here on
rounding to the nearest double gives infinity. -/
def doubleLimit : Nat := Nat.pow 2 1024 - Nat.pow 2 970

/-- The length of the numeral decides unless it is close to the limit, so no large power is
taken. -/
def Decimal.overflows (number : Decimal) : Bool :=
  let places : Int := (Nat.toDigits 10 number.mantissa).length + number.exponent
  if number.mantissa = 0 ∨ places < 308 then false
  else if 310 < places then true
  else if 0 ≤ number.exponent then
    doubleLimit ≤ number.mantissa * Nat.pow 10 number.exponent.toNat
  else doubleLimit * Nat.pow 10 (-number.exponent).toNat ≤ number.mantissa

/-- An exponent after its letter: an optional sign and digits. -/
def exponent? (text : List Char) : Option Int :=
  match text with
  | '-' :: digits =>
      if digits.isEmpty || !digits.all Char.isDigit then none
      else some (-(digitsValue digits : Int))
  | '+' :: digits =>
      if digits.isEmpty || !digits.all Char.isDigit then none else some (digitsValue digits)
  | digits =>
      if digits.isEmpty || !digits.all Char.isDigit then none else some (digitsValue digits)

/-- An unsigned numeral: digits with at most one point among them and perhaps an exponent. Digits
may be missing on one side of the point, not on both. -/
def Decimal.ofChars? (text : List Char) : Option Decimal :=
  let whole := text.takeWhile Char.isDigit
  let rest := text.dropWhile Char.isDigit
  let (fraction, rest) :=
    match rest with
    | '.' :: more => (more.takeWhile Char.isDigit, more.dropWhile Char.isDigit)
    | _ => ([], rest)
  let mantissa := digitsValue (whole ++ fraction)
  if whole.isEmpty && fraction.isEmpty then none
  else
    match rest with
    | [] => some ⟨mantissa, -fraction.length⟩
    | letter :: more =>
        if letter == 'e' || letter == 'E' then
          (exponent? more).map fun exponent => ⟨mantissa, exponent - fraction.length⟩
        else none

end ClaimPolicy.Text
