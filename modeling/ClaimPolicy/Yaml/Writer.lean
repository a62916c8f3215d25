import ClaimPolicy.Schema
import ClaimPolicy.Text.Decimal

/-!
YAML text of a document, in block style. A text is written plain unless it would then read as
something else: a null, a boolean, a number, or an indicator. Otherwise it stands in single quotes,
or in double quotes with escapes when it has characters that cannot be shown.
-/
namespace ClaimPolicy.Yaml

def booleanWords : List String := ["true", "True", "TRUE", "false", "False", "FALSE"]

def nullWords : List String := ["", "null", "Null", "NULL", "~"]

def isDigitOf (base : Nat) (c : Char) : Bool :=
  if c.isDigit then c.toNat - 48 < base
  else base == 16 && (('a' ≤ c && c ≤ 'f') || ('A' ≤ c && c ≤ 'F'))

def digitOf (c : Char) : Nat :=
  if c.isDigit then c.toNat - 48 else if c.isLower then c.toNat - 87 else c.toNat - 55

def isNumeral (base limit : Nat) (digits : List Char) : Bool :=
  !digits.isEmpty && digits.all (isDigitOf base) &&
    digits.foldl (fun value digit => base * value + digitOf digit) 0 ≤ limit

def dropSign : List Char → List Char
  | '+' :: rest => rest
  | '-' :: rest => rest
  | rest => rest

/-- Digits after a leading zero: a number to some readers and a text to others. -/
def isZeroPadded (text : List Char) : Bool :=
  match dropSign text with
  | '0' :: digit :: rest => (digit :: rest).all Char.isDigit
  | _ => false

/-- Numbers behind a base mark, or decimal ones without padding, up to 128 bits. -/
def isInteger (text : List Char) : Bool :=
  let based (limit : Nat) : List Char → Bool
    | '0' :: 'x' :: rest => isNumeral 16 limit rest
    | '0' :: 'o' :: rest => isNumeral 8 limit rest
    | '0' :: 'b' :: rest => isNumeral 2 limit rest
    | rest => !isZeroPadded rest && isNumeral 10 limit rest
  match text with
  | '-' :: rest => based (Nat.pow 2 127) rest
  | '+' :: rest => based (Nat.pow 2 128 - 1) rest
  | rest => based (Nat.pow 2 128 - 1) rest

/-- Decimal numerals within the range of double precision, and the words for infinity and the value
that is no number. -/
def isFloat (text : List Char) : Bool :=
  let finite (body : List Char) : Bool :=
    (Text.Decimal.ofChars? body).any fun number => !number.overflows
  let word := String.ofList text
  [".inf", ".Inf", ".INF", "+.inf", "+.Inf", "+.INF", "-.inf", "-.Inf", "-.INF", ".nan", ".NaN",
    ".NAN"].contains word || finite (dropSign text)

def readsAsOther (text : String) : Bool :=
  let chars := text.toList
  booleanWords.contains text || nullWords.contains text || isZeroPadded chars || isInteger chars ||
    isFloat chars

def isPrintable (c : Char) : Bool :=
  let code := c.toNat
  c == '\n' || (0x20 ≤ code && code ≤ 0x7E) || (0xA0 ≤ code && code ≤ 0xD7FF) ||
    (0xE000 ≤ code && code ≤ 0xFFFD && code != 0xFEFF) || 0x10000 ≤ code

def isSpacing (c : Char) : Bool :=
  c == ' ' || c == '\t' || c == '\n' || c == '\r' || c == '\x00' || c == '\u0085' ||
    c == '\u2028' || c == '\u2029'

def opensIndicator (c : Char) : Bool :=
  ['#', ',', '[', ']', '\x7b', '\x7d', '&', '*', '!', '|', '>', '\'', '"', '%',
    '@', '\x60'].contains c

/-- Whether a colon before a gap, or a comment mark behind one, would end the plain text. -/
def hasInnerIndicator : List Char → Bool
  | c :: next :: rest =>
      (c == ':' && isSpacing next) || (isSpacing c && next == '#') ||
        hasInnerIndicator (next :: rest)
  | [c] => c == ':'
  | [] => false

def startsWithIndicator (text : List Char) : Bool :=
  match text with
  | [] => false
  | c :: rest =>
      opensIndicator c || ((c == '?' || c == ':' || c == '-') && rest.head?.all isSpacing) ||
        text.take 3 == ['-', '-', '-'] || text.take 3 == ['.', '.', '.']

def needsQuotes (text : List Char) : Bool :=
  startsWithIndicator text || hasInnerIndicator text || text.any isSpacing

def escapes : List (Char × Char) :=
  [('\x00', '0'), ('\x07', 'a'), ('\x08', 'b'), ('\t', 't'), ('\n', 'n'), ('\x0B', 'v'),
    ('\x0C', 'f'), ('\r', 'r'), ('\x1B', 'e'), ('"', '"'), ('\\', '\\'), ('\u0085', 'N'),
    ('\u00A0', '_'), ('\u2028', 'L'), ('\u2029', 'P')]

def hexadecimal : Nat → Nat → List Char
  | 0, _ => []
  | count + 1, n =>
      let digit := n % 16
      hexadecimal count (n / 16) ++ [Char.ofNat (if digit < 10 then 48 + digit else 55 + digit)]

def escaped (c : Char) : List Char :=
  match escapes.lookup c with
  | some letter => ['\\', letter]
  | none =>
      if isPrintable c then [c]
      else if c.toNat ≤ 0xFF then '\\' :: 'x' :: hexadecimal 2 c.toNat
      else if c.toNat ≤ 0xFFFF then '\\' :: 'u' :: hexadecimal 4 c.toNat
      else '\\' :: 'U' :: hexadecimal 8 c.toNat

def singleQuoted (text : List Char) : List Char :=
  '\'' :: text.flatMap (fun c => if c == '\'' then ['\'', '\''] else [c]) ++ ['\'']

def doubleQuoted (text : List Char) : List Char :=
  '"' :: text.flatMap escaped ++ ['"']

def scalarText (text : String) : String :=
  let chars := text.toList
  if !chars.all fun c => isPrintable c && !isSpacing c then String.ofList (doubleQuoted chars)
  else if readsAsOther text || needsQuotes chars then String.ofList (singleQuoted chars)
  else text

def indentation (depth : Nat) : String := String.ofList (List.replicate (2 * depth) ' ')

/-- A list field: its items stand at the same indentation as its key. -/
def listText (depth : Nat) (key : String) (items : List String) : String :=
  if items.isEmpty then ""
  else
    indentation depth ++ key ++ ":\n" ++ String.join (items.map fun item =>
      indentation depth ++ "- " ++ scalarText item ++ "\n")

def entryText (depth : Nat) (name : String) : String :=
  indentation depth ++ "- name: " ++ scalarText name ++ "\n"

def tokenText (depth : Nat) (declared : TokenDeclaration) : String :=
  entryText depth declared.name ++ listText (depth + 1) "aliases" declared.aliases
    ++ listText (depth + 1) "includes" declared.includes

def entriesText (depth : Nat) (key : String) (entries : List String) : String :=
  if entries.isEmpty then "" else indentation depth ++ key ++ ":\n" ++ String.join entries

def compositeText (declared : CompositeDeclaration) : String :=
  entryText 0 declared.name ++ listText 1 "aliases" declared.aliases
    ++ entriesText 1 "tokens" (declared.members.map (tokenText 1))

def write (document : Document) : String :=
  "case_sensitive: " ++ (if document.caseSensitive then "true" else "false") ++ "\n"
    ++ entriesText 0 "tokens" (document.tokens.map (tokenText 0))
    ++ entriesText 0 "composites" (document.composites.map compositeText)

end ClaimPolicy.Yaml
