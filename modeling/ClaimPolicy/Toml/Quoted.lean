/-!
TOML strings, read and written. Double quotes allow escapes, single quotes do not; three quotes
allow line breaks. Writing takes the first style that shows the text without escapes.
-/
namespace ClaimPolicy.Toml

/-- Characters that may stand in a string or a comment as they are. -/
def isPlain (c : Char) : Bool :=
  c == '\t' || (0x20 ≤ c.toNat && c.toNat != 0x7F)

def isSpace (c : Char) : Bool := c == ' ' || c == '\t'

def hexDigit? (c : Char) : Option Nat :=
  if '0' ≤ c && c ≤ '9' then some (c.toNat - 48)
  else if 'a' ≤ c && c ≤ 'f' then some (c.toNat - 87)
  else if 'A' ≤ c && c ≤ 'F' then some (c.toNat - 55)
  else none

def codePoint? (count : Nat) (text : List Char) : Option Char := do
  let digits ← (text.take count).mapM hexDigit?
  if digits.length = count then
    let code := digits.foldl (fun value digit => 16 * value + digit) 0
    if code.isValidChar then some (Char.ofNat code) else none
  else none

/-- The character of an escape, and how many characters the escape has after the backslash. -/
def escape? : List Char → Option (Char × Nat)
  | 'b' :: _ => some ('\x08', 1)
  | 't' :: _ => some ('\t', 1)
  | 'n' :: _ => some ('\n', 1)
  | 'f' :: _ => some ('\x0C', 1)
  | 'r' :: _ => some ('\r', 1)
  | '"' :: _ => some ('"', 1)
  | '\\' :: _ => some ('\\', 1)
  | 'u' :: rest => (codePoint? 4 rest).map fun c => (c, 5)
  | 'U' :: rest => (codePoint? 8 rest).map fun c => (c, 9)
  | _ => none

def dropBlankLines : List Char → List Char
  | '\r' :: '\n' :: rest => dropBlankLines rest
  | c :: rest => if isSpace c || c == '\n' then dropBlankLines rest else c :: rest
  | [] => []

theorem drop_blank_lines_length (text : List Char) :
    (dropBlankLines text).length ≤ text.length := by
  fun_induction dropBlankLines text <;> simp_all <;> omega

def lineBreak? : List Char → Option (List Char)
  | '\n' :: rest => some rest
  | '\r' :: '\n' :: rest => some rest
  | _ => none

/-- A string in single or double quotes after its opening quote: what it says and what follows. -/
def readLine (quote : Char) : List Char → Option (List Char × List Char)
  | [] => none
  | c :: rest =>
      if c == quote then some ([], rest)
      else if c == '\\' && quote == '"' then
        match escape? rest with
        | none => none
        | some (escaped, size) => do
            let (text, after) ← readLine quote (rest.drop size)
            return (escaped :: text, after)
      else if isPlain c then do
        let (text, after) ← readLine quote rest
        return (c :: text, after)
      else none
termination_by text => text.length
decreasing_by all_goals simp only [List.length_drop, List.length_cons]; omega

/-- A string in three quotes after its opening: it ends at three quotes, with up to two quotes of
its own just before them. -/
def readLines (quote : Char) : List Char → Option (List Char × List Char)
  | [] => none
  | '\n' :: rest => do
      let (text, after) ← readLines quote rest
      return ('\n' :: text, after)
  | '\r' :: '\n' :: rest => do
      let (text, after) ← readLines quote rest
      return ('\n' :: text, after)
  | c :: rest =>
      if c == quote then
        let quotes := (rest.takeWhile (· == quote)).length + 1
        if quotes < 3 then do
          let (text, after) ← readLines quote rest
          return (c :: text, after)
        else if 5 < quotes then none
        else some (List.replicate (quotes - 3) quote, rest.drop (quotes - 1))
      else if c == '\\' && quote == '"' then
        match lineBreak? (rest.dropWhile isSpace) with
        | some _ => readLines quote (dropBlankLines rest)
        | none =>
            match escape? rest with
            | none => none
            | some (escaped, size) => do
                let (text, after) ← readLines quote (rest.drop size)
                return (escaped :: text, after)
      else if isPlain c then do
        let (text, after) ← readLines quote rest
        return (c :: text, after)
      else none
termination_by text => text.length
decreasing_by
  all_goals simp only [List.length_drop, List.length_cons]
  all_goals first | omega | exact Nat.lt_succ_of_le (drop_blank_lines_length rest)

def readText : List Char → Option (String × List Char)
  | '"' :: '"' :: '"' :: rest => do
      let (text, after) ← readLines '"' ((lineBreak? rest).getD rest)
      return (String.ofList text, after)
  | '\'' :: '\'' :: '\'' :: rest => do
      let (text, after) ← readLines '\'' ((lineBreak? rest).getD rest)
      return (String.ofList text, after)
  | '"' :: rest => do
      let (text, after) ← readLine '"' rest
      return (String.ofList text, after)
  | '\'' :: rest => do
      let (text, after) ← readLine '\'' rest
      return (String.ofList text, after)
  | _ => none

def longestRun (wanted : Char) (text : List Char) : Nat :=
  (text.foldl (fun (longest, current) c =>
    if c == wanted then (max longest (current + 1), current + 1) else (longest, 0)) (0, 0)).1

/-- Characters that only an escape can show; tabs and line breaks are not among them. -/
def needsEscape (c : Char) : Bool :=
  (c.toNat < 0x20 && c != '\t' && c != '\n') || c.toNat == 0x7F

def hexDigit (n : Nat) : Char :=
  if n < 10 then Char.ofNat (48 + n) else Char.ofNat (55 + n)

def hexDigits : Nat → Nat → List Char
  | 0, _ => []
  | count + 1, n => hexDigits count (n / 16) ++ [hexDigit (n % 16)]

def escaped (c : Char) : List Char :=
  if c == '\x08' then ['\\', 'b']
  else if c == '\t' then ['\\', 't']
  else if c == '\n' then ['\\', 'n']
  else if c == '\x0C' then ['\\', 'f']
  else if c == '\r' then ['\\', 'r']
  else if c == '"' then ['\\', '"']
  else if c == '\\' then ['\\', '\\']
  else if needsEscape c then '\\' :: 'u' :: hexDigits 4 c.toNat
  else [c]

def enclosed (quotes : String) (text : String) : String := quotes ++ text ++ quotes

/-- Double quotes, single quotes, three double and three single quotes are tried in this order. -/
def quoted (text : String) : String :=
  let chars := text.toList
  let hidden := chars.any needsEscape
  let broken := chars.contains '\n'
  let doubles := longestRun '"' chars
  let singles := longestRun '\'' chars
  let opening := if broken then "\n" else ""
  if !hidden && !chars.contains '\\' && doubles == 0 && !broken then enclosed "\"" text
  else if !hidden && singles == 0 && !broken then enclosed "'" text
  else if !hidden && !chars.contains '\\' && doubles ≤ 2 then
    "\"\"\"" ++ opening ++ text ++ "\"\"\""
  else if !hidden && singles ≤ 2 then "'''" ++ opening ++ text ++ "'''"
  else enclosed "\"" (String.ofList (chars.flatMap escaped))

end ClaimPolicy.Toml
