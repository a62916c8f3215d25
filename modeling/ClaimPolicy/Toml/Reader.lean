import ClaimPolicy.Toml.Scalar

/-!
TOML text to a table. A text is a sequence of lines, each a header, a key with its value, a comment,
or nothing. Reading fails as a whole: a text is either a table or no TOML.
-/
namespace ClaimPolicy.Toml

/-- Arrays and inline tables may be nested less deep than this, and keys have fewer dots. -/
def nestingLimit : Nat := 80

def skipSpaces (input : List Char) : List Char := input.dropWhile isSpace

def skipComment (input : List Char) : List Char := input.dropWhile isPlain

/-- The end of a line: blanks, perhaps a comment, and a line break or the end of the text. -/
def endLine? (input : List Char) : Option (List Char) :=
  let rest := skipSpaces input
  let rest := if rest.head? == some '#' then skipComment rest else rest
  if rest.isEmpty then some [] else lineBreak? rest

theorem line_break_length {text rest : List Char} (found : lineBreak? text = some rest) :
    rest.length < text.length := by
  unfold lineBreak? at found
  split at found
  · cases found
    exact Nat.lt_succ_self _
  · cases found
    exact Nat.lt_succ_of_lt (Nat.lt_succ_self _)
  · cases found

theorem skip_spaces_length (text : List Char) : (skipSpaces text).length ≤ text.length :=
  (List.dropWhile_suffix _).length_le

theorem skip_comment_length (text : List Char) : (skipComment text).length ≤ text.length :=
  (List.dropWhile_suffix _).length_le

/-- Skips blanks, line breaks and comments; a comment that does not end with its line stays. -/
def skipBlank (input : List Char) : List Char :=
  let start := skipSpaces input
  let rest := if start.head? == some '#' then skipComment start else start
  match _broken : lineBreak? rest with
  | some after => skipBlank after
  | none => start
termination_by input.length
decreasing_by
  have spaces := skip_spaces_length input
  have comment := skip_comment_length (skipSpaces input)
  have shorter := line_break_length _broken
  simp only [rest, start] at shorter
  split at shorter <;> omega

def isBareKeyChar (c : Char) : Bool := c.isAlphanum || c == '_' || c == '-'

def readKeyPart : List Char → Option (String × List Char)
  | '"' :: rest => (readLine '"' rest).map fun (text, after) => (String.ofList text, after)
  | '\'' :: rest => (readLine '\'' rest).map fun (text, after) => (String.ofList text, after)
  | input =>
      let bare := input.takeWhile isBareKeyChar
      if bare.isEmpty then none else some (String.ofList bare, input.dropWhile isBareKeyChar)

/-- The parts of a dotted key, at most as many as the first argument says; blanks may stand around
each part. -/
def readKeyParts : Nat → List Char → Option (List String × List Char)
  | 0, _ => none
  | fuel + 1, input => do
      let (part, rest) ← readKeyPart (skipSpaces input)
      match skipSpaces rest with
      | '.' :: more =>
          let (parts, rest) ← readKeyParts fuel more
          return (part :: parts, rest)
      | rest => return ([part], rest)

def readKey (input : List Char) : Option (List String × String × List Char) := do
  let (parts, rest) ← readKeyParts (nestingLimit - 1) input
  return (parts.dropLast, ← parts.getLast?, rest)

def readElements (element : List Char → Option (Value × List Char)) :
    Nat → List Char → Option (List Value × List Char)
  | 0, _ => none
  | fuel + 1, input =>
      match skipBlank input with
      | ']' :: rest => some ([], rest)
      | input => do
          let (value, rest) ← element input
          match skipBlank rest with
          | ',' :: more =>
              let (values, rest) ← readElements element fuel more
              return (value :: values, rest)
          | ']' :: more => return ([value], more)
          | _ => none

/-- The fields of an inline table after its opening brace and blanks, at least one field. -/
def readFields (value : List Char → Option (Value × List Char)) (entries : Entries) :
    Nat → List Char → Option (Entries × List Char)
  | 0, _ => none
  | fuel + 1, input => do
      let (path, key, rest) ← readKey input
      let (value', rest) ← value (skipSpaces (← expect? '=' (skipSpaces rest)))
      let entries ← insert path key value' .header entries
      match skipSpaces rest with
      | ',' :: more => readFields value entries fuel more
      | '\x7d' :: more => return (entries, more)
      | _ => none

/-- A value. The first argument is more than the input's length, the second is how many more arrays
or inline tables may be entered. -/
def readValue (fuel : Nat) : Nat → List Char → Option (Value × List Char)
  | depth + 1, '[' :: rest => do
      let (values, rest) ← readElements (readValue fuel depth) fuel rest
      return (.list values, rest)
  | depth + 1, '\x7b' :: rest =>
      match skipSpaces rest with
      | '\x7d' :: more => some (.table .inline [], more)
      | input => do
          let (entries, rest) ← readFields (readValue fuel depth) [] fuel input
          return (.table .inline entries, rest)
  | _, '"' :: rest => (readText ('"' :: rest)).map fun (text, after) => (.text text, after)
  | _, '\'' :: rest => (readText ('\'' :: rest)).map fun (text, after) => (.text text, after)
  | _, input => readWord input

/-- The whole table so far, and the path of the header that the next keys belong to. -/
structure Progress where
  root : Entries := []
  current : List String := []

/-- One line that is not blank: a header of either form, or a key with its value. The first argument
is more than the input's length. -/
def readEntry (fuel : Nat) (progress : Progress) : List Char → Option (Progress × List Char)
  | '[' :: '[' :: rest => do
      let (path, key, rest) ← readKey rest
      let rest ← endLine? (← expect? ']' (← expect? ']' rest))
      let root ← changeAt false (openElement key) path .header progress.root
      return (⟨root, path ++ [key]⟩, rest)
  | '[' :: rest => do
      let (path, key, rest) ← readKey rest
      let rest ← endLine? (← expect? ']' rest)
      let root ← changeAt false (openTable key) path .header progress.root
      return (⟨root, path ++ [key]⟩, rest)
  | input => do
      let (path, key, rest) ← readKey input
      let (value, rest) ← readValue fuel (nestingLimit - 1) (skipSpaces (← expect? '=' rest))
      let rest ← endLine? rest
      let root ← changeAt false (insert path key value) progress.current .header progress.root
      return (⟨root, progress.current⟩, rest)

/-- All lines. The first argument is more than the input's length. -/
def readEntries : Nat → Progress → List Char → Option Entries
  | 0, _, _ => none
  | fuel + 1, progress, input =>
      match skipBlank input with
      | [] => some progress.root
      | '#' :: rest => if (skipComment rest).isEmpty then some progress.root else none
      | input => do
          let (progress, rest) ← readEntry (fuel + 1) progress input
          readEntries fuel progress rest

/-- The table of a text; a byte order mark at its start is passed over. -/
def read (text : String) : Option Value := do
  let input := text.toList
  let input := if input.head? == some '\ufeff' then input.drop 1 else input
  return .table .header (← readEntries (input.length + 1) {} input)

def document? (text : String) : Option Document := do
  Value.reading.document (← read text)

end ClaimPolicy.Toml
