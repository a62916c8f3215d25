import ClaimPolicy.Yaml.Cursor

/-!
YAML scalars: plain, quoted and block texts, each read from its start to its end. Inside a plain or
quoted text a single line break reads as a space and further line breaks are kept; a block text
keeps its lines or folds them.
-/
namespace ClaimPolicy.Yaml

inductive ScalarStyle where
  | plain
  | singleQuoted
  | doubleQuoted
  | literal
  | folded
  deriving DecidableEq, Repr

/-- White space inside a text that is still to be joined to it: the blanks of one line, or the first
line break and those after it. -/
inductive Spacing where
  | blanks (text : List Char)
  | breaks (first later : List Char)

namespace Spacing

/-- What the white space contributes: a first line feed is a space, unless more line breaks
follow. -/
def text : Spacing → List Char
  | .blanks text => text
  | .breaks ['\n'] later => if later.isEmpty then [' '] else later
  | .breaks first later => first ++ later

def isBroken : Spacing → Bool
  | .blanks _ => false
  | .breaks _ _ => true

end Spacing

/-- Takes white space over any number of lines. Blanks at the start of a line are dropped, and there
a tab in a column below `indent` is refused. The first argument is more than the text's length. -/
def takeSpacing (indent : Nat) : Nat → Spacing → Cursor → Option (Spacing × Cursor)
  | 0, spacing, cursor => some (spacing, cursor)
  | fuel + 1, spacing, cursor =>
      match cursor.head? with
      | none => some (spacing, cursor)
      | some c =>
          if isBlank c then
            match spacing with
            | .blanks text => takeSpacing indent fuel (.blanks (text ++ [c])) (cursor.advance 1)
            | .breaks _ _ =>
                if c == '\t' && cursor.column < indent then none
                else takeSpacing indent fuel spacing (cursor.advance 1)
          else if isBreak c then
            let (line, cursor) := cursor.takeBreak
            match spacing with
            | .blanks _ => takeSpacing indent fuel (.breaks line []) cursor
            | .breaks first later => takeSpacing indent fuel (.breaks first (later ++ line)) cursor
          else some (spacing, cursor)

def isFlowIndicator (c : Char) : Bool :=
  c == ',' || c == '[' || c == ']' || c == '\x7b' || c == '\x7d'

/-- How much of a plain text stands before the next white space or the indicator that ends it. In a
flow collection a colon right before another indicator is refused. -/
def plainRun (inFlow : Bool) : List Char → Option (List Char)
  | [] => some []
  | c :: rest =>
      if isBlank c || isBreak c then some []
      else if inFlow && c == ':' &&
          (rest.head?.any fun next => isFlowIndicator next || next == '?') then
        none
      else if c == ':' && isGap rest.head? then some []
      else if inFlow && isFlowIndicator c then some []
      else (plainRun inFlow rest).map (c :: ·)

/-- A plain text: runs of characters with white space between them. It ends before a document mark,
a comment, an indicator, or, outside flow collections, a line that is indented less than `indent`.
The flag of the result tells whether line breaks were passed after the last run. -/
def takePlain (inFlow : Bool) (indent : Nat) :
    Nat → List Char → Spacing → Cursor → Option (List Char × Bool × Cursor)
  | 0, _, _, _ => none
  | fuel + 1, text, spacing, cursor =>
      if cursor.atDocumentMark '-' || cursor.atDocumentMark '.' || cursor.at? '#' then
        some (text, spacing.isBroken, cursor)
      else do
        let run ← plainRun inFlow cursor.rest
        let text := if run.isEmpty then text else text ++ spacing.text ++ run
        let spacing := if run.isEmpty then spacing else .blanks []
        let cursor := cursor.advance run.length
        if !cursor.head?.any fun c => isBlank c || isBreak c then
          return (text, spacing.isBroken, cursor)
        else
          let (spacing, cursor) ← takeSpacing indent (fuel + 1) spacing cursor
          if !inFlow && cursor.column < indent then return (text, spacing.isBroken, cursor)
          else takePlain inFlow indent fuel text spacing cursor

def hexValue? (c : Char) : Option Nat :=
  if '0' ≤ c && c ≤ '9' then some (c.toNat - 48)
  else if 'a' ≤ c && c ≤ 'f' then some (c.toNat - 87)
  else if 'A' ≤ c && c ≤ 'F' then some (c.toNat - 55)
  else none

def charOfHex? (count : Nat) (text : List Char) : Option Char := do
  let digits ← (text.take count).mapM hexValue?
  let code := digits.foldl (fun value digit => 16 * value + digit) 0
  if digits.length = count ∧ code.isValidChar then some (Char.ofNat code) else none

def shortEscapes : List (Char × Char) :=
  [('0', '\x00'), ('a', '\x07'), ('b', '\x08'), ('t', '\t'), ('\t', '\t'), ('n', '\n'),
    ('v', '\x0B'), ('f', '\x0C'), ('r', '\r'), ('e', '\x1B'), (' ', ' '), ('"', '"'), ('/', '/'),
    ('\\', '\\'), ('N', '\u0085'), ('_', '\u00A0'), ('L', '\u2028'), ('P', '\u2029')]

/-- The character of an escape, and how many characters follow the backslash. -/
def escape? : List Char → Option (Char × Nat)
  | 'x' :: rest => (charOfHex? 2 rest).map fun c => (c, 3)
  | 'u' :: rest => (charOfHex? 4 rest).map fun c => (c, 5)
  | 'U' :: rest => (charOfHex? 8 rest).map fun c => (c, 9)
  | letter :: _ => (shortEscapes.lookup letter).map fun c => (c, 1)
  | [] => none

/-- The characters of a quoted text up to white space, its closing quote or an escaped line break.
The flag tells whether an escaped line break was met; it is passed over already. -/
def takeQuotedRun (single : Bool) : Nat → Cursor → Option (List Char × Bool × Cursor)
  | 0, _ => none
  | fuel + 1, cursor =>
      match cursor.rest with
      | [] => some ([], false, cursor)
      | c :: rest =>
          if isBlank c || isBreak c then some ([], false, cursor)
          else if single && c == '\'' && rest.head? == some '\'' then do
            let (text, joined, cursor) ← takeQuotedRun single fuel (cursor.advance 2)
            return ('\'' :: text, joined, cursor)
          else if c == (if single then '\'' else '"') then some ([], false, cursor)
          else if !single && c == '\\' then
            if rest.head?.any isBreak then some ([], true, (cursor.advance 1).skipBreak)
            else
              match escape? rest with
              | none => none
              | some (escaped, size) => do
                  let (text, joined, cursor) ← takeQuotedRun single fuel
                    (cursor.advance (size + 1))
                  return (escaped :: text, joined, cursor)
          else do
            let (text, joined, cursor) ← takeQuotedRun single fuel (cursor.advance 1)
            return (c :: text, joined, cursor)

/-- A quoted text after its opening quote. A document mark inside it is refused. -/
def takeQuoted (single : Bool) : Nat → List Char → Cursor → Option (List Char × Cursor)
  | 0, _, _ => none
  | fuel + 1, text, cursor =>
      if cursor.atDocumentMark '-' || cursor.atDocumentMark '.' || cursor.rest.isEmpty then none
      else do
        let (run, joined, cursor) ← takeQuotedRun single (fuel + 1) cursor
        let text := text ++ run
        if cursor.at? (if single then '\'' else '"') then return (text, cursor.advance 1)
        else
          let start := if joined then Spacing.breaks [] [] else .blanks []
          let (spacing, cursor) ← takeSpacing 0 (fuel + 1) start cursor
          takeQuoted single fuel (text ++ spacing.text) cursor

/-- The line breaks before the next line of a block text, with the indentation in front of it
skipped. Without a known indentation the widest of these lines is found as well; a tab in the
indentation is refused. -/
def takeBlockBreaks (indent : Option Nat) :
    Nat → Nat → List Char → Cursor → Option (Nat × List Char × Cursor)
  | 0, _, _, _ => none
  | fuel + 1, widest, breaks, cursor =>
      let spaces := (cursor.rest.takeWhile (· == ' ')).length
      let cursor :=
        match indent with
        | none => cursor.advance spaces
        | some indent => cursor.advance (min spaces (indent - cursor.column))
      let widest := max widest cursor.column
      let early := match indent with
        | none => true
        | some indent => cursor.column < indent
      if early && cursor.at? '\t' then none
      else if cursor.head?.any isBreak then
        let (line, cursor) := cursor.takeBreak
        takeBlockBreaks indent fuel widest (breaks ++ line) cursor
      else some (widest, breaks, cursor)

/-- What is known in the middle of a block text: the text, the last line break, the empty lines
after it, and whether the last line began with a blank. -/
structure BlockText where
  text : List Char := []
  lineBreak : List Char := []
  emptyLines : List Char := []
  blankBefore : Bool := false

/-- The lines of a block text. Folding turns a line break between two lines into a space, unless one
of the lines starts with a blank or empty lines stand between them. -/
def takeBlockLines (literal : Bool) (indent : Nat) :
    Nat → BlockText → Cursor → Option (BlockText × Cursor)
  | 0, _, _ => none
  | fuel + 1, block, cursor =>
      if cursor.column != indent || cursor.rest.isEmpty then some (block, cursor)
      else do
        let blank := cursor.head?.any isBlank
        let folds := !literal && block.lineBreak == ['\n'] && !block.blankBefore && !blank
        let between :=
          if folds then if block.emptyLines.isEmpty then [' '] else [] else block.lineBreak
        let (line, cursor) := cursor.takeWhile fun c => !isBreak c
        let (lineBreak, cursor) := cursor.takeBreak
        let (_, emptyLines, cursor) ←
          takeBlockBreaks (some indent) (fuel + 1) 0 [] cursor
        takeBlockLines literal indent fuel
          ⟨block.text ++ between ++ block.emptyLines ++ line, lineBreak, emptyLines,
            blank⟩ cursor

inductive Chomping where
  | strip
  | clip
  | keep
  deriving DecidableEq, Repr

def chomping? : Option Char → Option Chomping
  | some '+' => some .keep
  | some '-' => some .strip
  | _ => none

def increment? (c : Option Char) : Option (Option Nat) :=
  match c with
  | some digit =>
      if digit == '0' then none
      else if digit.isDigit then some (some (digit.toNat - 48)) else some none
  | none => some none

def takeBlockHeader (cursor : Cursor) : Option (Chomping × Option Nat × Cursor) := do
  match chomping? cursor.head? with
  | some chomping =>
      let cursor := cursor.advance 1
      match ← increment? cursor.head? with
      | some digit => return (chomping, some digit, cursor.advance 1)
      | none => return (chomping, none, cursor)
  | none =>
      match ← increment? cursor.head? with
      | some digit =>
          let cursor := cursor.advance 1
          match chomping? cursor.head? with
          | some chomping => return (chomping, some digit, cursor.advance 1)
          | none => return (.clip, some digit, cursor)
      | none => return (.clip, none, cursor)

/-- A block text after its indicator. `parent` is the indentation of the collection around it, if
there is one; a text without an indentation mark takes the indentation of its first line. -/
def takeBlock (fuel : Nat) (literal : Bool) (parent : Option Nat) (cursor : Cursor) :
    Option (List Char × Cursor) := do
  let (chomping, increment, cursor) ← takeBlockHeader cursor
  let cursor := cursor.skipWhile isBlank
  let cursor := if cursor.at? '#' then cursor.skipLine else cursor
  if !isLineEnd cursor.head? then none
  else
    let cursor := cursor.skipBreak
    let fixed := increment.map fun digit => parent.getD 0 + digit
    let (widest, emptyLines, cursor) ←
      takeBlockBreaks fixed fuel 0 [] cursor
    let least := match parent with
      | some column => column + 1
      | none => 1
    let indent := fixed.getD (max widest least)
    let (block, cursor) ←
      takeBlockLines literal indent fuel ⟨[], [], emptyLines, false⟩ cursor
    let ending := match chomping with
      | .strip => []
      | .clip => block.lineBreak
      | .keep => block.lineBreak ++ block.emptyLines
    return (block.text ++ ending, cursor)

end ClaimPolicy.Yaml
