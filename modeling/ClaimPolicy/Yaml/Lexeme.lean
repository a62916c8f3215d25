import ClaimPolicy.Text.Decimal
import ClaimPolicy.Yaml.Scalar

/-!
The parts of a YAML text: indicators, scalars, anchors, tags and directives, and the starts and ends
of block collections, which follow from indentation. A key is only known to be one when its colon
comes up, so its mark is put in front of it later.
-/
namespace ClaimPolicy.Yaml

inductive Lexeme where
  | version (supported : Bool)
  | tagHandle (handle expansion : String)
  | documentStart
  | documentEnd
  | streamEnd
  | sequenceStart
  | mappingStart
  | blockEnd
  | flowSequenceStart
  | flowSequenceEnd
  | flowMappingStart
  | flowMappingEnd
  | entry
  | comma
  | key
  | value
  | alias (name : String)
  | anchor (name : String)
  | tag (handle suffix : String)
  | scalar (style : ScalarStyle) (text : String)
  deriving DecidableEq, Repr

/-- A place where a key may have begun. It is required when nothing but a key can stand there. -/
structure PendingKey where
  required : Bool
  place : Nat
  offset : Nat
  line : Nat
  column : Nat

structure Lexer where
  cursor : Cursor
  /-- The lexemes so far, the last one first, and their number. -/
  found : List Lexeme := []
  count : Nat := 0
  /-- The columns of the open block collections, the innermost first. -/
  columns : List Nat := []
  /-- One place for a key at each level of flow collections, the innermost first. -/
  outer : List (Option PendingKey) := []
  pending : Option PendingKey := none
  keyAllowed : Bool := true

namespace Lexer

def inFlow (lexer : Lexer) : Bool := !lexer.outer.isEmpty

def emit (lexer : Lexer) (lexeme : Lexeme) : Lexer :=
  { lexer with found := lexeme :: lexer.found, count := lexer.count + 1 }

def emitAt (lexer : Lexer) (place : Nat) (lexeme : Lexeme) : Lexer :=
  let later := lexer.count - place
  { lexer with
    found := lexer.found.take later ++ lexeme :: lexer.found.drop later
    count := lexer.count + 1 }

/-- A key that cannot follow any more; a required one must have followed. -/
def forget : Option PendingKey → Option (Option PendingKey)
  | some key => if key.required then none else some none
  | none => some none

def dropKey (lexer : Lexer) : Option Lexer := do
  return { lexer with pending := ← forget lexer.pending }

def noteKey (lexer : Lexer) : Option Lexer :=
  if lexer.keyAllowed then do
    let lexer ← lexer.dropKey
    let cursor := lexer.cursor
    let required := !lexer.inFlow && lexer.columns.head? == some cursor.column
    return { lexer with
      pending := some ⟨required, lexer.count, cursor.offset, cursor.line, cursor.column⟩ }
  else some lexer

def maxKeyBytes : Nat := 1024

/-- A key ends on the line on which it begins. -/
def isStale (cursor : Cursor) (key : PendingKey) : Bool :=
  key.line < cursor.line || key.offset + maxKeyBytes < cursor.offset

def refresh (cursor : Cursor) (key : Option PendingKey) : Option (Option PendingKey) :=
  if key.any (isStale cursor) then forget key else some key

def dropStaleKeys (lexer : Lexer) : Option Lexer := do
  let pending ← refresh lexer.cursor lexer.pending
  let outer ← lexer.outer.mapM (refresh lexer.cursor)
  return { lexer with pending := pending, outer := outer }

/-- Ends the block collections that are indented more than `column`; without a column, all. -/
def closeBlocks (lexer : Lexer) (column : Option Nat) : Lexer :=
  if lexer.inFlow then lexer
  else
    let deeper (open' : Nat) : Bool :=
      match column with
      | some column => column < open'
      | none => true
    let closed := (lexer.columns.takeWhile deeper).length
    { lexer with
      columns := lexer.columns.drop closed
      found := List.replicate closed .blockEnd ++ lexer.found
      count := lexer.count + closed }

def openBlock (lexer : Lexer) (column : Nat) (place : Nat) (lexeme : Lexeme) : Lexer :=
  let deeper :=
    match lexer.columns.head? with
    | some innermost => innermost < column
    | none => true
  if lexer.inFlow || !deeper then lexer
  else { lexer.emitAt place lexeme with columns := column :: lexer.columns }

/-- Moves to the next lexeme over blanks, comments and line breaks. A line may begin with a byte
order mark, which takes up a column. Where a key may begin, tabs are not passed over, and outside
flow collections a key may begin after a line break. -/
def skipGaps : Nat → Lexer → Lexer
  | 0, lexer => lexer
  | fuel + 1, lexer =>
      let tabs := lexer.inFlow || !lexer.keyAllowed
      let start := lexer.cursor
      let start := if start.column == 0 && start.at? '\ufeff' then start.advance 1 else start
      let cursor := start.skipWhile fun c => c == ' ' || (tabs && c == '\t')
      let cursor := if cursor.at? '#' then cursor.skipLine else cursor
      if cursor.head?.any isBreak then
        skipGaps fuel { lexer with
          cursor := cursor.skipBreak
          keyAllowed := lexer.keyAllowed || !lexer.inFlow }
      else { lexer with cursor := cursor }

def mark (lexer : Lexer) (size : Nat) (lexeme : Lexeme) (keyAllowed : Bool) : Lexer :=
  { lexer.emit lexeme with
    cursor := lexer.cursor.advance size
    keyAllowed := keyAllowed }

def documentMark (lexer : Lexer) (lexeme : Lexeme) : Option Lexer := do
  let lexer ← (lexer.closeBlocks none).dropKey
  return lexer.mark 3 lexeme false

def openFlow (lexer : Lexer) (lexeme : Lexeme) : Option Lexer := do
  let lexer ← lexer.noteKey
  return { lexer with outer := lexer.pending :: lexer.outer, pending := none }.mark 1 lexeme true

def closeFlow (lexer : Lexer) (lexeme : Lexeme) : Option Lexer := do
  let lexer ← lexer.dropKey
  let lexer :=
    match lexer.outer with
    | pending :: outer => { lexer with pending := pending, outer := outer }
    | [] => lexer
  return lexer.mark 1 lexeme false

def comma (lexer : Lexer) : Option Lexer := do
  return (← lexer.dropKey).mark 1 .comma true

def blockEntry (lexer : Lexer) : Option Lexer :=
  if !lexer.inFlow && !lexer.keyAllowed then none
  else do
    let lexer ← (lexer.openBlock lexer.cursor.column lexer.count .sequenceStart).dropKey
    return lexer.mark 1 .entry true

def explicitKey (lexer : Lexer) : Option Lexer :=
  if !lexer.inFlow && !lexer.keyAllowed then none
  else do
    let lexer ← (lexer.openBlock lexer.cursor.column lexer.count .mappingStart).dropKey
    return lexer.mark 1 .key !lexer.inFlow

def keyValue (lexer : Lexer) : Option Lexer :=
  match lexer.pending with
  | some key =>
      let lexer := lexer.emitAt key.place .key
      let lexer := lexer.openBlock key.column key.place .mappingStart
      some ({ lexer with pending := none }.mark 1 .value false)
  | none =>
      if !lexer.inFlow && !lexer.keyAllowed then none
      else
        let lexer := lexer.openBlock lexer.cursor.column lexer.count .mappingStart
        some (lexer.mark 1 .value !lexer.inFlow)

def name (lexer : Lexer) (lexeme : String → Lexeme) : Option Lexer := do
  let lexer ← lexer.noteKey
  let (name, cursor) := (lexer.cursor.advance 1).takeWhile isWordChar
  let ends := isGap cursor.head? ||
    cursor.head?.any fun c => ['?', ':', ',', ']', '\x7d', '%', '@', '\x60'].contains c
  if name.isEmpty || !ends then none
  else return { lexer.emit (lexeme (String.ofList name)) with
    cursor := cursor, keyAllowed := false }

def isUriChar (c : Char) : Bool :=
  isWordChar c ||
    [';', '/', '?', ':', '@', '&', '=', '+', '$', '.', '!', '~', '*', '\'', '(', ')'].contains c

/-- How many octets the UTF-8 form of a character has, by the first of them. -/
def octetCount? (first : Nat) : Option Nat :=
  if first < 0x80 then some 1
  else if 0xC0 ≤ first && first < 0xE0 then some 2
  else if 0xE0 ≤ first && first < 0xF0 then some 3
  else if 0xF0 ≤ first && first < 0xF8 then some 4
  else none

def isContinuation (octet : Nat) : Bool := 0x80 ≤ octet && octet < 0xC0

/-- An octet that is written as a percent sign and two hexadecimal digits. -/
def escapedOctet? (text : List Char) : Option Nat :=
  match text with
  | '%' :: high :: low :: _ => do return 16 * (← hexValue? high) + (← hexValue? low)
  | _ => none

/-- As many escaped octets as one character has. They stay octets, each under the character of the
same number, so they may also be those of no character. -/
def takeEscapedChar (cursor : Cursor) : Option (List Char × Cursor) := do
  let first ← escapedOctet? cursor.rest
  let count ← octetCount? first
  let later ← (List.range (count - 1)).mapM fun k =>
    escapedOctet? (cursor.rest.drop (3 * (k + 1)))
  if later.all isContinuation then
    return ((first :: later).map Char.ofNat, cursor.advance (3 * count))
  else none

def takeUri (verbatim : Bool) : Nat → Cursor → Option (List Char × Cursor)
  | 0, _ => none
  | fuel + 1, cursor =>
      match cursor.head? with
      | none => some ([], cursor)
      | some c =>
          if c == '%' then do
            let (octets, cursor) ← takeEscapedChar cursor
            let (text, cursor) ← takeUri verbatim fuel cursor
            return (octets ++ text, cursor)
          else if isUriChar c || (verbatim && [',', '[', ']'].contains c) then do
            let (text, cursor) ← takeUri verbatim fuel (cursor.advance 1)
            return (c :: text, cursor)
          else some ([], cursor)

def uriText (uri : List Char) : String :=
  String.ofList (uri.takeWhile (· != '\x00'))

/-- A tag behind its exclamation mark: verbatim, with a named handle, or plain. -/
def tag (fuel : Nat) (lexer : Lexer) : Option Lexer := do
  let lexer ← lexer.noteKey
  let start := lexer.cursor.advance 1
  let (handle, suffix, cursor) ←
    if start.at? '<' then do
      let (uri, cursor) ← takeUri true fuel (start.advance 1)
      if uri.isEmpty || !cursor.at? '>' then none
      else pure ("", uriText uri, cursor.advance 1)
    else do
      let (word, cursor) := start.takeWhile isWordChar
      if cursor.at? '!' then do
        let (uri, cursor) ← takeUri false fuel (cursor.advance 1)
        if uri.isEmpty then none
        else pure ("!" ++ String.ofList word ++ "!", uriText uri, cursor)
      else do
        let (uri, cursor) ← takeUri false fuel cursor
        let suffix := uriText (word ++ uri)
        pure (if suffix.isEmpty then ("", "!", cursor) else ("!", suffix, cursor))
  if isGap cursor.head? || (lexer.inFlow && cursor.at? ',') then
    return { lexer.emit (.tag handle suffix) with cursor := cursor, keyAllowed := false }
  else none

/-- A number of the language version, of at most nine digits. -/
def takeVersionNumber (cursor : Cursor) : Option (Nat × Cursor) :=
  let (digits, cursor) := cursor.takeWhile Char.isDigit
  if digits.isEmpty || 9 < digits.length then none else some (Text.digitsValue digits, cursor)

/-- A directive: the version of the language, or the expansion of a tag handle. -/
def directive (fuel : Nat) (lexer : Lexer) : Option Lexer := do
  let lexer ← (lexer.closeBlocks none).dropKey
  let (name, cursor) := (lexer.cursor.advance 1).takeWhile isWordChar
  if !isGap cursor.head? then none
  else
    let cursor := cursor.skipWhile isBlank
    let (lexeme, cursor) ←
      if name == ['Y', 'A', 'M', 'L'] then
        let (major, cursor) ← takeVersionNumber cursor
        if !cursor.at? '.' then none
        else do
          let (minor, cursor) ← takeVersionNumber (cursor.advance 1)
          pure (.version (major == 1 && (minor == 1 || minor == 2)), cursor)
      else if name == ['T', 'A', 'G'] then
        if !cursor.at? '!' then none
        else
          let (word, cursor) := (cursor.advance 1).takeWhile isWordChar
          let named := cursor.at? '!'
          if !named && !word.isEmpty then none
          else
            let handle := "!" ++ String.ofList word ++ if named then "!" else ""
            let cursor := if named then cursor.advance 1 else cursor
            if !cursor.head?.any isBlank then none
            else do
              let cursor := cursor.skipWhile isBlank
              let (expansion, cursor) ← takeUri true fuel cursor
              if expansion.isEmpty || !isGap cursor.head? then none
              else pure (Lexeme.tagHandle handle (uriText expansion), cursor)
      else none
    let cursor := cursor.skipWhile isBlank
    let cursor := if cursor.at? '#' then cursor.skipLine else cursor
    if isLineEnd cursor.head? then
      return { lexer.emit lexeme with cursor := cursor.skipBreak, keyAllowed := false }
    else none

def blockScalar (fuel : Nat) (lexer : Lexer) (literal : Bool) : Option Lexer := do
  let lexer ← lexer.dropKey
  let (text, cursor) ← takeBlock fuel literal lexer.columns.head? (lexer.cursor.advance 1)
  let style := if literal then ScalarStyle.literal else .folded
  return { lexer.emit (.scalar style (String.ofList text)) with
    cursor := cursor, keyAllowed := true }

def quotedScalar (fuel : Nat) (lexer : Lexer) (single : Bool) : Option Lexer := do
  let lexer ← lexer.noteKey
  let (text, cursor) ← takeQuoted single fuel [] (lexer.cursor.advance 1)
  let style := if single then ScalarStyle.singleQuoted else .doubleQuoted
  return { lexer.emit (.scalar style (String.ofList text)) with
    cursor := cursor, keyAllowed := false }

def plainScalar (fuel : Nat) (lexer : Lexer) : Option Lexer := do
  let lexer ← lexer.noteKey
  let indent := match lexer.columns.head? with
    | some column => column + 1
    | none => 0
  let (text, broken, cursor) ←
    takePlain lexer.inFlow indent fuel [] (.blanks []) lexer.cursor
  return { lexer.emit (.scalar .plain (String.ofList text)) with
    cursor := cursor
    keyAllowed := broken }

/-- Characters that cannot begin a plain text on their own. -/
def indicators : List Char :=
  ['-', '?', ':', ',', '[', ']', '\x7b', '\x7d', '#', '&', '*', '!', '|', '>', '\'', '"', '%', '@',
    '\x60']

def beginsPlain (inFlow : Bool) (c : Char) (next : Option Char) : Bool :=
  !(isBlank c || isBreak c || indicators.contains c) ||
    (c == '-' && !next.any isBlank) ||
    (!inFlow && (c == '?' || c == ':') && !isGap next)

/-- Takes the lexeme that begins with the character `c`, which is next in the text. The first
argument is more than the text's length. -/
def lexemeAt (fuel : Nat) (lexer : Lexer) (c : Char) : Option Lexer :=
  let next := lexer.cursor.peek? 1
  if lexer.cursor.column == 0 && c == '%' then directive fuel lexer
  else if lexer.cursor.atDocumentMark '-' then lexer.documentMark .documentStart
  else if lexer.cursor.atDocumentMark '.' then lexer.documentMark .documentEnd
  else if c == '[' then lexer.openFlow .flowSequenceStart
  else if c == '\x7b' then lexer.openFlow .flowMappingStart
  else if c == ']' then lexer.closeFlow .flowSequenceEnd
  else if c == '\x7d' then lexer.closeFlow .flowMappingEnd
  else if c == ',' then lexer.comma
  else if c == '-' && isGap next then lexer.blockEntry
  else if c == '?' && (lexer.inFlow || isGap next) then lexer.explicitKey
  else if c == ':' && (lexer.inFlow || isGap next) then lexer.keyValue
  else if c == '*' then lexer.name .alias
  else if c == '&' then lexer.name .anchor
  else if c == '!' then tag fuel lexer
  else if c == '|' && !lexer.inFlow then blockScalar fuel lexer true
  else if c == '>' && !lexer.inFlow then blockScalar fuel lexer false
  else if c == '\'' then quotedScalar fuel lexer true
  else if c == '"' then quotedScalar fuel lexer false
  else if beginsPlain lexer.inFlow c next then plainScalar fuel lexer
  else none

/-- Takes all lexemes. The first argument is more than the text's length. -/
def run : Nat → Lexer → Option (List Lexeme)
  | 0, _ => none
  | fuel + 1, lexer => do
      let lexer ← (skipGaps (fuel + 1) lexer).dropStaleKeys
      match lexer.cursor.head? with
      | none =>
          let lexer ← (lexer.closeBlocks none).dropKey
          return (lexer.emit .streamEnd).found.reverse
      | some c =>
          run fuel (← lexemeAt (fuel + 1) (lexer.closeBlocks (some lexer.cursor.column)) c)

end Lexer

def Lexeme.scan (text : String) : Option (List Lexeme) :=
  let chars := text.toList
  if chars.all isAllowed then
    Lexer.run (chars.length + 1) ⟨⟨chars, 0, 0, 0⟩, [], 0, [], [], none, true⟩
  else none

end ClaimPolicy.Yaml
