/-!
A place in a YAML text: what is left of it, and the offset, line and column that have been reached.
Offsets count bytes of UTF-8, columns count characters, and a carriage return with a line feed is
one line break.
-/
namespace ClaimPolicy.Yaml

def isBreak (c : Char) : Bool :=
  c == '\n' || c == '\r' || c == '\u0085' || c == '\u2028' || c == '\u2029'

def isBlank (c : Char) : Bool := c == ' ' || c == '\t'

/-- Characters that may occur in a text at all. -/
def isAllowed (c : Char) : Bool :=
  let code := c.toNat
  c == '\t' || c == '\n' || c == '\r' || (0x20 ≤ code && code ≤ 0x7E) || code == 0x85 ||
    (0xA0 ≤ code && code ≤ 0xD7FF) || (0xE000 ≤ code && code ≤ 0xFFFD) || 0x10000 ≤ code

def isWordChar (c : Char) : Bool := c.isAlphanum || c == '_' || c == '-'

def isGap : Option Char → Bool
  | none => true
  | some c => isBlank c || isBreak c

def isLineEnd : Option Char → Bool
  | none => true
  | some c => isBreak c

def byteLength (text : List Char) : Nat :=
  text.foldl (fun length c => length + c.utf8Size) 0

structure Cursor where
  rest : List Char
  offset : Nat := 0
  line : Nat := 0
  column : Nat := 0

namespace Cursor

def head? (cursor : Cursor) : Option Char := cursor.rest.head?

def peek? (cursor : Cursor) (ahead : Nat) : Option Char := cursor.rest[ahead]?

def at? (cursor : Cursor) (c : Char) : Bool := cursor.head? == some c

def advance (cursor : Cursor) (count : Nat) : Cursor where
  rest := cursor.rest.drop count
  offset := cursor.offset + byteLength (cursor.rest.take count)
  line := cursor.line
  column := cursor.column + count

def takeWhile (cursor : Cursor) (qualifies : Char → Bool) : List Char × Cursor :=
  let taken := cursor.rest.takeWhile qualifies
  (taken, cursor.advance taken.length)

def skipWhile (cursor : Cursor) (qualifies : Char → Bool) : Cursor :=
  (cursor.takeWhile qualifies).2

def newLine (cursor : Cursor) (size : Nat) : Cursor where
  rest := cursor.rest.drop size
  offset := cursor.offset + byteLength (cursor.rest.take size)
  line := cursor.line + 1
  column := 0

/-- Moves over a line break and tells how it counts in a text: as a line feed, unless it is one of
the two separators. At any other place nothing happens. -/
def takeBreak (cursor : Cursor) : List Char × Cursor :=
  match cursor.rest with
  | '\r' :: '\n' :: _ => (['\n'], cursor.newLine 2)
  | c :: _ =>
      if c == '\u2028' || c == '\u2029' then ([c], cursor.newLine 1)
      else if isBreak c then (['\n'], cursor.newLine 1)
      else ([], cursor)
  | [] => ([], cursor)

def skipBreak (cursor : Cursor) : Cursor := cursor.takeBreak.2

def skipLine (cursor : Cursor) : Cursor := cursor.skipWhile fun c => !isBreak c

/-- At three equal marks at the start of a line with a gap behind them. -/
def atDocumentMark (cursor : Cursor) (mark : Char) : Bool :=
  cursor.column == 0 && cursor.rest.take 3 == [mark, mark, mark] && isGap (cursor.peek? 3)

end Cursor

end ClaimPolicy.Yaml
