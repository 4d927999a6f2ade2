/-!
# Positions in a document text

A cursor stands in a text between what has been read and what is still to be
read, and knows the line and the column it has reached.  A line ends with a line
feed, a carriage return, both in this order, or one of three further break
characters.  Reading a break gives a line feed, except that the two separator
characters stand for themselves.
-/

namespace Lineage

namespace Yaml

/-- A position in a text, with the characters that follow it. -/
structure Cursor where
  rest : List Char
  index : Nat
  line : Nat
  column : Nat

def isBreak (character : Char) : Bool :=
  character = '\n' || character = '\r' || character = '\u0085' || character = '\u2028'
    || character = '\u2029'

def isBlank (character : Char) : Bool :=
  character = ' ' || character = '\t'

def isWord (character : Char) : Bool :=
  ('0' ≤ character && character ≤ '9') || ('a' ≤ character && character ≤ 'z')
    || ('A' ≤ character && character ≤ 'Z') || character = '_' || character = '-'

/-- Whether a document may contain a character. -/
def isAllowed (character : Char) : Bool :=
  let code := character.toNat
  code = 0x9 || code = 0xA || code = 0xD || (0x20 ≤ code && code ≤ 0x7E) || code = 0x85
    || (0xA0 ≤ code && code ≤ 0xD7FF) || (0xE000 ≤ code && code ≤ 0xFFFD) || 0x10000 ≤ code

namespace Cursor

def start (characters : List Char) : Cursor :=
  { rest := characters, index := 0, line := 0, column := 0 }

/-- The character at some distance from a position. -/
def at? (cursor : Cursor) (distance : Nat) : Option Char :=
  cursor.rest[distance]?

/-- Whether a character stands at some distance from a position. -/
def isAt (cursor : Cursor) (distance : Nat) (character : Char) : Bool :=
  cursor.at? distance = some character

def atBlank (cursor : Cursor) : Bool :=
  (cursor.at? 0).any isBlank

def atBreak (cursor : Cursor) : Bool :=
  (cursor.at? 0).any isBreak

def atEnd (cursor : Cursor) : Bool :=
  cursor.rest.isEmpty

/-- Whether a blank, the end of a line or the end of the text stands at some
distance from a position. -/
def isGap (cursor : Cursor) (distance : Nat) : Bool :=
  match cursor.at? distance with
  | some character => isBlank character || isBreak character
  | none => true

/-- The position after a number of characters of the same line. -/
def skip (cursor : Cursor) (count : Nat) : Cursor :=
  { cursor with
    rest := cursor.rest.drop count
    index := cursor.index + count
    column := cursor.column + count }

/-- The characters of a line from a position on as long as they pass a test, and
the position after them. -/
def readWhile (cursor : Cursor) (test : Char → Bool) : List Char × Cursor :=
  let characters := cursor.rest.takeWhile test
  (characters, cursor.skip characters.length)

def skipWhile (cursor : Cursor) (test : Char → Bool) : Cursor :=
  (cursor.readWhile test).2

/-- The position after a line break of some number of characters. -/
def nextLine (cursor : Cursor) (count : Nat) : Cursor :=
  { rest := cursor.rest.drop count
    index := cursor.index + count
    line := cursor.line + 1
    column := 0 }

/-- The line break at a position as it is read, and the position after it. -/
def readBreak (cursor : Cursor) : List Char × Cursor :=
  match cursor.rest with
  | '\r' :: '\n' :: _ => (['\n'], cursor.nextLine 2)
  | character :: _ =>
    if character = '\n' || character = '\r' || character = '\u0085' then
      (['\n'], cursor.nextLine 1)
    else if isBreak character then ([character], cursor.nextLine 1)
    else ([], cursor)
  | [] => ([], cursor)

def skipBreak (cursor : Cursor) : Cursor :=
  cursor.readBreak.2

/-- Whether a line begins at a position with a marker of document ends. -/
def atDocumentMarker (cursor : Cursor) : Bool :=
  cursor.column = 0 && cursor.isGap 3
    && (cursor.rest.take 3 = ['-', '-', '-'] || cursor.rest.take 3 = ['.', '.', '.'])

end Cursor

end Yaml

end Lineage
