import Lineage.Yaml.Cursor
import Lineage.Yaml.Scalar

/-!
# Spelling texts in a document

A text is written plainly where that reads back as the same text, and between
single quotes where a plain scalar would mean something else or could not begin
or end as the text does.  A text of several lines becomes a block of lines.
Where neither form can hold the text, because of characters without a visible
form or of blanks beside line breaks, it is written between double quotes with
escapes.

Lines after the first are indented to a column that the place of the text gives.
-/

namespace Lineage

namespace Yaml

namespace Spelling

def isPrintable (character : Char) : Bool :=
  let code := character.toNat
  code = 0xA || (0x20 ≤ code && code ≤ 0x7E) || (0xA0 ≤ code && code ≤ 0xD7FF)
    || (0xE000 ≤ code && code ≤ 0xFFFD && code ≠ 0xFEFF) || 0x10000 ≤ code

/-- Whether two neighbours in a list pass two tests. -/
def hasNeighbours (first second : Char → Bool) (characters : List Char) : Bool :=
  (characters.zip (characters.drop 1)).any fun (left, right) => first left && second right

def isSpace (character : Char) : Bool :=
  character = ' '

/-- Whether a gap begins with the rest of a text. -/
def beginsWithGap : List Char → Bool
  | [] => true
  | character :: _ => isBlank character || isBreak character || character = '\x00'

/-- Whether a later part of a plain scalar would end it. -/
def hasInnerMark : Bool → List Char → Bool
  | _, [] => false
  | afterGap, character :: rest =>
    (character = ':' && beginsWithGap rest) || (character = '#' && afterGap)
      || hasInnerMark (isBlank character || isBreak character || character = '\x00') rest

/-- Whether a text has a mark that keeps it from being a plain scalar. -/
def hasMark (characters : List Char) : Bool :=
  characters.take 3 = ['-', '-', '-'] || characters.take 3 = ['.', '.', '.']
    || match characters with
      | [] => false
      | first :: rest =>
        ['#', ',', '[', ']', '{', '}', '&', '*', '!', '|', '>', '\'', '"', '%', '@',
          '\u0060'].contains first
        || (['?', ':', '-'].contains first && beginsWithGap rest)
        || hasInnerMark (isBlank first || isBreak first) rest

/-- Whether a plain scalar with this spelling means the text itself. -/
def readsAsText (text : String) : Bool :=
  match Scalar.plain text with
  | some (.string _) => !Scalar.isPadded text.toList
  | _ => false

/-- Whether a text has characters, or blanks before line breaks, that can be
written only with escapes. -/
def needsEscapes (characters : List Char) : Bool :=
  characters.any (fun character => !isPrintable character)
    || hasNeighbours isSpace isBreak characters

def allowsSingleQuotes (characters : List Char) : Bool :=
  !needsEscapes characters && !hasNeighbours isBreak isSpace characters

def allowsBlock (characters : List Char) : Bool :=
  !needsEscapes characters && characters.getLast? ≠ some ' '

def allowsPlain (characters : List Char) : Bool :=
  allowsSingleQuotes characters
    && !characters.any isBreak
    && characters.head? ≠ some ' ' && characters.getLast? ≠ some ' '
    && !hasMark characters

def indentation (column : Nat) : List Char :=
  List.replicate column ' '

/-- A hexadecimal numeral with upper-case digits, filled up with zeros. -/
def hexadecimal (width number : Nat) : List Char :=
  let digits := (Nat.toDigits 16 number).map Char.toUpper
  List.replicate (width - digits.length) '0' ++ digits

/-- The letter of the escape of a character that has one. -/
def escapeLetter? (character : Char) : Option Char :=
  match character with
  | '\x00' => some '0'
  | '\x07' => some 'a'
  | '\x08' => some 'b'
  | '\t' => some 't'
  | '\n' => some 'n'
  | '\x0b' => some 'v'
  | '\x0c' => some 'f'
  | '\r' => some 'r'
  | '\x1b' => some 'e'
  | '"' => some '"'
  | '\\' => some '\\'
  | '\u0085' => some 'N'
  | '\u00a0' => some '_'
  | '\u2028' => some 'L'
  | '\u2029' => some 'P'
  | _ => none

/-- A character as it is written between double quotes. -/
def escaped (character : Char) : List Char :=
  if isPrintable character && !isBreak character && character ≠ '"' && character ≠ '\\' then
    [character]
  else
    match escapeLetter? character with
    | some letter => ['\\', letter]
    | none =>
      let code := character.toNat
      if code ≤ 0xFF then ['\\', 'x'] ++ hexadecimal 2 code
      else if code ≤ 0xFFFF then ['\\', 'u'] ++ hexadecimal 4 code
      else ['\\', 'U'] ++ hexadecimal 8 code

def doubleQuoted (characters : List Char) : List Char :=
  ['"'] ++ characters.flatMap escaped ++ ['"']

/-- Writes the characters of a single-quoted text; the second argument says
whether a line break came last. -/
def singleQuotedBody (column : Nat) : Bool → List Char → List Char
  | afterBreak, [] => if afterBreak then indentation column else []
  | afterBreak, character :: rest =>
    if isBreak character then
      (if !afterBreak && character = '\n' then ['\n'] else []) ++ [character]
        ++ singleQuotedBody column true rest
    else if character = ' ' then character :: singleQuotedBody column afterBreak rest
    else
      (if afterBreak then indentation column else [])
        ++ (if character = '\'' then ['\'', '\''] else [character])
        ++ singleQuotedBody column false rest

def singleQuoted (column : Nat) (characters : List Char) : List Char :=
  ['\''] ++ singleQuotedBody column false characters ++ ['\'']

/-- Writes the lines of a block; the second argument says whether a line begins. -/
def blockBody (column : Nat) : Bool → List Char → List Char
  | _, [] => []
  | beginsLine, character :: rest =>
    if isBreak character then character :: blockBody column true rest
    else
      (if beginsLine then indentation column else []) ++ [character]
        ++ blockBody column false rest

/-- The marks in the header of a block: the indentation where the first line
hides it, and what becomes of the line breaks at the end. -/
def blockHeader (characters : List Char) : List Char :=
  let hint := if characters.head?.any fun first => first = ' ' || isBreak first then ['2'] else []
  let ending :=
    match characters.reverse with
    | [] => ['-']
    | last :: before =>
      if !isBreak last then ['-']
      else
        match before with
        | [] => ['+']
        | other :: _ => if isBreak other then ['+'] else []
  hint ++ ending

def block (column : Nat) (characters : List Char) : List Char :=
  ['|'] ++ blockHeader characters ++ ['\n'] ++ blockBody column true characters

/-- How a text is spelled where later lines begin in some column. -/
def spell (column : Nat) (text : String) : List Char :=
  let characters := text.toList
  if characters.contains '\n' then
    if allowsBlock characters then block column characters else doubleQuoted characters
  else if readsAsText text && allowsPlain characters then characters
  else if allowsSingleQuotes characters then singleQuoted column characters
  else doubleQuoted characters

/-- A spelled text with the line break that ends it, unless it brings one. -/
def endLine (spelled : List Char) : List Char :=
  if spelled.getLast?.any isBreak then spelled else spelled ++ ['\n']

end Spelling

end Yaml

end Lineage
