import Lineage.Number.Natural
import Lineage.Yaml.Cursor
import Lineage.Yaml.Token

/-!
# Scalars

A scalar is written plainly, between quotes, or as a block of lines.  Inside a
plain or quoted scalar a single line break counts as a space and further breaks
count as they are.  A block keeps its line breaks, or folds them in the same way
between lines that do not begin with a blank; what happens to the breaks at its
end is said in its header.
-/

namespace Lineage

namespace Yaml

/-- The blanks and line breaks between two pieces of a scalar: the blanks of the
first line, the first break, and the breaks after it. -/
structure Gap where
  blanks : List Char
  firstBreak : List Char
  otherBreaks : List Char
  hasBreak : Bool

namespace Gap

def none : Gap :=
  { blanks := [], firstBreak := [], otherBreaks := [], hasBreak := false }

/-- What line breaks count as when they are folded. -/
def folded (firstBreak otherBreaks : List Char) : List Char :=
  if firstBreak.head? = some '\n' then
    if otherBreaks.isEmpty then [' '] else otherBreaks
  else firstBreak ++ otherBreaks

/-- What a gap counts as inside a scalar. -/
def text (gap : Gap) : List Char :=
  if gap.hasBreak then folded gap.firstBreak gap.otherBreaks else gap.blanks

end Gap

/-- Reads the blanks and line breaks at a position.  Where a least column is
given, no tab may stand before it on a later line. -/
def readGap (least : Nat) : Nat → Gap → Cursor → Option (Gap × Cursor)
  | 0, gap, cursor => some (gap, cursor)
  | fuel + 1, gap, cursor =>
    match cursor.at? 0 with
    | some character =>
      if isBlank character then
        if gap.hasBreak then
          if cursor.column < least && character = '\t' then none
          else readGap least fuel gap (cursor.skip 1)
        else readGap least fuel { gap with blanks := gap.blanks ++ [character] } (cursor.skip 1)
      else if isBreak character then
        let (ending, rest) := cursor.readBreak
        if gap.hasBreak then
          readGap least fuel { gap with otherBreaks := gap.otherBreaks ++ ending } rest
        else readGap least fuel { gap with firstBreak := ending, hasBreak := true } rest
      else some (gap, cursor)
    | none => some (gap, cursor)

/-- Whether a plain scalar ends at a position; nothing if the position is one
where it may not stand. -/
def endsPlain (isFlow : Bool) (cursor : Cursor) : Option Bool :=
  if isFlow && cursor.isAt 0 ':'
      && (cursor.at? 1).any [',', '?', '[', ']', '{', '}'].contains then
    none
  else
    some ((cursor.isAt 0 ':' && cursor.isGap 1)
      || (isFlow && ((cursor.at? 0).any fun character =>
          [',', '[', ']', '{', '}'].contains character)))

/-- Reads the characters of a plain scalar up to a gap or its end. -/
def readPlainPiece (isFlow : Bool) : Nat → List Char → Cursor → Option (List Char × Cursor)
  | 0, piece, cursor => some (piece.reverse, cursor)
  | fuel + 1, piece, cursor => do
    if cursor.isGap 0 then some (piece.reverse, cursor)
    else if ← endsPlain isFlow cursor then some (piece.reverse, cursor)
    else readPlainPiece isFlow fuel ((cursor.rest.head?.toList) ++ piece) (cursor.skip 1)

/-- Reads a plain scalar whose lines after the first must be indented at least
to some column: its text, whether a line break follows it, and the position
where the next token may begin. -/
def readPlain (isFlow : Bool) (least : Nat) :
    Nat → List Char → Gap → Cursor → Option (List Char × Bool × Cursor)
  | 0, text, gap, cursor => some (text, gap.hasBreak, cursor)
  | fuel + 1, text, gap, cursor => do
    if cursor.atDocumentMarker || cursor.isAt 0 '#' then some (text, gap.hasBreak, cursor)
    else
      let (piece, rest) ← readPlainPiece isFlow (cursor.rest.length + 1) [] cursor
      let (text, gap) :=
        if piece.isEmpty then (text, gap) else (text ++ gap.text ++ piece, Gap.none)
      if !(rest.atBlank || rest.atBreak) then some (text, gap.hasBreak, rest)
      else
        let (gap, rest) ← readGap least (rest.rest.length + 1) gap rest
        if !isFlow && rest.column < least then some (text, gap.hasBreak, rest)
        else readPlain isFlow least fuel text gap rest

def simpleEscape? (character : Char) : Option Char :=
  match character with
  | '0' => some '\x00'
  | 'a' => some '\x07'
  | 'b' => some '\x08'
  | 't' => some '\t'
  | '\t' => some '\t'
  | 'n' => some '\n'
  | 'v' => some '\x0b'
  | 'f' => some '\x0c'
  | 'r' => some '\r'
  | 'e' => some '\x1b'
  | ' ' => some ' '
  | '"' => some '"'
  | '/' => some '/'
  | '\\' => some '\\'
  | 'N' => some '\u0085'
  | '_' => some '\u00a0'
  | 'L' => some '\u2028'
  | 'P' => some '\u2029'
  | _ => none

/-- The number of hexadecimal digits after the letter of an escape. -/
def escapeLength? (character : Char) : Option Nat :=
  match character with
  | 'x' => some 2
  | 'u' => some 4
  | 'U' => some 8
  | _ => none

/-- Reads an escape, whose backslash stands at the position. -/
def readEscape (cursor : Cursor) : Option (Char × Cursor) := do
  let letter ← cursor.at? 1
  match simpleEscape? letter with
  | some character => some (character, cursor.skip 2)
  | none =>
    let length ← escapeLength? letter
    let digits := (cursor.rest.drop 2).take length
    if digits.length < length then none
    else
      let code ← digits.foldlM (fun value digit =>
        (Natural.digitValue? 16 digit).map fun digit => value * 16 + digit) 0
      if (0xD800 ≤ code && code ≤ 0xDFFF) || 0x10FFFF < code then none
      else some (Char.ofNat code, cursor.skip (2 + length))

/-- Reads the characters of a quoted scalar up to a gap or its closing quote,
and whether an escaped line break came last. -/
def readQuotedPiece (quote : Char) : Nat → List Char → Cursor → Option (List Char × Bool × Cursor)
  | 0, piece, cursor => some (piece.reverse, false, cursor)
  | fuel + 1, piece, cursor =>
    if cursor.isGap 0 then some (piece.reverse, false, cursor)
    else if quote = '\'' && cursor.isAt 0 '\'' && cursor.isAt 1 '\'' then
      readQuotedPiece quote fuel ('\'' :: piece) (cursor.skip 2)
    else if cursor.isAt 0 quote then some (piece.reverse, false, cursor)
    else if quote = '"' && cursor.isAt 0 '\\' then
      if (cursor.at? 1).any isBreak then some (piece.reverse, true, (cursor.skip 1).skipBreak)
      else
        match readEscape cursor with
        | some (character, rest) => readQuotedPiece quote fuel (character :: piece) rest
        | none => none
    else readQuotedPiece quote fuel ((cursor.rest.head?.toList) ++ piece) (cursor.skip 1)

def readQuoted (quote : Char) : Nat → List Char → Cursor → Option (List Char × Cursor)
  | 0, _, _ => none
  | fuel + 1, text, cursor => do
    if cursor.atDocumentMarker || cursor.atEnd then none
    else
      let (piece, hasBreak, rest) ← readQuotedPiece quote (cursor.rest.length + 1) [] cursor
      let text := text ++ piece
      if rest.isAt 0 quote then some (text, rest.skip 1)
      else
        let (gap, rest) ← readGap 0 (rest.rest.length + 1) { Gap.none with hasBreak } rest
        readQuoted quote fuel (text ++ gap.text) rest

/-- What happens to the line breaks at the end of a block. -/
inductive Chomping where
  | strip
  | clip
  | keep
  deriving DecidableEq, Repr

/-- Reads a mark for the line breaks at the end of a block. -/
def readChomping (cursor : Cursor) : Option (Chomping × Cursor) :=
  if cursor.isAt 0 '+' then some (.keep, cursor.skip 1)
  else if cursor.isAt 0 '-' then some (.strip, cursor.skip 1)
  else none

/-- Reads the number of columns by which a block is indented. -/
def readIncrement (cursor : Cursor) : Option (Option (Nat × Cursor)) :=
  match cursor.at? 0 with
  | some character =>
    if character = '0' then none
    else if '0' < character && character ≤ '9' then
      some (some (character.toNat - '0'.toNat, cursor.skip 1))
    else some none
  | none => some none

/-- Reads the header of a block: its two marks in either order, and the rest of
the line. -/
def readBlockHeader (cursor : Cursor) : Option (Chomping × Option Nat × Cursor) := do
  let finish (chomping : Chomping) (increment : Option Nat) (cursor : Cursor) :
      Option (Chomping × Option Nat × Cursor) :=
    let rest := cursor.skipWhile isBlank
    let rest := if rest.isAt 0 '#' then rest.skipWhile fun character => !isBreak character else rest
    if rest.atEnd then some (chomping, increment, rest)
    else if rest.atBreak then some (chomping, increment, rest.skipBreak)
    else none
  match readChomping cursor with
  | some (chomping, rest) =>
    match ← readIncrement rest with
    | some (increment, rest) => finish chomping (some increment) rest
    | none => finish chomping none rest
  | none =>
    match ← readIncrement cursor with
    | some (increment, rest) =>
      match readChomping rest with
      | some (chomping, rest) => finish chomping (some increment) rest
      | none => finish .clip (some increment) rest
    | none => finish .clip none cursor

/-- Reads indentation and empty lines: the breaks, the deepest column that was
reached, and the position of the first character after them.  A depth of zero
means that the depth of the block is still unknown. -/
def readBlockBreaks (depth : Nat) :
    Nat → List Char → Nat → Cursor → Option (List Char × Nat × Cursor)
  | 0, breaks, deepest, cursor => some (breaks, deepest, cursor)
  | fuel + 1, breaks, deepest, cursor =>
    let spaces := (cursor.rest.takeWhile (· = ' ')).length
    let count := if depth = 0 then spaces else min spaces (depth - cursor.column)
    let rest := cursor.skip count
    let deepest := max deepest rest.column
    if (depth = 0 || rest.column < depth) && rest.isAt 0 '\t' then none
    else if rest.atBreak then
      let (ending, rest) := rest.readBreak
      readBlockBreaks depth fuel (breaks ++ ending) deepest rest
    else some (breaks, deepest, rest)

/-- What has been read of a block: its text, the break after the last line, the
breaks of the empty lines after it, and whether the last line began with a blank. -/
structure BlockText where
  text : List Char
  lineBreak : List Char
  emptyLines : List Char
  wasBlank : Bool

def readBlockLines (isFolded : Bool) (depth : Nat) :
    Nat → BlockText → Cursor → Option (BlockText × Cursor)
  | 0, block, cursor => some (block, cursor)
  | fuel + 1, block, cursor => do
    if cursor.column ≠ depth || cursor.atEnd then some (block, cursor)
    else
      let isBlankLine := cursor.atBlank
      let between :=
        if isFolded && block.lineBreak.head? = some '\n' && !block.wasBlank && !isBlankLine then
          if block.emptyLines.isEmpty then [' '] else []
        else block.lineBreak
      let (line, rest) := cursor.readWhile fun character => !isBreak character
      let (lineBreak, rest) := rest.readBreak
      let (emptyLines, _, rest) ← readBlockBreaks depth (rest.rest.length + 1) [] 0 rest
      readBlockLines isFolded depth fuel
        { text := block.text ++ between ++ block.emptyLines ++ line
          lineBreak, emptyLines, wasBlank := isBlankLine } rest

/-- Reads a block scalar inside a block of some indentation. -/
def readBlock (isFolded : Bool) (indent : Int) (cursor : Cursor) : Option (Token × Cursor) := do
  let (chomping, increment?, rest) ← readBlockHeader (cursor.skip 1)
  let fuel := rest.rest.length + 1
  let known : Nat :=
    match increment? with
    | some increment => (if 0 ≤ indent then indent.toNat else 0) + increment
    | none => 0
  let (emptyLines, deepest, rest) ← readBlockBreaks known fuel [] 0 rest
  let depth := if known = 0 then max (max deepest (indent + 1).toNat) 1 else known
  let (block, rest) ← readBlockLines isFolded depth fuel ⟨[], [], emptyLines, false⟩ rest
  let ending :=
    match chomping with
    | .strip => []
    | .clip => block.lineBreak
    | .keep => block.lineBreak ++ block.emptyLines
  let style : ScalarStyle := if isFolded then .folded else .literal
  some (.scalar style (String.ofList (block.text ++ ending)), rest)

end Yaml

end Lineage
