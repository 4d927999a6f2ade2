import Lineage.Yaml.Token.Property
import Lineage.Yaml.Token.Scalar

/-!
# Layout of a document text

Tokens are read from left to right while the indentation of the open blocks is
kept on a stack.  Whether a piece of text is the key of a mapping is known only
when the colon after it is reached, so the place of every piece that may turn
out to be a key is remembered, one for each level of brackets; the tokens that
mark a key are put there afterwards.  Such a piece must lie on one line and may
not be longer than 1024 characters.  A piece that can only be a key, because it
stands where the keys of the open block begin, must turn out to be one.
-/

namespace Lineage

namespace Yaml

/-- A place in the tokens where a key may begin. -/
structure PendingKey where
  isPossible : Bool
  isRequired : Bool
  place : Nat
  index : Nat
  line : Nat
  column : Nat

namespace PendingKey

def none : PendingKey :=
  { isPossible := false, isRequired := false, place := 0, index := 0, line := 0, column := 0 }

end PendingKey

/-- What is known while tokens are read: the position, the tokens so far, the
indentation of the open blocks, the places of possible keys, and whether a key
may begin at the position. -/
structure Layout where
  cursor : Cursor
  tokens : Array Token
  indent : Int
  outerIndents : List Int
  pending : PendingKey
  outerPending : List PendingKey
  allowsKey : Bool

namespace Layout

def start (characters : List Char) : Layout :=
  { cursor := Cursor.start characters
    tokens := #[]
    indent := -1
    outerIndents := []
    pending := PendingKey.none
    outerPending := []
    allowsKey := true }

def isFlow (layout : Layout) : Bool :=
  !layout.outerPending.isEmpty

def emit (layout : Layout) (token : Token) : Layout :=
  { layout with tokens := layout.tokens.push token }

/-- Adds a token for what stands at the position. -/
def emitMark (layout : Layout) (token : Token) (length : Nat) : Layout :=
  { layout.emit token with cursor := layout.cursor.skip length }

/-- Opens a block if a column lies beyond the indentation, at a place in the
tokens. -/
def openBlock (layout : Layout) (column place : Nat) (token : Token) : Layout :=
  if layout.isFlow || (column : Int) ≤ layout.indent then layout
  else
    { layout with
      indent := column
      outerIndents := layout.indent :: layout.outerIndents
      tokens := layout.tokens.insertIdxIfInBounds place token }

/-- Opens a block at the position. -/
def openBlockHere (layout : Layout) (token : Token) : Layout :=
  layout.openBlock layout.cursor.column layout.tokens.size token

def closeBlocks (column : Int) : List Int → Layout → Layout
  | [], layout => layout
  | outer :: others, layout =>
    if column < layout.indent then
      closeBlocks column others
        { layout.emit .blockEnd with indent := outer, outerIndents := others }
    else layout

/-- Closes blocks unless the position lies inside brackets. -/
def closeTo (layout : Layout) (column : Int) : Layout :=
  if layout.isFlow then layout else closeBlocks column layout.outerIndents layout

/-- Gives up the possible key of the current level; nothing if it had to be one. -/
def dropKey (layout : Layout) : Option Layout :=
  if layout.pending.isPossible && layout.pending.isRequired then none
  else some { layout with pending := { layout.pending with isPossible := false } }

/-- Remembers the position as one where a key may begin. -/
def markKey (layout : Layout) : Option Layout :=
  if layout.allowsKey then do
    let layout ← layout.dropKey
    some { layout with
      pending :=
        { isPossible := true
          isRequired := !layout.isFlow && layout.indent = (layout.cursor.column : Int)
          place := layout.tokens.size
          index := layout.cursor.index
          line := layout.cursor.line
          column := layout.cursor.column } }
  else some layout

/-- Gives up a possible key that the position has left behind. -/
def refreshKey (cursor : Cursor) (pending : PendingKey) : Option PendingKey :=
  if pending.isPossible && (pending.line < cursor.line || pending.index + 1024 < cursor.index) then
    if pending.isRequired then none else some { pending with isPossible := false }
  else some pending

def refreshKeys (layout : Layout) : Option Layout := do
  let pending ← refreshKey layout.cursor layout.pending
  let outerPending ← layout.outerPending.mapM (refreshKey layout.cursor)
  some { layout with pending, outerPending }

/-- Skips blanks, comments and line breaks up to the next token. -/
def skipToToken : Nat → Layout → Layout
  | 0, layout => layout
  | fuel + 1, layout =>
    let cursor := layout.cursor
    let cursor := if cursor.index = 0 && cursor.isAt 0 '\ufeff' then cursor.skip 1 else cursor
    let allowsTab := layout.isFlow || !layout.allowsKey
    let cursor := cursor.skipWhile fun character =>
      character = ' ' || (allowsTab && character = '\t')
    let cursor := if cursor.isAt 0 '#' then cursor.skipWhile fun character => !isBreak character
      else cursor
    if cursor.atBreak then
      skipToToken fuel
        { layout with
          cursor := cursor.skipBreak
          allowsKey := layout.allowsKey || !layout.isFlow }
    else { layout with cursor }

def enterFlow (layout : Layout) : Layout :=
  { layout with
    pending := PendingKey.none
    outerPending := layout.pending :: layout.outerPending }

def leaveFlow (layout : Layout) : Layout :=
  match layout.outerPending with
  | [] => layout
  | outer :: others => { layout with pending := outer, outerPending := others }

def readDocumentMark (layout : Layout) (token : Token) : Option Layout := do
  let layout ← (layout.closeTo (-1)).dropKey
  some { layout.emitMark token 3 with allowsKey := false }

def readOpening (layout : Layout) (token : Token) : Option Layout := do
  let layout ← layout.markKey
  some { layout.enterFlow.emitMark token 1 with allowsKey := true }

def readClosing (layout : Layout) (token : Token) : Option Layout := do
  let layout ← layout.dropKey
  some { layout.leaveFlow.emitMark token 1 with allowsKey := false }

def readComma (layout : Layout) : Option Layout := do
  let layout ← layout.dropKey
  some { layout.emitMark .flowEntry 1 with allowsKey := true }

def readItemMark (layout : Layout) : Option Layout := do
  if !layout.isFlow && !layout.allowsKey then none
  else
    let layout ← (layout.openBlockHere .blockSequenceStart).dropKey
    some { layout.emitMark .blockEntry 1 with allowsKey := true }

def readKeyMark (layout : Layout) : Option Layout := do
  if !layout.isFlow && !layout.allowsKey then none
  else
    let layout ← (layout.openBlockHere .blockMappingStart).dropKey
    some { layout.emitMark .key 1 with allowsKey := !layout.isFlow }

/-- Reads the mark of a value.  What stood where a key may begin is a key now. -/
def readValueMark (layout : Layout) : Option Layout :=
  let key := layout.pending
  if key.isPossible then
    let layout :=
      { layout with
        tokens := layout.tokens.insertIdxIfInBounds key.place .key
        pending := { key with isPossible := false } }
    let layout := layout.openBlock key.column key.place .blockMappingStart
    some { layout.emitMark .value 1 with allowsKey := false }
  else if !layout.isFlow && !layout.allowsKey then none
  else
    let layout := layout.openBlockHere .blockMappingStart
    some { layout.emitMark .value 1 with allowsKey := !layout.isFlow }

/-- Adds a token that may be the beginning of a key, and moves on. -/
def emitKeyed (layout : Layout) (read : Cursor → Option (Token × Cursor)) : Option Layout := do
  let layout ← layout.markKey
  let (token, cursor) ← read layout.cursor
  some { layout.emit token with cursor, allowsKey := false }

def readPlainScalar (layout : Layout) : Option Layout := do
  let layout ← layout.markKey
  let (text, endsLine, cursor) ←
    readPlain layout.isFlow (layout.indent + 1).toNat (layout.cursor.rest.length + 1) [] Gap.none
      layout.cursor
  some { layout.emit (.scalar .plain (String.ofList text)) with cursor, allowsKey := endsLine }

def readBlockScalar (layout : Layout) (isFolded : Bool) : Option Layout := do
  let layout ← layout.dropKey
  let (token, cursor) ← readBlock isFolded layout.indent layout.cursor
  some { layout.emit token with cursor, allowsKey := true }

def readQuotedScalar (layout : Layout) (quote : Char) (style : ScalarStyle) : Option Layout :=
  layout.emitKeyed fun cursor => do
    let (text, rest) ← readQuoted quote (cursor.rest.length + 1) [] (cursor.skip 1)
    some (.scalar style (String.ofList text), rest)

/-- Reads a name after a mark. -/
def readNamed (layout : Layout) (token : String → Token) : Option Layout :=
  layout.emitKeyed fun cursor => do
    let (name, rest) ← readName (cursor.skip 1)
    some (token name, rest)

def mayBeginPlain (isFlow : Bool) (cursor : Cursor) : Bool :=
  (cursor.at? 0).any fun character =>
    if character = '-' then !((cursor.at? 1).any isBlank)
    else if character = '?' || character = ':' then !isFlow && !cursor.isGap 1
    else !(isBlank character || isBreak character
      || [',', '[', ']', '{', '}', '#', '&', '*', '!', '|', '>', '\'', '"', '%', '@',
          '\u0060'].contains character)

/-- Reads the tokens for what stands at the position, which is not the end. -/
def readToken (layout : Layout) : Option Layout :=
  let cursor := layout.cursor
  let opensMark (character : Char) := cursor.isAt 0 character && (layout.isFlow || cursor.isGap 1)
  if cursor.column = 0 && cursor.isAt 0 '%' then do
    let layout ← (layout.closeTo (-1)).dropKey
    let (token, cursor) ← readDirective layout.cursor
    some { layout.emit token with cursor, allowsKey := false }
  else if cursor.atDocumentMarker then
    layout.readDocumentMark (if cursor.isAt 0 '-' then .documentStart else .documentEnd)
  else if cursor.isAt 0 '[' then layout.readOpening .flowSequenceStart
  else if cursor.isAt 0 '{' then layout.readOpening .flowMappingStart
  else if cursor.isAt 0 ']' then layout.readClosing .flowSequenceEnd
  else if cursor.isAt 0 '}' then layout.readClosing .flowMappingEnd
  else if cursor.isAt 0 ',' then layout.readComma
  else if cursor.isAt 0 '-' && cursor.isGap 1 then layout.readItemMark
  else if opensMark '?' then layout.readKeyMark
  else if opensMark ':' then layout.readValueMark
  else if cursor.isAt 0 '*' then layout.readNamed .alias
  else if cursor.isAt 0 '&' then layout.readNamed .anchor
  else if cursor.isAt 0 '!' then layout.emitKeyed (readTag layout.isFlow)
  else if cursor.isAt 0 '|' && !layout.isFlow then layout.readBlockScalar false
  else if cursor.isAt 0 '>' && !layout.isFlow then layout.readBlockScalar true
  else if cursor.isAt 0 '\'' then layout.readQuotedScalar '\'' .singleQuoted
  else if cursor.isAt 0 '"' then layout.readQuotedScalar '"' .doubleQuoted
  else if mayBeginPlain layout.isFlow cursor then layout.readPlainScalar
  else none

/-- Ends the text: all blocks are closed, and no key may be left open. -/
def finish (layout : Layout) : Option Layout := do
  let layout ← (layout.closeTo (-1)).dropKey
  some (layout.emit .streamEnd)

/-- Reads tokens up to the end of the text, or up to where it is malformed. -/
def run : Nat → Layout → Layout
  | 0, layout => layout.emit .malformed
  | fuel + 1, layout =>
    let layout := skipToToken (layout.cursor.rest.length + 1) layout
    match layout.refreshKeys with
    | none => layout.emit .malformed
    | some layout =>
      let layout := layout.closeTo layout.cursor.column
      if layout.cursor.atEnd then (layout.finish).getD (layout.emit .malformed)
      else
        match layout.readToken with
        | some layout => run fuel layout
        | none => layout.emit .malformed

end Layout

/-- The tokens of a document text.  A byte order mark at its beginning does not
count, and a character that no document may contain makes it malformed. -/
def tokens (text : String) : List Token :=
  let characters :=
    match text.toList with
    | '\ufeff' :: rest => rest
    | characters => characters
  if characters.all isAllowed then
    (Layout.run (characters.length + 1) (Layout.start characters)).tokens.toList
  else [.malformed]

end Yaml

end Lineage
