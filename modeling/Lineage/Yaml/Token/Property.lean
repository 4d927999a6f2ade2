import Lineage.Number.Natural
import Lineage.Yaml.Cursor
import Lineage.Yaml.Token

/-!
# Anchors, tags and directives

An anchor names a node and an alias repeats it.  A tag says what a node is: it
is written out between angle brackets, or as a handle and a suffix.  Directives
stand before a document and give the version of the notation or what a handle
is short for.
-/

namespace Lineage

namespace Yaml

def endsName (cursor : Cursor) : Bool :=
  cursor.isGap 0 || (cursor.at? 0).any fun character =>
    ['?', ':', ',', ']', '}', '%', '@', '\u0060'].contains character

/-- Reads the name of an anchor or an alias, whose mark has been read. -/
def readName (cursor : Cursor) : Option (String × Cursor) :=
  let (name, rest) := cursor.readWhile isWord
  if name.isEmpty || !endsName rest then none else some (String.ofList name, rest)

/-- The value of the two hexadecimal digits of an escape at a position. -/
def escapedByte (cursor : Cursor) : Option Nat := do
  if !cursor.isAt 0 '%' then none
  else
    let high ← (cursor.at? 1).bind (Natural.digitValue? 16)
    let low ← (cursor.at? 2).bind (Natural.digitValue? 16)
    some (high * 16 + low)

/-- The number of bytes that a character has in all, by its first byte. -/
def byteCount (first : Nat) : Option Nat :=
  if first < 0x80 then some 1
  else if first / 0x20 = 0x6 then some 2
  else if first / 0x10 = 0xE then some 3
  else if first / 0x8 = 0x1E then some 4
  else none

/-- Reads the further bytes of an escaped character. -/
def readContinuation : Nat → List Nat → Cursor → Option (List Nat × Cursor)
  | 0, bytes, cursor => some (bytes, cursor)
  | count + 1, bytes, cursor => do
    let byte ← escapedByte cursor
    if byte / 0x40 = 0x2 then readContinuation count (bytes ++ [byte]) (cursor.skip 3) else none

/-- Reads one character that is written as escaped bytes. -/
def readEscapedChar (cursor : Cursor) : Option (Char × Cursor) := do
  let first ← escapedByte cursor
  let count ← byteCount first
  let (bytes, rest) ← readContinuation (count - 1) [first] (cursor.skip 3)
  let text ← String.fromUTF8? (ByteArray.mk (bytes.map UInt8.ofNat).toArray)
  let character ← text.toList.head?
  some (character, rest)

def isTagChar (isVerbatim : Bool) (character : Char) : Bool :=
  isWord character
    || [';', '/', '?', ':', '@', '&', '=', '+', '$', '.', '!', '~', '*', '\'', '(', ')'].contains
        character
    || (isVerbatim && [',', '[', ']'].contains character)

/-- Reads the characters of a tag as long as they may stand in one. -/
def readTagChars (isVerbatim : Bool) : Nat → List Char → Cursor → Option (List Char × Cursor)
  | 0, collected, cursor => some (collected, cursor)
  | fuel + 1, collected, cursor =>
    match cursor.at? 0 with
    | some '%' => do
      let (character, rest) ← readEscapedChar cursor
      readTagChars isVerbatim fuel (collected ++ [character]) rest
    | some character =>
      if isTagChar isVerbatim character then
        readTagChars isVerbatim fuel (collected ++ [character]) (cursor.skip 1)
      else some (collected, cursor)
    | none => some (collected, cursor)

/-- Reads a tag that continues some beginning, of which the first character is
left out.  Without a beginning it may not be empty. -/
def readTagText (isVerbatim : Bool) (beginning : List Char) (cursor : Cursor) :
    Option (List Char × Cursor) := do
  let (characters, rest) ← readTagChars isVerbatim (cursor.rest.length + 1) [] cursor
  if beginning.isEmpty && characters.isEmpty then none
  else some (beginning.drop 1 ++ characters, rest)

/-- Reads a tag handle.  In a directive it must be closed unless it is the
primary one. -/
def readHandle (isDirective : Bool) (cursor : Cursor) : Option (List Char × Cursor) :=
  if !cursor.isAt 0 '!' then none
  else
    let (word, rest) := (cursor.skip 1).readWhile isWord
    if rest.isAt 0 '!' then some ('!' :: word ++ ['!'], rest.skip 1)
    else if isDirective && !word.isEmpty then none
    else some ('!' :: word, rest)

def readTag (isFlow : Bool) (cursor : Cursor) : Option (Token × Cursor) := do
  let (handle, suffix, rest) ←
    if cursor.isAt 1 '<' then do
      let (suffix, rest) ← readTagText true [] (cursor.skip 2)
      if rest.isAt 0 '>' then some ([], suffix, rest.skip 1) else none
    else do
      let (handle, rest) ← readHandle false cursor
      if 1 < handle.length && handle.getLast? = some '!' then do
        let (suffix, rest) ← readTagText false [] rest
        some (handle, suffix, rest)
      else do
        let (suffix, rest) ← readTagText false handle rest
        if suffix.isEmpty then some ([], ['!'], rest) else some (['!'], suffix, rest)
  if rest.isGap 0 || (isFlow && rest.isAt 0 ',') then
    some (.tag (String.ofList handle) (String.ofList suffix), rest)
  else none

def readVersionNumber (cursor : Cursor) : Option (Nat × Cursor) :=
  let (digits, rest) := cursor.readWhile fun character => '0' ≤ character && character ≤ '9'
  if digits.isEmpty || 9 < digits.length then none
  else some (digits.foldl (fun value digit => value * 10 + (digit.toNat - 48)) 0, rest)

def readVersion (cursor : Cursor) : Option (Token × Cursor) := do
  let (major, rest) ← readVersionNumber (cursor.skipWhile isBlank)
  if !rest.isAt 0 '.' then none
  else
    let (minor, rest) ← readVersionNumber (rest.skip 1)
    some (.versionDirective major minor, rest)

/-- Reads the handle of a directive and what it is short for. -/
def readExpansion (cursor : Cursor) : Option (Token × Cursor) := do
  let (handle, rest) ← readHandle true (cursor.skipWhile isBlank)
  if !rest.atBlank then none
  else
    let (expansion, rest) ← readTagText true [] (rest.skipWhile isBlank)
    if rest.isGap 0 then
      some (.tagDirective (String.ofList handle) (String.ofList expansion), rest)
    else none

/-- The position after the rest of a line that may hold blanks and a comment. -/
def skipComment (cursor : Cursor) : Option Cursor :=
  let rest := cursor.skipWhile isBlank
  let rest := if rest.isAt 0 '#' then rest.skipWhile fun character => !isBreak character else rest
  if rest.atEnd then some rest
  else if rest.atBreak then some rest.skipBreak
  else none

def readDirective (cursor : Cursor) : Option (Token × Cursor) := do
  let (name, rest) := (cursor.skip 1).readWhile isWord
  if name.isEmpty || !rest.isGap 0 then none
  else
    let (token, rest) ←
      if String.ofList name = "YAML" then readVersion rest
      else if String.ofList name = "TAG" then readExpansion rest
      else none
    let rest ← skipComment rest
    some (token, rest)

end Yaml

end Lineage
