import Lineage.Text.Table

/-!
# Blanks around words

Trimming removes the white space at both ends of a text, where white space is
the set of characters in `blankTable`.  A list of words is written with commas
between them.
-/

namespace Lineage

namespace Text

def isBlank (character : Char) : Bool :=
  inTable blankTable character.toNat

/-- The characters that remain when the white space at both ends is removed. -/
def trimChars (characters : List Char) : List Char :=
  (((characters.dropWhile isBlank).reverse).dropWhile isBlank).reverse

/-- A text without the white space at its two ends. -/
def trim (text : String) : String :=
  String.ofList (trimChars text.toList)

/-- The pieces of a text between the occurrences of a separator. -/
def split (separator : Char) (text : String) : List String :=
  (text.toList.splitOn separator).map String.ofList

/-- Cuts a list at the first occurrence of a separator, if there is one. -/
def splitFirst (separator : Char) : List Char → Option (List Char × List Char)
  | [] => none
  | character :: rest =>
    if character = separator then some ([], rest)
    else (splitFirst separator rest).map fun (front, back) => (character :: front, back)

end Text

end Lineage
