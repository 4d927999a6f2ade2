import Lineage.Text.Table

/-!
# Quoted text

Messages show a piece of text between double quotes, so that its ends and its
invisible characters can be seen.  A quote or a backslash is written after a
backslash, the common control characters have one-letter names, and every
other character that has no visible form of its own, or that would attach
itself to the character before it, is written by its code point.
-/

namespace Lineage

namespace Text

/-- A numeral in base sixteen, with lower-case digits and no leading zeros. -/
def hexadecimal (number : Nat) : String :=
  String.ofList (Nat.toDigits 16 number)

/-- Whether a character is shown as it is inside quoted text. -/
def isVisible (character : Char) : Bool :=
  if character.toNat < 0x7F then 0x20 ≤ character.toNat
  else !inTable extendingTable character.toNat && !inTable unprintableTable character.toNat

/-- The spelling of one character inside quoted text. -/
def quotedChar (character : Char) : String :=
  match character with
  | '\x00' => "\\0"
  | '\t' => "\\t"
  | '\n' => "\\n"
  | '\r' => "\\r"
  | '"' => "\\\""
  | '\\' => "\\\\"
  | other =>
    if isVisible other then String.singleton other
    else "\\u\x7b" ++ hexadecimal other.toNat ++ "\x7d"

/-- A text between double quotes, with every character spelled visibly. -/
def quoted (text : String) : String :=
  "\"" ++ String.join (text.toList.map quotedChar) ++ "\""

end Text

end Lineage
