/-!
# Bytes as text

A sequence of bytes is cut into characters and into pieces that are no
character.  A piece is as long as a beginning of some character can be, so one
that breaks off is a single piece, and a byte that can begin none is one too.
Bytes are text when there are no such pieces; otherwise each piece can be shown
by a replacement character.
-/

namespace Lineage

namespace Text

/-- How many bytes a character has after its first byte, and the range in which
the second one must lie. -/
def continuation? (first : Nat) : Option (Nat × Nat × Nat) :=
  if 0xC2 ≤ first ∧ first ≤ 0xDF then some (1, 0x80, 0xBF)
  else if first = 0xE0 then some (2, 0xA0, 0xBF)
  else if first = 0xED then some (2, 0x80, 0x9F)
  else if 0xE1 ≤ first ∧ first ≤ 0xEF then some (2, 0x80, 0xBF)
  else if first = 0xF0 then some (3, 0x90, 0xBF)
  else if 0xF1 ≤ first ∧ first ≤ 0xF3 then some (3, 0x80, 0xBF)
  else if first = 0xF4 then some (3, 0x80, 0x8F)
  else none

/-- Takes the remaining bytes of a character: its code point if they are all
there, and what follows the bytes that belong to it. -/
def continueChar : Nat → Nat → Nat → Nat → List Nat → Option Nat × List Nat
  | 0, _, _, code, rest => (some code, rest)
  | count + 1, low, high, code, byte :: rest =>
    if low ≤ byte ∧ byte ≤ high then
      continueChar count 0x80 0xBF (code * 0x40 + byte % 0x40) rest
    else (none, byte :: rest)
  | _ + 1, _, _, _, [] => (none, [])

/-- The characters of a sequence of bytes, with nothing for a piece that is none. -/
def decodeFrom : Nat → List Nat → List (Option Char)
  | 0, _ => []
  | _ + 1, [] => []
  | fuel + 1, first :: rest =>
    if first < 0x80 then some (Char.ofNat first) :: decodeFrom fuel rest
    else
      match continuation? first with
      | none => none :: decodeFrom fuel rest
      | some (count, low, high) =>
        let lead :=
          if count = 1 then first % 0x20 else if count = 2 then first % 0x10 else first % 8
        let (code?, rest) := continueChar count low high lead rest
        code?.map Char.ofNat :: decodeFrom fuel rest

/-- The characters of a sequence of bytes, with nothing for a piece that is none. -/
def decode (bytes : List Nat) : List (Option Char) :=
  decodeFrom bytes.length bytes

/-- The text that bytes spell, if they are text. -/
def ofBytes? (bytes : List Nat) : Option String :=
  ((decode bytes).mapM id).map String.ofList

/-- The text that bytes spell, with a replacement character for each piece that
is no character. -/
def ofBytesLossy (bytes : List Nat) : String :=
  String.ofList ((decode bytes).map fun character? => character?.getD '\ufffd')

def bytesOfHex : List Char → List Nat
  | high :: low :: rest => (value high * 16 + value low) :: bytesOfHex rest
  | _ => []
where
  /-- The value of a hexadecimal digit. -/
  value (digit : Char) : Nat :=
    if '0' ≤ digit ∧ digit ≤ '9' then digit.toNat - '0'.toNat
    else if 'a' ≤ digit ∧ digit ≤ 'f' then digit.toNat - 'a'.toNat + 10
    else digit.toNat - 'A'.toNat + 10

end Text

end Lineage
