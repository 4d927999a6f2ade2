import Lineage.Text.Blank

/-!
# Addresses of requests

An address is a path, which a question mark or a number sign ends; what follows
is the query or is dropped.  Only some characters may stand in a path and in a
query.  An address with any other character is never requested.
-/

namespace Lineage

namespace Address

def isPathCharacter (character : Char) : Bool :=
  let code := character.toNat
  code = 0x21 || (0x24 ≤ code && code ≤ 0x3B) || code = 0x3D || (0x40 ≤ code && code ≤ 0x5F)
    || (0x61 ≤ code && code ≤ 0x7A) || code = 0x7C || code = 0x7E
    || character = '"' || character = '\x7b' || character = '\x7d' || 0x7F ≤ code

def isQueryCharacter (character : Char) : Bool :=
  let code := character.toNat
  code = 0x21 || (0x24 ≤ code && code ≤ 0x3B) || code = 0x3D || 0x3F ≤ code

/-- Whether the rest of an address after its path may be requested. -/
def isEnding : List Char → Bool
  | [] => true
  | '?' :: query => (query.takeWhile (· ≠ '#')).all isQueryCharacter
  | _ => true

/-- The path of an address; nothing if the address may not be requested. -/
def path? (address : String) : Option String :=
  let characters := address.toList
  let isPath (character : Char) : Bool := character ≠ '?' && character ≠ '#'
  let path := characters.takeWhile isPath
  if path.all isPathCharacter && isEnding (characters.dropWhile isPath) then
    some (String.ofList path)
  else none

/-- An address put together from the segments of its path. -/
def ofSegments (segments : List String) : String :=
  String.join (segments.map fun segment => "/" ++ segment)

end Address

end Lineage
