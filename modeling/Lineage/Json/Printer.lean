import Lineage.Json.Basic
import Lineage.Number.Double
import Lineage.Text.Quoted

/-!
# Writing structured values

A value is written either on one line without blanks, or over several lines
with two blanks for each level.  Both forms spell texts and numbers alike: only
quotes, backslashes and control characters are escaped.
-/

namespace Lineage

namespace Json

def escapedChar (character : Char) : List Char :=
  match character with
  | '"' => ['\\', '"']
  | '\\' => ['\\', '\\']
  | '\x08' => ['\\', 'b']
  | '\x0c' => ['\\', 'f']
  | '\n' => ['\\', 'n']
  | '\r' => ['\\', 'r']
  | '\t' => ['\\', 't']
  | other =>
    if other.toNat < 0x10 then ("\\u000" ++ Text.hexadecimal other.toNat).toList
    else if other.toNat < 0x20 then ("\\u00" ++ Text.hexadecimal other.toNat).toList
    else [other]

def renderText (text : String) : String :=
  "\"" ++ String.ofList (text.toList.flatMap escapedChar) ++ "\""

def renderInteger (value : Int) : String :=
  if value < 0 then "-" ++ Natural.render value.natAbs else Natural.render value.natAbs

mutual

/-- A value on one line, its fields in the order in which it holds them. -/
def render : Json → String
  | null => "null"
  | bool true => "true"
  | bool false => "false"
  | integer value => renderInteger value
  | float value => Double.compact value
  | string value => renderText value
  | array items => "[" ++ renderItems items ++ "]"
  | object fields => "\x7b" ++ renderFields fields ++ "\x7d"

def renderItems : List Json → String
  | [] => ""
  | [item] => render item
  | item :: rest => render item ++ "," ++ renderItems rest

def renderFields : List (String × Json) → String
  | [] => ""
  | [(name, value)] => renderText name ++ ":" ++ render value
  | (name, value) :: rest => renderText name ++ ":" ++ render value ++ "," ++ renderFields rest

end

def indentation (level : Nat) : String :=
  String.ofList (List.replicate (2 * level) ' ')

mutual

/-- A value over several lines, for a place at some level. -/
def renderLines (level : Nat) : Json → String
  | array [] => "[]"
  | object [] => "\x7b\x7d"
  | array items => "[\n" ++ renderItemLines (level + 1) items ++ "\n" ++ indentation level ++ "]"
  | object fields =>
    "\x7b\n" ++ renderFieldLines (level + 1) fields ++ "\n" ++ indentation level ++ "\x7d"
  | other => render other

def renderItemLines (level : Nat) : List Json → String
  | [] => ""
  | [item] => indentation level ++ renderLines level item
  | item :: rest =>
    indentation level ++ renderLines level item ++ ",\n" ++ renderItemLines level rest

def renderFieldLines (level : Nat) : List (String × Json) → String
  | [] => ""
  | [(name, value)] => indentation level ++ renderText name ++ ": " ++ renderLines level value
  | (name, value) :: rest =>
    indentation level ++ renderText name ++ ": " ++ renderLines level value ++ ",\n"
      ++ renderFieldLines level rest

end

def pretty (value : Json) : String :=
  renderLines 0 value

end Json

end Lineage
