import Lineage.Json.Basic
import Lineage.Json.Printer

/-!
# Reading typed data out of structured values

A decoder turns a structured value into data of one type or says what is wrong.
The wording of a fault names what was found and what was expected.  An object
is examined in the order of its field names, so of two fields of a wrong type
the one whose name comes first is reported, and a missing field is reported
only after every present one has been read.
-/

namespace Lineage

/-- Why a structured value does not decode. -/
inductive DecodeFault where
  | wrongType (found : Json) (expected : String)
  | wrongValue (found : Json) (expected : String)
  | missingField (name : String)
  | wrongLength (length : Nat) (expected : String)
  | unknownVariant (name : String) (variants : List String)

namespace Json

/-- How a message names a value that was found. -/
def describe : Json → String
  | null => "null"
  | bool true => "boolean `true`"
  | bool false => "boolean `false`"
  | integer value => "integer `" ++ renderInteger value ++ "`"
  | float value => "floating point `" ++ Double.positional value ++ "`"
  | string value => "string " ++ Text.quoted value
  | array _ => "sequence"
  | object _ => "map"

end Json

namespace DecodeFault

/-- The names of variants as a message lists them. -/
def listed (variants : List String) : String :=
  ", ".intercalate (variants.map fun name => "`" ++ name ++ "`")

def message : DecodeFault → String
  | wrongType found expected => "invalid type: " ++ found.describe ++ ", expected " ++ expected
  | wrongValue found expected => "invalid value: " ++ found.describe ++ ", expected " ++ expected
  | missingField name => "missing field `" ++ name ++ "`"
  | wrongLength length expected =>
    "invalid length " ++ Natural.render length ++ ", expected " ++ expected
  | unknownVariant name variants =>
    "unknown variant `" ++ name ++ "`, expected one of " ++ listed variants

end DecodeFault

namespace Json

def asText : Json → Except DecodeFault String
  | string value => .ok value
  | found => .error (.wrongType found "a string")

def asBool : Json → Except DecodeFault Bool
  | bool value => .ok value
  | found => .error (.wrongType found "a boolean")

def asWord : Json → Except DecodeFault UInt64
  | integer value =>
    if 0 ≤ value ∧ value < Nat.pow 2 64 then .ok (UInt64.ofNat value.toNat)
    else .error (.wrongValue (integer value) "u64")
  | found => .error (.wrongType found "u64")

/-- Decodes a list, its items from left to right. -/
def asList {α : Type} (decodeItem : Json → Except DecodeFault α) :
    Json → Except DecodeFault (List α)
  | array items => items.mapM decodeItem
  | found => .error (.wrongType found "a sequence")

def optionalField {α : Type} (fields : List (String × Json)) (name : String)
    (decode : Json → Except DecodeFault α) : Except DecodeFault (Option α) :=
  match lookup name fields with
  | some value => (decode value).map some
  | none => .ok none

def demand {α : Type} (name : String) : Option α → Except DecodeFault α
  | some value => .ok value
  | none => .error (.missingField name)

end Json

end Lineage
