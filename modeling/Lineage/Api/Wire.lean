import Lineage.Json.Basic

/-!
# Decoding what a server sends

What a server sends is decoded without a report of what is wrong with it: a
value either has the right type or it does not.  Where a field is missing or
null, the data have their empty value, but a field of a wrong type spoils the
whole value.  Objects of a known kind may name their kind, and then must name
it rightly.
-/

namespace Lineage

namespace Wire

def fields? : Json → Option (List (String × Json))
  | .object fields => some fields
  | _ => none

def flag? : Json → Option Bool
  | .bool value => some value
  | _ => none

/-- A whole number of at most the given number of bits, one of them for the sign. -/
def integer? (bits : Nat) : Json → Option Int
  | .integer value =>
    let bound : Int := Nat.pow 2 (bits - 1)
    if -bound ≤ value ∧ value < bound then some value else none
  | _ => none

/-- A natural number of at most the given number of bits. -/
def natural? (bits : Nat) : Json → Option Nat
  | .integer value => if 0 ≤ value ∧ value < Nat.pow 2 bits then some value.toNat else none
  | _ => none

def list? {α : Type} (decode : Json → Option α) : Json → Option (List α)
  | .array items => items.mapM decode
  | _ => none

/-- An object whose fields are all texts. -/
def texts? : Json → Option (List (String × String))
  | .object fields => fields.mapM fun (name, value) => value.text?.map fun text => (name, text)
  | _ => none

/-- A field that may be missing or null. -/
def optional {α : Type} (fields : List (String × Json)) (name : String) (decode : Json → Option α) :
    Option (Option α) :=
  match Json.lookup name fields with
  | none => some none
  | some .null => some none
  | some value => (decode value).map some

/-- A field that has an empty value where it is missing or null. -/
def field {α : Type} (fields : List (String × Json)) (name : String) (decode : Json → Option α)
    (empty : α) : Option α :=
  (optional fields name decode).map fun value? => value?.getD empty

def text (fields : List (String × Json)) (name : String) : Option String :=
  field fields name Json.text? ""

/-- Insists that a field, where it is present, holds exactly the given text. -/
def exactly (fields : List (String × Json)) (name expected : String) : Option Unit :=
  match Json.lookup name fields with
  | none => some ()
  | some (.string found) => if found = expected then some () else none
  | some _ => none

/-- Insists that an object, where it names its kind and API version, names these. -/
def ofKind (fields : List (String × Json)) (kind apiVersion : String) : Option Unit := do
  exactly fields "kind" kind
  exactly fields "apiVersion" apiVersion

/-- Whether a name occurs more than once among the fields of an object. -/
def isRepeated (fields : List (String × Json)) (name : String) : Bool :=
  1 < (fields.filter fun (other, _) => other = name).length

end Wire

end Lineage
