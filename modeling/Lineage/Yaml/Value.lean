/-!
# Values of documents

A value is null, a truth value, a number, a text, a sequence, a mapping, or a
value under a tag.  Two mappings are the same when they have the same entries
in any order.

Merging lays one value over another.  Where both are mappings, the keys of both
are kept and the values of common keys are merged in turn; anything else is
replaced.

Whether two values are equal, entry by entry and in order, can be decided.
-/

namespace Lineage

namespace Yaml

/-- A value that a document holds. -/
inductive Value where
  | null
  | bool (value : Bool)
  | integer (value : Int)
  | float (value : Float)
  | string (value : String)
  | sequence (items : List Value)
  | mapping (entries : List (Value × Value))
  | tagged (tag : String) (value : Value)
  deriving Inhabited

namespace Value

mutual

/-- Whether two values are the same.  A number with a point is the same as
another if they are equal or if neither is a number. -/
def same : Value → Value → Bool
  | null, null => true
  | bool first, bool second => first == second
  | integer first, integer second => first == second
  | float first, float second => first == second || (first.isNaN && second.isNaN)
  | string first, string second => first == second
  | sequence first, sequence second => sameItems first second
  | mapping first, mapping second =>
    first.length == second.length && sameEntries first second
  | tagged first value, tagged second other => first == second && same value other
  | _, _ => false

def sameItems : List Value → List Value → Bool
  | [], [] => true
  | item :: rest, other :: others => same item other && sameItems rest others
  | _, _ => false

def sameEntries : List (Value × Value) → List (Value × Value) → Bool
  | [], _ => true
  | (key, value) :: rest, others =>
    (others.any fun other => same key other.1 && same value other.2) && sameEntries rest others

end

/-- The value that a list of entries has under a key. -/
def lookup (key : Value) : List (Value × Value) → Option Value
  | [] => none
  | (other, value) :: rest => if same key other then some value else lookup key rest

/-- A list of entries without the one under a key. -/
def remove (key : Value) (entries : List (Value × Value)) : List (Value × Value) :=
  entries.filter fun entry => !same key entry.1

/-- The value that a mapping has under a key that is a text. -/
def field? (name : String) : Value → Option Value
  | mapping entries => lookup (string name) entries
  | _ => none

mutual

/-- Lays the second value over the first. -/
def merge (base : Value) : Value → Value
  | mapping others =>
    match base with
    | mapping entries => mapping (mergeEntries entries others)
    | _ => mapping others
  | other => other

/-- Lays entries over those of a mapping, one after another. -/
def mergeEntries (entries : List (Value × Value)) : List (Value × Value) → List (Value × Value)
  | [] => entries
  | (key, value) :: rest =>
    let merged :=
      match lookup key entries with
      | some present => merge present value
      | none => value
    mergeEntries (remove key entries ++ [(key, merged)]) rest

end

def untagged : Value → Value
  | tagged _ value => untagged value
  | other => other

mutual

/-- Whether two values are equal, with their entries in the same order. -/
def equals : Value → Value → Bool
  | null, null => true
  | bool first, bool second => first = second
  | integer first, integer second => first = second
  | float first, float second => first = second
  | string first, string second => first = second
  | sequence first, sequence second => equalItems first second
  | mapping first, mapping second => equalEntries first second
  | tagged first value, tagged second other => first = second && equals value other
  | _, _ => false

def equalItems : List Value → List Value → Bool
  | [], [] => true
  | item :: rest, other :: others => equals item other && equalItems rest others
  | _, _ => false

def equalEntries : List (Value × Value) → List (Value × Value) → Bool
  | [], [] => true
  | (key, value) :: rest, (other, second) :: others =>
    equals key other && equals value second && equalEntries rest others
  | _, _ => false

end

mutual

theorem equals_iff : ∀ first second : Value, equals first second = true ↔ first = second
  | null, second => by cases second <;> simp [equals]
  | bool value, second => by cases second <;> simp [equals]
  | integer value, second => by cases second <;> simp [equals]
  | float value, second => by cases second <;> simp [equals]
  | string value, second => by cases second <;> simp [equals]
  | sequence items, second => by
      cases second <;> simp [equals, equalItems_iff items]
  | mapping entries, second => by
      cases second <;> simp [equals, equalEntries_iff entries]
  | tagged tag value, second => by
      cases second <;> simp [equals, equals_iff value]

theorem equalItems_iff :
    ∀ first second : List Value, equalItems first second = true ↔ first = second
  | [], second => by cases second <;> simp [equalItems]
  | item :: rest, second => by
      cases second <;> simp [equalItems, equals_iff item, equalItems_iff rest]

theorem equalEntries_iff :
    ∀ first second : List (Value × Value), equalEntries first second = true ↔ first = second
  | [], second => by cases second <;> simp [equalEntries]
  | (key, value) :: rest, second => by
      cases second <;>
        simp [equalEntries, equals_iff key, equals_iff value, equalEntries_iff rest, Prod.ext_iff]

end

instance : DecidableEq Value := fun first second =>
  decidable_of_iff (equals first second = true) (equals_iff first second)

end Value

end Yaml

end Lineage
