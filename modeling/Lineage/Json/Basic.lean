/-!
# Structured values

A structured value is null, a truth value, a number, a text, a list of values
or an object.  An object keeps its fields in the order in which they were
written, and a name that is written twice means its last value.
-/

namespace Lineage

/-- A structured value in the notation of the API server. -/
inductive Json where
  | null
  | bool (value : Bool)
  | integer (value : Int)
  | float (value : Float)
  | string (value : String)
  | array (items : List Json)
  | object (fields : List (String × Json))
  deriving Inhabited

namespace Json

/-- The last value that a list of fields gives to a name. -/
def lookup (name : String) : List (String × Json) → Option Json
  | [] => none
  | (other, value) :: rest =>
    match lookup name rest with
    | some later => some later
    | none => if other = name then some value else none

/-- The value of a field; nothing for a value that is no object. -/
def field? (name : String) : Json → Option Json
  | object fields => lookup name fields
  | _ => none

def text? : Json → Option String
  | string value => some value
  | _ => none

/-- Puts a field into a list that is sorted by name, replacing one of that name. -/
def insertSorted (name : String) (value : Json) : List (String × Json) → List (String × Json)
  | [] => [(name, value)]
  | (other, present) :: rest =>
    if name < other then (name, value) :: (other, present) :: rest
    else if name = other then (name, value) :: rest
    else (other, present) :: insertSorted name value rest

mutual

/-- The same value with every object sorted by name and every name kept once. -/
def canonical : Json → Json
  | array items => array (canonicalItems items)
  | object fields => object (canonicalFields [] fields)
  | other => other

/-- The canonical forms of the items of a list. -/
def canonicalItems : List Json → List Json
  | [] => []
  | item :: rest => canonical item :: canonicalItems rest

/-- Adds canonical fields to a sorted list, later ones replacing earlier ones. -/
def canonicalFields (sorted : List (String × Json)) :
    List (String × Json) → List (String × Json)
  | [] => sorted
  | (name, value) :: rest =>
    canonicalFields (insertSorted name (canonical value) sorted) rest

end

end Json

end Lineage
