import Lineage.Json.Decode

/-!
# Keys of objects

A key names an object in a cluster: its namespace, kind and name together with
the API version in which its kind is to be understood.  Keys are ordered by
namespace, then kind, then name, then API version, each by code point.
-/

namespace Lineage

/-- The name of an object in a cluster. -/
structure Key where
  ns : String
  kind : String
  name : String
  apiVersion : String
  deriving DecidableEq, Repr, Inhabited

namespace Key

def objectText (key : Key) : String :=
  key.kind ++ " " ++ key.ns ++ "/" ++ key.name

/-- A key as messages show it. -/
def text (key : Key) : String :=
  key.objectText ++ " (" ++ key.apiVersion ++ ")"

/-- What a message shows where a key may be missing. -/
def textOrNone : Option Key → String
  | some key => key.text
  | none => "<none>"

/-- The parts of a key in the order in which they are compared. -/
def parts (key : Key) : List String :=
  [key.ns, key.kind, key.name, key.apiVersion]

/-- Whether one list of texts comes before another or equals it, compared item
by item and by code point. -/
def precedes : List String → List String → Bool
  | [], _ => true
  | _ :: _, [] => false
  | first :: rest, second :: others =>
    if first < second then true
    else if second < first then false
    else precedes rest others

/-- Whether one key comes before another or equals it. -/
def le (first second : Key) : Bool :=
  precedes first.parts second.parts

def sort (keys : List Key) : List Key :=
  keys.mergeSort le

def toJson (key : Key) : Json :=
  .object [("namespace", .string key.ns), ("kind", .string key.kind),
    ("name", .string key.name), ("apiVersion", .string key.apiVersion)]

/-- Decodes a key.  The API version is examined before the other parts, and
fields that no key has are ignored. -/
def ofJson : Json → Except DecodeFault Key
  | .object fields => do
    let apiVersion? ← Json.optionalField fields "apiVersion" Json.asText
    let apiVersion ← Json.demand "apiVersion" apiVersion?
    let kind? ← Json.optionalField fields "kind" Json.asText
    let name? ← Json.optionalField fields "name" Json.asText
    let namespace? ← Json.optionalField fields "namespace" Json.asText
    let ns ← Json.demand "namespace" namespace?
    let kind ← Json.demand "kind" kind?
    let name ← Json.demand "name" name?
    return { ns, kind, name, apiVersion }
  | found => .error (.wrongType found "struct ControllerKeyWithApiVersion")

end Key

end Lineage
