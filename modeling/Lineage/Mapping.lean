import Lineage.GroupVersion
import Lineage.Json.Decode

/-!
# Resource mappings

A mapping says which collection serves the objects of a kind: the group and
version of the API, the plural name of the collection, and whether its objects
belong to namespaces.
-/

namespace Lineage

/-- A collection of the API that serves a kind. -/
structure Mapping where
  group : String
  version : String
  resource : String
  kind : String
  namespaced : Bool
  deriving DecidableEq, Repr, Inhabited

namespace Mapping

def groupVersion (mapping : Mapping) : GroupVersion :=
  ⟨mapping.group, mapping.version⟩

def apiVersion (mapping : Mapping) : String :=
  mapping.groupVersion.text

def text (mapping : Mapping) : String :=
  mapping.apiVersion ++ "/" ++ mapping.resource

def toJson (mapping : Mapping) : Json :=
  .object [("group", .string mapping.group), ("version", .string mapping.version),
    ("resource", .string mapping.resource), ("kind", .string mapping.kind),
    ("namespaced", .bool mapping.namespaced)]

/-- What is expected where a mapping is too short a list. -/
def lengthText : String :=
  "struct ResourceMapping with 5 elements"

/-- Decodes the items of a list as the five parts of a mapping, in order. -/
def ofItems (items : List Json) : Except DecodeFault Mapping := do
  let at? (index : Nat) : Except DecodeFault Json :=
    match items[index]? with
    | some item => .ok item
    | none => .error (.wrongLength index lengthText)
  let group ← Json.asText (← at? 0)
  let version ← Json.asText (← at? 1)
  let resource ← Json.asText (← at? 2)
  let kind ← Json.asText (← at? 3)
  let namespaced ← Json.asBool (← at? 4)
  if items.length = 5 then return { group, version, resource, kind, namespaced }
  else throw (.wrongLength items.length "fewer elements in array")

/-- Decodes a mapping from an object, or from a list of its parts. -/
def ofJson : Json → Except DecodeFault Mapping
  | .object fields => do
    let group? ← Json.optionalField fields "group" Json.asText
    let kind? ← Json.optionalField fields "kind" Json.asText
    let namespaced? ← Json.optionalField fields "namespaced" Json.asBool
    let resource? ← Json.optionalField fields "resource" Json.asText
    let version? ← Json.optionalField fields "version" Json.asText
    let group ← Json.demand "group" group?
    let version ← Json.demand "version" version?
    let resource ← Json.demand "resource" resource?
    let kind ← Json.demand "kind" kind?
    let namespaced ← Json.demand "namespaced" namespaced?
    return { group, version, resource, kind, namespaced }
  | .array items => ofItems items
  | found => .error (.wrongType found "struct ResourceMapping")

end Mapping

/-- How a client of the API addresses the objects of a mapping. -/
structure Resource where
  group : String
  version : String
  apiVersion : String
  kind : String
  plural : String
  deriving DecidableEq, Repr

namespace Resource

/-- The resource that a mapping addresses. -/
def ofMapping (mapping : Mapping) : Resource :=
  { group := mapping.group
    version := mapping.version
    apiVersion := if mapping.group = "" then mapping.version
      else mapping.group ++ "/" ++ mapping.version
    kind := mapping.kind
    plural := mapping.resource }

end Resource

end Lineage
