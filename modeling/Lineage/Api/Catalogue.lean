import Lineage.Api.Wire
import Lineage.Mapping

/-!
# Catalogues of the API

The server tells which groups its API has, which versions a group has, and which
resources each version serves.  A resource whose name has a slash is a part of
another one and serves no objects of its own.  A resource belongs to the group
and version that head its list unless it names others, and whether its objects
belong to namespaces is what the first resource of that name says.
-/

namespace Lineage

/-- A group in the catalogue of all groups. -/
structure GroupEntry where
  name : String
  versions : List String
  preferred : Option String
  deriving DecidableEq, Repr

/-- A resource in the catalogue of a version. -/
structure ResourceEntry where
  name : String
  kind : String
  namespaced : Bool
  group : Option String
  version : Option String
  deriving DecidableEq, Repr

/-- The catalogue of a version: its heading and its resources. -/
structure ResourceList where
  heading : String
  resources : List ResourceEntry
  deriving DecidableEq, Repr

namespace Catalogue

/-- Decodes the address at which some clients find the server. -/
def serverAddress? : Json → Option Unit
  | .object fields => do
    let _ ← Wire.text fields "clientCIDR"
    let _ ← Wire.text fields "serverAddress"
    return ()
  | _ => none

/-- Insists on the type of the addresses of the server. -/
def serverAddresses (fields : List (String × Json)) : Option Unit := do
  let _ ← Wire.optional fields "serverAddressByClientCIDRs" (Wire.list? serverAddress?)
  return ()

def groupVersion? : Json → Option String
  | .object fields => do
    let _ ← Wire.text fields "groupVersion"
    Wire.text fields "version"
  | _ => none

def group? : Json → Option GroupEntry
  | .object fields => do
    Wire.ofKind fields "APIGroup" "v1"
    let name ← Wire.text fields "name"
    let preferred ← Wire.optional fields "preferredVersion" groupVersion?
    serverAddresses fields
    let versions ← Wire.field fields "versions" (Wire.list? groupVersion?) []
    return { name, versions, preferred }
  | _ => none

/-- Decodes the catalogue of all groups except the core group. -/
def groups? : Json → Option (List GroupEntry)
  | .object fields => do
    Wire.ofKind fields "APIGroupList" "v1"
    Wire.field fields "groups" (Wire.list? group?) []
  | _ => none

/-- Decodes the catalogue of the versions of the core group. -/
def coreVersions? : Json → Option (List String)
  | .object fields => do
    Wire.ofKind fields "APIVersions" "v1"
    serverAddresses fields
    Wire.field fields "versions" (Wire.list? Json.text?) []
  | _ => none

def resource? : Json → Option ResourceEntry
  | .object fields => do
    let _ ← ["categories", "shortNames", "verbs"].mapM fun name =>
      Wire.optional fields name (Wire.list? Json.text?)
    let _ ← ["singularName", "storageVersionHash"].mapM (Wire.text fields)
    let group ← Wire.optional fields "group" Json.text?
    let kind ← Wire.text fields "kind"
    let name ← Wire.text fields "name"
    let namespaced ← Wire.field fields "namespaced" Wire.flag? false
    let version ← Wire.optional fields "version" Json.text?
    return { name, kind, namespaced, group, version }
  | _ => none

/-- Decodes the catalogue of a version. -/
def resources? : Json → Option ResourceList
  | .object fields => do
    Wire.ofKind fields "APIResourceList" "v1"
    let heading ← Wire.text fields "groupVersion"
    let resources ← Wire.field fields "resources" (Wire.list? resource?) []
    return { heading, resources }
  | _ => none

end Catalogue

namespace ResourceList

/-- Whether the objects of the resource of some name belong to namespaces. -/
def isNamespaced (list : ResourceList) (name : String) : Bool :=
  (list.resources.find? fun entry => entry.name = name).any ResourceEntry.namespaced

def mapping (list : ResourceList) (entry : ResourceEntry) : Mapping :=
  let heading := GroupVersion.ofListHeading list.heading
  { group := entry.group.getD heading.group
    version := entry.version.getD heading.version
    resource := entry.name
    kind := entry.kind
    namespaced := list.isNamespaced entry.name }

def mappings (list : ResourceList) : List Mapping :=
  (list.resources.filter fun entry => !entry.name.contains '/').map list.mapping

end ResourceList

end Lineage
