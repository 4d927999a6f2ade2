import Lineage.Api.Reply
import Lineage.Kind
import Lineage.Store

/-!
# Objects of the API

Of an object only its metadata matter here: its name and namespace, its version
and the references to its owners.  All other metadata must have the right types,
and the object must name its kind rightly where it names it at all.  A list of
objects comes in pages, each of which says whether another one follows.
-/

namespace Lineage

namespace Owner

def decode? : Json → Option Owner
  | .object fields => do
    let apiVersion ← Wire.text fields "apiVersion"
    let _ ← Wire.optional fields "blockOwnerDeletion" Wire.flag?
    let controller ← Wire.optional fields "controller" Wire.flag?
    let kind ← Wire.text fields "kind"
    let name ← Wire.text fields "name"
    let uid ← Wire.text fields "uid"
    return { apiVersion, kind, name, uid, controller }
  | _ => none

end Owner

/-- What the metadata of an object say. -/
structure Metadata where
  ns : Option String
  name : Option String
  version : String
  owners : List Owner
  deriving DecidableEq, Repr, Inhabited

namespace Metadata

def empty : Metadata :=
  { ns := none, name := none, version := "", owners := [] }

/-- The metadata that are texts and of no consequence here. -/
def otherTexts : List String :=
  ["creationTimestamp", "deletionTimestamp", "generateName", "selfLink", "uid"]

def decode? : Json → Option Metadata
  | .object fields => do
    let _ ← otherTexts.mapM (Wire.text fields)
    let _ ← ["annotations", "labels"].mapM fun name => Wire.optional fields name Wire.texts?
    let _ ← ["deletionGracePeriodSeconds", "generation"].mapM fun name =>
      Wire.optional fields name (Wire.integer? 64)
    let _ ← Wire.optional fields "finalizers" (Wire.list? Json.text?)
    let _ ← Wire.optional fields "managedFields" (Wire.list? Wire.fields?)
    let ns ← Wire.optional fields "namespace" Json.text?
    let name ← Wire.optional fields "name" Json.text?
    let version ← Wire.text fields "resourceVersion"
    let owners ← Wire.field fields "ownerReferences" (Wire.list? Owner.decode?) []
    return { ns, name, version, owners }
  | _ => none

/-- Decodes an object of a kind down to its metadata. -/
def ofObject? (kind apiVersion : String) : Json → Option Metadata
  | .object fields => do
    Wire.ofKind fields kind apiVersion
    let _ ← ["spec", "status"].mapM fun name => Wire.optional fields name Wire.fields?
    Wire.field fields "metadata" decode? empty
  | _ => none

/-- The object that a store holds for these metadata, which must have a name. -/
def stored? (metadata : Metadata) : Option StoredObject :=
  metadata.name.map fun name => { ns := metadata.ns, name, owners := metadata.owners }

end Metadata

namespace WorkloadKind

/-- Decodes an object of a workload kind. -/
def decodeObject? (kind : WorkloadKind) : Json → Option Metadata :=
  Metadata.ofObject? kind.name kind.apiVersion

end WorkloadKind

/-- A page of a list of objects. -/
structure Page where
  objects : List Metadata
  continuation : String
  version : String
  deriving DecidableEq, Repr

namespace Page

/-- Decodes what a page says about its list: how to go on and the version. -/
def heading? : Json → Option (String × String)
  | .object fields => do
    let continuation ← Wire.text fields "continue"
    let _ ← Wire.optional fields "remainingItemCount" (Wire.integer? 64)
    let version ← Wire.text fields "resourceVersion"
    let _ ← Wire.text fields "selfLink"
    return (continuation, version)
  | _ => none

/-- The items of a page, which may be null but not missing. -/
def items? : Option Json → Option (List Json)
  | some (.array items) => some items
  | some .null => some []
  | _ => none

def decode? (kind : WorkloadKind) : Json → Option Page
  | .object fields => do
    if ["metadata", "items"].any (Wire.isRepeated fields) then none
    let (continuation, version) ←
      match Json.lookup "metadata" fields with
      | some value => heading? value
      | none => some ("", "")
    let items ← items? (Json.lookup "items" fields)
    let objects ← items.mapM kind.decodeObject?
    return { objects, continuation, version }
  | _ => none

/-- Whether a page belongs to a list that can be followed: another page is to
come, or the list has a version. -/
def isUsable (page : Page) : Bool :=
  !page.continuation.isEmpty || !page.version.isEmpty

end Page

namespace Scale

/-- Decodes a part of a scale that counts replicas. -/
def counts? : Json → Option Unit
  | .object fields => do
    let _ ← Wire.optional fields "replicas" (Wire.integer? 32)
    let _ ← Wire.text fields "selector"
    return ()
  | _ => none

def decode? : Json → Option (List Owner)
  | .object fields => do
    Wire.ofKind fields "Scale" "autoscaling/v1"
    let _ ← Wire.optional fields "spec" counts?
    let _ ← Wire.optional fields "status" counts?
    let metadata ← Wire.field fields "metadata" Metadata.decode? Metadata.empty
    return metadata.owners
  | _ => none

end Scale

namespace Pod

def decode? (value : Json) : Option (List Owner) :=
  (Metadata.ofObject? "Pod" "v1" value).map Metadata.owners

end Pod

/-- What a watched collection tells of a change. -/
inductive Notice where
  | written (object : StoredObject)
  | deleted (object : StoredObject)
  /-- All changes up to some version have been told. -/
  | passed
  /-- The list is too old, or the notice lacks a version: list again. -/
  | outdated
  /-- The notice is of no use. -/
  | broken
  /-- An object without a name, which no store can hold. -/
  | nameless
  deriving DecidableEq, Repr

namespace Notice

/-- A change of an object, which must have a version. -/
def change (said : StoredObject → Notice) (metadata : Metadata) : Notice :=
  if metadata.version.isEmpty then outdated
  else
    match metadata.stored? with
    | some object => said object
    | none => nameless

/-- Whether a value marks how far the changes have been told. -/
def isMark (value : Json) : Bool :=
  ((value.field? "metadata").bind (Json.field? "resourceVersion")).any fun version =>
    version.text?.isSome

/-- What a server says of a failure while a collection is watched.  That the
version is gone means that the list is too old. -/
def failure (refusal : Refusal) : Notice :=
  if refusal.code = 410 then outdated else broken

/-- Reads a notice about a collection of some kind. -/
def ofJson (kind : WorkloadKind) (line : Json) : Notice :=
  let object := (line.field? "object").getD .null
  match (line.field? "type").bind Json.text? with
  | some "ADDED" => ((kind.decodeObject? object).map (change written)).getD broken
  | some "MODIFIED" => ((kind.decodeObject? object).map (change written)).getD broken
  | some "DELETED" => ((kind.decodeObject? object).map (change deleted)).getD broken
  | some "BOOKMARK" => if isMark object then passed else broken
  | some "ERROR" => ((Refusal.ofJson object).map failure).getD broken
  | _ => broken

end Notice

end Lineage
