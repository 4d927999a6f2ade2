import Lineage.Mapping

/-!
# Index of resource mappings

An index answers which mappings serve a group and a kind.  It is a list of
buckets, one for every pair of a group and a kind that occurs, in the order in
which the pairs first occur.  A bucket keeps its mappings in the order in which
they were found and keeps every mapping once.
-/

namespace Lineage

/-- The mappings of one group and kind. -/
structure Bucket where
  group : String
  kind : String
  mappings : List Mapping
  deriving DecidableEq, Repr

/-- An index of resource mappings by group and kind. -/
structure Index where
  buckets : List Bucket
  deriving DecidableEq, Repr

namespace Index

def empty : Index :=
  ⟨[]⟩

/-- Whether a bucket is the one of some group and kind. -/
def serves (bucket : Bucket) (group kind : String) : Bool :=
  bucket.group = group && bucket.kind = kind

def addOnce (mappings : List Mapping) (mapping : Mapping) : List Mapping :=
  if mapping ∈ mappings then mappings else mappings ++ [mapping]

def insertBucket (mapping : Mapping) : List Bucket → List Bucket
  | [] => [⟨mapping.group, mapping.kind, [mapping]⟩]
  | bucket :: rest =>
    if serves bucket mapping.group mapping.kind then
      { bucket with mappings := addOnce bucket.mappings mapping } :: rest
    else bucket :: insertBucket mapping rest

def insert (index : Index) (mapping : Mapping) : Index :=
  ⟨insertBucket mapping index.buckets⟩

def ofList (mappings : List Mapping) : Index :=
  mappings.foldl insert empty

/-- The mappings that serve a group and a kind. -/
def lookup (index : Index) (group kind : String) : List Mapping :=
  match index.buckets.find? fun bucket => serves bucket group kind with
  | some bucket => bucket.mappings
  | none => []

/-- Every mapping of a group, bucket by bucket. -/
def group (index : Index) (name : String) : List Mapping :=
  (index.buckets.filter fun bucket => bucket.group = name).flatMap Bucket.mappings

/-- The mappings of a group in the order of their kinds, keeping the order
within each kind. -/
def groupByKind (index : Index) (name : String) : List Mapping :=
  (index.group name).mergeSort fun first second => !(second.kind < first.kind)

/-- Every mapping of an index, bucket by bucket. -/
def contents (index : Index) : List Mapping :=
  index.buckets.flatMap Bucket.mappings

/-- The number of mappings in an index. -/
def size (index : Index) : Nat :=
  index.contents.length

def isEmpty (index : Index) : Bool :=
  index.buckets.isEmpty

end Index

end Lineage
