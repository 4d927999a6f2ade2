import Lineage.Ascent
import Lineage.Index

/-!
# Clusters that never change

A world lists what each of the three questions is answered: the objects in the
stores, the mappings in an index, and the scales.  In each list the first entry
that matches a question answers it.  The number of owner references in a world
bounds the hops of every ascent in it.
-/

namespace Lineage

/-- What a store answers under a name. -/
structure CacheEntry where
  kind : WorkloadKind
  ns : String
  name : String
  content : Except Cause Workload

def CacheEntry.owners (entry : CacheEntry) : List Owner :=
  match entry.content with
  | .ok workload => workload.owners
  | .error _ => []

/-- What the scale lookup answers for an object of a collection. -/
structure ScaleEntry where
  resource : String
  ns : String
  name : String
  content : Except Cause (List Owner)

def ScaleEntry.owners (entry : ScaleEntry) : List Owner :=
  match entry.content with
  | .ok owners => owners
  | .error _ => []

/-- A cluster whose answers are listed. -/
structure World where
  cache : List CacheEntry
  mapper : Except Cause Index
  scales : List ScaleEntry

namespace World

/-- What the store of a kind holds under a name. -/
def cached (world : World) (kind : WorkloadKind) (ns name : String) :
    Except Cause (Option Workload) :=
  match world.cache.find? fun entry => entry.kind = kind && entry.ns = ns && entry.name = name with
  | none => .ok none
  | some entry => entry.content.map some

def mapped (world : World) (group kind : String) : Except Cause (List Mapping) :=
  world.mapper.map fun index => index.lookup group kind

def noScale (mapping : Mapping) (ns name : String) : Cause :=
  .text (mapping.text ++ " " ++ ns ++ "/" ++ name ++ " has no scale")

/-- The owners that the scale of an object reports. -/
def scaled (world : World) (mapping : Mapping) (ns name : String) : Except Cause (List Owner) :=
  match world.scales.find? fun entry =>
      entry.resource = mapping.text && entry.ns = ns && entry.name = name with
  | none => .error (noScale mapping ns name)
  | some entry => entry.content

/-- A world as a cluster without a state. -/
def cluster (world : World) : Cluster Unit where
  cached kind ns name := pure (world.cached kind ns name)
  mapped group kind := pure (world.mapped group kind)
  scaled mapping ns name := pure (world.scaled mapping ns name)

/-- The parent of a key in a world. -/
def parentOf (world : World) (kinds : KindSet) (key : Key) : Except Fault (Option Key) :=
  (world.cluster.parentOf kinds key ()).1

def references (world : World) : List Owner :=
  world.cache.flatMap CacheEntry.owners ++ world.scales.flatMap ScaleEntry.owners

/-- A number of hops that no ascent in a world exhausts. -/
def hops (world : World) : Nat :=
  world.references.length + 1

/-- The root of the chain of owners that begins at a key of a world. -/
def findTopLevel (world : World) (kinds : KindSet) (start : Option Key) :
    Except Fault (Option Key) :=
  (world.cluster.findTopLevel kinds world.hops start ()).1

end World

end Lineage
