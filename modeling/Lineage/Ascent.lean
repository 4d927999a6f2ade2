import Lineage.Cluster

/-!
# Ascending a chain of owners

The parent of a key is its controlling owner.  A key whose kind is enabled is
looked up in the store of that kind; the parent of every other key comes from
the first scale that one of the mappings of its group and kind yields.

An ascent follows parents from a key until it meets a key without a parent, the
root, or a key that it has already resolved, or until a lookup fails.  A key is
marked before it is resolved, so an object that owns itself is noticed as well.
The ascent is given a number of hops that it may make.  A cluster that reports
finitely many owners never exhausts a number above theirs, because no key is
resolved twice.
-/

namespace Lineage

namespace Cluster

variable {σ : Type}

/-- The parent of a key whose object is in the store of a kind. -/
def storedParent (cluster : Cluster σ) (kind : WorkloadKind) (key : Key) :
    StateM σ (Except Fault (Option Key)) := do
  match ← cluster.cached kind key.ns key.name with
  | .error source => return .error (.cacheLookup kind.name key.ns key.name source)
  | .ok none => return .error (.notFound kind.name key.ns key.name)
  | .ok (some workload) =>
    if workload.kind = kind then return .ok (Owner.controlling workload.owners key.ns)
    else return .error (.unsupportedKind kind.name workload.kind.name key.ns key.name)

/-- The owners that the first available scale reports.  If none is available,
the cause is the one that came last, or the given one if nothing was tried. -/
def firstScale (cluster : Cluster σ) (ns name : String) (last : Cause) :
    List Mapping → StateM σ (Except Cause (List Owner))
  | [] => return .error last
  | mapping :: others => do
    match ← cluster.scaled mapping ns name with
    | .ok owners => return .ok owners
    | .error cause => firstScale cluster ns name cause others

/-- The owners of an object of some group and kind, as its scale reports them. -/
def scaleOwners (cluster : Cluster σ) (group kind ns name : String) :
    StateM σ (Except Cause (List Owner)) := do
  match ← cluster.mapped group kind with
  | .error cause => return .error cause
  | .ok mappings => firstScale cluster ns name (.noMapping group kind) mappings

/-- The parent of a key whose object is reached through its scale. -/
def servedParent (cluster : Cluster σ) (key : Key) : StateM σ (Except Fault (Option Key)) := do
  match GroupVersion.parse key.apiVersion with
  | none => return .error (.malformed key.apiVersion)
  | some groupVersion =>
    match ← cluster.scaleOwners groupVersion.group key.kind key.ns key.name with
    | .ok owners => return .ok (Owner.controlling owners key.ns)
    | .error source => return .error (.scaleUnavailable key.apiVersion key.kind key.name source)

/-- The parent of a key, where objects of the enabled kinds are in stores. -/
def parentOf (cluster : Cluster σ) (kinds : KindSet) (key : Key) :
    StateM σ (Except Fault (Option Key)) :=
  match kinds.find? key.kind with
  | some kind => cluster.storedParent kind key
  | none => cluster.servedParent key

end Cluster

/-- How an ascent ends. -/
inductive Ending where
  | root (key : Key)
  | failed (fault : Fault)
  | cycle (key : Key)
  | unfinished
  deriving DecidableEq, Repr

/-- The keys that an ascent resolved, the latest first, and how it ended. -/
structure Ascent where
  visited : List Key
  ending : Ending
  deriving DecidableEq, Repr

namespace Ascent

/-- Ascends from a key that has not been resolved yet, making at most the given
number of hops. -/
def climb {σ : Type} (parent : Key → StateM σ (Except Fault (Option Key))) :
    Nat → List Key → Key → StateM σ Ascent
  | 0, visited, _ => return ⟨visited, .unfinished⟩
  | hops + 1, visited, current => do
    match ← parent current with
    | .error fault => return ⟨current :: visited, .failed fault⟩
    | .ok none => return ⟨current :: visited, .root current⟩
    | .ok (some owner) =>
      if owner ∈ current :: visited then return ⟨current :: visited, .cycle owner⟩
      else climb parent hops (current :: visited) owner

/-- The answer that an ascent gives.  One that ran out of hops gives no key. -/
def answer (ascent : Ascent) : Except Fault (Option Key) :=
  match ascent.ending with
  | .root key => .ok (some key)
  | .failed fault => .error fault
  | .cycle key => .error (.cycleDetected key)
  | .unfinished => .ok none

end Ascent

namespace Cluster

/-- The ascent from a key. -/
def ascend {σ : Type} (cluster : Cluster σ) (kinds : KindSet) (hops : Nat) (start : Key) :
    StateM σ Ascent :=
  Ascent.climb (cluster.parentOf kinds) hops [] start

/-- The root of the chain of owners that begins at a key.  Without a key there
is no root, and nothing is asked. -/
def findTopLevel {σ : Type} (cluster : Cluster σ) (kinds : KindSet) (hops : Nat)
    (start : Option Key) : StateM σ (Except Fault (Option Key)) := do
  match start with
  | none => return .ok none
  | some key => return (← cluster.ascend kinds hops key).answer

end Cluster

end Lineage
