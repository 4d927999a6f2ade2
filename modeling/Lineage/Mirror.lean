import Lineage.Ascent
import Lineage.Store
import Lineage.Sync

/-!
# Mirrors of a cluster

A mirror has one store for each of the six workload kinds and follows the kinds
that are enabled in it.  Asking it for an object of a kind that it does not
follow fails; otherwise the store of that kind answers.
-/

namespace Lineage

/-- A store for each kind, and the kinds that are followed. -/
structure Mirror where
  kinds : KindSet
  stores : WorkloadKind → Store

namespace Mirror

def empty (kinds : KindSet) : Mirror :=
  ⟨kinds, fun _ => Store.empty⟩

/-- A mirror after an event for the store of one kind. -/
def step (mirror : Mirror) (kind : WorkloadKind) (event : StoreEvent) : Mirror :=
  let changed := (mirror.stores kind).step event
  { mirror with stores := fun other => if other = kind then changed else mirror.stores other }

/-- A mirror after a history of events for its stores. -/
def run (mirror : Mirror) (events : List (WorkloadKind × StoreEvent)) : Mirror :=
  events.foldl (fun mirror (kind, event) => mirror.step kind event) mirror

/-- The object of a kind under a namespace and a name. -/
def get (mirror : Mirror) (kind : WorkloadKind) (ns name : String) :
    Except Cause (Option StoredObject) :=
  if mirror.kinds.has kind then .ok ((mirror.stores kind).get? ns name)
  else .error (.cacheDisabled kind)

/-- What a resolution learns from a mirror about an object. -/
def cached (mirror : Mirror) (kind : WorkloadKind) (ns name : String) :
    Except Cause (Option Workload) :=
  (mirror.get kind ns name).map fun object? => object?.map fun object => ⟨kind, object.owners⟩

/-- What is settled about the readiness of a store that hears nothing more. -/
def readiness (mirror : Mirror) (kind : WorkloadKind) : Readiness :=
  let store := mirror.stores kind
  if store.isReady then .readyAt 0
  else if store.isClosed then .closedAt 0
  else .never

/-- Waits for the stores of a mirror that hears nothing more. -/
def waitForSync (mirror : Mirror) (timeout : Nat) : Except SyncFault (List WorkloadKind) :=
  (Readiness.waitForSync mirror.readiness mirror.kinds 0 timeout).map Prod.fst

def references (mirror : Mirror) : List Owner :=
  WorkloadKind.all.flatMap fun kind => (mirror.stores kind).references

/-- A cluster whose stores are those of a mirror and whose other questions are
answered once and for all. -/
def cluster (mirror : Mirror) (mapped : String → String → Except Cause (List Mapping))
    (scaled : Mapping → String → String → Except Cause (List Owner)) : Cluster Unit where
  cached kind ns name := pure (mirror.cached kind ns name)
  mapped group kind := pure (mapped group kind)
  scaled mapping ns name := pure (scaled mapping ns name)

end Mirror

end Lineage
