import Lineage.Fault
import Lineage.Mapping
import Lineage.Owner

/-!
# What a resolution asks of a cluster

A resolution asks three questions: which object a store holds under a name,
which collections serve a group and a kind, and which owners the scale of an
object reports.  Each answer may depend on a state and may change it, since a
cluster can answer differently from one moment to the next.

Recording a cluster keeps every question that is asked of it, the latest first,
and changes no answer.
-/

namespace Lineage

/-- What a resolution learns about an object in a store. -/
structure Workload where
  kind : WorkloadKind
  owners : List Owner
  deriving DecidableEq, Repr

/-- The three questions of a resolution, over a state of the cluster. -/
structure Cluster (σ : Type) where
  cached : WorkloadKind → String → String → StateM σ (Except Cause (Option Workload))
  mapped : String → String → StateM σ (Except Cause (List Mapping))
  scaled : Mapping → String → String → StateM σ (Except Cause (List Owner))

/-- A question that was asked of a cluster. -/
inductive Call where
  | cached (kind : WorkloadKind) (ns name : String)
  | mapped (group kind : String)
  | scaled (mapping : Mapping) (ns name : String)
  deriving DecidableEq, Repr

namespace Call

/-- A question as a record of calls shows it. -/
def text : Call → String
  | cached kind ns name => "cache " ++ kind.name ++ " " ++ ns ++ "/" ++ name
  | mapped group kind => "map " ++ group ++ "|" ++ kind
  | scaled mapping ns name => "scale " ++ mapping.text ++ " " ++ ns ++ "/" ++ name

end Call

namespace Cluster

/-- Asks a question and notes that it was asked. -/
def noting {σ α : Type} (call : Call) (question : StateM σ α) : StateM (List Call × σ) α :=
  fun (calls, state) =>
    let (answer, state) := question state
    (answer, (call :: calls, state))

/-- The same cluster with a record of the questions asked of it. -/
def recorded {σ : Type} (cluster : Cluster σ) : Cluster (List Call × σ) where
  cached kind ns name := noting (.cached kind ns name) (cluster.cached kind ns name)
  mapped group kind := noting (.mapped group kind) (cluster.mapped group kind)
  scaled mapping ns name := noting (.scaled mapping ns name) (cluster.scaled mapping ns name)

end Cluster

end Lineage
