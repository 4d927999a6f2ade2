import Lineage.Json.Decode
import Lineage.Text.Blank

/-!
# Workload kinds

Six kinds of controllers are known by name.  Objects of these kinds are held in
local stores, whereas objects of every other kind are reached through
discovery.  The kinds have a fixed order, in which a set of kinds is listed.
-/

namespace Lineage

/-- A kind of controller whose objects are held in a local store. -/
inductive WorkloadKind where
  | daemonSet
  | deployment
  | replicaSet
  | statefulSet
  | replicationController
  | job
  deriving DecidableEq, Repr

namespace WorkloadKind

/-- The name under which the API serves a kind. -/
def name : WorkloadKind → String
  | daemonSet => "DaemonSet"
  | deployment => "Deployment"
  | replicaSet => "ReplicaSet"
  | statefulSet => "StatefulSet"
  | replicationController => "ReplicationController"
  | job => "Job"

/-- The API version in which a kind is read. -/
def apiVersion : WorkloadKind → String
  | daemonSet => "apps/v1"
  | deployment => "apps/v1"
  | replicaSet => "apps/v1"
  | statefulSet => "apps/v1"
  | replicationController => "v1"
  | job => "batch/v1"

def plural : WorkloadKind → String
  | daemonSet => "daemonsets"
  | deployment => "deployments"
  | replicaSet => "replicasets"
  | statefulSet => "statefulsets"
  | replicationController => "replicationcontrollers"
  | job => "jobs"

/-- Every kind, in the order in which kinds are listed. -/
def all : List WorkloadKind :=
  [daemonSet, deployment, replicaSet, statefulSet, replicationController, job]

def ofName? (text : String) : Option WorkloadKind :=
  all.find? fun kind => kind.name = text

def unknownMessage (text : String) : String :=
  "Unknown well-known controller kind: " ++ text

/-- The position of a kind in the order of kinds, counted from zero. -/
def position (kind : WorkloadKind) : Nat :=
  all.idxOf kind

/-- Reads a comma-separated list of names.  Blanks around a name and empty names
do not count; the first name that no kind has is returned instead of a list. -/
def readList (text : String) : Except String (List WorkloadKind) :=
  let names := ((Text.split ',' text).map Text.trim).filter fun name => !name.isEmpty
  names.mapM fun name =>
    match ofName? name with
    | some kind => .ok kind
    | none => .error name

/-- Decodes a kind from a structured value: its name, or an object whose only
field has that name and holds null. -/
def ofJson : Json → Except DecodeFault WorkloadKind
  | .string text => named text
  | .object [(text, value)] => do
    let kind ← named text
    match value with
    | .null => .ok kind
    | found => .error (.wrongType found "unit")
  | .object fields => .error (.wrongValue (.object fields) "map with a single key")
  | found => .error (.wrongType found "string or map")
where
  /-- The kind of some name, or the fault that lists all names. -/
  named (text : String) : Except DecodeFault WorkloadKind :=
    match ofName? text with
    | some kind => .ok kind
    | none => .error (.unknownVariant text (all.map name))

end WorkloadKind

/-- A set of workload kinds. -/
structure KindSet where
  has : WorkloadKind → Bool

namespace KindSet

def full : KindSet :=
  ⟨fun _ => true⟩

def ofList (kinds : List WorkloadKind) : KindSet :=
  ⟨fun kind => kinds.contains kind⟩

def toList (kinds : KindSet) : List WorkloadKind :=
  WorkloadKind.all.filter kinds.has

def size (kinds : KindSet) : Nat :=
  kinds.toList.length

/-- The member that has exactly the given name. -/
def find? (kinds : KindSet) (text : String) : Option WorkloadKind :=
  (WorkloadKind.ofName? text).filter kinds.has

/-- Whether two sets have the same members. -/
def same (first second : KindSet) : Bool :=
  first.toList = second.toList

end KindSet

end Lineage
