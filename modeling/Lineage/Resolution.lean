import Lineage.Ascent
import Lineage.Json.Printer

/-!
# Resolutions

A resolution says from which object a search began and which controller lies at
the top of its chain of owners.  A search begins either at a controller or at a
pod.  A pod is read first, and the search goes on at the controlling one among
its owners; a pod without such an owner is its own top.
-/

namespace Lineage

/-- Where a search began and what lies at the top. -/
structure Resolution where
  start : Key
  topLevel : Option Key
  deriving DecidableEq, Repr

/-- How a resolution is written. -/
inductive OutputFormat where
  | text
  | json
  deriving DecidableEq, Repr, Inhabited

namespace OutputFormat

def ofName? : String → Option OutputFormat
  | "text" => some text
  | "json" => some json
  | _ => none

def unknownMessage (name : String) : String :=
  "invalid variant: " ++ name

end OutputFormat

namespace Resolution

def toJson (resolution : Resolution) : Json :=
  .object [("start", resolution.start.toJson),
    ("topLevel", (resolution.topLevel.map Key.toJson).getD .null)]

def render (format : OutputFormat) (resolution : Resolution) : String :=
  match format with
  | .text => Key.textOrNone resolution.topLevel ++ "\n"
  | .json => resolution.toJson.pretty ++ "\n"

/-- The controller from which a search begins.  Only the well-known kinds have
an API version of their own. -/
def startKey (ns kind name : String) (apiVersion? : Option String) : Except Chain Key :=
  match apiVersion? <|> (WorkloadKind.ofName? kind).map WorkloadKind.apiVersion with
  | some apiVersion => .ok { ns, kind, name, apiVersion }
  | none => .error (.single ("--api-version is required for kind " ++ kind))

def podKey (ns name : String) : Key :=
  { ns, kind := "Pod", name, apiVersion := "v1" }

/-- What was attempted when a search failed. -/
def attempt (start : Key) : String :=
  "Failed to resolve top-level controller of " ++ start.text

/-- What was attempted when a pod could not be read. -/
def podAttempt (ns name : String) : String :=
  "Failed to get Pod " ++ ns ++ "/" ++ name

/-- The resolution that a search arrives at. -/
def conclude (start : Key) (answer : Except Fault (Option Key)) : Except Chain Resolution :=
  match answer with
  | .ok topLevel => .ok { start, topLevel }
  | .error fault => .error (fault.chain.within (attempt start))

variable {σ : Type}

/-- Searches from a controller, making at most the given number of hops. -/
def ofController (cluster : Cluster σ) (kinds : KindSet) (hops : Nat) (start : Key) :
    StateM σ (Except Chain Resolution) := do
  return conclude start (← cluster.findTopLevel kinds hops (some start))

/-- Searches from a pod, whose owners are read first. -/
def ofPod (cluster : Cluster σ)
    (owners : String → String → StateM σ (Except ClientFault (List Owner)))
    (kinds : KindSet) (hops : Nat) (ns name : String) : StateM σ (Except Chain Resolution) := do
  let start := podKey ns name
  match ← owners ns name with
  | .error fault => return .error (fault.chain.within (podAttempt ns name))
  | .ok owners =>
    match Owner.controlling owners ns with
    | none => return .ok { start, topLevel := some start }
    | some owner => return conclude start (← cluster.findTopLevel kinds hops (some owner))

end Resolution

end Lineage
