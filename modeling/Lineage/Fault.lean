import Lineage.Api.ClientFault
import Lineage.Key
import Lineage.Kind

/-!
# Faults of a resolution

A resolution fails with a fault, which ends the whole call.  Some faults pass
on the cause that one of the collaborators gave: the object cache, the mapping
lookup or the scale lookup.
-/

namespace Lineage

/-- Why a collaborator of a resolution could not answer. -/
inductive Cause where
  | text (message : String)
  | cacheDisabled (kind : WorkloadKind)
  | discoveryPending
  | noMapping (group kind : String)
  | client (fault : ClientFault)
  deriving DecidableEq, Repr

namespace Cause

def chain : Cause → Chain
  | text message => .single message
  | cacheDisabled kind => .single ("no cache is running for " ++ kind.name)
  | discoveryPending => .single "discovery not yet completed"
  | noMapping group kind =>
    .single ("no matches for kind " ++ Text.quoted kind ++ " in group " ++ Text.quoted group)
  | client fault => fault.chain

def message (cause : Cause) : String :=
  cause.chain.links.headD ""

end Cause

/-- Why a resolution fails. -/
inductive Fault where
  /-- The object is not in the store of its kind. -/
  | notFound (kind ns name : String)
  /-- The store itself could not answer. -/
  | cacheLookup (kind ns name : String) (source : Cause)
  /-- The API version of a key has more than one slash. -/
  | parse (apiVersion reason : String)
  /-- The store holds an object of another kind under this name. -/
  | unsupportedKind (expected found ns name : String)
  /-- No mapping led to a scale of the object. -/
  | scaleUnavailable (apiVersion kind name : String) (source : Cause)
  /-- An owner has been visited before. -/
  | cycleDetected (key : Key)
  /-- A resolver with a fixed answer was asked about the wrong key. -/
  | assertionMismatch (expected actual : Option Key)
  deriving DecidableEq, Repr

namespace Fault

def label : Fault → String
  | notFound .. => "NotFound"
  | cacheLookup .. => "CacheLookup"
  | parse .. => "Parse"
  | unsupportedKind .. => "UnsupportedKind"
  | scaleUnavailable .. => "ScaleUnavailable"
  | cycleDetected .. => "CycleDetected"
  | assertionMismatch .. => "AssertionMismatch"

/-- The cause that a fault passes on. -/
def source : Fault → Option Cause
  | cacheLookup _ _ _ source => some source
  | scaleUnavailable _ _ _ source => some source
  | _ => none

def message : Fault → String
  | notFound kind ns name => kind ++ " " ++ ns ++ "/" ++ name ++ " does not exist"
  | cacheLookup kind ns name source =>
    "failed to look up " ++ kind ++ " " ++ ns ++ "/" ++ name ++ " in cache: " ++ source.message
  | parse apiVersion reason => "invalid apiVersion " ++ Text.quoted apiVersion ++ ": " ++ reason
  | unsupportedKind expected found ns name =>
    "failed to parse " ++ expected ++ " " ++ ns ++ "/" ++ name ++ ": cache returned a " ++ found
  | scaleUnavailable apiVersion kind name source =>
    "unhandled targetRef " ++ apiVersion ++ " / " ++ kind ++ " / " ++ name ++ ", last error: "
      ++ source.message
  | cycleDetected key => "cycle detected in ownership chain at " ++ key.text
  | assertionMismatch expected actual =>
    "unexpected argument " ++ Key.textOrNone actual ++ ", expected " ++ Key.textOrNone expected

/-- The report of a fault.  The wording of a fault ends with that of its cause,
so where the latter is open, the former is the last link that is known. -/
def chain (fault : Fault) : Chain :=
  match fault.source with
  | none => .single fault.message
  | some source =>
    if source.chain.isOpen then ⟨[fault.message], true⟩
    else .ofLinks (fault.message :: source.chain.links)

def malformed (apiVersion : String) : Fault :=
  .parse apiVersion "unexpected GroupVersion string"

end Fault

end Lineage
