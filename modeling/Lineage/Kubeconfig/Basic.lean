import Lineage.Chain
import Lineage.Files.Tree
import Lineage.Kubeconfig.ServerAddress
import Lineage.Text.Quoted

/-!
# Kubeconfigs

A kubeconfig names clusters and contexts; a context says which cluster is meant
and which namespace holds where none is given, and one context is current.
Kubeconfigs are merged into one: of two entries of the same name the first
counts, and so does the first current context.  Kubeconfigs of different kinds
cannot be merged.
-/

namespace Lineage

/-- An entry under a name.  An entry that is void is there but gives nothing. -/
structure NamedEntry (α : Type) where
  name : String
  entry : Option α
  deriving DecidableEq, Repr

/-- What a context says. -/
structure ContextEntry where
  cluster : String
  ns : Option String
  deriving DecidableEq, Repr

/-- What is known of a cluster: the address of its server. -/
structure ClusterEntry where
  server : Option String
  deriving DecidableEq, Repr

/-- The contexts and clusters that can be reached. -/
structure Kubeconfig where
  kind : Option String
  apiVersion : Option String
  current : Option String
  contexts : List (NamedEntry ContextEntry)
  clusters : List (NamedEntry ClusterEntry)
  deriving DecidableEq, Repr

/-- Why a kubeconfig leads to no cluster. -/
inductive KubeconfigFault where
  | noPath
  | unreadable (path : String) (cause : FileFault)
  | malformed
  | badStructure (cause : String)
  | mismatchedKind
  | mismatchedVersion
  | noCurrentContext
  | noContext (name : String)
  | noCluster (name : String)
  | noServer
  | badServer (cause : ServerAddressFault)
  deriving DecidableEq, Repr

namespace KubeconfigFault

/-- The report of a fault.  A fault whose wording ends with its cause is
followed by the cause once more. -/
def chain : KubeconfigFault → Chain
  | noPath => .single "failed to find the path of kubeconfig"
  | unreadable path cause => .ofLinks
      ["failed to read kubeconfig from '" ++ Text.quoted path ++ "': " ++ cause.message,
        cause.message]
  | malformed => ⟨["failed to parse kubeconfig YAML"], true⟩
  | badStructure cause =>
    .ofLinks ["the structure of the parsed kubeconfig is invalid: " ++ cause, cause]
  | mismatchedKind => .single "kubeconfigs with mismatching kind cannot be merged"
  | mismatchedVersion => .single "kubeconfigs with mismatching api version cannot be merged"
  | noCurrentContext => .single "failed to determine current context"
  | noContext name => .single ("failed to load current context: " ++ name)
  | noCluster name => .single ("failed to load the cluster of context: " ++ name)
  | noServer => .single "cluster url is missing on selected cluster"
  | badServer cause =>
    .ofLinks ["failed to parse cluster url: " ++ cause.message, cause.message]

def message (fault : KubeconfigFault) : String :=
  fault.chain.links.headD ""

end KubeconfigFault

namespace NamedEntry

/-- The first entry under a name, unless it is void. -/
def find? {α : Type} (entries : List (NamedEntry α)) (name : String) : Option α :=
  (entries.find? fun entry => entry.name = name).bind NamedEntry.entry

/-- Adds the entries whose names are new. -/
def extend {α : Type} (entries others : List (NamedEntry α)) : List (NamedEntry α) :=
  entries ++ others.filter fun other => !entries.any fun entry => entry.name = other.name

end NamedEntry

namespace Kubeconfig

def empty : Kubeconfig :=
  { kind := none, apiVersion := none, current := none, contexts := [], clusters := [] }

def clash : Option String → Option String → Bool
  | some first, some second => first ≠ second
  | _, _ => false

/-- Merges a kubeconfig with one that comes after it. -/
def merge (first second : Kubeconfig) : Except KubeconfigFault Kubeconfig :=
  if clash first.kind second.kind then .error .mismatchedKind
  else if clash first.apiVersion second.apiVersion then .error .mismatchedVersion
  else .ok
    { kind := first.kind <|> second.kind
      apiVersion := first.apiVersion <|> second.apiVersion
      current := first.current <|> second.current
      contexts := NamedEntry.extend first.contexts second.contexts
      clusters := NamedEntry.extend first.clusters second.clusters }

end Kubeconfig

/-- How a cluster is reached: the address of its server, and the namespace that
holds where none is given. -/
structure Connection where
  server : String
  ns : String
  deriving DecidableEq, Repr

namespace Kubeconfig

/-- The namespace of a context that names none. -/
def usualNamespace : String := "default"

/-- The context that is meant: the one that is asked for, or else the current one. -/
def contextName (config : Kubeconfig) (context? : Option String) : Except KubeconfigFault String :=
  match context? <|> config.current with
  | some name => .ok name
  | none => .error .noCurrentContext

/-- The connection to the cluster of a context, or of the current one. -/
def connect (config : Kubeconfig) (context? : Option String) :
    Except KubeconfigFault Connection := do
  let name ← config.contextName context?
  let some context := NamedEntry.find? config.contexts name | throw (.noContext name)
  let some cluster := NamedEntry.find? config.clusters context.cluster
    | throw (.noCluster context.cluster)
  let some server := cluster.server | throw .noServer
  (ServerAddress.check server).mapError KubeconfigFault.badServer
  return { server, ns := context.ns.getD usualNamespace }

end Kubeconfig

end Lineage
