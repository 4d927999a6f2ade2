import Lineage.Environment
import Lineage.Kubeconfig.Document

/-!
# Finding kubeconfigs

A variable lists the files with kubeconfigs, with colons between them; if it
lists none, the file in the home directory is read, which there must be then.
All files must be readable, and what they hold is merged in the order of the
list.
-/

namespace Lineage

namespace Kubeconfig

def readFile (tree : FileTree) (path : String) : Except KubeconfigFault Kubeconfig := do
  parse (← (tree.read path).mapError (KubeconfigFault.unreadable path))

def listedFiles (environment : Environment) : List String :=
  match environment.value? "KUBECONFIG" with
  | some value => (Text.split ':' value.shown).filter fun path => !path.isEmpty
  | none => []

/-- The file that is read where none is listed. -/
def usualFile (environment : Environment) : Except KubeconfigFault String :=
  match environment.home? with
  | some home => .ok (Path.join (Path.join home ".kube") "config")
  | none => .error .noPath

def files (environment : Environment) : Except KubeconfigFault (List String) :=
  match listedFiles environment with
  | [] => (usualFile environment).map fun path => [path]
  | paths => .ok paths

/-- Reads a file and merges it behind what has been read before. -/
def readNext (tree : FileTree) (config : Kubeconfig) (path : String) :
    Except KubeconfigFault Kubeconfig := do
  merge config (← readFile tree path)

/-- The kubeconfig of all files together. -/
def load (environment : Environment) (tree : FileTree) : Except KubeconfigFault Kubeconfig := do
  (← files environment).foldlM (readNext tree) empty

/-- The name of the current context, if there is a kubeconfig that names one. -/
def currentContext (environment : Environment) (tree : FileTree) : Option String :=
  ((load environment tree).toOption.bind Kubeconfig.current).filter fun name => !name.isEmpty

end Kubeconfig

namespace Connection

/-- Why the program does not run inside a cluster. -/
def outsideCluster : String :=
  "failed to read an incluster environment variable: environment variable not found"

/-- The report of a connection that could not be found out. -/
def inferenceChain (fault : KubeconfigFault) : Chain :=
  let attempt := "Failed to infer Kubernetes config"
  let link := "failed to infer config: in-cluster: (" ++ outsideCluster ++ "), kubeconfig: ("
    ++ fault.message
  if fault.chain.isOpen then ⟨[attempt, link], true⟩
  else (fault.chain.within (link ++ ")")).within attempt

/-- The connection to the cluster of the current context. -/
def infer (environment : Environment) (tree : FileTree) : Except Chain Connection := do
  let found := Kubeconfig.load environment tree >>= fun config => config.connect none
  found.mapError inferenceChain

/-- The connection to the cluster of a context. -/
def ofContext (environment : Environment) (tree : FileTree) (context : String) :
    Except Chain Connection := do
  let found := Kubeconfig.load environment tree >>= fun config => config.connect (some context)
  found.mapError fun fault =>
    fault.chain.within ("Failed to load kubeconfig context '" ++ context ++ "'")

/-- The connection that is asked for, or the current one. -/
def select (environment : Environment) (tree : FileTree) :
    Option String → Except Chain Connection
  | some context => ofContext environment tree context
  | none => infer environment tree

end Connection

end Lineage
