import Lineage.Invocation.Command
import Lineage.Kubeconfig.Load
import Lineage.Session
import Lineage.Version

/-!
# Runs of the program

A run takes the words of an invocation, the environment, the files and a server,
and ends with a code, with what it writes, and with what it says of a failure.
Commands that need no cluster never ask for a connection.  A command that
resolves something first loads the settings for its context, then decides where
the search begins, and only then connects and starts a session.
-/

namespace Lineage

/-- How a run of the program ends.  The complaint is missing where its wording
is left unspecified. -/
structure Outcome where
  code : Nat
  output : String
  complaint : Option String
  deriving DecidableEq, Repr

namespace Outcome

def success (output : String) : Outcome :=
  ⟨0, output, some ""⟩

def failure (chain : Chain) : Outcome :=
  ⟨1, "", some chain.report⟩

/-- A run on settings that are not valid. -/
def invalidSettings (chain : Chain) : Outcome :=
  ⟨1, "", some ("Configuration validation failed: " ++ chain.oneLine
    ++ if chain.isOpen then "" else "\n")⟩

def misuse : Outcome :=
  ⟨2, "", none⟩

def breakdown : Outcome :=
  ⟨101, "", none⟩

end Outcome

/-- Where a search begins. -/
inductive Target where
  | controller (start : Key)
  | pod (ns name : String)
  deriving DecidableEq, Repr

namespace Program

/-- What the program says of its usage. -/
def usage : String :=
  "Usage: ownerchain [OPTIONS] <COMMAND>\n"

/-- The context that holds in a run: the one that is named, or else the current
one of the kubeconfig. -/
def contextOf (environment : Environment) (tree : FileTree) (invocation : Invocation) :
    Option String :=
  invocation.context <|> Kubeconfig.currentContext environment tree

def runSettings (environment : Environment) (tree : FileTree) (context? : Option String)
    (command : SettingsCommand) : Outcome × FileTree :=
  match command.run environment context? tree with
  | .ok (output, tree) => (.success output, tree)
  | .error chain =>
    if command = .validate then (.invalidSettings chain, tree) else (.failure chain, tree)

/-- Prepares a search: the settings for the context, then where the search
begins, then the connection. -/
def prepare (environment : Environment) (tree : FileTree) (invocation : Invocation)
    (target : Except Chain Target) : Except Chain (Settings × Target) := do
  let settings ← SettingsCommand.loaded environment tree (contextOf environment tree invocation)
  let target ← target
  let _ ← Connection.select environment tree invocation.context
  return (settings, target)

variable {σ : Type}

/-- Searches from a target in a session. -/
def search (api : Api σ) (target : Target) : StateM (Session σ) (Except Chain Resolution) :=
  match target with
  | .controller start => Session.resolve api start
  | .pod ns name => Session.resolvePod api ns name

/-- Carries out a command that resolves something. -/
def runSearch (api : Api σ) (environment : Environment) (tree : FileTree)
    (invocation : Invocation) (target : Except Chain Target) (format : OutputFormat) :
    StateM σ Outcome := fun server =>
  match prepare environment tree invocation target with
  | .error chain => (.failure chain, server)
  | .ok (settings, target) =>
    match Session.start api settings server with
    | .error _ => (.breakdown, server)
    | .ok session =>
      let (answer, session) := search api target session
      match answer with
      | .ok resolution => (.success (resolution.render format), session.live.server)
      | .error chain => (.failure chain, session.live.server)

def runInvocation (api : Api σ) (environment : Environment) (tree : FileTree)
    (invocation : Invocation) : StateM σ (Outcome × FileTree) := do
  match invocation.command with
  | .version => return (.success Version.text, tree)
  | .settings command =>
    return runSettings environment tree (contextOf environment tree invocation) command
  | .resolve ns kind name apiVersion format =>
    let target := (Resolution.startKey ns kind name apiVersion).map Target.controller
    return (← runSearch api environment tree invocation target format, tree)
  | .pod ns name format =>
    return (← runSearch api environment tree invocation (.ok (.pod ns name)) format, tree)

def run (api : Api σ) (environment : Environment) (tree : FileTree) (arguments : List String) :
    StateM σ (Outcome × FileTree) :=
  match Invocation.read arguments with
  | .ok invocation => runInvocation api environment tree invocation
  | .error .misused => return (.misuse, tree)
  | .error .help => return (.success usage, tree)
  | .error .version => return (.success (Version.line ++ "\n"), tree)

end Program

end Lineage
