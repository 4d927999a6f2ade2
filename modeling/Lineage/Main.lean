import Lineage.Api.Server
import Lineage.Program

/-!
# The command line

The program reads the files that a run may need into a tree, runs, and writes
back the file with the settings for all contexts if the run has changed it.  It
holds no connection of its own: requests are answered by a server that knows no
path.
-/

namespace Lineage

namespace Main

/-- The variables that a run reads. -/
def readNames : List String :=
  ["OWNERCHAIN_CONFIG_DIR", "OWNERCHAIN_WATCH_NAMESPACE", "OWNERCHAIN_LOG_LEVEL",
    "OWNERCHAIN_DISCOVERY_REFRESH_SECONDS", "XDG_CONFIG_HOME", "HOME", "KUBECONFIG"]

/-- The environment of the program, which asks no database for an account. -/
def environment : IO Environment := do
  let mut environment := Environment.empty
  for name in readNames do
    environment := environment.set name ((← IO.getEnv name).map Variable.ofText)
  return environment

/-- What is at a path on disk; nothing if it is absent. -/
def entryAt (path : String) : IO (Option FileEntry) := do
  try
    let bytes ← IO.FS.readBinFile path
    return some (.file (String.fromUTF8? bytes))
  catch
    | .inappropriateType .. => return some .directory
    | _ => return none

/-- A tree with what is on disk at a path, and the directories around it. -/
def gather (tree : FileTree) (path : String) : IO FileTree := do
  match ← entryAt path with
  | none => return tree
  | some .directory => return (tree.makeDirectory path).toOption.getD tree
  | some (.file content) =>
    let tree := (tree.makeParent path).toOption.getD tree
    return (tree.write path content).toOption.getD tree

/-- The tree of the files that a run may need. -/
def files (environment : Environment) (arguments : List String) : IO FileTree := do
  let mut tree := FileTree.empty
  let listed := (Kubeconfig.files environment).toOption.getD []
  for path in listed ++ [Settings.rootFile environment] do
    tree ← gather tree path
  match Invocation.read arguments with
  | .error _ => return tree
  | .ok invocation =>
    match Program.contextOf environment tree invocation with
    | none => return tree
    | some context => gather tree (Settings.contextFile environment context)

/-- Writes the file with the settings for all contexts if it has changed. -/
def save (environment : Environment) (before after : FileTree) : IO Unit := do
  let path := Settings.rootFile environment
  let content := (after.read path).toOption
  if content ≠ (before.read path).toOption then
    IO.FS.createDirAll (Settings.directory environment)
    IO.FS.writeFile path (content.getD "")

end Main

end Lineage

open Lineage in
/-- Runs the program on the words of its command line. -/
def main (arguments : List String) : IO UInt32 := do
  let environment ← Main.environment
  let tree ← Main.files environment arguments
  let ((outcome, changed), _) := Program.run Server.api environment tree arguments Server.empty
  Main.save environment tree changed
  IO.print outcome.output
  IO.eprint (outcome.complaint.getD "")
  return outcome.code.toUInt32
