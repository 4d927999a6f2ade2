import Lineage.Environment
import Lineage.Files.Path

/-!
# Where settings are kept

The directory of the settings is named by a variable of its own, or lies in the
directory for the settings of all programs, which another variable names, or in
the home directory, or in the working directory if there is no home.  It holds
one file for all contexts and a directory with a file for each context.
-/

namespace Lineage

namespace Settings

def directory (environment : Environment) : String :=
  match environment.text? "OWNERCHAIN_CONFIG_DIR" with
  | some path => path
  | none =>
    let base :=
      match environment.text? "XDG_CONFIG_HOME" with
      | some path => path
      | none => Path.join (environment.home?.getD ".") ".config"
    Path.join base "ownerchain"

def rootFile (environment : Environment) : String :=
  Path.join (directory environment) "config.yaml"

/-- The file with the settings for one context. -/
def contextFile (environment : Environment) (context : String) : String :=
  Path.join (Path.join (directory environment) "contexts") (context ++ ".yaml")

end Settings

end Lineage
