import Lineage.Settings.Load

/-!
# Commands on settings

A command shows settings, changes one of them, says where they are kept, or
validates their files.  Only the file for all contexts is ever rewritten, and
what is written is what that file says by itself, not what all layers say
together.
-/

namespace Lineage

/-- What is to be done with the settings. -/
inductive SettingsCommand where
  | get (key : Option String)
  | set (key value : String)
  | list
  | path
  | validate
  deriving DecidableEq, Repr

namespace SettingsCommand

/-- The settings for a context, as a command loads them. -/
def loaded (environment : Environment) (tree : FileTree) (context? : Option String) :
    Except Chain Settings :=
  (Settings.load environment tree context?).mapError fun fault =>
    fault.chain.within "Failed to load configuration"

/-- Every setting on a line of its own. -/
def listing (settings : Settings) : String :=
  String.join (SettingKey.all.map fun key => key.name ++ ": " ++ key.read settings ++ "\n")

/-- The settings that the file for all contexts says by itself. -/
def rootSettings (environment : Environment) (tree : FileTree) : Except SettingsFault Settings :=
  let root := Settings.rootFile environment
  if tree.exists? root then Settings.loadFile tree root else .ok Settings.default

/-- Changes a setting in the file for all contexts. -/
def setRoot (environment : Environment) (tree : FileTree) (key value : String) :
    Except Chain FileTree := do
  let settings ← (rootSettings environment tree).mapError SettingsFault.chain
  let settings ← (settings.set key value).mapError fun fault =>
    fault.chain.within ("Failed to set " ++ key ++ " = " ++ value)
  settings.check.mapError SettingsFault.chain
  (Settings.save tree settings (Settings.rootFile environment)).mapError fun fault =>
    fault.chain.within "Failed to save configuration"

/-- Carries out a command: what it prints, and the files afterwards. -/
def run (environment : Environment) (context? : Option String) (command : SettingsCommand)
    (tree : FileTree) : Except Chain (String × FileTree) := do
  match command with
  | get none =>
    let settings ← loaded environment tree context?
    return (listing settings, tree)
  | get (some key) =>
    let settings ← loaded environment tree context?
    let text ← (settings.get key).mapError SettingsFault.chain
    return (text ++ "\n", tree)
  | set key value =>
    let tree ← setRoot environment tree key value
    return ("Configuration saved to " ++ Settings.rootFile environment ++ "\n", tree)
  | list =>
    let settings ← loaded environment tree context?
    return (settings.render, tree)
  | path =>
    let contextLine :=
      match context? with
      | some context => Settings.contextFile environment context ++ "\n"
      | none => ""
    return (Settings.rootFile environment ++ "\n" ++ contextLine, tree)
  | validate =>
    Settings.validate environment tree context?
    return ("Configuration is valid\n", tree)

end SettingsCommand

end Lineage
