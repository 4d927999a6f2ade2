import Lineage.Settings.Document
import Lineage.Settings.Key
import Lineage.Settings.Place

/-!
# Loading and saving settings

Settings come in layers: those that hold where nothing is said, the file for all
contexts, the file for one context, and the environment.  Files that are absent
or empty are passed over, and each layer is laid over those below it before the
settings are decoded.  Three variables then replace single settings, and the
result must be accepted.
-/

namespace Lineage

namespace Settings

def readFile (tree : FileTree) (path : String) : Except SettingsFault String :=
  (tree.read path).mapError (SettingsFault.unreadableFile path)

/-- The settings in a file, read by what each setting is. -/
def loadFile (tree : FileTree) (path : String) : Except SettingsFault Settings := do
  if !tree.exists? path then throw (.missingFile path)
  let text ← readFile tree path
  match parse text with
  | some settings => return settings
  | none => throw (.malformedFile path)

/-- The value that a file lays over the layers below it, if it has one. -/
def loadLayer (tree : FileTree) (path : String) : Except SettingsFault (Option Yaml.Value) := do
  if !tree.exists? path then return none
  let text ← readFile tree path
  match Yaml.parse text with
  | some .null => return none
  | some value => return some value
  | none => throw (.malformedFile path)

/-- The settings of a list of layers laid over one another, the lowest first. -/
def ofLayers (layers : List (Option Yaml.Value)) : Except SettingsFault Settings :=
  let merged := layers.foldl
    (fun base layer? =>
      match layer? with
      | some layer => base.merge layer
      | none => base) default.toValue
  match ofValue merged with
  | some settings => .ok settings
  | none => .error .undecodable

/-- The settings of a file and, above it, of a second one. -/
def loadLayers (tree : FileTree) (root : String) (context? : Option String) :
    Except SettingsFault Settings := do
  let rootLayer ← loadLayer tree root
  let contextLayer ←
    match context? with
    | some path => loadLayer tree path
    | none => pure none
  ofLayers [rootLayer, contextLayer]

/-- Settings in which variables that are set replace single settings. -/
def override (environment : Environment) (settings : Settings) : Except SettingsFault Settings := do
  let settings :=
    match environment.text? "OWNERCHAIN_WATCH_NAMESPACE" with
    | some text => { settings with watchNamespace := text }
    | none => settings
  let settings :=
    match environment.text? "OWNERCHAIN_LOG_LEVEL" with
    | some text => { settings with loggerLevel := text }
    | none => settings
  match environment.text? "OWNERCHAIN_DISCOVERY_REFRESH_SECONDS" with
  | some text =>
    match Natural.readWord text with
    | .ok seconds => return { settings with discoveryRefreshSeconds := seconds }
    | .error cause => throw (.badRefreshVariable text cause)
  | none => return settings

/-- The settings for a context. -/
def load (environment : Environment) (tree : FileTree) (context? : Option String) :
    Except SettingsFault Settings := do
  let settings ← loadLayers tree (rootFile environment) (context?.map (contextFile environment))
  let settings ← override environment settings
  settings.check
  return settings

/-- Checks every file with settings for a context on its own.  The file for all
contexts must be acceptable by itself. -/
def checkFiles (environment : Environment) (tree : FileTree) (context? : Option String) :
    Except SettingsFault Unit := do
  let root := rootFile environment
  if tree.exists? root then
    let settings ← loadFile tree root
    settings.check.mapError (SettingsFault.invalidFile root)
  match context? with
  | some context =>
    let path := contextFile environment context
    if tree.exists? path then
      let _ ← loadFile tree path
  | none => pure ()

/-- Checks the files with settings for a context, and then what they give together. -/
def validate (environment : Environment) (tree : FileTree) (context? : Option String) :
    Except Chain Unit := do
  (checkFiles environment tree context?).mapError SettingsFault.chain
  let loaded := load environment tree context?
  let _ ← loaded.mapError fun fault => fault.chain.within "Failed to load merged configuration"
  return ()

/-- Saves settings in a file, in a directory that is made if it is missing. -/
def save (tree : FileTree) (settings : Settings) (path : String) :
    Except SettingsFault FileTree := do
  let tree ← (tree.makeParent path).mapError SettingsFault.noDirectory
  (tree.write path (some settings.render)).mapError (SettingsFault.unwritableFile path)

end Settings

end Lineage
