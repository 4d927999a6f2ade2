import Lineage.Chain
import Lineage.Files.Tree
import Lineage.Kind
import Lineage.Number.Natural

/-!
# Settings

The settings say which namespace is watched, which workload kinds are held in
stores, how often discovery is repeated, how long a start waits for the stores,
and how much is logged.  Every setting has a value to begin with.  Settings are
accepted if no kind is listed twice and discovery has a period.
-/

namespace Lineage

/-- The five settings of the program. -/
structure Settings where
  watchNamespace : String
  wellKnownKinds : List WorkloadKind
  discoveryRefreshSeconds : UInt64
  cacheSyncTimeoutSeconds : UInt64
  loggerLevel : String
  deriving DecidableEq, Repr

/-- Why settings cannot be read, changed, accepted or saved. -/
inductive SettingsFault where
  | unknownKey (name : String)
  | unknownKind (name : String)
  | notNumber (key : String) (cause : NaturalFault)
  | repeatedKind (kind : WorkloadKind)
  | zeroPeriod
  | badRefreshVariable (text : String) (cause : NaturalFault)
  | missingFile (path : String)
  | unreadableFile (path : String) (cause : FileFault)
  | malformedFile (path : String)
  | undecodable
  | invalidFile (path : String) (cause : SettingsFault)
  | unwritableFile (path : String) (cause : FileFault)
  | noDirectory (cause : FileFault)
  deriving DecidableEq, Repr

namespace SettingsFault

def chain : SettingsFault → Chain
  | unknownKey name => .single ("Unknown configuration key: " ++ name)
  | unknownKind name => .single ("wellKnownKinds: " ++ WorkloadKind.unknownMessage name)
  | notNumber key cause => .ofLinks [key ++ " must be a number", cause.message]
  | repeatedKind kind => .single ("wellKnownKinds lists " ++ kind.name ++ " more than once")
  | zeroPeriod => .single "discoveryRefreshSeconds must be greater than 0"
  | badRefreshVariable text cause => .ofLinks
      ["Invalid OWNERCHAIN_DISCOVERY_REFRESH_SECONDS '" ++ text ++ "', expected whole seconds",
        cause.message]
  | missingFile path => .single ("Config file not found: " ++ path)
  | unreadableFile path cause =>
    .ofLinks ["Failed to read config file: " ++ path, cause.message]
  | malformedFile path => ⟨["Failed to parse config file: " ++ path], true⟩
  | undecodable => ⟨["Failed to build merged configuration"], true⟩
  | invalidFile path cause => cause.chain.within ("Invalid config file: " ++ path)
  | unwritableFile path cause =>
    .ofLinks ["Failed to write config file: " ++ path, cause.message]
  | noDirectory cause => .single cause.message

end SettingsFault

namespace Settings

/-- The settings that hold where nothing else is said. -/
def default : Settings :=
  { watchNamespace := ""
    wellKnownKinds := WorkloadKind.all
    discoveryRefreshSeconds := 300
    cacheSyncTimeoutSeconds := 60
    loggerLevel := "info" }

/-- The namespace that is watched; nothing stands for all of them. -/
def watched (settings : Settings) : Option String :=
  if settings.watchNamespace.isEmpty then none else some settings.watchNamespace

def kinds (settings : Settings) : KindSet :=
  KindSet.ofList settings.wellKnownKinds

/-- The first kind of a list that occurs earlier in it, after some kinds that
have been seen. -/
def firstRepeated : List WorkloadKind → List WorkloadKind → Option WorkloadKind
  | _, [] => none
  | seen, kind :: rest =>
    if kind ∈ seen then some kind else firstRepeated (kind :: seen) rest

/-- Accepts settings that a session can run with. -/
def check (settings : Settings) : Except SettingsFault Unit :=
  match firstRepeated [] settings.wellKnownKinds with
  | some kind => .error (.repeatedKind kind)
  | none => if settings.discoveryRefreshSeconds = 0 then .error .zeroPeriod else .ok ()

end Settings

end Lineage
