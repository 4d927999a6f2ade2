import Lineage.Settings.Basic

/-!
# Settings as texts

Each setting has a key under which it is read and written as a text.  A list of
kinds is a text of names with commas between them.  A text that is no value of
its setting leaves the settings as they are.
-/

namespace Lineage

/-- The key of a setting. -/
inductive SettingKey where
  | watchNamespace
  | wellKnownKinds
  | discoveryRefreshSeconds
  | cacheSyncTimeoutSeconds
  | loggerLevel
  deriving DecidableEq, Repr

namespace SettingKey

def name : SettingKey → String
  | watchNamespace => "watchNamespace"
  | wellKnownKinds => "wellKnownKinds"
  | discoveryRefreshSeconds => "discoveryRefreshSeconds"
  | cacheSyncTimeoutSeconds => "cacheSyncTimeoutSeconds"
  | loggerLevel => "logger.level"

/-- Every key, in the order in which settings are listed. -/
def all : List SettingKey :=
  [watchNamespace, wellKnownKinds, discoveryRefreshSeconds, cacheSyncTimeoutSeconds, loggerLevel]

def ofName? (text : String) : Option SettingKey :=
  all.find? fun key => key.name = text

def read (key : SettingKey) (settings : Settings) : String :=
  match key with
  | watchNamespace => settings.watchNamespace
  | wellKnownKinds => ",".intercalate (settings.wellKnownKinds.map WorkloadKind.name)
  | discoveryRefreshSeconds => Natural.render settings.discoveryRefreshSeconds.toNat
  | cacheSyncTimeoutSeconds => Natural.render settings.cacheSyncTimeoutSeconds.toNat
  | loggerLevel => settings.loggerLevel

/-- The number that a text gives to a setting. -/
def readNumber (key : SettingKey) (text : String) : Except SettingsFault UInt64 :=
  (Natural.readWord text).mapError (SettingsFault.notNumber key.name)

/-- Settings with another text for one of them. -/
def write (key : SettingKey) (text : String) (settings : Settings) :
    Except SettingsFault Settings :=
  match key with
  | watchNamespace => .ok { settings with watchNamespace := text }
  | wellKnownKinds =>
    match WorkloadKind.readList text with
    | .ok kinds => .ok { settings with wellKnownKinds := kinds }
    | .error name => .error (.unknownKind name)
  | discoveryRefreshSeconds =>
    (readNumber key text).map fun seconds => { settings with discoveryRefreshSeconds := seconds }
  | cacheSyncTimeoutSeconds =>
    (readNumber key text).map fun seconds => { settings with cacheSyncTimeoutSeconds := seconds }
  | loggerLevel => .ok { settings with loggerLevel := text }

/-- Assigns a text to a setting in place.  The whole text is read before anything
is assigned. -/
def assign (key : SettingKey) (text : String) : ExceptT SettingsFault (StateM Settings) Unit := do
  match key with
  | watchNamespace => modify fun settings => { settings with watchNamespace := text }
  | wellKnownKinds =>
    match WorkloadKind.readList text with
    | .ok kinds => modify fun settings => { settings with wellKnownKinds := kinds }
    | .error name => throw (.unknownKind name)
  | discoveryRefreshSeconds =>
    let seconds ← ofExcept (readNumber key text)
    modify fun settings => { settings with discoveryRefreshSeconds := seconds }
  | cacheSyncTimeoutSeconds =>
    let seconds ← ofExcept (readNumber key text)
    modify fun settings => { settings with cacheSyncTimeoutSeconds := seconds }
  | loggerLevel => modify fun settings => { settings with loggerLevel := text }

end SettingKey

namespace Settings

/-- The text of the setting that a name is the key of. -/
def get (settings : Settings) (name : String) : Except SettingsFault String :=
  match SettingKey.ofName? name with
  | some key => .ok (key.read settings)
  | none => .error (.unknownKey name)

/-- Settings with another text for the setting that a name is the key of. -/
def set (settings : Settings) (name text : String) : Except SettingsFault Settings :=
  match SettingKey.ofName? name with
  | some key => key.write text settings
  | none => .error (.unknownKey name)

/-- Assigns a text in place to the setting that a name is the key of. -/
def change (name text : String) : ExceptT SettingsFault (StateM Settings) Unit :=
  match SettingKey.ofName? name with
  | some key => key.assign text
  | none => throw (.unknownKey name)

end Settings

end Lineage
