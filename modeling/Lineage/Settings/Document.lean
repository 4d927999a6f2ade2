import Lineage.Settings.Basic
import Lineage.Yaml.Content
import Lineage.Yaml.Printer

/-!
# Settings in documents

A document holds settings as a mapping with one entry for each of them, where
the level of logging stands inside a mapping of its own.  Entries that are left
out keep the values that hold where nothing is said, and entries of other names
do not count.

There are two ways to read a document.  The first takes the value of the
document, so that a text must be a text there.  The second goes by what each
setting is, and takes the spelling of any scalar for a text.
-/

namespace Lineage

namespace Settings

/-- Settings as the value of a document. -/
def toValue (settings : Settings) : Yaml.Value :=
  .mapping
    [(.string "watchNamespace", .string settings.watchNamespace),
      (.string "wellKnownKinds",
        .sequence (settings.wellKnownKinds.map fun kind => .string kind.name)),
      (.string "discoveryRefreshSeconds", .integer settings.discoveryRefreshSeconds.toNat),
      (.string "cacheSyncTimeoutSeconds", .integer settings.cacheSyncTimeoutSeconds.toNat),
      (.string "logger", .mapping [(.string "level", .string settings.loggerLevel)])]

/-- The entries of a value that is a mapping or null, with the texts that are
their keys. -/
def namedEntries (value : Yaml.Value) : Option (List (String × Yaml.Value)) :=
  match value.untagged with
  | .mapping entries => entries.mapM fun (key, value) =>
    match key.untagged with
    | .string name => some (name, value)
    | _ => none
  | .null => some []
  | _ => none

/-- What a list of entries gives to a name that it may not have twice.  Where it
has none, something else holds. -/
def fieldOr {α β : Type} (entries : List (String × β)) (name : String) (otherwise : α)
    (decode : β → Option α) : Option α :=
  match entries.filter fun entry => entry.1 = name with
  | [] => some otherwise
  | [(_, value)] => decode value
  | _ => none

/-- The text that a value is. -/
def textOfValue (value : Yaml.Value) : Option String :=
  match value.untagged with
  | .string text => some text
  | _ => none

def wordOfValue (value : Yaml.Value) : Option UInt64 :=
  match value.untagged with
  | .integer number => if 0 ≤ number then some (UInt64.ofNat number.toNat) else none
  | _ => none

/-- The kind that a value names, as a text or by a tag on null. -/
def kindOfValue : Yaml.Value → Option WorkloadKind
  | .string name => WorkloadKind.ofName? name
  | .tagged name .null => WorkloadKind.ofName? name
  | _ => none

def kindsOfValue (value : Yaml.Value) : Option (List WorkloadKind) :=
  match value.untagged with
  | .sequence items => items.mapM kindOfValue
  | .null => some []
  | _ => none

def levelOfValue (value : Yaml.Value) : Option String := do
  let entries ← namedEntries value
  fieldOr entries "level" default.loggerLevel textOfValue

/-- The settings that the value of a document gives. -/
def ofValue (value : Yaml.Value) : Option Settings := do
  let entries ← namedEntries value
  let watchNamespace ← fieldOr entries "watchNamespace" default.watchNamespace textOfValue
  let wellKnownKinds ← fieldOr entries "wellKnownKinds" default.wellKnownKinds kindsOfValue
  let discoveryRefreshSeconds ←
    fieldOr entries "discoveryRefreshSeconds" default.discoveryRefreshSeconds wordOfValue
  let cacheSyncTimeoutSeconds ←
    fieldOr entries "cacheSyncTimeoutSeconds" default.cacheSyncTimeoutSeconds wordOfValue
  let loggerLevel ← fieldOr entries "logger" default.loggerLevel levelOfValue
  some { watchNamespace, wellKnownKinds, discoveryRefreshSeconds, cacheSyncTimeoutSeconds,
         loggerLevel }

/-- A node, or the one that it is an alias of. -/
def settled (document : Yaml.Document) : Yaml.Node → Option Yaml.Node
  | .alias anchor => document.target? anchor
  | node => some node

/-- Whether a scalar is left out, so that it stands for an empty collection. -/
def isOmitted (style : Yaml.ScalarStyle) (text : String) : Bool :=
  style = .plain && text.isEmpty

/-- The text that a node is spelled with. -/
def textOfNode (document : Yaml.Document) (node : Yaml.Node) : Option String := do
  match ← settled document node with
  | .scalar _ _ text => some text
  | _ => none

def wordOfNode (document : Yaml.Document) (node : Yaml.Node) : Option UInt64 := do
  match ← settled document node with
  | .scalar tag style text =>
    if style = .plain || (style = .literal && tag = some "tag:yaml.org,2002:int") then
      (Yaml.Scalar.natural? (Nat.pow 2 64) text).map UInt64.ofNat
    else none
  | _ => none

/-- The kind that a node names, by its text or by a tag on null. -/
def kindOfNode (document : Yaml.Document) (node : Yaml.Node) : Option WorkloadKind := do
  match ← settled document node with
  | .scalar tag style text =>
    match Yaml.Document.ownTag? tag with
    | none => WorkloadKind.ofName? text
    | some name =>
      if style = .plain && (text.isEmpty || Yaml.Scalar.isNull text) then WorkloadKind.ofName? name
      else none
  | _ => none

def kindsOfNode (document : Yaml.Document) (node : Yaml.Node) : Option (List WorkloadKind) := do
  match ← settled document node with
  | .sequence _ items => items.mapM (kindOfNode document)
  | .scalar _ style text => if isOmitted style text then some [] else none
  | .empty => some []
  | _ => none

/-- The entries of a node that is a mapping or is left out, with the texts that
their keys are spelled with. -/
def namedNodes (document : Yaml.Document) (node : Yaml.Node) :
    Option (List (String × Yaml.Node)) := do
  match ← settled document node with
  | .mapping _ entries => entries.mapM fun (key, value) =>
    (textOfNode document key).map fun name => (name, value)
  | .scalar _ style text => if isOmitted style text then some [] else none
  | .empty => some []
  | _ => none

def levelOfNode (document : Yaml.Document) (node : Yaml.Node) : Option String := do
  let entries ← namedNodes document node
  fieldOr entries "level" default.loggerLevel (textOfNode document)

/-- The settings that a document gives when it is read by what each setting is. -/
def ofDocument (document : Yaml.Document) : Option Settings := do
  let entries ← namedNodes document document.root
  let watchNamespace ←
    fieldOr entries "watchNamespace" default.watchNamespace (textOfNode document)
  let wellKnownKinds ←
    fieldOr entries "wellKnownKinds" default.wellKnownKinds (kindsOfNode document)
  let discoveryRefreshSeconds ←
    fieldOr entries "discoveryRefreshSeconds" default.discoveryRefreshSeconds (wordOfNode document)
  let cacheSyncTimeoutSeconds ←
    fieldOr entries "cacheSyncTimeoutSeconds" default.cacheSyncTimeoutSeconds (wordOfNode document)
  let loggerLevel ← fieldOr entries "logger" default.loggerLevel (levelOfNode document)
  some { watchNamespace, wellKnownKinds, discoveryRefreshSeconds, cacheSyncTimeoutSeconds,
         loggerLevel }

/-- The settings that a text gives when it is read by what each setting is. -/
def parse (text : String) : Option Settings :=
  (Yaml.soleDocument text).bind ofDocument

/-- The characters of the entry for the list of kinds. -/
def renderKinds : List WorkloadKind → List Char
  | [] => "wellKnownKinds: []\n".toList
  | kinds =>
    "wellKnownKinds:\n".toList
      ++ kinds.flatMap fun kind => "- ".toList ++ kind.name.toList ++ ['\n']

/-- The text of a document that holds settings. -/
def render (settings : Settings) : String :=
  String.ofList
    ("watchNamespace: ".toList
      ++ Yaml.Spelling.endLine (Yaml.Spelling.spell 2 settings.watchNamespace)
      ++ renderKinds settings.wellKnownKinds
      ++ "discoveryRefreshSeconds: ".toList
      ++ Natural.digits settings.discoveryRefreshSeconds.toNat ++ ['\n']
      ++ "cacheSyncTimeoutSeconds: ".toList
      ++ Natural.digits settings.cacheSyncTimeoutSeconds.toNat ++ ['\n']
      ++ "logger:\n  level: ".toList
      ++ Yaml.Spelling.endLine (Yaml.Spelling.spell 4 settings.loggerLevel))

end Settings

end Lineage
