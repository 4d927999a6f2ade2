import Lineage.Kubeconfig.Basic
import Lineage.Number.Double
import Lineage.Json.Printer
import Lineage.Yaml.Content

/-!
# Kubeconfigs in documents

A kubeconfig is a mapping.  Its entries are examined in the order in which they
stand, and each must have the right type even if nothing is made of it; what is
missing is noticed at the end of a mapping.  Null stands for an entry that is
left out, for an empty list and for an empty mapping.  A text may hold several
documents, which are merged in their order.
-/

namespace Lineage

/-- What is wrong with the structure of a kubeconfig. -/
inductive StructureFault where
  | wrongType (found : Yaml.Value) (expected : String)
  | missingField (name : String)

namespace StructureFault

def describe : Yaml.Value → String
  | .null => "unit value"
  | .bool true => "boolean `true`"
  | .bool false => "boolean `false`"
  | .integer value => "integer `" ++ Json.renderInteger value ++ "`"
  | .float value => "floating point `" ++ Double.positional value ++ "`"
  | .string value => "string " ++ Text.quoted value
  | .sequence _ => "sequence"
  | .mapping _ => "map"
  | .tagged _ value => describe value

def message : StructureFault → String
  | wrongType found expected => "invalid type: " ++ describe found ++ ", expected " ++ expected
  | missingField name => "missing field `" ++ name ++ "`"

end StructureFault

namespace Kubeconfig

def asText (value : Yaml.Value) : Except StructureFault String :=
  match value.untagged with
  | .string text => .ok text
  | found => .error (.wrongType found "a string")

def asFlag (value : Yaml.Value) : Except StructureFault Bool :=
  match value.untagged with
  | .bool flag => .ok flag
  | found => .error (.wrongType found "a boolean")

def asList {α : Type} (read : Yaml.Value → Except StructureFault α) (value : Yaml.Value) :
    Except StructureFault (List α) :=
  match value.untagged with
  | .sequence items => items.mapM read
  | .null => .ok []
  | found => .error (.wrongType found "a sequence")

/-- A value that may be left out. -/
def orAbsent {α : Type} (read : Yaml.Value → Except StructureFault α) :
    Yaml.Value → Except StructureFault (Option α)
  | .null => .ok none
  | value => (read value).map some

def entryName (key : Yaml.Value) : Except StructureFault String :=
  match key.untagged with
  | .string name => .ok name
  | found => .error (.wrongType found "field identifier")

/-- A mapping that is read entry by entry into a record. -/
def asRecord {ρ : Type} (title : String) (start : ρ)
    (read : ρ → String → Yaml.Value → Except StructureFault ρ) (value : Yaml.Value) :
    Except StructureFault ρ :=
  match value.untagged with
  | .mapping entries =>
    entries.foldlM (fun record (key, value) => do read record (← entryName key) value) start
  | .null => .ok start
  | found => .error (.wrongType found ("struct " ++ title))

/-- Insists on an entry. -/
def demand {α : Type} (name : String) : Option α → Except StructureFault α
  | some value => .ok value
  | none => .error (.missingField name)

/-- Insists on the type of an entry of which nothing is made. -/
def pass {α ρ : Type} (record : ρ) (read : Except StructureFault α) : Except StructureFault ρ :=
  read.map fun _ => record

/-- An extension, which has a name and any content. -/
def extension (value : Yaml.Value) : Except StructureFault Unit := do
  let (name?, hasContent) ← asRecord "NamedExtension" (none, false)
    (fun (name?, hasContent) field value =>
      match field with
      | "name" => return (some (← asText value), hasContent)
      | "extension" => return (name?, true)
      | _ => return (name?, hasContent)) value
  let _ ← demand "name" name?
  if hasContent then return () else throw (.missingField "extension")

def extensions (value : Yaml.Value) : Except StructureFault Unit := do
  let _ ← orAbsent (asList extension) value
  return ()

/-- A named entry of a list. -/
def named {α : Type} (title content : String) (read : Yaml.Value → Except StructureFault α)
    (value : Yaml.Value) : Except StructureFault (NamedEntry α) := do
  let (name?, entry) ← asRecord title (none, none)
    (fun (name?, entry) field value =>
      if field = "name" then return (some (← asText value), entry)
      else if field = content then return (name?, ← orAbsent read value)
      else return (name?, entry)) value
  return { name := ← demand "name" name?, entry }

def context (value : Yaml.Value) : Except StructureFault ContextEntry := do
  let (cluster?, ns) ← asRecord "Context" (none, none)
    (fun (cluster?, ns) field value =>
      match field with
      | "cluster" => return (some (← asText value), ns)
      | "namespace" => return (cluster?, ← orAbsent asText value)
      | "user" => pass (cluster?, ns) (orAbsent asText value)
      | "extensions" => pass (cluster?, ns) (extensions value)
      | _ => return (cluster?, ns)) value
  return { cluster := ← demand "cluster" cluster?, ns }

/-- The entries of a cluster that are texts, apart from the address of its server. -/
def clusterTexts : List String :=
  ["certificate-authority", "certificate-authority-data", "proxy-url", "tls-server-name"]

def cluster (value : Yaml.Value) : Except StructureFault ClusterEntry :=
  asRecord "Cluster" ⟨none⟩
    (fun entry field value =>
      if field = "server" then return ⟨← orAbsent asText value⟩
      else if clusterTexts.contains field then pass entry (orAbsent asText value)
      else if field = "insecure-skip-tls-verify" || field = "disable-compression" then
        pass entry (orAbsent asFlag value)
      else if field = "extensions" then pass entry (extensions value)
      else return entry) value

/-- The entries of a user that are texts. -/
def userTexts : List String :=
  ["username", "password", "token", "tokenFile", "client-certificate", "client-certificate-data",
    "client-key", "client-key-data", "as"]

/-- The proof of identity of a user, of which nothing is made here. -/
def user (value : Yaml.Value) : Except StructureFault Unit :=
  asRecord "AuthInfo" ()
    (fun _ field value =>
      if userTexts.contains field then pass () (orAbsent asText value)
      else if field = "as-groups" then pass () (orAbsent (asList asText) value)
      else return ()) value

def preferences (value : Yaml.Value) : Except StructureFault Unit :=
  asRecord "Preferences" ()
    (fun _ field value =>
      match field with
      | "colors" => pass () (orAbsent asFlag value)
      | "extensions" => extensions value
      | _ => return ()) value

def ofValue (value : Yaml.Value) : Except StructureFault Kubeconfig :=
  asRecord "Kubeconfig" empty
    (fun config field value =>
      match field with
      | "kind" => return { config with kind := ← orAbsent asText value }
      | "apiVersion" => return { config with apiVersion := ← orAbsent asText value }
      | "current-context" => return { config with current := ← orAbsent asText value }
      | "contexts" =>
        return { config with contexts := ← asList (named "NamedContext" "context" context) value }
      | "clusters" =>
        return { config with clusters := ← asList (named "NamedCluster" "cluster" cluster) value }
      | "users" => pass config (asList (named "NamedAuthInfo" "user" user) value)
      | "preferences" => pass config (orAbsent preferences value)
      | "extensions" => pass config (extensions value)
      | _ => return config) value

def ofDocument? (document? : Option Yaml.Document) : Except KubeconfigFault Kubeconfig :=
  match document?.bind Yaml.Document.value? with
  | none => .error .malformed
  | some value => (ofValue value).mapError fun fault => .badStructure fault.message

def mergeAll : List Kubeconfig → Except KubeconfigFault Kubeconfig
  | [] => .ok empty
  | first :: others => others.foldlM merge first

/-- The kubeconfig of a text. -/
def parse (text : String) : Except KubeconfigFault Kubeconfig := do
  mergeAll (← (Yaml.documents text).mapM ofDocument?)

end Kubeconfig

end Lineage
