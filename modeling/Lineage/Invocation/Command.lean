import Lineage.Invocation.Words
import Lineage.Resolution
import Lineage.Settings.Command

/-!
# Commands

The program resolves a controller or a pod, manages settings, or says what it
is.  A context may be named before or after a command; the name that stands last
counts.
-/

namespace Lineage

/-- What the program is asked to do. -/
inductive Command where
  | resolve (ns kind name : String) (apiVersion : Option String) (format : OutputFormat)
  | pod (ns name : String) (format : OutputFormat)
  | settings (command : SettingsCommand)
  | version
  deriving DecidableEq, Repr

/-- A command and the context that is meant. -/
structure Invocation where
  context : Option String
  command : Command
  deriving DecidableEq, Repr

namespace Invocation

/-- The options that every command takes. -/
def commonOptions : List OptionSpec :=
  [⟨"debug", some 'd', .flag⟩, ⟨"context", none, .value⟩, ⟨"help", some 'h', .help⟩]

/-- The options before a command. -/
def programOptions : List OptionSpec :=
  ⟨"version", some 'V', .version⟩ :: commonOptions

def searchOptions : List OptionSpec :=
  ⟨"namespace", some 'n', .value⟩ :: ⟨"output", some 'o', .value⟩ :: commonOptions

def resolveOptions : List OptionSpec :=
  ⟨"kind", none, .value⟩ :: ⟨"name", none, .value⟩ :: ⟨"api-version", none, .value⟩
    :: searchOptions

/-- Insists on something that must be given. -/
def demand {α : Type} : Option α → Except Halt α
  | some value => .ok value
  | none => .error .misused

/-- Insists that there are no words left. -/
def nothingElse : List String → Except Halt Unit
  | [] => .ok ()
  | _ => .error .misused

def formatOf (words : Words) : Except Halt OutputFormat :=
  match words.option? "output" with
  | none => .ok .text
  | some name => demand (OutputFormat.ofName? name)

def readResolve (arguments : List String) : Except Halt (Words × Command) := do
  let words ← Words.read resolveOptions [] arguments
  nothingElse words.plain
  let format ← formatOf words
  let ns ← demand (words.option? "namespace")
  let kind ← demand (words.option? "kind")
  let name ← demand (words.option? "name")
  return (words, .resolve ns kind name (words.option? "api-version") format)

def readPod (arguments : List String) : Except Halt (Words × Command) := do
  let words ← Words.read searchOptions [] arguments
  let format ← formatOf words
  let ns ← demand (words.option? "namespace")
  match words.plain with
  | [name] => return (words, .pod ns name format)
  | _ => throw .misused

def settingsNames : List String :=
  ["get", "set", "list", "path", "validate", "help"]

/-- The command on settings of some name, from the words that follow it. -/
def settingsCommand : String → List String → Except Halt SettingsCommand
  | "get", [] => .ok (.get none)
  | "get", [key] => .ok (.get (some key))
  | "set", [key, value] => .ok (.set key value)
  | "list", [] => .ok .list
  | "path", [] => .ok .path
  | "validate", [] => .ok .validate
  | "help", _ => .error .help
  | _, _ => .error .misused

/-- The context that the words of several levels name, the inner ones last. -/
def contextOf (outer inner : Option String) : Option String :=
  inner <|> outer

def readSettings (arguments : List String) : Except Halt (Option String × Command) := do
  let words ← Words.read commonOptions settingsNames arguments
  nothingElse words.plain
  match words.rest with
  | [] => throw .misused
  | name :: others =>
    let inner ← Words.read commonOptions [] others
    let command ← settingsCommand name inner.plain
    return (contextOf (words.option? "context") (inner.option? "context"), .settings command)

def commandNames : List String :=
  ["resolve", "pod", "config", "version", "help"]

/-- Reads the words of the command of some name: the context that they name and
the command. -/
def readCommand (name : String) (arguments : List String) :
    Except Halt (Option String × Command) :=
  match name with
  | "resolve" => do
    let (words, command) ← readResolve arguments
    return (words.option? "context", command)
  | "pod" => do
    let (words, command) ← readPod arguments
    return (words.option? "context", command)
  | "config" => readSettings arguments
  | "version" => do
    let words ← Words.read commonOptions [] arguments
    nothingElse words.plain
    return (words.option? "context", .version)
  | "help" => .error .help
  | _ => .error .misused

def read (arguments : List String) : Except Halt Invocation := do
  let words ← Words.read programOptions commandNames arguments
  nothingElse words.plain
  match words.rest with
  | [] => throw .misused
  | name :: others =>
    let (context, command) ← readCommand name others
    return { context := contextOf (words.option? "context") context, command }

end Invocation

end Lineage
