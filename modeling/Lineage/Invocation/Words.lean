/-!
# Words of an invocation

An invocation is a list of words.  Options begin with two hyphens and a name, or
with one hyphen and a letter; letters of options without a value may share a
hyphen.  The value of an option stands in the same word, behind an equals sign
if the option is named in full, or in the next word, which must not look like an
option.  No option may be given twice.  After a word of two hyphens nothing is
an option.  Where commands are known, the first word that is no option names the
command, and the words after it are the command's own.
-/

namespace Lineage

/-- What an option asks for. -/
inductive OptionRole where
  | flag
  | value
  | help
  | version
  deriving DecidableEq, Repr

/-- An option that may be given. -/
structure OptionSpec where
  name : String
  letter : Option Char
  role : OptionRole
  deriving DecidableEq, Repr

/-- Why the words of an invocation lead to no command. -/
inductive Halt where
  | misused
  | help
  | version
  deriving DecidableEq, Repr

/-- The words of an invocation up to a command: the options with their values,
the words that are no options, and the words from the command on. -/
structure Words where
  options : List (String × String)
  plain : List String
  rest : List String
  deriving DecidableEq, Repr

namespace Words

def empty : Words :=
  ⟨[], [], []⟩

def option? (words : Words) (name : String) : Option String :=
  words.options.lookup name

def isOption (word : String) : Bool :=
  match word.toList with
  | '-' :: _ :: _ => true
  | _ => false

/-- Notes an option, which must be new. -/
def give (words : Words) (name value : String) : Except Halt Words :=
  if (words.option? name).isSome then .error .misused
  else .ok { words with options := words.options ++ [(name, value)] }

/-- The option that takes the next word for its value, if one is waiting. -/
abbrev Waiting := Option String

/-- Reads an option that is named in full, with the value in the same word. -/
def readName (specs : List OptionSpec) (words : Words) (name : String) (value? : Option String) :
    Except Halt (Words × Waiting) :=
  match specs.find? fun spec => spec.name = name with
  | none => .error .misused
  | some spec =>
    match spec.role, value? with
    | .value, some value => do return (← words.give name value, none)
    | .value, none => .ok (words, some name)
    | _, some _ => .error .misused
    | .flag, none => do return (← words.give name "", none)
    | .help, none => .error .help
    | .version, none => .error .version

/-- What follows the letter of an option as its value. -/
def attached : List Char → Option String
  | [] => none
  | '=' :: value => some (String.ofList value)
  | value => some (String.ofList value)

def readLetters (specs : List OptionSpec) (words : Words) :
    List Char → Except Halt (Words × Waiting)
  | [] => .ok (words, none)
  | letter :: rest =>
    match specs.find? fun spec => spec.letter = some letter with
    | none => .error .misused
    | some spec =>
      match spec.role with
      | .help => .error .help
      | .version => .error .version
      | .value =>
        match attached rest with
        | some value => do return (← words.give spec.name value, none)
        | none => .ok (words, some spec.name)
      | .flag => do
        if rest.head? = some '=' then throw .misused
        readLetters specs (← words.give spec.name "") rest

def readOption (specs : List OptionSpec) (words : Words) (word : String) :
    Except Halt (Words × Waiting) :=
  match word.toList with
  | '-' :: '-' :: characters =>
    let name := characters.takeWhile (· ≠ '=')
    let value? :=
      match characters.dropWhile (· ≠ '=') with
      | [] => none
      | _ :: value => some (String.ofList value)
    readName specs words (String.ofList name) value?
  | _ :: letters => readLetters specs words letters
  | [] => .error .misused

/-- Reads words, the first of which may be the value of a waiting option. -/
def readFrom (specs : List OptionSpec) (commands : List String) (words : Words) :
    Waiting → List String → Except Halt Words
  | none, [] => .ok words
  | some _, [] => .error .misused
  | some name, word :: others => do
    if isOption word then throw .misused
    readFrom specs commands (← words.give name word) none others
  | none, word :: others =>
    if word = "--" then .ok { words with plain := words.plain ++ others }
    else if isOption word then do
      let (words, waiting) ← readOption specs words word
      readFrom specs commands words waiting others
    else if commands.contains word then .ok { words with rest := word :: others }
    else readFrom specs commands { words with plain := words.plain ++ [word] } none others

def read (specs : List OptionSpec) (commands : List String) (arguments : List String) :
    Except Halt Words :=
  readFrom specs commands empty none arguments

end Words

end Lineage
