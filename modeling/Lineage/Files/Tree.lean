import Lineage.Files.Path

/-!
# Trees of files

A tree has directories and files at places, which are lists of names from the
root.  A path that does not begin at the root begins at the working directory.
Every name on the way must be a directory, and two dots lead one level up.
A file holds a text, or bytes that are not text.
-/

namespace Lineage

/-- What is at a place in a tree of files. -/
inductive FileEntry where
  | directory
  | file (content : Option String)
  deriving DecidableEq, Repr

/-- Why something cannot be done with a file. -/
inductive FileFault where
  | absent
  | occupied
  | notDirectory
  | isDirectory
  | notText
  deriving DecidableEq, Repr

namespace FileFault

def message : FileFault → String
  | absent => "No such file or directory (os error 2)"
  | occupied => "File exists (os error 17)"
  | notDirectory => "Not a directory (os error 20)"
  | isDirectory => "Is a directory (os error 21)"
  | notText => "stream did not contain valid UTF-8"

end FileFault

/-- A tree of files, and the place from which relative paths begin. -/
structure FileTree where
  entries : List (List String × FileEntry)
  working : List String
  deriving DecidableEq, Repr

namespace FileTree

/-- A tree whose only place is an empty working directory. -/
def empty : FileTree :=
  { entries := [], working := ["work"] }

/-- What is at a place.  The working directory and all directories around it are
always there. -/
def at? (tree : FileTree) (place : List String) : Option FileEntry :=
  if place.isPrefixOf tree.working then some .directory
  else (tree.entries.find? fun entry => entry.1 = place).map Prod.snd

def put (tree : FileTree) (place : List String) (entry : FileEntry) : FileTree :=
  { tree with entries := (place, entry) :: tree.entries.filter fun other => other.1 ≠ place }

/-- The place that a list of names leads to from another. -/
def walk (tree : FileTree) : List String → List String → Except FileFault (List String)
  | place, [] => .ok place
  | place, name :: rest =>
    match tree.at? place with
    | none => .error .absent
    | some (.file _) => .error .notDirectory
    | some .directory =>
      if name = ".." then tree.walk place.dropLast rest else tree.walk (place ++ [name]) rest

/-- The place where the names of a path begin. -/
def origin (tree : FileTree) (path : String) : List String :=
  if Path.isAbsolute path then [] else tree.working

/-- What is at the end of a path. -/
def find (tree : FileTree) (path : String) : Except FileFault FileEntry := do
  if path.isEmpty then throw .absent
  let place ← tree.walk (tree.origin path) (Path.names path)
  match tree.at? place with
  | none => throw .absent
  | some (.file content) =>
    if Path.endsInDirectory path then throw .notDirectory else return .file content
  | some .directory => return .directory

def exists? (tree : FileTree) (path : String) : Bool :=
  (tree.find path).isOk

/-- The text of the file at the end of a path. -/
def read (tree : FileTree) (path : String) : Except FileFault String := do
  match ← tree.find path with
  | .directory => throw .isDirectory
  | .file none => throw .notText
  | .file (some text) => return text

/-- Writes a file at the end of a path; the directory around it must exist. -/
def write (tree : FileTree) (path : String) (content : Option String) :
    Except FileFault FileTree := do
  if path.isEmpty then throw .absent
  let place ← tree.walk (tree.origin path) (Path.names path)
  match tree.at? place with
  | some .directory => throw .isDirectory
  | some (.file _) =>
    if Path.endsInDirectory path then throw .notDirectory else return tree.put place (.file content)
  | none =>
    if Path.endsInDirectory path then throw .isDirectory else return tree.put place (.file content)

/-- Makes the directories that a list of names leads to, as far as they are
missing.  A file on the way is no directory; once a directory had to be made, a
file is seen as something that occupies the place of one. -/
def makeWay (tree : FileTree) (hasMade : Bool) :
    List String → List String → Except FileFault FileTree
  | place, [] =>
    match tree.at? place with
    | some .directory => .ok tree
    | some (.file _) => .error .occupied
    | none => .ok (tree.put place .directory)
  | place, name :: rest =>
    let next := if name = ".." then place.dropLast else place ++ [name]
    match tree.at? place with
    | some (.file _) => .error (if hasMade then .occupied else .notDirectory)
    | some .directory => tree.makeWay hasMade next rest
    | none => (tree.put place .directory).makeWay true next rest

/-- Makes the directory around the end of a path unless something is there. -/
def makeParent (tree : FileTree) (path : String) : Except FileFault FileTree :=
  let names := (Path.names path).dropLast
  let origin := tree.origin path
  match tree.walk origin names with
  | .ok place => if (tree.at? place).isSome then .ok tree else tree.makeWay false origin names
  | .error _ => tree.makeWay false origin names

def makeDirectory (tree : FileTree) (path : String) : Except FileFault FileTree :=
  tree.makeWay false (tree.origin path) (Path.names path)

def remove (tree : FileTree) (path : String) : FileTree :=
  match tree.walk (tree.origin path) (Path.names path) with
  | .error _ => tree
  | .ok place =>
    { tree with entries := tree.entries.filter fun entry => !place.isPrefixOf entry.1 }

end FileTree

end Lineage
