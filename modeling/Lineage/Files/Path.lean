import Lineage.Text.Blank

/-!
# Paths

A path is a text of names with slashes between them.  Joining keeps both texts
as they are and puts a slash between them only if there is none; a path that
begins with a slash replaces the one to which it is joined.
-/

namespace Lineage

namespace Path

/-- Whether a path begins at the root. -/
def isAbsolute (path : String) : Bool :=
  path.toList.head? = some '/'

def join (base path : String) : String :=
  if isAbsolute path || base.isEmpty then path
  else if base.toList.getLast? = some '/' then base ++ path
  else base ++ "/" ++ path

/-- The names of a path, without those that stand for the place itself. -/
def names (path : String) : List String :=
  (Text.split '/' path).filter fun name => !name.isEmpty && name ≠ "."

/-- Whether a path can only mean a directory, by its last characters. -/
def endsInDirectory (path : String) : Bool :=
  match path.toList.reverse with
  | '/' :: _ => true
  | '.' :: '/' :: _ => true
  | _ => false

end Path

end Lineage
