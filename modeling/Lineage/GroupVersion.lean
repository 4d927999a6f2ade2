import Lineage.Text.Blank

/-!
# API groups and versions

An API version names a group and a version with a slash between them; without
a slash it names a version of the core group, whose own name is empty.  Reading
refuses a second slash.
-/

namespace Lineage

/-- A group of the API and one of its versions. -/
structure GroupVersion where
  group : String
  version : String
  deriving DecidableEq, Repr, Inhabited

namespace GroupVersion

/-- Reads an API version; nothing if it has more than one slash. -/
def parse (apiVersion : String) : Option GroupVersion :=
  match Text.splitFirst '/' apiVersion.toList with
  | none => some ⟨"", apiVersion⟩
  | some (group, version) =>
    if version.contains '/' then none
    else some ⟨String.ofList group, String.ofList version⟩

/-- The API version of a group and a version.  The core group is not written. -/
def text (groupVersion : GroupVersion) : String :=
  if groupVersion.group.isEmpty then groupVersion.version
  else groupVersion.group ++ "/" ++ groupVersion.version

/-- Reads the group and version that head a list of resources, cutting at the
first slash whatever follows it. -/
def ofListHeading (heading : String) : GroupVersion :=
  match Text.splitFirst '/' heading.toList with
  | none => ⟨"", heading⟩
  | some (group, version) => ⟨String.ofList group, String.ofList version⟩

end GroupVersion

end Lineage
