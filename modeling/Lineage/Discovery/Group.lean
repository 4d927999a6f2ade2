import Lineage.Api.Catalogue
import Lineage.Api.Client
import Lineage.Discovery.VersionOrder

/-!
# Discovering a group

The resources of a group are found version by version.  The preferred version
comes first, so that its mappings are found before those of all others.  If the
catalogue of one version cannot be read, no later one is requested and nothing
is known of the group.

The core group lists its own versions and prefers the first one.  Its catalogues
are requested in the order in which the server lists the versions and arranged
by the order of versions; a version that is listed twice means its first
catalogue.
-/

namespace Lineage

/-- The first value with the others behind it, in their order and without it. -/
def preferredFirst (preferred : String) (versions : List String) : List String :=
  preferred :: versions.filter fun version => version ≠ preferred

/-- Why nothing is known of a group. -/
inductive GroupFault where
  | unread (fault : ClientFault)
  | noVersion
  deriving DecidableEq, Repr

namespace Discovery

variable {σ : Type}

/-- The catalogue of one version of a group. -/
def readVersion (api : Api σ) (group version : String) :
    StateM σ (Except GroupFault (List Mapping)) := do
  let address := Address.ofSegments (Api.root group version)
  let read ← api.fetch Catalogue.resources? address
  return (read.map ResourceList.mappings).mapError GroupFault.unread

/-- Reads catalogues one after another up to the first that fails, each under
its version. -/
def readVersions (api : Api σ) (group : String) :
    List String → StateM σ (Except GroupFault (List (String × List Mapping)))
  | [] => return .ok []
  | version :: others => do
    match ← readVersion api group version with
    | .error fault => return .error fault
    | .ok mappings => return (← readVersions api group others).map ((version, mappings) :: ·)

def preferredVersion (entry : GroupEntry) : Option String :=
  entry.preferred <|> entry.versions.head?

/-- The mappings of a named group, those of the preferred version first. -/
def namedGroup (api : Api σ) (entry : GroupEntry) :
    StateM σ (Except GroupFault (List Mapping)) := do
  match preferredVersion entry with
  | none => return .ok []
  | some preferred =>
    let read ← readVersions api entry.name (preferredFirst preferred entry.versions)
    return read.map fun catalogues => catalogues.flatMap Prod.snd

def coreGroup : String :=
  ""

def coreVersion : String :=
  "v1"

/-- The mappings of the core group from its catalogues. -/
def arrangeCore (catalogues : List (String × List Mapping)) : List Mapping :=
  let sorted := VersionName.sortBy Prod.fst catalogues
  (preferredFirst coreVersion (sorted.map Prod.fst)).flatMap fun version =>
    (sorted.lookup version).getD []

/-- The mappings of the core group.  It must have a version. -/
def core (api : Api σ) : StateM σ (Except GroupFault (List Mapping)) := do
  match ← api.fetch Catalogue.coreVersions? "/api" with
  | .error fault => return .error (.unread fault)
  | .ok [] => return .error .noVersion
  | .ok versions => return (← readVersions api coreGroup versions).map arrangeCore

/-- The mappings of a group. -/
def group (api : Api σ) (entry : GroupEntry) : StateM σ (Except GroupFault (List Mapping)) :=
  if entry.name = coreGroup then core api else namedGroup api entry

end Discovery

end Lineage
