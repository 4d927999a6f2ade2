import Lineage.Key

/-!
# Owner references

An object lists the objects that own it, and at most one of them is meant to
control it.  An owner lives in the namespace of the object that names it.
-/

namespace Lineage

/-- A reference from an object to one of its owners. -/
structure Owner where
  apiVersion : String
  kind : String
  name : String
  uid : String
  controller : Option Bool
  deriving DecidableEq, Repr, Inhabited

namespace Owner

def controls (owner : Owner) : Bool :=
  owner.controller == some true

/-- The key of an owner that lives in some namespace. -/
def key (owner : Owner) (ns : String) : Key :=
  { ns, kind := owner.kind, name := owner.name, apiVersion := owner.apiVersion }

/-- The key of the controlling owner; of several, the first one counts. -/
def controlling (owners : List Owner) (ns : String) : Option Key :=
  (owners.find? controls).map fun owner => owner.key ns

end Owner

end Lineage
