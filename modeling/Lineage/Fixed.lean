import Lineage.Fault

/-!
# Resolvers with fixed answers

Three resolvers never look at a cluster: one takes every key for its own root,
one always gives the same answer, and one gives its answer only to the key that
it expects.
-/

namespace Lineage

/-- A resolver whose answer is settled beforehand. -/
inductive FixedResolver where
  | identity
  | constant (result : Option Key)
  | expecting (expected result : Option Key)
  deriving DecidableEq, Repr

namespace FixedResolver

/-- The answer of a fixed resolver to a key or to none. -/
def findTopLevel (resolver : FixedResolver) (key : Option Key) : Except Fault (Option Key) :=
  match resolver with
  | identity => .ok key
  | constant result => .ok result
  | expecting expected result =>
    if key = expected then .ok result else .error (.assertionMismatch expected key)

end FixedResolver

end Lineage
