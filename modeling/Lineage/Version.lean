/-!
# What the program says of itself
-/

namespace Lineage

namespace Version

/-- The name and the number of this version. -/
def line : String :=
  "ownerchain 0.1.0"

/-- All that the program says of itself. -/
def text : String :=
  line ++ "\n  Resolve the top-level controller that owns a Kubernetes workload object\n"
    ++ "  Dan Guns <danbguns@gmail.com>\n  License: Apache-2.0\n"

end Version

end Lineage
