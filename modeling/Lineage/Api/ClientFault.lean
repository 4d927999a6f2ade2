import Lineage.Chain
import Lineage.Number.Natural
import Lineage.Text.Quoted

/-!
# Failed requests

A request to the API server fails before it is sent, when its address cannot be
formed; or with the server's own account of what went wrong; or because the
body of a successful reply does not decode.
-/

namespace Lineage

/-- The server's account of a failed request. -/
structure Refusal where
  status : String
  message : String
  reason : String
  code : Nat
  deriving DecidableEq, Repr, Inhabited

namespace Refusal

/-- The message and the reason of a refusal. -/
def summary (refusal : Refusal) : String :=
  refusal.message ++ ": " ++ refusal.reason

/-- A refusal with all its parts. -/
def text (refusal : Refusal) : String :=
  "ApiError: " ++ refusal.summary ++ " (ErrorResponse \x7b status: " ++ Text.quoted refusal.status
    ++ ", message: " ++ Text.quoted refusal.message
    ++ ", reason: " ++ Text.quoted refusal.reason
    ++ ", code: " ++ Natural.render refusal.code ++ " \x7d)"

end Refusal

/-- Why a request to the API server has no usable answer. -/
inductive ClientFault where
  | refused (refusal : Refusal)
  | undecodable
  | emptyName
  | badAddress
  deriving DecidableEq, Repr

namespace ClientFault

def chain : ClientFault → Chain
  | refused refusal => .ofLinks [refusal.text, refusal.summary]
  | undecodable => ⟨["Error deserializing response"], true⟩
  | emptyName => .ofLinks
      ["Failed to build request: failed to validate request: A non-empty name is required",
        "failed to validate request: A non-empty name is required"]
  | badAddress => .ofLinks
      ["Failed to build request: failed to build request: invalid uri character",
        "failed to build request: invalid uri character", "invalid uri character"]

def message (fault : ClientFault) : String :=
  fault.chain.links.headD ""

end ClientFault

end Lineage
