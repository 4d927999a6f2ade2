import Lineage.Api.Address
import Lineage.Api.Reply

/-!
# Requests to the API server

A server answers requests and sends notices of changes to whoever watches a
collection.  It is given as what it does with a state of its own, so that one
request may be answered differently each time.  Its extent bounds the pages of a
list and the number of owner references that it can report.  Addresses that may
not be requested never reach it.
-/

namespace Lineage

/-- What may be asked of an API server, over a state of it. -/
structure Api (σ : Type) where
  request : String → StateM σ Reply
  watch : String → StateM σ (List Json)
  extent : σ → Nat

namespace Api

/-- Requests an address and reads the body of the reply. -/
def fetch {σ α : Type} (api : Api σ) (decode : Json → Option α) (address : String) :
    StateM σ (Except ClientFault α) :=
  match Address.path? address with
  | none => return .error .badAddress
  | some path => do return (← api.request path).read decode

/-- Requests the object of some name under an address. -/
def fetchNamed {σ α : Type} (api : Api σ) (decode : Json → Option α) (name address : String) :
    StateM σ (Except ClientFault α) :=
  if name.isEmpty then return .error .emptyName else api.fetch decode address

/-- The address of a group and version of the API. -/
def root (group version : String) : List String :=
  if group.isEmpty then ["api", version] else ["apis", group, version]

/-- The segments that lead to a namespace, if one is meant. -/
def namespaceSegments : Option String → List String
  | some ns => ["namespaces", ns]
  | none => []

end Api

end Lineage
