import Lineage.Api.ClientFault
import Lineage.Api.Status
import Lineage.Api.Wire
import Lineage.Json.Reader

/-!
# Replies of the API server

The body of a reply to a failed request is the server's account of the failure,
or else any text, which the account then quotes.  The body of every other reply
is decoded, whatever its status.
-/

namespace Lineage

/-- A reply of the API server. -/
structure Reply where
  status : Nat
  body : String
  deriving DecidableEq, Repr, Inhabited

namespace Refusal

/-- The names of the parts of an account. -/
def partNames : List String :=
  ["status", "message", "reason", "code"]

/-- A text that an account may leave out, but not void. -/
def optionalText (fields : List (String × Json)) (name : String) : Option String :=
  match Json.lookup name fields with
  | none => some ""
  | some value => value.text?

/-- Decodes the server's account of a failure, an object or a list of its parts. -/
def ofJson : Json → Option Refusal
  | .object fields => do
    if partNames.any (Wire.isRepeated fields) then none
    let status ← (Json.lookup "status" fields).bind Json.text?
    let message ← optionalText fields "message"
    let reason ← optionalText fields "reason"
    let code ← (Json.lookup "code" fields).bind (Wire.natural? 16)
    return { status, message, reason, code }
  | .array [status, message, reason, code] => do
    let status ← status.text?
    let message ← message.text?
    let reason ← reason.text?
    let code ← Wire.natural? 16 code
    return { status, message, reason, code }
  | _ => none

/-- The account of a failure whose reply holds none. -/
def ofBody (reply : Reply) : Refusal :=
  { status := Status.text reply.status
    message := Text.quoted reply.body
    reason := "Failed to parse error data"
    code := reply.status }

end Refusal

namespace Reply

/-- Reads the body of a reply, unless the request failed. -/
def read {α : Type} (decode : Json → Option α) (reply : Reply) : Except ClientFault α :=
  if Status.isFailure reply.status then
    .error (.refused (((Json.parse reply.body).bind Refusal.ofJson).getD (Refusal.ofBody reply)))
  else
    match (Json.parse reply.body).bind decode with
    | some value => .ok value
    | none => .error .undecodable

end Reply

end Lineage
