import Lineage.Api.Client
import Lineage.Json.Printer

/-!
# Scripted servers

A scripted server has a list of replies for each path.  They are given one after
another, and the last one is given again and again.  A path without replies is
not found.  The notices of a collection are sent to the first who watches it.
The server keeps the paths of the requests it has answered.
-/

namespace Lineage

/-- A server whose replies are laid down beforehand. -/
structure Server where
  routes : List (String × List Reply)
  notices : List (String × List Json)
  requested : List String

namespace Server

def empty : Server :=
  ⟨[], [], []⟩

/-- Lays down the replies for a path in place of those it had. -/
def route (server : Server) (path : String) (replies : List Reply) : Server :=
  { server with routes := (path, replies) :: server.routes.filter fun (other, _) => other ≠ path }

def unroute (server : Server) (path : String) : Server :=
  { server with routes := server.routes.filter fun (other, _) => other ≠ path }

def notFoundBody : Json :=
  .object [("code", .integer 404),
    ("message", .string "the server could not find the requested resource"),
    ("reason", .string "NotFound"), ("status", .string "Failure")]

def notFound : Reply :=
  ⟨404, notFoundBody.render⟩

/-- The replies that remain after one has been given. -/
def remaining : List Reply → List Reply
  | _ :: next :: rest => next :: rest
  | replies => replies

def answer (path : String) : StateM Server Reply := fun server =>
  let noted := { server with requested := path :: server.requested }
  match server.routes.lookup path with
  | some (reply :: rest) => (reply, noted.route path (remaining (reply :: rest)))
  | _ => (notFound, noted)

/-- The notices for whoever watches a path. -/
def send (path : String) : StateM Server (List Json) := fun server =>
  ((server.notices.lookup path).getD [],
    { server with
      notices := server.notices.filter fun (other, _) => other ≠ path
      requested := path :: server.requested })

def replies (server : Server) : List Reply :=
  server.routes.flatMap Prod.snd

/-- The number of replies that a server has in store and the length of all of
them together. -/
def extent (server : Server) : Nat :=
  server.replies.length + (String.join (server.replies.map Reply.body)).length

def api : Api Server :=
  ⟨answer, send, extent⟩

/-- The paths requested of a server, in order, and the server with none noted. -/
def takeRequested (server : Server) : List String × Server :=
  (server.requested.reverse, { server with requested := [] })

end Server

end Lineage
