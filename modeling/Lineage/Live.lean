import Lineage.Discovery.Survey
import Lineage.Discovery.Timer
import Lineage.Mirror
import Lineage.Watch

/-!
# Live clusters

A live cluster is kept up to date from an API server as time passes.  Watches
feed the stores of a mirror, and a timer repeats discovery; each does its work
at the instants at which it is due, and the server answers at once.  Letting
time pass carries out all that is due until then, the last instant included, in
the order of the instants.

Lookups read the stores and the index as they are at the moment.  Scales are
requested from the server when they are needed.
-/

namespace Lineage

/-- A cluster that follows an API server.  Time is counted in milliseconds. -/
structure Live (σ : Type) where
  now : Nat
  server : σ
  index : Option Index
  timer : Option Timer
  mirror : Option Mirror
  watched : Option String
  watches : List (WorkloadKind × Watch)

namespace Live

variable {σ : Type}

/-- A cluster of which nothing is known yet. -/
def start (server : σ) : Live σ :=
  { now := 0, server, index := none, timer := none, mirror := none, watched := none, watches := [] }

def withServer {α : Type} (action : StateM σ α) : StateM (Live σ) α := fun live =>
  let (answer, server) := action live.server
  (answer, { live with server })

/-- Runs discovery once and puts its index into force. -/
def refresh (api : Api σ) : StateM (Live σ) (Except SurveyFault Index) := fun live =>
  let (outcome, live) := withServer (Discovery.refresh api live.index) live
  (outcome, { live with index := Discovery.committed live.index outcome })

def startTimer (live : Live σ) (period : Nat) : Live σ :=
  { live with timer := Timer.start live.now period }

def stopTimer (live : Live σ) : Live σ :=
  { live with timer := none }

/-- Starts to follow the collections of some kinds, in one namespace or in all. -/
def follow (live : Live σ) (kinds : KindSet) (ns : Option String) : Live σ :=
  { live with
    mirror := some (Mirror.empty kinds)
    watched := ns
    watches := kinds.toList.map fun kind => (kind, Watch.start live.now) }

/-- Follows no collection any more.  The feeds are closed, and what the stores
hold remains. -/
def unfollow (live : Live σ) : Live σ :=
  let closings := live.watches.map fun (kind, _) => (kind, StoreEvent.close)
  { live with mirror := live.mirror.map fun mirror => mirror.run closings, watches := [] }

/-- Something that is due at an instant. -/
inductive Task where
  | discovery (timer : Timer)
  | watching (kind : WorkloadKind) (watch : Watch)
  deriving DecidableEq, Repr

def Task.due? : Task → Option Nat
  | discovery timer => some timer.next
  | watching _ watch => watch.due?

/-- The tasks of a cluster.  Of those that are due together the first comes first. -/
def tasks (live : Live σ) : List Task :=
  live.watches.map (fun (kind, watch) => .watching kind watch)
    ++ (live.timer.map Task.discovery).toList

/-- The task of a list that is due first, with its instant. -/
def earliest? : List Task → Option (Nat × Task)
  | [] => none
  | task :: others =>
    match task.due?, earliest? others with
    | none, other => other
    | some due, none => some (due, task)
    | some due, some (due', other) => if due ≤ due' then some (due, task) else some (due', other)

/-- Puts a watch in the place of the one of its kind. -/
def setWatch (live : Live σ) (kind : WorkloadKind) (watch : Watch) : Live σ :=
  { live with
    watches := live.watches.map fun (other, present) =>
      (other, if other = kind then watch else present) }

/-- Feeds the store of a kind. -/
def feed (live : Live σ) (kind : WorkloadKind) (events : List StoreEvent) : Live σ :=
  { live with
    mirror := live.mirror.map fun mirror => mirror.run (events.map fun event => (kind, event)) }

def perform (api : Api σ) (live : Live σ) : Task → Live σ
  | .discovery timer => { (refresh api live).2 with timer := some (timer.rewind live.now) }
  | .watching kind watch =>
    let pages := api.extent live.server + 1
    let ((events, watch), live) := withServer (watch.step api pages kind live.watched live.now) live
    (live.feed kind events).setWatch kind watch

/-- Carries out what is due up to an instant, at most the given number of tasks. -/
def performUntil (api : Api σ) (limit : Nat) : Nat → Live σ → Live σ
  | 0, live => live
  | steps + 1, live =>
    match earliest? live.tasks with
    | none => live
    | some (due, task) =>
      if due ≤ limit then
        performUntil api limit steps (perform api { live with now := max live.now due } task)
      else live

/-- A number of tasks that cannot all be due up to an instant: at each instant
there is at most one task for every kind and one for discovery. -/
def taskBound (live : Live σ) (limit : Nat) : Nat :=
  (WorkloadKind.all.length + 1) * (limit + 1 - live.now)

/-- Lets time pass up to an instant. -/
def advance (api : Api σ) (live : Live σ) (limit : Nat) : Live σ :=
  { performUntil api limit (live.taskBound limit) live with now := max live.now limit }

def isReady (live : Live σ) (kind : WorkloadKind) : Bool :=
  live.mirror.any fun mirror => (mirror.stores kind).isReady

def isClosed (live : Live σ) (kind : WorkloadKind) : Bool :=
  live.mirror.any fun mirror => (mirror.stores kind).isClosed

/-- When it is settled up to an instant whether the store of a kind is ready,
if at most the given number of tasks is carried out until then. -/
def settle (api : Api σ) (limit : Nat) (kind : WorkloadKind) : Nat → Live σ → Readiness
  | steps, live =>
    if live.isReady kind then .readyAt live.now
    else if live.isClosed kind then .closedAt live.now
    else
      match steps with
      | 0 => .never
      | steps + 1 =>
        match earliest? live.tasks with
        | none => .never
        | some (due, task) =>
          if due ≤ limit then
            settle api limit kind steps (perform api { live with now := max live.now due } task)
          else .never

/-- When the store of a kind becomes ready, as far as it does up to an instant. -/
def readiness (api : Api σ) (live : Live σ) (limit : Nat) (kind : WorkloadKind) : Readiness :=
  settle api limit kind (live.taskBound limit) live

/-- Waits for the stores of the followed kinds for at most some time, and gives
the kinds whose stores are not ready. -/
def waitForSync (api : Api σ) (timeout : Nat) :
    StateM (Live σ) (Except SyncFault (List WorkloadKind)) :=
  fun live =>
    let kinds := (live.mirror.map Mirror.kinds).getD (KindSet.ofList [])
    let schedule := live.readiness api (live.now + timeout)
    match Readiness.waitForSync schedule kinds live.now timeout with
    | .ok (pending, finished) => (.ok pending, live.advance api finished)
    | .error fault => (.error fault, live)

/-- What a store holds under a name. -/
def cached (live : Live σ) (kind : WorkloadKind) (ns name : String) :
    Except Cause (Option Workload) :=
  match live.mirror with
  | some mirror => mirror.cached kind ns name
  | none => .error (.cacheDisabled kind)

def mapped (live : Live σ) (group kind : String) : Except Cause (List Mapping) :=
  Discovery.lookup live.index group kind

def scaleAddress (mapping : Mapping) (ns name : String) : String :=
  let ns? := if mapping.namespaced then some ns else none
  Address.ofSegments (Api.root mapping.group mapping.version ++ Api.namespaceSegments ns?
    ++ [mapping.resource, name, "scale"])

/-- The owners that the scale of an object reports. -/
def scaled (api : Api σ) (mapping : Mapping) (ns name : String) :
    StateM σ (Except Cause (List Owner)) := do
  let read ← api.fetchNamed Scale.decode? name (scaleAddress mapping ns name)
  return read.mapError Cause.client

/-- A live cluster as what a resolution asks. -/
def cluster (api : Api σ) : Cluster (Live σ) where
  cached kind ns name := fun live => (live.cached kind ns name, live)
  mapped group kind := fun live => (live.mapped group kind, live)
  scaled mapping ns name := withServer (scaled api mapping ns name)

def references (live : Live σ) : List Owner :=
  (live.mirror.map Mirror.references).getD []

/-- A number of hops that no ascent exhausts: it exceeds the number of owner
references in the stores and of those that the server can report. -/
def hops (api : Api σ) (live : Live σ) : Nat :=
  live.references.length + api.extent live.server + 1

end Live

end Lineage
