import Lineage.Live
import Lineage.Resolution
import Lineage.Settings.Basic

/-!
# Sessions

A session is a live cluster that has been started with some settings: it follows
the collections of the enabled kinds, has waited for them for some time, has run
discovery once, and repeats it from then on.  Neither stores that are not ready
nor a failed discovery keep a session from starting, but the instant until which
it waits must exist.
-/

namespace Lineage

/-- A live cluster with the kinds whose objects are looked up in its stores. -/
structure Session (σ : Type) where
  kinds : KindSet
  live : Live σ

namespace Session

variable {σ : Type}

def milliseconds (seconds : UInt64) : Nat :=
  1000 * seconds.toNat

/-- Starts a session on a cluster, at the instant at which that is. -/
def startOn (api : Api σ) (settings : Settings) (live : Live σ) :
    Except SyncFault (Session σ) :=
  let live := live.follow settings.kinds settings.watched
  match Live.waitForSync api (milliseconds settings.cacheSyncTimeoutSeconds) live with
  | (.ok _, live) =>
    let (_, live) := Live.refresh api live
    .ok ⟨settings.kinds, live.startTimer (milliseconds settings.discoveryRefreshSeconds)⟩
  | (.error fault, _) => .error fault

/-- Starts a session with a server. -/
def start (api : Api σ) (settings : Settings) (server : σ) : Except SyncFault (Session σ) :=
  startOn api settings (Live.start server)

def withLive {α : Type} (action : StateM (Live σ) α) : StateM (Session σ) α := fun session =>
  let (answer, live) := action session.live
  (answer, { session with live })

def sleep (api : Api σ) (duration : Nat) (session : Session σ) : Session σ :=
  { session with live := session.live.advance api (session.live.now + duration) }

def podAddress (ns name : String) : String :=
  Address.ofSegments (Api.root "" "v1" ++ Api.namespaceSegments (some ns) ++ ["pods", name])

/-- The owners of a pod, as the server tells them. -/
def podOwners (api : Api σ) (ns name : String) :
    StateM (Live σ) (Except ClientFault (List Owner)) :=
  Live.withServer (api.fetchNamed Pod.decode? name (podAddress ns name))

/-- Searches from a controller. -/
def resolve (api : Api σ) (start : Key) : StateM (Session σ) (Except Chain Resolution) :=
  fun session =>
  let hops := session.live.hops api
  withLive (Resolution.ofController (Live.cluster api) session.kinds hops start) session

/-- Searches from a pod. -/
def resolvePod (api : Api σ) (ns name : String) : StateM (Session σ) (Except Chain Resolution) :=
  fun session =>
  let hops := session.live.hops api
  withLive (Resolution.ofPod (Live.cluster api) (podOwners api) session.kinds hops ns name) session

end Session

end Lineage
