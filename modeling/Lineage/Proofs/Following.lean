import Lineage.Proofs.History
import Lineage.Proofs.Report
import Lineage.Proofs.Waiting
import Lineage.Session

/-!
# The stores of a session

A session starts to follow the kinds of its settings before it does anything
else, and from then on events are all that its stores hear.  Whatever it does
later, the stores have gone through some history of events since they were
empty, and the kinds that are followed remain the kinds that searches look up in
the stores.
-/

namespace Lineage

namespace Cluster

variable {σ : Type} {cluster : Cluster σ} {origin state : σ}

/-- A search asks its questions one after another. -/
theorem reaches_findTopLevel (kinds : KindSet) (hops : Nat) (start : Option Key)
    (reached : cluster.Reaches origin state) :
    cluster.Reaches origin (cluster.findTopLevel kinds hops start state).2 := by
  cases start with
  | none => exact reached
  | some key =>
      have preserves : Ascent.Preserves (cluster.parentOf kinds) (fun _ => True) (fun _ => True)
          (cluster.Reaches origin) :=
        ⟨fun key _ _ reached => (cluster.parentOf_yields kinds key reached).reached,
          fun _ _ _ _ _ _ => trivial, fun _ _ _ _ _ _ => trivial⟩
      have run := Ascent.climbs_climb (cluster.parentOf kinds) hops [] key state
      exact run.final_of_preserves preserves trivial reached

end Cluster

namespace Live

variable {σ : Type} {api : Api σ} {kinds : KindSet} {live : Live σ}

/-- The stores of some kinds have heard of a history of events, and of nothing else. -/
def Follows (live : Live σ) (kinds : KindSet) : Prop :=
  ∃ events, live.mirror = some ((Mirror.empty kinds).run events)

theorem follows_follow (live : Live σ) (kinds : KindSet) (ns : Option String) :
    (live.follow kinds ns).Follows kinds :=
  ⟨[], rfl⟩

theorem Follows.feed (follows : live.Follows kinds) (kind : WorkloadKind)
    (events : List StoreEvent) : (live.feed kind events).Follows kinds := by
  obtain ⟨earlier, mirror⟩ := follows
  refine ⟨earlier ++ events.map fun event => (kind, event), ?_⟩
  simp only [Live.feed, mirror, Option.map_some, Mirror.run, List.foldl_append]

theorem Follows.unfollow (follows : live.Follows kinds) : live.unfollow.Follows kinds := by
  obtain ⟨earlier, mirror⟩ := follows
  refine ⟨earlier ++ live.watches.map fun watch => (watch.1, .close), ?_⟩
  simp only [Live.unfollow, mirror, Option.map_some, Mirror.run, List.foldl_append]

/-- A task feeds the store of one kind or none. -/
theorem Follows.perform (follows : live.Follows kinds) (task : Task) :
    (perform api live task).Follows kinds := by
  cases task with
  | discovery timer => exact follows
  | watching kind watch =>
      have served : ∀ server, ({ live with server } : Live σ).Follows kinds := fun _ => follows
      exact (served _).feed kind _

theorem Follows.performUntil (limit steps : Nat) (follows : live.Follows kinds) :
    (performUntil api limit steps live).Follows kinds := by
  induction steps generalizing live with
  | zero => exact follows
  | succ steps ih =>
      rw [Live.performUntil]
      cases earliest? live.tasks with
      | none => exact follows
      | some found =>
          obtain ⟨due, task⟩ := found
          by_cases early : due ≤ limit
          · have later : ({ live with now := max live.now due } : Live σ).Follows kinds := follows
            simp only [if_pos early]
            exact ih (later.perform task)
          · simp only [if_neg early]
            exact follows

theorem Follows.advance (follows : live.Follows kinds) (limit : Nat) :
    (live.advance api limit).Follows kinds :=
  follows.performUntil limit (live.taskBound limit)

/-- A question changes nothing but the server. -/
theorem mirror_of_reaches {state : Live σ} (reached : (cluster api).Reaches live state) :
    state.mirror = live.mirror := by
  induction reached with
  | origin => rfl
  | cached kind ns name earlier ih => exact ih
  | mapped group kind earlier ih => exact ih
  | scaled mapping ns name earlier ih => exact ih

theorem Follows.of_reaches {state : Live σ} (follows : live.Follows kinds)
    (reached : (cluster api).Reaches live state) : state.Follows kinds := by
  obtain ⟨events, mirror⟩ := follows
  exact ⟨events, (mirror_of_reaches reached).trans mirror⟩

end Live

namespace Session

variable {σ : Type} {api : Api σ} {settings : Settings} {session : Session σ}

/-- The life of a session with some settings: it is started, lets time pass, asks
its server for something, and searches. -/
inductive Lives (api : Api σ) (settings : Settings) : Session σ → Prop
  | started {server : σ} {session : Session σ} (begun : start api settings server = .ok session) :
      Lives api settings session
  | slept {session : Session σ} (duration : Nat) (earlier : Lives api settings session) :
      Lives api settings (session.sleep api duration)
  | asked {session : Session σ} {α : Type} (action : StateM σ α)
      (earlier : Lives api settings session) :
      Lives api settings (withLive (Live.withServer action) session).2
  | searched {session : Session σ} {state : Live σ} (earlier : Lives api settings session)
      (reached : (Live.cluster api).Reaches session.live state) :
      Lives api settings { session with live := state }

theorem startOn_of_waited {live waited : Live σ} {pending : List WorkloadKind}
    (reported : Live.waitForSync api (milliseconds settings.cacheSyncTimeoutSeconds)
      (live.follow settings.kinds settings.watched) = (.ok pending, waited)) :
    startOn api settings live = .ok ⟨settings.kinds, (Live.refresh api waited).2.startTimer
      (milliseconds settings.discoveryRefreshSeconds)⟩ := by
  simp only [startOn, reported]
  rfl

theorem startOn_of_not_hasDeadline (api : Api σ) (settings : Settings) (live : Live σ)
    (uncounted : ¬Readiness.HasDeadline live.now
      (milliseconds settings.cacheSyncTimeoutSeconds)) :
    startOn api settings live = .error .noDeadline := by
  have stopped := Live.waitForSync_eq_error api
    (live.follow settings.kinds settings.watched) uncounted
  simp only [startOn, stopped]

/-- A session starts where the clock can count up to the deadline, and the waiting ends
by then. -/
theorem exists_startOn (api : Api σ) (settings : Settings) (live : Live σ)
    (counted : Readiness.HasDeadline live.now
      (milliseconds settings.cacheSyncTimeoutSeconds)) :
    ∃ finished, live.now ≤ finished ∧
      finished ≤ live.now + milliseconds settings.cacheSyncTimeoutSeconds ∧
      startOn api settings live = .ok ⟨settings.kinds,
        (Live.refresh api ((live.follow settings.kinds settings.watched).advance api
          finished)).2.startTimer (milliseconds settings.discoveryRefreshSeconds)⟩ := by
  obtain ⟨pending, finished, reported, waited⟩ := Live.waitForSync_eq_ok api
    (live.follow settings.kinds settings.watched) counted
  exact ⟨finished, Readiness.le_finished waited, Readiness.finished_le waited,
    startOn_of_waited reported⟩

theorem Lives.resolve (lives : Lives api settings session) (key : Key) :
    Lives api settings (session.resolve api key).2 := by
  have reached : (Live.cluster api).Reaches session.live
      ((Live.cluster api).findTopLevel session.kinds (session.live.hops api) (some key)
        session.live).2 :=
    Cluster.reaches_findTopLevel _ _ _ .origin
  exact lives.searched reached

theorem Lives.resolvePod (lives : Lives api settings session) (ns name : String) :
    Lives api settings (session.resolvePod api ns name).2 := by
  have asked := lives.asked (api.fetchNamed Pod.decode? name (podAddress ns name))
  simp only [Session.resolvePod, withLive, Resolution.ofPod, podOwners, bind, StateT.bind]
  simp only [withLive] at asked
  generalize Live.withServer (api.fetchNamed Pod.decode? name (podAddress ns name)) session.live
    = answered at asked ⊢
  obtain ⟨owners, live⟩ := answered
  cases owners with
  | error fault => exact asked
  | ok owners =>
      cases found : Owner.controlling owners ns with
      | none =>
          simp only [found]
          exact asked
      | some owner =>
          simp only [found]
          have reached : (Live.cluster api).Reaches live
              ((Live.cluster api).findTopLevel session.kinds (session.live.hops api) (some owner)
                live).2 :=
            Cluster.reaches_findTopLevel _ _ _ .origin
          exact asked.searched reached

/-- The kinds that a session looks up in its stores are those that it follows. -/
theorem Lives.follows (lives : Lives api settings session) :
    session.kinds = settings.kinds ∧ session.live.Follows settings.kinds := by
  induction lives with
  | @started server session begun =>
      have followed := Live.follows_follow (Live.start server) settings.kinds settings.watched
      by_cases counted : Readiness.HasDeadline (Live.start server).now
          (milliseconds settings.cacheSyncTimeoutSeconds)
      · obtain ⟨finished, _, _, same⟩ := exists_startOn api settings (Live.start server) counted
        rw [start, same] at begun
        cases begun
        exact ⟨rfl, followed.advance _⟩
      · rw [start, startOn_of_not_hasDeadline api settings (Live.start server) counted] at begun
        cases begun
  | slept duration earlier ih => exact ⟨ih.1, ih.2.advance _⟩
  | asked action earlier ih => exact ih
  | searched earlier reached ih => exact ⟨ih.1, ih.2.of_reaches reached⟩

end Session

end Lineage
