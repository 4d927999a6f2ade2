import Lineage.Proofs.Following
import Lineage.Proofs.HopBound
import Lineage.Proofs.Parent

/-!
# The faults of a search

A search can fail in few ways where its stores are those of a mirror.  What the
store of a kind holds is of that kind, and a mirror answers for every kind that
it follows; so if the kinds that a search looks up in the stores are followed, a
lookup finds nothing amiss in a store but that an object is missing.  A kind that
is looked up in a store without being followed ends every search that comes to
it.

The stores may hear of events at any time, also in the course of a search.  What
is said of a fault is therefore said of the very moment of the lookup that
failed.
-/

namespace Lineage

namespace Ascent

variable {σ : Type} {parent : Key → StateM σ (Except Fault (Option Key))}

/-- The moments of an ascent: the keys at which it arrives, each with the state in
which its parent is looked up. -/
inductive Arrives (parent : Key → StateM σ (Except Fault (Option Key))) (start : Key)
    (origin : σ) : Key → σ → Prop
  | start : Arrives parent start origin start origin
  | hop {key owner : Key} {state next : σ} (earlier : Arrives parent start origin key state)
      (answer : parent key state = (.ok (some owner), next)) :
      Arrives parent start origin owner next

namespace Climbs

variable {start : Key} {origin : σ} {hops : Nat} {visited : List Key} {current : Key}
  {state final : σ} {ascent : Ascent}

/-- A run that fails does so at its last lookup. -/
theorem exists_arrives_of_failed (run : Climbs parent hops visited current state ascent final)
    (arrived : Arrives parent start origin current state) {fault : Fault}
    (failed : ascent.ending = .failed fault) :
    ∃ key moment, Arrives parent start origin key moment ∧
      parent key moment = (.error fault, final) := by
  induction run with
  | exhausted => cases failed
  | @failed hops visited current state final fault answer =>
      cases failed
      exact ⟨current, state, arrived, answer⟩
  | root answer => cases failed
  | cycle answer known => cases failed
  | hop answer fresh rest ih => exact ih (arrived.hop answer) failed

/-- A key whose lookup fails at all times ends every run that comes to it. -/
theorem failed_of_mem_visited (run : Climbs parent hops visited current state ascent final)
    {key : Key} {fault : Fault} (fails : ∀ moment, Arrives parent start origin key moment →
      (parent key moment).1 = .error fault)
    (arrived : Arrives parent start origin current state) (unvisited : key ∉ visited)
    (member : key ∈ ascent.visited) :
    ascent.ending = .failed fault ∧ ascent.visited.head? = some key := by
  have answered : ∀ {current state reply next}, Arrives parent start origin current state →
      parent current state = (reply, next) → key = current → reply = .error fault := by
    rintro current state reply next arrived answer rfl
    have failing := fails state arrived
    rwa [answer] at failing
  induction run with
  | exhausted => exact absurd member unvisited
  | failed answer =>
      rcases List.mem_cons.mp member with same | earlier
      · cases answered arrived answer same
        exact ⟨rfl, congrArg some same.symm⟩
      · exact absurd earlier unvisited
  | root answer =>
      rcases List.mem_cons.mp member with same | earlier
      · cases answered arrived answer same
      · exact absurd earlier unvisited
  | cycle answer known =>
      rcases List.mem_cons.mp member with same | earlier
      · cases answered arrived answer same
      · exact absurd earlier unvisited
  | hop answer fresh rest ih =>
      refine ih (arrived.hop answer) ?_ member
      rw [List.mem_cons, not_or]
      refine ⟨fun same => ?_, unvisited⟩
      cases answered arrived answer same

end Climbs

end Ascent

namespace Cluster

variable {σ : Type} {cluster : Cluster σ} {origin : σ} {mirrored kinds : KindSet}
  {mirror : σ → Mirror} {start key : Key} {moment : σ}

/-- The stores of a cluster are those of a mirror that follows some kinds.  At any
moment they have gone through some history of events; what else the cluster is
asked may be answered in any way and may change with every question. -/
structure Shows (cluster : Cluster σ) (origin : σ) (mirrored : KindSet) (mirror : σ → Mirror) :
    Prop where
  historic : ∀ state, cluster.Reaches origin state →
    ∃ events, mirror state = (Mirror.empty mirrored).run events
  cached : ∀ state, cluster.Reaches origin state → ∀ kind ns name,
    (cluster.cached kind ns name state).1 = (mirror state).cached kind ns name

/-- The faults with which the lookup of a parent can end at some moment, where the
kinds that are looked up in stores are followed. -/
inductive Meets (mirror : σ → Mirror) (kinds : KindSet) (key : Key) (moment : σ) : Fault → Prop
  | notFound {kind : WorkloadKind} (enabled : kinds.has kind = true) (named : kind.name = key.kind)
      (missing : ∀ object ∈ ((mirror moment).stores kind).objects, object.name = key.name →
        object.ns ≠ some key.ns ∧ object.ns ≠ none) :
      Meets mirror kinds key moment (.notFound key.kind key.ns key.name)
  | parse (unknown : ∀ kind, kinds.has kind = true → kind.name ≠ key.kind)
      (unread : GroupVersion.parse key.apiVersion = none) :
      Meets mirror kinds key moment (.malformed key.apiVersion)
  | scaleUnavailable (source : Cause)
      (unknown : ∀ kind, kinds.has kind = true → kind.name ≠ key.kind) :
      Meets mirror kinds key moment (.scaleUnavailable key.apiVersion key.kind key.name source)

theorem arrives_reaches
    (arrived : Ascent.Arrives (cluster.parentOf kinds) start origin key moment) :
    cluster.Reaches origin moment ∧ key.ns = start.ns := by
  induction arrived with
  | start => exact ⟨.origin, rfl⟩
  | @hop key owner state next earlier answer ih =>
      have yields := cluster.parentOf_yields kinds key ih.1
      rw [answer] at yields
      obtain ⟨reference, _, _, rfl⟩ := yields.parent owner rfl
      exact ⟨yields.reached, ih.2⟩

end Cluster

namespace Store

theorem forall_of_get?_eq_none {store : Store} {ns name : String}
    (missing : store.get? ns name = none) {object : StoredObject} (member : object ∈ store.objects)
    (named : object.name = name) : object.ns ≠ some ns ∧ object.ns ≠ none := by
  rw [get?] at missing
  split at missing
  · cases missing
  · rename_i absent
    rw [StoredObject.find?, List.find?_eq_none] at absent missing
    have here := absent object member
    have anywhere := missing object member
    simp only [StoredObject.isAt, named, decide_true, Bool.and_true, decide_eq_true_eq]
      at here anywhere
    exact ⟨here, anywhere⟩

end Store

namespace Cluster.Shows

variable {σ : Type} {cluster : Cluster σ} {origin : σ} {mirrored kinds : KindSet}
  {mirror : σ → Mirror} {start key : Key} {moment final : σ}

theorem kinds_eq (shows : cluster.Shows origin mirrored mirror)
    (reached : cluster.Reaches origin moment) : (mirror moment).kinds = mirrored := by
  obtain ⟨events, history⟩ := shows.historic moment reached
  rw [history]
  exact Mirror.kinds_run (Mirror.empty mirrored) events

/-- What the lookup of a parent can end with where the kinds of the stores are followed. -/
theorem meets (shows : cluster.Shows origin mirrored mirror)
    (followed : ∀ kind, kinds.has kind = true → mirrored.has kind = true)
    (reached : cluster.Reaches origin moment) {fault : Fault}
    (failed : cluster.parentOf kinds key moment = (.error fault, final)) :
    Meets mirror kinds key moment fault := by
  rcases kinds.known_or_unknown key.kind with ⟨kind, enabled, named⟩ | unknown
  · rw [parentOf_stored cluster enabled named, storedParent_eq,
      shows.cached moment reached] at failed
    have found : (mirror moment).get kind key.ns key.name =
        .ok (((mirror moment).stores kind).get? key.ns key.name) := by
      rw [Mirror.get, shows.kinds_eq reached, if_pos (followed kind enabled)]
    have reply := congrArg Prod.fst failed
    simp only [Mirror.cached, found, Except.map] at reply
    cases missing : ((mirror moment).stores kind).get? key.ns key.name with
    | none =>
        simp only [missing, Option.map_none, Key.storedReply, named, Except.error.injEq] at reply
        subst reply
        exact .notFound enabled named fun _ => Store.forall_of_get?_eq_none missing
    | some object =>
        simp [missing, Key.storedReply] at reply
  · rw [parentOf_served cluster unknown] at failed
    cases read : GroupVersion.parse key.apiVersion with
    | none =>
        rw [servedParent_malformed cluster read] at failed
        cases failed
        exact .parse unknown read
    | some groupVersion =>
        rw [servedParent_eq cluster read] at failed
        have reply := congrArg Prod.fst failed
        generalize (cluster.scaleOwners groupVersion.group key.kind key.ns key.name moment).1
          = scale at reply
        cases scale with
        | error source =>
            cases reply
            exact .scaleUnavailable source unknown
        | ok owners => cases reply

/-- A kind that is looked up in a store without being followed. -/
theorem cacheLookup (shows : cluster.Shows origin mirrored mirror) {kind : WorkloadKind}
    (enabled : kinds.has kind = true) (unfollowed : mirrored.has kind = false)
    (named : kind.name = key.kind) (reached : cluster.Reaches origin moment) :
    (cluster.parentOf kinds key moment).1 =
      .error (.cacheLookup kind.name key.ns key.name (.cacheDisabled kind)) := by
  rw [parentOf_stored cluster enabled named, storedParent_eq, shows.cached moment reached,
    Mirror.cached, Mirror.get, shows.kinds_eq reached, unfollowed]
  rfl

end Cluster.Shows

namespace Live

variable {σ : Type} {live : Live σ} {kinds : KindSet}

/-- The mirror of a live cluster, without any kinds if there is none yet. -/
def shown (live : Live σ) : Mirror :=
  live.mirror.getD (.empty (.ofList []))

theorem Follows.shows (follows : live.Follows kinds) (api : Api σ) :
    (cluster api).Shows live kinds shown where
  historic state reached := by
    obtain ⟨events, mirror⟩ := follows.of_reaches reached
    exact ⟨events, by rw [shown, mirror, Option.getD_some]⟩
  cached state reached kind ns name := by
    obtain ⟨events, mirror⟩ := follows.of_reaches reached
    change state.cached kind ns name = state.shown.cached kind ns name
    simp only [Live.cached, shown, mirror, Option.getD_some]

end Live

namespace Cluster

variable {σ : Type} {cluster : Cluster σ} {origin : σ} {mirrored kinds : KindSet}
  {mirror : σ → Mirror}

/-- Every fault of a search is a repetition of a key, or one of those that the
lookup can meet that was made last. -/
def Foreseen (cluster : Cluster σ) (origin : σ) (kinds : KindSet) (mirror : σ → Mirror) : Prop :=
  ∀ hops start? fault, (cluster.findTopLevel kinds hops start? origin).1 = .error fault →
    ∃ start, start? = some start ∧
      ((∃ key, fault = .cycleDetected key) ∨
        ∃ key moment, key.ns = start.ns ∧
          Ascent.Arrives (cluster.parentOf kinds) start origin key moment ∧
          (cluster.parentOf kinds key moment).1 = .error fault ∧
          Meets mirror kinds key moment fault)

theorem Shows.foreseen (shows : cluster.Shows origin mirrored mirror)
    (followed : ∀ kind, kinds.has kind = true → mirrored.has kind = true) :
    cluster.Foreseen origin kinds mirror := by
  intro hops start? fault failed
  cases start? with
  | none => cases failed
  | some start =>
      refine ⟨start, rfl, ?_⟩
      rw [findTopLevel_some] at failed
      have run := Ascent.climbs_climb (cluster.parentOf kinds) hops [] start origin
      rcases ending : (cluster.ascend kinds hops start origin).1.ending with
        root | reason | repeated | _
      · simp [Ascent.answer, ending] at failed
      · have same : reason = fault := by simpa [Ascent.answer, ending] using failed
        subst same
        obtain ⟨key, moment, arrived, answer⟩ := run.exists_arrives_of_failed .start ending
        obtain ⟨reached, inside⟩ := arrives_reaches arrived
        have reply := congrArg Prod.fst answer
        exact .inr ⟨key, moment, inside, arrived, reply, shows.meets followed reached answer⟩
      · have same : .cycleDetected repeated = fault := by simpa [Ascent.answer, ending] using failed
        exact .inl ⟨repeated, same.symm⟩
      · simp [Ascent.answer, ending] at failed

/-- The faults of searches where the stores are those of a mirror, whatever events
they hear of and whatever else the cluster answers.  If the kinds that are looked
up in stores are followed, a search fails because an object is missing, because an
API version cannot be read, because no scale is available, or because a key is
repeated.  A key of a kind that is looked up in a store but not followed ends
every search that looks it up.  A session follows the very kinds that its searches
look up in its stores. -/
theorem faults_of_search (shows : cluster.Shows origin mirrored mirror) (kinds : KindSet) :
    ((∀ kind, kinds.has kind = true → mirrored.has kind = true) →
      cluster.Foreseen origin kinds mirror) ∧
    (∀ hops start key kind, key ∈ (cluster.ascend kinds hops start origin).1.visited →
      kinds.has kind = true → mirrored.has kind = false → kind.name = key.kind →
      (cluster.ascend kinds hops start origin).1.visited.head? = some key ∧
        (cluster.findTopLevel kinds hops (some start) origin).1 =
          .error (.cacheLookup kind.name start.ns key.name (.cacheDisabled kind))) ∧
    (∀ {τ : Type} (api : Api τ) (settings : Settings) (session : Session τ),
      Session.Lives api settings session →
      (Live.cluster api).Shows session.live session.kinds Live.shown ∧
        (Live.cluster api).Foreseen session.live session.kinds Live.shown) := by
  refine ⟨shows.foreseen, ?_, ?_⟩
  · intro hops start key kind member enabled unfollowed named
    have run := Ascent.climbs_climb (cluster.parentOf kinds) hops [] start origin
    have fails : ∀ moment, Ascent.Arrives (cluster.parentOf kinds) start origin key moment →
        (cluster.parentOf kinds key moment).1 =
          .error (.cacheLookup kind.name start.ns key.name (.cacheDisabled kind)) := by
      intro moment arrived
      obtain ⟨reached, inside⟩ := arrives_reaches arrived
      rw [← inside]
      exact shows.cacheLookup enabled unfollowed named reached
    obtain ⟨ending, last⟩ :=
      run.failed_of_mem_visited fails .start List.not_mem_nil member
    refine ⟨last, ?_⟩
    rw [findTopLevel_some, Ascent.answer, ascend, ending]
  · intro τ api settings session lives
    obtain ⟨same, follows⟩ := lives.follows
    have shows := follows.shows api
    rw [← same] at shows
    exact ⟨shows, shows.foreseen fun _ enabled => enabled⟩

def webHistory : List (WorkloadKind × StoreEvent) :=
  [(.deployment, .write ⟨some "team", "web", []⟩),
    (.replicaSet, .write ⟨some "team", "web-1", [⟨"apps/v1", "Deployment", "web", "", some true⟩]⟩)]

def webOne : Key :=
  ⟨"team", "ReplicaSet", "web-1", "apps/v1"⟩

/-- A cluster from which the deployment vanishes once a question has been asked. -/
def vanishing : Cluster Mirror where
  cached kind ns name := fun mirror =>
    (mirror.cached kind ns name, mirror.run [(.deployment, .delete ⟨some "team", "web", []⟩)])
  mapped _ _ := fun mirror => (.error .discoveryPending, mirror)
  scaled _ _ _ := fun mirror => (.error .discoveryPending, mirror)

theorem vanishing_shows (mirrored : KindSet) :
    vanishing.Shows ((Mirror.empty mirrored).run webHistory) mirrored id where
  historic state reached := by
    induction reached with
    | origin => exact ⟨webHistory, rfl⟩
    | @cached state kind ns name earlier ih =>
        obtain ⟨events, history⟩ := ih
        refine ⟨events ++ [(.deployment, .delete ⟨some "team", "web", []⟩)], ?_⟩
        simp only [id, Mirror.run, List.foldl_append] at history ⊢
        rw [← history]
        rfl
    | mapped group kind earlier ih => exact ih
    | scaled mapping ns name earlier ih => exact ih
  cached state reached kind ns name := rfl

/-- A server whose replies cannot be read. -/
def garbling : Api Unit where
  request _ := fun server => (⟨200, ""⟩, server)
  watch _ := fun server => ([], server)
  extent _ := 0

theorem faults_of_search_vanishing :
    (∃ key moment, Ascent.Arrives (vanishing.parentOf .full) webOne
        ((Mirror.empty .full).run webHistory) key moment ∧
      Meets id .full key moment (.notFound "Deployment" "team" "web")) ∧
    (vanishing.findTopLevel .full 3 (some webOne)
      ((Mirror.empty (.ofList [.replicaSet])).run webHistory)).1 =
        .error (.cacheLookup "Deployment" "team" "web" (.cacheDisabled .deployment)) ∧
    (∃ session, Session.start garbling .default () = .ok session ∧
      (Live.cluster garbling).Foreseen session.live session.kinds Live.shown) := by
  obtain ⟨foreseen, _, lived⟩ := faults_of_search (vanishing_shows .full) .full
  obtain ⟨_, unfollowed, _⟩ := faults_of_search (vanishing_shows (.ofList [.replicaSet])) .full
  refine ⟨?_, ?_, ?_⟩
  · obtain ⟨start, same, repeated | met⟩ := foreseen (fun _ enabled => enabled) 3 (some webOne)
      (.notFound "Deployment" "team" "web") (by decide)
    · obtain ⟨key, impossible⟩ := repeated
      cases impossible
    · obtain ⟨key, moment, _, arrived, _, meets⟩ := met
      cases same
      exact ⟨key, moment, arrived, meets⟩
  · exact (unfollowed 3 webOne ⟨"team", "Deployment", "web", "apps/v1"⟩ .deployment (by decide)
      rfl rfl rfl).2
  · obtain ⟨_, _, _, started⟩ :=
      Session.exists_startOn garbling .default (Live.start ()) (by decide)
    exact ⟨_, started, (lived garbling .default _ (.started started)).2⟩

end Cluster

end Lineage
