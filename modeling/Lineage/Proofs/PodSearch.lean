import Lineage.Proofs.Extent
import Lineage.Proofs.Parent
import Mathlib.Logic.Function.Basic
import Mathlib.Logic.Relation

/-!
# Searches from a pod

A search from a pod reads the pod and then searches from the controlling one among
its owners, as if nothing had been visited.  As long as no chain of owners leads
back to the pod, this is a walk that begins at the pod itself, along parents among
which that of the pod is the owner that was read: the two have visited the same keys
except for the pod, and neither meets it.

What is read while a session searches may depend on the moment.  A server is steady
if it answers whatever requests are made of it as it would have answered them at
first, and then the parents of all keys remain what they were.
-/

namespace Lineage

namespace Ascent

variable {σ : Type} {parent : Key → StateM σ (Except Fault (Option Key))}
  {reading other : Key → Except Fault (Option Key)} {start : Key} {ascent : Ascent}

def constantly (parent : Key → Except Fault (Option Key)) :
    Key → StateM Unit (Except Fault (Option Key)) :=
  fun key => pure (parent key)

theorem constantly_of_eq {key : Key} {reply : Except Fault (Option Key)}
    (found : reading key = reply) : constantly reading key () = (reply, ()) :=
  congrArg (·, ()) found

/-- The ascent from a key along parents that never change. -/
def along (parent : Key → Except Fault (Option Key)) (hops : Nat) (start : Key) : Ascent :=
  (climb (constantly parent) hops [] start ()).1

/-- The ascent along parents that never change, made without a limit: one that has
come to an end of its own. -/
def IsWalk (parent : Key → Except Fault (Option Key)) (start : Key) (ascent : Ascent) : Prop :=
  ascent.ending ≠ .unfinished ∧ ∃ hops, along parent hops start = ascent

theorem along_add (hops extra : Nat)
    (finished : (along reading hops start).ending ≠ .unfinished) :
    along reading (hops + extra) start = along reading hops start := by
  have run := climbs_climb (constantly reading) hops [] start ()
  rw [along, run.climb_eq finished extra]
  rfl

theorem answer_ne_none (finished : ascent.ending ≠ .unfinished) : ascent.answer ≠ .ok none := by
  rw [answer]
  split
  · simp
  · simp
  · simp
  · rename_i ending
    exact absurd ending finished

theorem IsWalk.eq {ascent other : Ascent} (walk : IsWalk reading start ascent)
    (another : IsWalk reading start other) : ascent = other := by
  obtain ⟨finished, hops, rfl⟩ := walk
  obtain ⟨otherFinished, others, rfl⟩ := another
  rw [← along_add hops others finished, Nat.add_comm, along_add others hops otherFinished]

/-- An ascent that never meets some key goes on in the same way if that key has been
visited before. -/
theorem Climbs.climb_behind {first : Key} {states : σ → Prop}
    (constant : ∀ key state, states state → (parent key state).1 = reading key)
    (closed : ∀ key state, states state → states (parent key state).2)
    (elsewhere : ∀ key, key ≠ first → other key = reading key)
    {hops : Nat} {visited : List Key} {current : Key} {state final : σ}
    (run : Climbs parent hops visited current state ascent final) (begun : states state)
    (aside : ¬Relation.ReflTransGen (fun key owner => reading key = .ok (some owner))
      current first) :
    climb (constantly other) hops (visited ++ [first]) current () =
      (⟨ascent.visited ++ [first], ascent.ending⟩, ()) := by
  have reply {key : Key} {state next : σ} {reply : Except Fault (Option Key)}
      (answer : parent key state = (reply, next)) (begun : states state)
      (aside : ¬Relation.ReflTransGen (fun key owner => reading key = .ok (some owner)) key first) :
      other key = reply := by
    rw [elsewhere key fun same => aside (same ▸ .refl), ← constant key state begun, answer]
  -- Both ascents have visited the same keys but for the first, which no lookup leads to.
  induction run with
  | exhausted => rfl
  | failed answer =>
      have found := reply answer begun aside
      exact climb_failed (constantly_of_eq found)
  | root answer =>
      have found := reply answer begun aside
      exact climb_root (constantly_of_eq found)
  | cycle answer known =>
      have found := reply answer begun aside
      exact climb_cycle (constantly_of_eq found) (List.mem_append_left [first] known)
  | @hop hops visited current owner state next final ascent answer fresh rest ih =>
      have found := reply answer begun aside
      have link : reading current = .ok (some owner) := by
        rw [← constant current state begun, answer]
      have onward : ¬Relation.ReflTransGen (fun key owner => reading key = .ok (some owner))
          owner first := fun reaches => aside (.head link reaches)
      have unseen : owner ∉ current :: (visited ++ [first]) := by
        have different : owner ≠ first := fun same => onward (same ▸ .refl)
        rw [← List.cons_append, List.mem_append, List.mem_singleton, not_or]
        exact ⟨fresh, different⟩
      have kept : states next := by
        have kept := closed current state begun
        rwa [answer] at kept
      rw [climb_hop (constantly_of_eq found) unseen]
      exact ih kept onward

end Ascent

namespace Cluster

variable {σ : Type} {cluster : Cluster σ} {kinds : KindSet} {states : σ → Prop}
  {first second : σ}

/-- Questions do not lead out of some states, and in all of these they are answered
in the same way. -/
structure Steady (cluster : Cluster σ) (states : σ → Prop) : Prop where
  closed : ∀ state later, states state → cluster.Reaches state later → states later
  cached : ∀ first second, states first → states second → ∀ kind ns name,
    (cluster.cached kind ns name first).1 = (cluster.cached kind ns name second).1
  mapped : ∀ first second, states first → states second → ∀ group kind,
    (cluster.mapped group kind first).1 = (cluster.mapped group kind second).1
  scaled : ∀ first second, states first → states second → ∀ mapping ns name,
    (cluster.scaled mapping ns name first).1 = (cluster.scaled mapping ns name second).1

namespace Steady

theorem firstScale (steady : cluster.Steady states) (begun : states first)
    (begunAgain : states second) (ns name : String) (last : Cause) (mappings : List Mapping) :
    (cluster.firstScale ns name last mappings first).1 =
      (cluster.firstScale ns name last mappings second).1 := by
  induction mappings generalizing last first second with
  | nil => rfl
  | cons mapping others ih =>
      have alike := steady.scaled first second begun begunAgain mapping ns name
      have kept := steady.closed first _ begun (.scaled mapping ns name .origin)
      have keptAgain := steady.closed second _ begunAgain (.scaled mapping ns name .origin)
      rcases answer : cluster.scaled mapping ns name first with ⟨reply, next⟩
      rcases answerAgain : cluster.scaled mapping ns name second with ⟨replyAgain, nextAgain⟩
      rw [answer] at alike kept
      rw [answerAgain] at alike keptAgain
      cases alike
      cases reply with
      | ok owners => rw [firstScale_found answer, firstScale_found answerAgain]
      | error cause =>
          rw [firstScale_failed answer, firstScale_failed answerAgain]
          exact ih kept keptAgain cause

theorem scaleOwners (steady : cluster.Steady states) (begun : states first)
    (begunAgain : states second) (group kind ns name : String) :
    (cluster.scaleOwners group kind ns name first).1 =
      (cluster.scaleOwners group kind ns name second).1 := by
  have alike := steady.mapped first second begun begunAgain group kind
  have kept := steady.closed first _ begun (.mapped group kind .origin)
  have keptAgain := steady.closed second _ begunAgain (.mapped group kind .origin)
  rcases answer : cluster.mapped group kind first with ⟨reply, next⟩
  rcases answerAgain : cluster.mapped group kind second with ⟨replyAgain, nextAgain⟩
  rw [answer] at alike kept
  rw [answerAgain] at alike keptAgain
  cases alike
  cases reply with
  | error cause => rw [scaleOwners_unmapped answer, scaleOwners_unmapped answerAgain]
  | ok mappings =>
      rw [scaleOwners_mapped answer, scaleOwners_mapped answerAgain]
      exact steady.firstScale kept keptAgain ns name _ mappings

theorem parentOf (steady : cluster.Steady states) (begun : states first)
    (begunAgain : states second) (key : Key) :
    (cluster.parentOf kinds key first).1 = (cluster.parentOf kinds key second).1 := by
  rcases kinds.known_or_unknown key.kind with ⟨kind, enabled, named⟩ | unknown
  · rw [parentOf_stored _ enabled named, storedParent_eq, storedParent_eq]
    exact congrArg (key.storedReply kind)
      (steady.cached first second begun begunAgain kind key.ns key.name)
  · rw [parentOf_served _ unknown]
    cases read : GroupVersion.parse key.apiVersion with
    | none => rw [servedParent_malformed _ read, servedParent_malformed _ read]
    | some groupVersion =>
        rw [servedParent_eq _ read, servedParent_eq _ read]
        exact congrArg key.servedReply (steady.scaleOwners begun begunAgain _ _ _ _)

end Steady

/-- An ascent stays in the namespace in which it begins. -/
theorem parentOf_preserves_ns (cluster : Cluster σ) (kinds : KindSet) (ns : String) :
    Ascent.Preserves (cluster.parentOf kinds) (fun key => key.ns = ns)
      (fun fault => ∀ key, fault ≠ .cycleDetected key) (fun _ => True) where
  state _ _ _ _ := trivial
  owner key state inside _ owner found := by
    obtain ⟨_, _, _, rfl⟩ := (cluster.parentOf_yields kinds key .origin).parent owner found
    exact inside
  fault key state _ _ := (cluster.parentOf_yields kinds key .origin).fault

end Cluster

namespace Api

variable {σ : Type} {api : Api σ} {origin server : σ}

/-- Whatever has been requested of a server, it answers as it would have at first. -/
def Steady (api : Api σ) (origin : σ) : Prop :=
  ∀ server, api.Requested origin server → ∀ path,
    (api.request path server).1 = (api.request path origin).1

end Api

namespace Server

variable {server later : Server}

theorem answer_eq (path : String) (server : Server) :
    (answer path server).1 = ((server.routes.lookup path).bind List.head?).getD notFound := by
  rw [answer]
  split
  · rename_i found
    rw [found]
    rfl
  · rename_i missing
    rcases found : server.routes.lookup path with _ | replies
    · rfl
    · cases replies with
      | nil => rfl
      | cons reply rest => exact absurd found (missing reply rest)

theorem lookup_filter_of_ne {path other : String} (different : other ≠ path)
    (routes : List (String × List Reply)) :
    (routes.filter fun entry => entry.1 ≠ path).lookup other = routes.lookup other := by
  induction routes with
  | nil => rfl
  | cons entry routes ih =>
      obtain ⟨place, replies⟩ := entry
      by_cases here : place = path
      · subst here
        rw [List.filter_cons_of_neg (by simp), ih, List.lookup_cons,
          beq_eq_false_iff_ne.mpr different]
      · rw [List.filter_cons_of_pos (by simpa using here), List.lookup_cons, List.lookup_cons, ih]

theorem lookup_answer {asked : String}
    (single : ∀ replies, server.routes.lookup asked = some replies → replies.length ≤ 1)
    (path : String) :
    (answer asked server).2.routes.lookup path = server.routes.lookup path := by
  rw [answer]
  split
  · rename_i reply rest found
    cases rest with
    | cons other rest => exact absurd (single _ found) (by simp)
    | nil =>
        change ((asked, [reply]) :: server.routes.filter fun entry => entry.1 ≠ asked).lookup path =
          server.routes.lookup path
        by_cases here : path = asked
        · subst here
          rw [List.lookup_cons_self, found]
        · rw [List.lookup_cons, beq_eq_false_iff_ne.mpr here]
          exact lookup_filter_of_ne here server.routes
  · rfl

/-- A server that has at most one reply for each path does not change its replies. -/
theorem lookup_of_requested
    (single : ∀ path replies, server.routes.lookup path = some replies → replies.length ≤ 1)
    (requested : api.Requested server later) (path : String) :
    later.routes.lookup path = server.routes.lookup path := by
  induction requested generalizing path with
  | origin => rfl
  | @request state asked earlier ih =>
      have kept : ∀ replies, state.routes.lookup asked = some replies → replies.length ≤ 1 := by
        intro replies found
        exact single asked replies (ih asked ▸ found)
      exact (lookup_answer kept path).trans (ih path)

theorem steady_of_single (single : ∀ entry ∈ server.routes, entry.2.length ≤ 1) :
    api.Steady server := by
  intro later requested path
  have found : ∀ path replies, server.routes.lookup path = some replies → replies.length ≤ 1 := by
    intro path replies found
    obtain ⟨before, after, routes, _⟩ := List.lookup_eq_some_iff.mp found
    apply single (path, replies)
    rw [routes]
    exact List.mem_append_right before List.mem_cons_self
  change (answer path later).1 = (answer path server).1
  rw [answer_eq, answer_eq, lookup_of_requested found requested]

end Server

namespace Live

variable {σ : Type} {api : Api σ} {live : Live σ}

/-- The states of a cluster that differ in nothing but what has been requested. -/
def Serves (api : Api σ) (live state : Live σ) : Prop :=
  ∃ server, api.Requested live.server server ∧ state = { live with server }

theorem serves_self (api : Api σ) (live : Live σ) : Serves api live live :=
  ⟨live.server, .origin, rfl⟩

theorem steady_cluster (steady : api.Steady live.server) :
    (cluster api).Steady (Serves api live) where
  closed := by
    rintro _ later ⟨server, requested, rfl⟩ reached
    obtain ⟨next, between, rfl⟩ := served_of_reaches reached
    exact ⟨next, requested.trans between, rfl⟩
  cached := by
    rintro _ _ ⟨server, _, rfl⟩ ⟨other, _, rfl⟩ kind ns name
    rfl
  mapped := by
    rintro _ _ ⟨server, _, rfl⟩ ⟨other, _, rfl⟩ group kind
    rfl
  scaled := by
    rintro _ _ ⟨server, requested, rfl⟩ ⟨other, otherRequested, rfl⟩ mapping ns name
    change (scaled api mapping ns name server).1 = (scaled api mapping ns name other).1
    rcases scaled_eq api mapping ns name with ⟨cause, failed⟩ | ⟨path, asked⟩
    · rw [failed, failed]
    · rw [asked, asked, steady server requested, steady other otherRequested]

end Live

namespace Session

variable {σ : Type} {api : Api σ} {session : Session σ} {ns name : String}
  {owners : List Owner} {live : Live σ}

open Resolution (podKey conclude)

/-- The parent of a key as a session sees it. -/
def parentOf (api : Api σ) (session : Session σ) (key : Key) : Except Fault (Option Key) :=
  ((Live.cluster api).parentOf session.kinds key session.live).1

theorem podOwners_eq (api : Api σ) (ns name : String) :
    (∃ fault, ∀ live, podOwners api ns name live = (.error fault, live)) ∨
      ∃ path, Address.path? (podAddress ns name) = some path ∧
        ∀ live, podOwners api ns name live =
          ((api.request path live.server).1.read Pod.decode?,
            { live with server := (api.request path live.server).2 }) := by
  rcases api.fetchNamed_eq Pod.decode? name (podAddress ns name) with
    ⟨fault, failed⟩ | ⟨path, address, asked⟩
  · refine .inl ⟨fault, fun live => ?_⟩
    rw [podOwners, Live.withServer, failed]
  · refine .inr ⟨path, address, fun live => ?_⟩
    rw [podOwners, Live.withServer, asked]

theorem resolvePod_rootless (read : podOwners api ns name session.live = (.ok owners, live))
    (alone : Owner.controlling owners ns = none) :
    resolvePod api ns name session =
      (.ok ⟨podKey ns name, some (podKey ns name)⟩, { session with live }) := by
  simp only [resolvePod, withLive, Resolution.ofPod, bind, StateT.bind, read, alone]
  rfl

theorem resolvePod_owned {owner : Key}
    (read : podOwners api ns name session.live = (.ok owners, live))
    (owned : Owner.controlling owners ns = some owner) :
    (resolvePod api ns name session).1 = conclude (podKey ns name)
      ((Live.cluster api).ascend session.kinds (session.live.hops api) owner live).1.answer := by
  simp only [resolvePod, withLive, Resolution.ofPod, bind, StateT.bind, read, owned]
  rfl

theorem start_of_conclude {start : Key} {answer : Except Fault (Option Key)}
    {resolution : Resolution} (concluded : conclude start answer = .ok resolution) :
    resolution.start = start := by
  unfold conclude at concluded
  split at concluded
  · cases concluded
    rfl
  · cases concluded

/-- The parents of a session where that of a pod is the controlling one of its owners. -/
def podParentOf (api : Api σ) (session : Session σ) (ns name : String) (owners : List Owner) :
    Key → Except Fault (Option Key) :=
  Function.update (session.parentOf api) (podKey ns name) (.ok (Owner.controlling owners ns))

/-- The chain of parents that begins at the owner of a pod does not lead back to the pod. -/
def NeverReturns (api : Api σ) (session : Session σ) (ns name : String) (owners : List Owner) :
    Prop :=
  ∀ owner, Owner.controlling owners ns = some owner →
    ¬Relation.ReflTransGen (fun key parent => session.parentOf api key = .ok (some parent)) owner
      (podKey ns name)

/-- From the owner of a pod a search goes on as one that has begun at the pod. -/
theorem along_of_owned {owner : Key} (steady : api.Steady session.live.server)
    (serves : Live.Serves api session.live live)
    (owned : Owner.controlling owners ns = some owner)
    (aside : session.NeverReturns api ns name owners) (hops : Nat) :
    Ascent.along (session.podParentOf api ns name owners) (hops + 1) (podKey ns name) =
      ⟨((Live.cluster api).ascend session.kinds hops owner live).1.visited ++ [podKey ns name],
        ((Live.cluster api).ascend session.kinds hops owner live).1.ending⟩ := by
  have steadily := Live.steady_cluster steady
  have run := Ascent.climbs_climb ((Live.cluster api).parentOf session.kinds) hops [] owner live
  have behind := run.climb_behind
    (fun key state begun => steadily.parentOf begun (Live.serves_self api session.live) key)
    (fun key state begun => steadily.closed state _ begun
      ((Live.cluster api).parentOf_yields session.kinds key .origin).reached)
    (fun key different => Function.update_of_ne different (.ok (Owner.controlling owners ns))
      (session.parentOf api)) serves (aside owner owned)
  have first : session.podParentOf api ns name owners (podKey ns name) = .ok (some owner) := by
    rw [podParentOf, Function.update_self, owned]
  have unseen : owner ∉ [podKey ns name] := by
    intro same
    exact aside owner owned (List.mem_singleton.mp same ▸ .refl)
  rw [Ascent.along, Ascent.climb_hop (Ascent.constantly_of_eq first) unseen]
  exact congrArg Prod.fst behind

theorem along_of_rootless (alone : Owner.controlling owners ns = none) (hops : Nat) :
    Ascent.along (session.podParentOf api ns name owners) (hops + 1) (podKey ns name) =
      ⟨[podKey ns name], .root (podKey ns name)⟩ := by
  have first : session.podParentOf api ns name owners (podKey ns name) = .ok none := by
    rw [podParentOf, Function.update_self, alone]
  rw [Ascent.along, Ascent.climb_root (Ascent.constantly_of_eq first)]

theorem ns_of_answer {kinds : KindSet} {hops : Nat} {start key : Key}
    (named : ((Live.cluster api).ascend kinds hops start live).1.answer = .ok (some key) ∨
      ((Live.cluster api).ascend kinds hops start live).1.answer = .error (.cycleDetected key)) :
    key.ns = start.ns := by
  have run := Ascent.climbs_climb ((Live.cluster api).parentOf kinds) hops [] start live
  have preserves := (Live.cluster api).parentOf_preserves_ns kinds start.ns
  have lookups : ∀ fault, ((Live.cluster api).ascend kinds hops start live).1.ending =
      .failed fault → ∀ other, fault ≠ .cycleDetected other :=
    fun _ failed => run.fault_of_failed preserves rfl trivial failed
  exact run.forall_visited preserves (by simp) rfl trivial key
    (run.ending_mem_visited (Cluster.ending_of_answer lookups named))

theorem ns_of_controlling {owner : Key} (owned : Owner.controlling owners ns = some owner) :
    owner.ns = ns := by
  obtain ⟨reference, _, _, rfl⟩ := Owner.exists_of_controlling owned
  rfl

/-- A search from a pod that has been read, in a session whose server is steady.

It concludes from an answer in which every key is in the namespace of the pod.  If no
chain of parents leads from the controlling owner of the pod back to the pod, the
answer is that of a walk of one hop more, from the pod along the parents of the
session where that of the pod is its controlling owner.  A pod without such an owner
is its own root, and nothing but the pod is requested.

Where the server tells how many owners it can report, the search comes to an end of
its own, and so does that walk. -/
theorem resolvePod_walks {api : Api σ} {session : Session σ} {ns name : String}
    {owners : List Owner} (steady : api.Steady session.live.server)
    (found : (podOwners api ns name session.live).1 = .ok owners) :
    ∃ answer : Except Fault (Option Key),
      (resolvePod api ns name session).1 = conclude (podKey ns name) answer ∧
      (∀ resolution, (resolvePod api ns name session).1 = .ok resolution →
        resolution.start = podKey ns name) ∧
      (∀ key, answer = .ok (some key) ∨ answer = .error (.cycleDetected key) → key.ns = ns) ∧
      (session.NeverReturns api ns name owners →
        answer = (Ascent.along (session.podParentOf api ns name owners)
          (session.live.hops api + 1) (podKey ns name)).answer) ∧
      (Owner.controlling owners ns = none →
        answer = .ok (some (podKey ns name)) ∧
        ∃ path, Address.path? (podAddress ns name) = some path ∧
          (resolvePod api ns name session).2 =
            { session with live :=
              { session.live with server := (api.request path session.live.server).2 } }) ∧
      (api.Covers session.live.server →
        answer ≠ .ok none ∧
        (session.NeverReturns api ns name owners → ∃ ascent,
          Ascent.IsWalk (session.podParentOf api ns name owners) (podKey ns name) ascent ∧
            ascent.answer = answer)) := by
  rcases podOwners_eq api ns name with ⟨fault, failed⟩ | ⟨path, address, asked⟩
  · rw [failed] at found
    cases found
  have read : podOwners api ns name session.live =
      (.ok owners, { session.live with server := (api.request path session.live.server).2 }) := by
    rw [asked] at found ⊢
    exact congrArg (·, _) found
  have serves : Live.Serves api session.live
      { session.live with server := (api.request path session.live.server).2 } :=
    ⟨_, .request path .origin, rfl⟩
  cases controlling : Owner.controlling owners ns with
  | none =>
      have done := resolvePod_rootless read controlling
      have walked := @along_of_rootless _ api session ns name owners controlling
      have concluded : (resolvePod api ns name session).1 =
          conclude (podKey ns name) (.ok (some (podKey ns name))) := by
        rw [done]
        rfl
      refine ⟨_, concluded, fun _ same => start_of_conclude (concluded ▸ same), ?_, ?_, ?_, ?_⟩
      · rintro key (same | same) <;> cases same
        rfl
      · intro _
        rw [walked]
        rfl
      · intro _
        exact ⟨rfl, path, address, by rw [done]⟩
      · intro _
        exact ⟨by simp, fun _ => ⟨_, ⟨by simp, 1, walked 0⟩, rfl⟩⟩
  | some owner =>
      have walked := fun (aside : session.NeverReturns api ns name owners) =>
        along_of_owned steady serves controlling aside
      have concluded := resolvePod_owned read controlling
      refine ⟨_, concluded, fun _ same => start_of_conclude (concluded ▸ same), ?_, ?_, ?_, ?_⟩
      · intro key named
        rw [← ns_of_controlling controlling]
        exact ns_of_answer named
      · intro aside
        rw [walked aside]
        rfl
      · intro alone
        cases alone
      · intro covered
        have finished := Live.exists_finished_run covered session.kinds owner
          (.request path .origin)
        refine ⟨Ascent.answer_ne_none finished, fun aside => ?_⟩
        refine ⟨_, ⟨?_, _, walked aside (session.live.hops api)⟩, rfl⟩
        exact finished

section Runs

/-- A server that knows one pod, which a replica set controls. -/
def podServer : Server :=
  Server.empty.route "/api/v1/namespaces/team/pods/web-1"
    [⟨200, (Json.object [("metadata", .object [("ownerReferences", .array [.object
      [("apiVersion", .string "apps/v1"), ("controller", .bool true),
        ("kind", .string "ReplicaSet"), ("name", .string "web")]])])]).render⟩]

def podOwner : Owner :=
  ⟨"apps/v1", "ReplicaSet", "web", "", some true⟩

/-- A key of the deployment that controls the replica set, and of the latter. -/
def webKey (kind : String) : Key :=
  ⟨"team", kind, "web", "apps/v1"⟩

/-- A session in whose stores a deployment controls the replica set. -/
def podSession : Session Server :=
  { kinds := .full
    live :=
      { Live.start podServer with
        mirror := some ((Mirror.empty .full).run
          [(.replicaSet, .write ⟨some "team", "web",
              [⟨"apps/v1", "Deployment", "web", "", some true⟩]⟩),
            (.deployment, .write ⟨some "team", "web", []⟩)]) } }

theorem parentOf_replicaSet :
    podSession.parentOf Server.api (webKey "ReplicaSet") = .ok (some (webKey "Deployment")) := by
  decide +kernel

theorem parentOf_deployment :
    podSession.parentOf Server.api (webKey "Deployment") = .ok none := by
  decide +kernel

theorem eq_of_reaches_replicaSet {key : Key}
    (reaches : Relation.ReflTransGen
      (fun key parent => podSession.parentOf Server.api key = .ok (some parent))
      (webKey "ReplicaSet") key) :
    key = webKey "ReplicaSet" ∨ key = webKey "Deployment" := by
  induction reaches with
  | refl => exact .inl rfl
  | tail _ link ih =>
      rcases ih with rfl | rfl
      · rw [parentOf_replicaSet] at link
        cases link
        exact .inr rfl
      · rw [parentOf_deployment] at link
        cases link

/-- The walk from the pod passes the replica set and ends at the deployment. -/
theorem resolvePod_walks_web :
    ∃ ascent,
      Ascent.IsWalk (podSession.podParentOf Server.api "team" "web-1" [podOwner])
        (podKey "team" "web-1") ascent ∧
      ascent.ending = .root (webKey "Deployment") ∧
      (resolvePod Server.api "team" "web-1" podSession).1 =
        .ok ⟨podKey "team" "web-1", some (webKey "Deployment")⟩ := by
  have steady : Server.api.Steady podSession.live.server :=
    Server.steady_of_single (by decide)
  have found : (podOwners Server.api "team" "web-1" podSession.live).1 = .ok [podOwner] := by
    decide +kernel
  have aside : podSession.NeverReturns Server.api "team" "web-1" [podOwner] := by
    intro owner owned reaches
    have same : Owner.controlling [podOwner] "team" = some (webKey "ReplicaSet") := by
      decide
    cases same.symm.trans owned
    rcases eq_of_reaches_replicaSet reaches with here | here
    · exact absurd here (by decide)
    · exact absurd here (by decide)
  obtain ⟨answer, concluded, _, _, _, _, whenCovered⟩ := resolvePod_walks steady found
  obtain ⟨ascent, walk, rfl⟩ := (whenCovered (Server.covers _)).2 aside
  have whole : Ascent.IsWalk (podSession.podParentOf Server.api "team" "web-1" [podOwner])
      (podKey "team" "web-1")
      ⟨[webKey "Deployment", webKey "ReplicaSet", podKey "team" "web-1"],
        .root (webKey "Deployment")⟩ :=
    ⟨by simp, 3, by decide +kernel⟩
  obtain rfl := walk.eq whole
  exact ⟨_, walk, rfl, concluded⟩

end Runs

end Session

end Lineage
