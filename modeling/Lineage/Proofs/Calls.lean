import Lineage.Proofs.Parent
import Lineage.Proofs.World

/-!
# The questions of a search

A recorded cluster keeps the questions that it is asked.  In a world the lookup
of a parent always asks the same questions: one of the store if the kind of the
key is enabled, and otherwise one for mappings and one for each scale up to the
first that is available.  A search asks what the lookups of the keys on its trail
ask, one key after the other and nothing in between.

Questions about mappings and scales are therefore without influence on a search
that stays among the enabled kinds.
-/

namespace Lineage

namespace Cluster

/-- The candidates of a list whose scales are requested: those up to the first
scale that is available, or all of them if there is none. -/
inductive Tried (scaled : Mapping → Except Cause (List Owner)) :
    List Mapping → List Mapping → Prop
  | found {before after : List Mapping} {mapping : Mapping} {owners : List Owner}
      (failed : ∀ other ∈ before, ∃ cause, scaled other = .error cause)
      (answer : scaled mapping = .ok owners) :
      Tried scaled (before ++ mapping :: after) (before ++ [mapping])
  | exhausted {mappings : List Mapping}
      (failed : ∀ mapping ∈ mappings, ∃ cause, scaled mapping = .error cause) :
      Tried scaled mappings mappings

theorem Tried.head {scaled : Mapping → Except Cause (List Owner)} {mapping : Mapping}
    {owners : List Owner} (answer : scaled mapping = .ok owners) (others : List Mapping) :
    Tried scaled (mapping :: others) [mapping] :=
  have failed : ∀ other ∈ [], ∃ cause, scaled other = .error cause := List.forall_mem_nil _
  .found failed answer

theorem Tried.cons {scaled : Mapping → Except Cause (List Owner)} {mapping : Mapping}
    {mappings tried : List Mapping} {cause : Cause} (answer : scaled mapping = .error cause)
    (rest : Tried scaled mappings tried) :
    Tried scaled (mapping :: mappings) (mapping :: tried) := by
  cases rest with
  | found failed found => exact .found (List.forall_mem_cons.mpr ⟨⟨cause, answer⟩, failed⟩) found
  | exhausted failed => exact .exhausted (List.forall_mem_cons.mpr ⟨⟨cause, answer⟩, failed⟩)

end Cluster

namespace Ascent

variable {σ : Type} {parent : Key → StateM σ (Except Fault (Option Key))}
  {recording : Key → StateM (List Call × σ) (Except Fault (Option Key))}
  {questions : Key → List Call}

/-- Where every lookup adds its questions to a record, an ascent records the
questions about the keys that it visits, those about the latest key first. -/
theorem Climbs.climb_recording
    (adds : ∀ key calls state, recording key (calls, state) =
      ((parent key state).1, ((questions key).reverse ++ calls, (parent key state).2)))
    {hops : Nat} {visited : List Key} {current : Key} {state final : σ} {ascent : Ascent}
    (run : Climbs parent hops visited current state ascent final) :
    climb recording hops visited current
        (visited.flatMap (List.reverse ∘ questions), state) =
      (ascent, (ascent.visited.flatMap (List.reverse ∘ questions), final)) := by
  have reply {key : Key} {visited : List Key} {state next : σ}
      {reply : Except Fault (Option Key)} (answer : parent key state = (reply, next)) :
      recording key (visited.flatMap (List.reverse ∘ questions), state) =
        (reply, ((key :: visited).flatMap (List.reverse ∘ questions), next)) := by
    rw [adds, answer]
    rfl
  -- The record belongs to the visited keys, and each rule extends both alike.
  induction run with
  | exhausted => rfl
  | failed answer => exact climb_failed (reply answer)
  | root answer => exact climb_root (reply answer)
  | cycle answer known => exact climb_cycle (reply answer) known
  | hop answer fresh rest ih =>
      rw [climb_hop (reply answer) fresh]
      exact ih

end Ascent

namespace World

variable {world : World} {kinds : KindSet} {start : Key}

/-- The questions that a search asks, in the order in which it asks them. -/
def calls (world : World) (kinds : KindSet) (start : Option Key) : List Call :=
  (world.cluster.recorded.findTopLevel kinds world.hops start ([], ())).2.1.reverse

/-- The questions that the lookup of a parent asks, in order. -/
def parentCalls (world : World) (kinds : KindSet) (key : Key) : List Call :=
  (world.cluster.recorded.parentOf kinds key ([], ())).2.1.reverse

/-- The questions to be asked about a key in a namespace: if its kind is enabled,
one of the store of that kind; otherwise none if the API version cannot be read,
and one for mappings if it can, followed by one for each scale that is tried. -/
inductive Asks (world : World) (kinds : KindSet) (ns : String) (key : Key) : List Call → Prop
  | stored {kind : WorkloadKind} (enabled : kinds.has kind = true) (named : kind.name = key.kind) :
      Asks world kinds ns key [.cached kind ns key.name]
  | malformed (unknown : ∀ kind, kinds.has kind = true → kind.name ≠ key.kind)
      (unread : GroupVersion.parse key.apiVersion = none) :
      Asks world kinds ns key []
  | unmapped {groupVersion : GroupVersion} {cause : Cause}
      (unknown : ∀ kind, kinds.has kind = true → kind.name ≠ key.kind)
      (read : GroupVersion.parse key.apiVersion = some groupVersion)
      (failed : world.mapped groupVersion.group key.kind = .error cause) :
      Asks world kinds ns key [.mapped groupVersion.group key.kind]
  | mapped {groupVersion : GroupVersion} {mappings tried : List Mapping}
      (unknown : ∀ kind, kinds.has kind = true → kind.name ≠ key.kind)
      (read : GroupVersion.parse key.apiVersion = some groupVersion)
      (found : world.mapped groupVersion.group key.kind = .ok mappings)
      (scales : Cluster.Tried (fun mapping => world.scaled mapping ns key.name) mappings tried) :
      Asks world kinds ns key (.mapped groupVersion.group key.kind ::
        tried.map fun mapping => .scaled mapping ns key.name)

section Record

variable {group kind ns name : String} {mapping : Mapping}

theorem cluster_mapped {reply : Except Cause (List Mapping)}
    (answer : world.mapped group kind = reply) :
    world.cluster.mapped group kind () = (reply, ()) := by
  rw [← answer]
  rfl

theorem recorded_mapped {reply : Except Cause (List Mapping)}
    (answer : world.mapped group kind = reply) (calls : List Call) :
    world.cluster.recorded.mapped group kind (calls, ()) =
      (reply, (.mapped group kind :: calls, ())) := by
  rw [← answer]
  rfl

theorem cluster_scaled {reply : Except Cause (List Owner)}
    (answer : world.scaled mapping ns name = reply) :
    world.cluster.scaled mapping ns name () = (reply, ()) := by
  rw [← answer]
  rfl

theorem recorded_scaled {reply : Except Cause (List Owner)}
    (answer : world.scaled mapping ns name = reply) (calls : List Call) :
    world.cluster.recorded.scaled mapping ns name (calls, ()) =
      (reply, (.scaled mapping ns name :: calls, ())) := by
  rw [← answer]
  rfl

theorem firstScale_recorded (world : World) (ns name : String) (last : Cause)
    (mappings : List Mapping) :
    ∃ tried, Cluster.Tried (fun mapping => world.scaled mapping ns name) mappings tried ∧
      ∀ calls, world.cluster.recorded.firstScale ns name last mappings (calls, ()) =
        ((world.cluster.firstScale ns name last mappings ()).1,
          ((tried.map fun mapping => Call.scaled mapping ns name).reverse ++ calls, ())) := by
  induction mappings generalizing last with
  | nil => exact ⟨[], .exhausted (List.forall_mem_nil _), fun calls => rfl⟩
  | cons mapping others ih =>
      cases answer : world.scaled mapping ns name with
      | ok owners =>
          refine ⟨[mapping], .head answer others, fun calls => ?_⟩
          rw [Cluster.firstScale_found (recorded_scaled answer calls),
            Cluster.firstScale_found (cluster_scaled answer)]
          rfl
      | error cause =>
          obtain ⟨tried, rest, recorded⟩ := ih cause
          refine ⟨mapping :: tried, rest.cons answer, fun calls => ?_⟩
          rw [Cluster.firstScale_failed (recorded_scaled answer calls),
            Cluster.firstScale_failed (cluster_scaled answer), recorded]
          simp

/-- The lookup of a parent asks the questions that are to be asked about the key,
and a record of them changes no answer. -/
theorem parentOf_recorded (world : World) (kinds : KindSet) (key : Key) :
    ∃ questions, world.Asks kinds key.ns key questions ∧
      ∀ calls, world.cluster.recorded.parentOf kinds key (calls, ()) =
        (world.parentOf kinds key, (questions.reverse ++ calls, ())) := by
  rcases kinds.known_or_unknown key.kind with ⟨kind, enabled, named⟩ | unknown
  · refine ⟨_, .stored enabled named, fun calls => ?_⟩
    rw [parentOf_stored enabled named, Cluster.parentOf_stored _ enabled named,
      Cluster.storedParent_eq]
    rfl
  · rw [parentOf, Cluster.parentOf_served _ unknown, Cluster.parentOf_served _ unknown]
    cases read : GroupVersion.parse key.apiVersion with
    | none =>
        refine ⟨[], .malformed unknown read, fun calls => ?_⟩
        rw [Cluster.servedParent_malformed _ read, Cluster.servedParent_malformed _ read]
        rfl
    | some groupVersion =>
        rw [Cluster.servedParent_eq _ read]
        cases answer : world.mapped groupVersion.group key.kind with
        | error cause =>
            refine ⟨_, .unmapped unknown read answer, fun calls => ?_⟩
            rw [Cluster.servedParent_eq _ read,
              Cluster.scaleOwners_unmapped (recorded_mapped answer calls),
              Cluster.scaleOwners_unmapped (cluster_mapped answer)]
            rfl
        | ok mappings =>
            obtain ⟨tried, scales, recorded⟩ := world.firstScale_recorded key.ns key.name
              (.noMapping groupVersion.group key.kind) mappings
            refine ⟨_, .mapped unknown read answer scales, fun calls => ?_⟩
            rw [Cluster.servedParent_eq _ read,
              Cluster.scaleOwners_mapped (recorded_mapped answer calls),
              Cluster.scaleOwners_mapped (cluster_mapped answer), recorded]
            simp

end Record

theorem asks_parentCalls (world : World) (kinds : KindSet) (key : Key) :
    world.Asks kinds key.ns key (world.parentCalls kinds key) := by
  obtain ⟨questions, asks, recorded⟩ := world.parentOf_recorded kinds key
  rw [parentCalls, recorded]
  simpa using asks

theorem parentOf_recorded_eq (world : World) (kinds : KindSet) (key : Key) (calls : List Call) :
    world.cluster.recorded.parentOf kinds key (calls, ()) =
      (world.parentOf kinds key, ((world.parentCalls kinds key).reverse ++ calls, ())) := by
  obtain ⟨questions, _, recorded⟩ := world.parentOf_recorded kinds key
  rw [parentCalls, recorded, recorded]
  simp

/-- A search asks what the lookups of the keys that it resolves ask, in order. -/
theorem calls_eq_flatMap (world : World) (kinds : KindSet) (start : Key) :
    world.calls kinds (some start) =
      (world.resolved kinds start).reverse.flatMap (world.parentCalls kinds) := by
  have run := Ascent.climbs_climb (world.cluster.parentOf kinds) world.hops [] start ()
  have adds : ∀ key calls state, world.cluster.recorded.parentOf kinds key (calls, state) =
      ((world.cluster.parentOf kinds key state).1,
        ((world.parentCalls kinds key).reverse ++ calls,
          (world.cluster.parentOf kinds key state).2)) :=
    fun key calls _ => world.parentOf_recorded_eq kinds key calls
  have recorded := run.climb_recording adds
  rw [List.flatMap_nil] at recorded
  rw [calls, Cluster.findTopLevel_some, Cluster.ascend, recorded, List.reverse_flatMap, resolved,
    Cluster.lookups_eq_visited, Cluster.ascend]
  simp [Function.comp_def]

theorem parentOf_ns {key owner : Key} (found : world.parentOf kinds key = .ok (some owner)) :
    owner.ns = key.ns := by
  obtain ⟨_, _, _, rfl⟩ := (world.cluster.parentOf_yields kinds key .origin).parent owner found
  rfl

theorem ns_of_mem_keys (trail : Trail (world.parentOf kinds) start) :
    ∀ key ∈ trail.keys, key.ns = start.ns :=
  trail.forall_keys rfl fun _ _ found within => (parentOf_ns found).trans within

theorem ns_of_mem_resolved {key : Key} (onTheWay : key ∈ world.resolved kinds start) :
    key.ns = start.ns := by
  obtain ⟨trail, _, passed, _⟩ := exists_complete_trail world kinds start
  exact ns_of_mem_keys trail key (by simpa [passed] using onTheWay)

/-- Worlds in which the keys on the way of a search have the same parents agree on
the search. -/
theorem findTopLevel_congr {other : World}
    (agree : ∀ key ∈ world.resolved kinds start,
      other.parentOf kinds key = world.parentOf kinds key) :
    other.findTopLevel kinds (some start) = world.findTopLevel kinds (some start) ∧
      other.resolved kinds start = world.resolved kinds start := by
  obtain ⟨trail, complete, passed, answered⟩ := exists_complete_trail world kinds start
  obtain ⟨whole, wholeComplete, wholePassed, wholeAnswered⟩ :=
    exists_complete_trail other kinds start
  have agreeOnTrail : ∀ key ∈ trail.keys, other.parentOf kinds key = world.parentOf kinds key := by
    intro key member
    exact agree key (by simpa [passed] using member)
  have same := Trail.eq_of_complete wholeComplete (Trail.complete_transfer agreeOnTrail complete)
  constructor
  · rw [wholeAnswered, same, Trail.outcome_transfer, answered]
  · rw [← List.reverse_inj, ← wholePassed, same, ← passed]
    rfl

theorem Asks.of_mem_cached {ns : String} {key : Key} {questions : List Call}
    (asks : world.Asks kinds ns key questions) {kind : WorkloadKind} {ns' name : String}
    (asked : .cached kind ns' name ∈ questions) :
    kinds.has kind = true ∧ kind.name = key.kind := by
  cases asks with
  | stored enabled named =>
      cases List.mem_singleton.mp asked
      exact ⟨enabled, named⟩
  | malformed unknown unread => simp at asked
  | unmapped unknown read failed => simp at asked
  | mapped unknown read found scales => simp at asked

/-- Where all keys on the way of a search are of enabled kinds, the stores alone
decide its outcome. -/
theorem findTopLevel_of_enabled {other : World}
    (stores : ∀ kind ns name, other.cached kind ns name = world.cached kind ns name)
    (enabled : ∀ key ∈ world.resolved kinds start,
      ∃ kind, kinds.has kind = true ∧ kind.name = key.kind) :
    other.findTopLevel kinds (some start) = world.findTopLevel kinds (some start) := by
  refine (findTopLevel_congr fun key onTheWay => ?_).1
  obtain ⟨kind, enabled, named⟩ := enabled key onTheWay
  rw [parentOf_stored enabled named, parentOf_stored enabled named, stores]

/-- A search asks exactly what the lookups of the keys on its complete trail ask,
one key after the other and each key once; a lookup asks exactly what is to be
asked about its key in the namespace of the start.  Without a key nothing is
asked.  So among keys of enabled kinds nothing but the stores matters, and no
other key is ever looked up in a store. -/
theorem calls_of_search (world : World) (kinds : KindSet) (start : Key) :
    (∃ trail : Trail (world.parentOf kinds) start,
      trail.Complete ∧
      trail.keys = (world.resolved kinds start).reverse ∧
      world.calls kinds (some start) = trail.keys.flatMap (world.parentCalls kinds) ∧
      ∀ key ∈ trail.keys, world.Asks kinds start.ns key (world.parentCalls kinds key)) ∧
    world.calls kinds none = [] ∧
    (∀ other : World,
      (∀ kind ns name, other.cached kind ns name = world.cached kind ns name) →
      (∀ key ∈ world.resolved kinds start, ∃ kind, kinds.has kind = true ∧ kind.name = key.kind) →
      other.findTopLevel kinds (some start) = world.findTopLevel kinds (some start)) ∧
    ∀ key, (∀ kind, kinds.has kind = true → kind.name ≠ key.kind) →
      ∀ kind ns name, .cached kind ns name ∉ world.parentCalls kinds key := by
  obtain ⟨trail, complete, passed, _⟩ := exists_complete_trail world kinds start
  refine ⟨⟨trail, complete, passed, ?_, ?_⟩, rfl, ?_, ?_⟩
  · rw [passed, calls_eq_flatMap]
  · intro key member
    rw [← ns_of_mem_keys trail key member]
    exact world.asks_parentCalls kinds key
  · intro other stores enabled
    exact findTopLevel_of_enabled stores enabled
  · intro key unknown kind ns name asked
    obtain ⟨enabled, named⟩ := (world.asks_parentCalls kinds key).of_mem_cached asked
    exact unknown kind enabled named

/-- The replica sets that control each other, in a cluster that has been discovered
and in which one of them has a scale without owners. -/
def loopedServed : World :=
  { looped with
    mapper := .ok (Index.ofList [⟨"apps", "v1", "replicasets", "ReplicaSet", true⟩])
    scales := [⟨"apps/v1/replicasets", "team", "first", .ok []⟩] }

theorem calls_of_search_looped :
    (∀ key ∈ looped.resolved .full (replicaKey "tail"),
      ∃ kind, KindSet.full.has kind = true ∧ kind.name = key.kind) ∧
    loopedServed.findTopLevel .full (some (replicaKey "tail")) =
      looped.findTopLevel .full (some (replicaKey "tail")) := by
  have enabled : ∀ key ∈ looped.resolved .full (replicaKey "tail"),
      ∃ kind, KindSet.full.has kind = true ∧ kind.name = key.kind := by
    intro key onTheWay
    have replicaSet : key.kind = "ReplicaSet" := by
      revert key
      decide +kernel
    exact ⟨.replicaSet, rfl, replicaSet.symm⟩
  obtain ⟨_, _, unaffected, _⟩ := calls_of_search looped .full (replicaKey "tail")
  exact ⟨enabled, unaffected loopedServed (fun _ _ _ => rfl) enabled⟩

end World

end Lineage
