import Lineage.Proofs.Calls

/-!
# What a search depends on

Of the objects in a cluster a search needs to know little: whether they are
there, of which kind they are, and the API version, kind and name of the first
owner reference that is marked as controlling.  Worlds that agree on this for
the objects of one namespace cannot be told apart by searches in it, neither by
their outcomes nor by the questions they ask.  Objects of other namespaces, the
references in front of the controlling one and behind it, and the identifiers of
all references are therefore without influence.
-/

namespace Lineage

namespace Owner

/-- The identity of the controlling reference of a list; of several, the first
one counts. -/
def controllerIdentity (owners : List Owner) : Option (String × String × String) :=
  (owners.find? controls).map identity

theorem controlling_eq_map (owners : List Owner) (ns : String) :
    controlling owners ns = (controllerIdentity owners).map fun (apiVersion, kind, name) =>
      { ns, kind, name, apiVersion } := by
  rw [controlling, controllerIdentity, Option.map_map]
  rfl

theorem controlling_congr {first second : List Owner}
    (same : controllerIdentity first = controllerIdentity second) (ns : String) :
    controlling first ns = controlling second ns := by
  rw [controlling_eq_map, controlling_eq_map, same]

end Owner

namespace Workload

/-- What matters about an object in a store. -/
def essence (workload : Workload) : WorkloadKind × Option (String × String × String) :=
  (workload.kind, Owner.controllerIdentity workload.owners)

end Workload

namespace Key

/-- Replies of a store that differ in nothing that matters mean the same parent. -/
theorem storedReply_congr {first second : Except Cause (Option Workload)}
    (same : first.map (Option.map Workload.essence) = second.map (Option.map Workload.essence))
    (key : Key) (kind : WorkloadKind) :
    key.storedReply kind first = key.storedReply kind second := by
  rcases first with source | _ | workload <;> rcases second with other | _ | other <;>
    simp only [Except.map, Option.map_none, Option.map_some, reduceCtorEq, Except.error.injEq,
      Except.ok.injEq, Option.some.injEq] at same
  · rw [same]
  · rfl
  · obtain ⟨sameKind, sameOwner⟩ := Prod.ext_iff.mp same
    simp only [Workload.essence] at sameKind sameOwner
    simp only [storedReply, sameKind, Owner.controlling_congr sameOwner]

theorem servedReply_congr {first second : Except Cause (List Owner)}
    (same : first.map Owner.controllerIdentity = second.map Owner.controllerIdentity) (key : Key) :
    key.servedReply first = key.servedReply second := by
  rcases first with source | owners <;> rcases second with other | others <;>
    simp only [Except.map, reduceCtorEq, Except.error.injEq, Except.ok.injEq] at same
  · rw [same]
  · simp only [servedReply, Owner.controlling_congr same]

end Key

namespace World

/-- Worlds that differ in nothing that matters to searches in a namespace. -/
structure AgreeIn (ns : String) (first second : World) : Prop where
  mapped : ∀ group kind, second.mapped group kind = first.mapped group kind
  cached : ∀ kind name,
    (second.cached kind ns name).map (Option.map Workload.essence) =
      (first.cached kind ns name).map (Option.map Workload.essence)
  scaled : ∀ mapping name,
    (second.scaled mapping ns name).map Owner.controllerIdentity =
      (first.scaled mapping ns name).map Owner.controllerIdentity

namespace AgreeIn

variable {ns : String} {first second : World} {kinds : KindSet}

/-- The scales of one candidate after the other: what is found in the end differs
in nothing that matters, and the same questions are recorded. -/
theorem firstScale_recorded (agree : AgreeIn ns first second) (name : String) (last : Cause)
    (mappings : List Mapping) (calls : List Call) :
    (second.cluster.recorded.firstScale ns name last mappings (calls, ())).1.map
        Owner.controllerIdentity =
      (first.cluster.recorded.firstScale ns name last mappings (calls, ())).1.map
        Owner.controllerIdentity ∧
    (second.cluster.recorded.firstScale ns name last mappings (calls, ())).2 =
      (first.cluster.recorded.firstScale ns name last mappings (calls, ())).2 := by
  induction mappings generalizing last calls with
  | nil => exact ⟨rfl, rfl⟩
  | cons mapping others ih =>
      have same := agree.scaled mapping name
      cases answer : first.scaled mapping ns name <;>
        cases otherAnswer : second.scaled mapping ns name <;>
        simp only [answer, otherAnswer, Except.map, reduceCtorEq, Except.error.injEq,
          Except.ok.injEq] at same
      · rw [Cluster.firstScale_failed (recorded_scaled answer calls),
          Cluster.firstScale_failed (recorded_scaled otherAnswer calls), same]
        exact ih _ _
      · rw [Cluster.firstScale_found (recorded_scaled answer calls),
          Cluster.firstScale_found (recorded_scaled otherAnswer calls)]
        simp only [Except.map, same, and_self]

theorem scaleOwners_recorded (agree : AgreeIn ns first second) (group kind name : String)
    (calls : List Call) :
    (second.cluster.recorded.scaleOwners group kind ns name (calls, ())).1.map
        Owner.controllerIdentity =
      (first.cluster.recorded.scaleOwners group kind ns name (calls, ())).1.map
        Owner.controllerIdentity ∧
    (second.cluster.recorded.scaleOwners group kind ns name (calls, ())).2 =
      (first.cluster.recorded.scaleOwners group kind ns name (calls, ())).2 := by
  cases answer : first.mapped group kind with
  | error cause =>
      rw [Cluster.scaleOwners_unmapped (recorded_mapped answer calls),
        Cluster.scaleOwners_unmapped (recorded_mapped ((agree.mapped _ _).trans answer) calls)]
      exact ⟨rfl, rfl⟩
  | ok mappings =>
      rw [Cluster.scaleOwners_mapped (recorded_mapped answer calls),
        Cluster.scaleOwners_mapped (recorded_mapped ((agree.mapped _ _).trans answer) calls)]
      exact agree.firstScale_recorded name _ mappings _

theorem parentOf_recorded (agree : AgreeIn ns first second) {key : Key} (within : key.ns = ns)
    (calls : List Call) :
    second.cluster.recorded.parentOf kinds key (calls, ()) =
      first.cluster.recorded.parentOf kinds key (calls, ()) := by
  subst within
  rcases kinds.known_or_unknown key.kind with ⟨kind, enabled, named⟩ | unknown
  · rw [Cluster.parentOf_stored _ enabled named, Cluster.parentOf_stored _ enabled named,
      Cluster.storedParent_eq, Cluster.storedParent_eq]
    exact congrArg (·, .cached kind key.ns key.name :: calls, ())
      (Key.storedReply_congr (agree.cached kind key.name) key kind)
  · rw [Cluster.parentOf_served _ unknown, Cluster.parentOf_served _ unknown]
    cases read : GroupVersion.parse key.apiVersion with
    | none => rw [Cluster.servedParent_malformed _ read, Cluster.servedParent_malformed _ read]
    | some groupVersion =>
        obtain ⟨sameOwner, sameCalls⟩ :=
          agree.scaleOwners_recorded groupVersion.group key.kind key.name calls
        rw [Cluster.servedParent_eq _ read, Cluster.servedParent_eq _ read,
          Key.servedReply_congr sameOwner, sameCalls]

theorem parentOf_eq (agree : AgreeIn ns first second) {key : Key} (within : key.ns = ns) :
    second.parentOf kinds key = first.parentOf kinds key := by
  have same : second.cluster.recorded.parentOf kinds key ([], ()) =
      first.cluster.recorded.parentOf kinds key ([], ()) := agree.parentOf_recorded within []
  rw [parentOf_recorded_eq, parentOf_recorded_eq] at same
  exact (Prod.ext_iff.mp same).1

theorem parentCalls_eq (agree : AgreeIn ns first second) {key : Key} (within : key.ns = ns) :
    second.parentCalls kinds key = first.parentCalls kinds key := by
  rw [parentCalls, parentCalls, agree.parentOf_recorded within]

theorem search_eq (agree : AgreeIn ns first second) {start : Key} (within : start.ns = ns) :
    second.findTopLevel kinds (some start) = first.findTopLevel kinds (some start) ∧
      second.calls kinds (some start) = first.calls kinds (some start) := by
  -- Agreement is known in one namespace only, which a search never leaves.
  have onTheWay : ∀ key ∈ first.resolved kinds start, key.ns = ns :=
    fun key member => (ns_of_mem_resolved member).trans within
  have sameParents : ∀ key ∈ first.resolved kinds start,
      second.parentOf kinds key = first.parentOf kinds key :=
    fun key member => agree.parentOf_eq (onTheWay key member)
  obtain ⟨sameOutcome, sameKeys⟩ := findTopLevel_congr sameParents
  refine ⟨sameOutcome, ?_⟩
  rw [calls_eq_flatMap, calls_eq_flatMap, sameKeys]
  refine List.flatMap_congr fun key member => ?_
  exact agree.parentCalls_eq (onTheWay key (List.mem_reverse.mp member))

end AgreeIn

section Entries

variable {ns : String}

/-- The entries of a store in a namespace, with what matters about them. -/
def storedIn (world : World) (ns : String) : List
    (WorkloadKind × String × Except Cause (WorkloadKind × Option (String × String × String))) :=
  (world.cache.filter fun entry => entry.ns = ns).map fun entry =>
    (entry.kind, entry.name, entry.content.map Workload.essence)

/-- The scales in a namespace, with what matters about them. -/
def scalesIn (world : World) (ns : String) :
    List (String × String × Except Cause (Option (String × String × String))) :=
  (world.scales.filter fun entry => entry.ns = ns).map fun entry =>
    (entry.resource, entry.name, entry.content.map Owner.controllerIdentity)

theorem cached_map_essence (world : World) (kind : WorkloadKind) (ns name : String) :
    (world.cached kind ns name).map (Option.map Workload.essence) =
      match (world.storedIn ns).find? fun entry => entry.1 = kind && entry.2.1 = name with
      | none => .ok none
      | some entry => entry.2.2.map some := by
  have sameEntry : ((world.cache.filter fun entry => entry.ns = ns).find? fun entry =>
        entry.kind = kind && entry.name = name) =
      world.cache.find? fun entry => entry.kind = kind && entry.ns = ns && entry.name = name := by
    rw [List.find?_filter]
    congr 1
    funext entry
    simp [Bool.and_assoc, Bool.and_left_comm]
  rw [storedIn, List.find?_map, cached, ← sameEntry]
  simp only [Function.comp_def]
  rcases List.find? _ _ with _ | entry
  · rfl
  · rcases content : entry.content with cause | workload <;> simp [content, Except.map]

theorem scaled_map_controllerIdentity (world : World) (mapping : Mapping) (ns name : String) :
    (world.scaled mapping ns name).map Owner.controllerIdentity =
      match (world.scalesIn ns).find? fun entry => entry.1 = mapping.text && entry.2.1 = name with
      | none => .error (noScale mapping ns name)
      | some entry => entry.2.2 := by
  have sameEntry : ((world.scales.filter fun entry => entry.ns = ns).find? fun entry =>
        entry.resource = mapping.text && entry.name = name) =
      world.scales.find? fun entry =>
        entry.resource = mapping.text && entry.ns = ns && entry.name = name := by
    rw [List.find?_filter]
    congr 1
    funext entry
    simp [Bool.and_assoc, Bool.and_left_comm]
  rw [scalesIn, List.find?_map, scaled, ← sameEntry]
  simp only [Function.comp_def]
  rcases List.find? _ _ with _ | entry <;> rfl

theorem agreeIn_of_entries {first second : World} (mapper : second.mapper = first.mapper)
    (stored : second.storedIn ns = first.storedIn ns)
    (scales : second.scalesIn ns = first.scalesIn ns) : AgreeIn ns first second where
  mapped group kind := by rw [mapped, mapped, mapper]
  cached kind name := by rw [cached_map_essence, cached_map_essence, stored]
  scaled mapping name := by
    rw [scaled_map_controllerIdentity, scaled_map_controllerIdentity, scales]

end Entries

/-- Worlds that differ in nothing that matters to searches in a namespace cannot be
told apart there: from every key of the namespace a search has the same outcome
and asks the same questions, and so does the lookup of the parent. -/
theorem findTopLevel_noninterference (kinds : KindSet) (ns : String) (first second : World)
    (agree : AgreeIn ns first second) (start : Key) (within : start.ns = ns) :
    second.findTopLevel kinds (some start) = first.findTopLevel kinds (some start) ∧
    second.calls kinds (some start) = first.calls kinds (some start) ∧
    second.parentOf kinds start = first.parentOf kinds start ∧
    second.parentCalls kinds start = first.parentCalls kinds start := by
  obtain ⟨sameOutcome, sameCalls⟩ := agree.search_eq within
  exact ⟨sameOutcome, sameCalls, agree.parentOf_eq within, agree.parentCalls_eq within⟩

/-- A replica set whose controlling owner, a rollout, stands between other owners. -/
def rolled (before after : List Owner) (uid : String) : CacheEntry :=
  ⟨.replicaSet, "team", "web", .ok ⟨.replicaSet,
    before ++ ⟨"argoproj.io/v1alpha1", "Rollout", "web", uid, some true⟩ :: after⟩⟩

/-- A world in which the owner of the rollout is reached through its scale. -/
def rollout (cache : List CacheEntry) (scales : List ScaleEntry) : World where
  cache := cache
  mapper := .ok (Index.ofList [⟨"argoproj.io", "v1alpha1", "rollouts", "Rollout", true⟩])
  scales := ⟨"argoproj.io/v1alpha1/rollouts", "team", "web", .ok []⟩ :: scales

def plainRollout : World :=
  rollout [rolled [] [] "1"] []

/-- The rollout among further owners and next to objects of another namespace. -/
def crowdedRollout : World :=
  rollout
    [⟨.replicaSet, "other", "web", .error (.text "broken")⟩,
      rolled [⟨"v1", "ConfigMap", "web", "2", none⟩,
          ⟨"apps/v1", "Deployment", "web", "3", some false⟩]
        [⟨"apps/v1", "Deployment", "web", "4", some true⟩] "5"]
    [⟨"argoproj.io/v1alpha1/rollouts", "other", "web", .ok []⟩]

theorem findTopLevel_noninterference_crowded :
    AgreeIn "team" plainRollout crowdedRollout ∧
      crowdedRollout.findTopLevel .full (some (replicaKey "web")) =
        plainRollout.findTopLevel .full (some (replicaKey "web")) ∧
      crowdedRollout.calls .full (some (replicaKey "web")) =
        [.cached .replicaSet "team" "web", .mapped "argoproj.io" "Rollout",
          .scaled ⟨"argoproj.io", "v1alpha1", "rollouts", "Rollout", true⟩ "team" "web"] := by
  have agree : AgreeIn "team" plainRollout crowdedRollout :=
    agreeIn_of_entries rfl rfl rfl
  obtain ⟨sameOutcome, sameCalls, _⟩ := findTopLevel_noninterference .full "team" plainRollout
    crowdedRollout agree (replicaKey "web") rfl
  refine ⟨agree, sameOutcome, ?_⟩
  rw [sameCalls]
  decide +kernel

end World

end Lineage
