import Lineage.Proofs.Climb

/-!
# What a cluster reports

A cluster may answer the same question differently each time.  What can be said
of a lookup is therefore said of every state to which questions can lead: the
parent that a lookup gives is the key of a controlling owner that the cluster
reports in one of these states, placed in the namespace of the key that was
looked up, and no lookup finds a cycle by itself.
-/

namespace Lineage

namespace Owner

/-- The parts of an owner that name it: its API version, kind and name. -/
def identity (owner : Owner) : String × String × String :=
  (owner.apiVersion, owner.kind, owner.name)

theorem exists_of_controlling {owners : List Owner} {ns : String} {key : Key}
    (found : controlling owners ns = some key) :
    ∃ owner ∈ owners, owner.controls ∧ key = owner.key ns := by
  obtain ⟨owner, first, keyed⟩ := Option.map_eq_some_iff.mp found
  exact ⟨owner, List.mem_of_find?_eq_some first, List.find?_some first, keyed.symm⟩

end Owner

namespace Cluster

variable {σ : Type}

/-- The states to which questions can lead a cluster. -/
inductive Reaches (cluster : Cluster σ) (origin : σ) : σ → Prop
  | origin : Reaches cluster origin origin
  | cached {state : σ} (kind : WorkloadKind) (ns name : String)
      (earlier : Reaches cluster origin state) :
      Reaches cluster origin (cluster.cached kind ns name state).2
  | mapped {state : σ} (group kind : String) (earlier : Reaches cluster origin state) :
      Reaches cluster origin (cluster.mapped group kind state).2
  | scaled {state : σ} (mapping : Mapping) (ns name : String)
      (earlier : Reaches cluster origin state) :
      Reaches cluster origin (cluster.scaled mapping ns name state).2

/-- The owner references that a cluster can report, of objects in its stores and
of objects that have a scale, after any questions. -/
inductive Reports (cluster : Cluster σ) (origin : σ) : Owner → Prop
  | cached {state : σ} {kind : WorkloadKind} {ns name : String} {workload : Workload}
      {owner : Owner} (reached : cluster.Reaches origin state)
      (answer : (cluster.cached kind ns name state).1 = .ok (some workload))
      (member : owner ∈ workload.owners) : Reports cluster origin owner
  | scaled {state : σ} {mapping : Mapping} {ns name : String} {owners : List Owner}
      {owner : Owner} (reached : cluster.Reaches origin state)
      (answer : (cluster.scaled mapping ns name state).1 = .ok owners)
      (member : owner ∈ owners) : Reports cluster origin owner

/-- What a lookup of a parent in some namespace can end with. -/
structure Yields (cluster : Cluster σ) (origin : σ) (ns : String)
    (result : Except Fault (Option Key) × σ) : Prop where
  reached : cluster.Reaches origin result.2
  parent : ∀ parent, result.1 = .ok (some parent) →
    ∃ owner, cluster.Reports origin owner ∧ owner.controls ∧ parent = owner.key ns
  fault : ∀ fault, result.1 = .error fault → ∀ key, fault ≠ .cycleDetected key

variable {cluster : Cluster σ} {origin state : σ}

theorem yields_of_controlling {ns : String} {owners : List Owner} {next : σ}
    (reached : cluster.Reaches origin next)
    (reported : ∀ owner ∈ owners, cluster.Reports origin owner) :
    cluster.Yields origin ns (.ok (Owner.controlling owners ns), next) where
  reached := reached
  parent := by
    intro parent found
    obtain ⟨owner, member, controls, keyed⟩ :=
      Owner.exists_of_controlling (Except.ok.inj found)
    exact ⟨owner, reported owner member, controls, keyed⟩
  fault := by simp

theorem yields_of_fault {ns : String} {fault : Fault} {next : σ}
    (reached : cluster.Reaches origin next) (lookup : ∀ key, fault ≠ .cycleDetected key) :
    cluster.Yields origin ns (.error fault, next) where
  reached := reached
  parent := by simp
  fault := by
    intro other same
    cases same
    exact lookup

theorem storedParent_yields (kind : WorkloadKind) (key : Key)
    (reached : cluster.Reaches origin state) :
    cluster.Yields origin key.ns (cluster.storedParent kind key state) := by
  have later := Reaches.cached kind key.ns key.name reached
  rcases answer : cluster.cached kind key.ns key.name state with ⟨reply, next⟩
  rw [answer] at later
  rcases reply with source | found | workload
  · simp only [storedParent, bind, StateT.bind, answer]
    exact yields_of_fault later (by simp)
  · simp only [storedParent, bind, StateT.bind, answer]
    exact yields_of_fault later (by simp)
  · simp only [storedParent, bind, StateT.bind, answer]
    by_cases same : workload.kind = kind
    · rw [if_pos same]
      refine yields_of_controlling later fun owner member => ?_
      exact .cached reached (by rw [answer]) member
    · rw [if_neg same]
      exact yields_of_fault later (by simp)

/-- Trying one scale after another leads to a state that questions lead to, and
the owners found are among those that the cluster reports. -/
theorem firstScale_reports (ns name : String) (last : Cause) (mappings : List Mapping)
    (reached : cluster.Reaches origin state) :
    cluster.Reaches origin (cluster.firstScale ns name last mappings state).2 ∧
      ∀ owners, (cluster.firstScale ns name last mappings state).1 = .ok owners →
        ∀ owner ∈ owners, cluster.Reports origin owner := by
  induction mappings generalizing last state with
  | nil =>
      have failed : cluster.firstScale ns name last [] state = (.error last, state) := rfl
      rw [failed]
      exact ⟨reached, by simp⟩
  | cons mapping others ih =>
      have later := Reaches.scaled mapping ns name reached
      rcases answer : cluster.scaled mapping ns name state with ⟨reply, next⟩
      rw [answer] at later
      simp only [firstScale, bind, StateT.bind, answer]
      cases reply with
      | error cause => exact ih cause later
      | ok owners =>
          refine ⟨later, ?_⟩
          intro found same owner member
          cases same
          exact .scaled reached (by rw [answer]) member

theorem scaleOwners_reports (group kind ns name : String)
    (reached : cluster.Reaches origin state) :
    cluster.Reaches origin (cluster.scaleOwners group kind ns name state).2 ∧
      ∀ owners, (cluster.scaleOwners group kind ns name state).1 = .ok owners →
        ∀ owner ∈ owners, cluster.Reports origin owner := by
  have later := Reaches.mapped group kind reached
  rcases answer : cluster.mapped group kind state with ⟨reply, next⟩
  rw [answer] at later
  simp only [scaleOwners, bind, StateT.bind, answer]
  cases reply with
  | error cause =>
      refine ⟨later, ?_⟩
      intro owners failed
      cases failed
  | ok mappings => exact firstScale_reports ns name (.noMapping group kind) mappings later

theorem servedParent_yields (key : Key) (reached : cluster.Reaches origin state) :
    cluster.Yields origin key.ns (cluster.servedParent key state) := by
  cases parsed : GroupVersion.parse key.apiVersion with
  | none =>
      simp only [servedParent, parsed]
      exact yields_of_fault reached (by simp [Fault.malformed])
  | some groupVersion =>
      obtain ⟨later, reported⟩ :=
        scaleOwners_reports groupVersion.group key.kind key.ns key.name reached
      simp only [servedParent, parsed, bind, StateT.bind]
      rcases answer : cluster.scaleOwners groupVersion.group key.kind key.ns key.name state
        with ⟨reply, next⟩
      rw [answer] at later reported
      cases reply with
      | error source => exact yields_of_fault later (by simp)
      | ok owners => exact yields_of_controlling later (reported owners rfl)

/-- What a lookup of a parent can end with, whichever way the key is looked up. -/
theorem parentOf_yields (cluster : Cluster σ) (kinds : KindSet) (key : Key)
    (reached : cluster.Reaches origin state) :
    cluster.Yields origin key.ns (cluster.parentOf kinds key state) := by
  cases lookup : kinds.find? key.kind with
  | none =>
      simp only [parentOf, lookup]
      exact servedParent_yields key reached
  | some kind =>
      simp only [parentOf, lookup]
      exact storedParent_yields kind key reached

end Cluster

end Lineage
