import Lineage.World

/-!
# Lookups of parents

A lookup of a parent asks a few questions and turns what it hears into a parent
or a fault.  Here the two are told apart: one equation for each way to look up a
parent says which question comes next and what becomes of the reply.  They hold
of every cluster, whatever its state; in a world, which has none, they give the
parent itself.
-/

namespace Lineage

namespace WorkloadKind

theorem ofName?_eq_some_iff {text : String} {kind : WorkloadKind} :
    ofName? text = some kind ↔ kind.name = text := by
  constructor
  · intro found
    simpa using List.find?_some found
  · rintro rfl
    cases kind <;> decide

end WorkloadKind

namespace KindSet

variable {kinds : KindSet} {text : String}

theorem find?_eq_some_iff {kind : WorkloadKind} :
    kinds.find? text = some kind ↔ kinds.has kind = true ∧ kind.name = text := by
  rw [find?, Option.filter_eq_some_iff, WorkloadKind.ofName?_eq_some_iff, and_comm]

theorem find?_eq_none_iff :
    kinds.find? text = none ↔ ∀ kind, kinds.has kind = true → kind.name ≠ text := by
  simp only [Option.eq_none_iff_forall_ne_some, ne_eq, find?_eq_some_iff, not_and]

theorem known_or_unknown (kinds : KindSet) (text : String) :
    (∃ kind, kinds.has kind = true ∧ kind.name = text) ∨
      ∀ kind, kinds.has kind = true → kind.name ≠ text := by
  rw [← find?_eq_none_iff]
  cases found : kinds.find? text with
  | none => exact .inr rfl
  | some kind => exact .inl ⟨kind, find?_eq_some_iff.mp found⟩

end KindSet

namespace Key

def storedReply (key : Key) (kind : WorkloadKind) :
    Except Cause (Option Workload) → Except Fault (Option Key)
  | .error source => .error (.cacheLookup kind.name key.ns key.name source)
  | .ok none => .error (.notFound kind.name key.ns key.name)
  | .ok (some workload) =>
    if workload.kind = kind then .ok (Owner.controlling workload.owners key.ns)
    else .error (.unsupportedKind kind.name workload.kind.name key.ns key.name)

/-- What the reply about the scale of an object means for the parent of its key. -/
def servedReply (key : Key) : Except Cause (List Owner) → Except Fault (Option Key)
  | .error source => .error (.scaleUnavailable key.apiVersion key.kind key.name source)
  | .ok owners => .ok (Owner.controlling owners key.ns)

end Key

namespace Cluster

variable {σ : Type} (cluster : Cluster σ) {kinds : KindSet} {key : Key} {state : σ}

theorem storedParent_eq (kind : WorkloadKind) (key : Key) (state : σ) :
    cluster.storedParent kind key state =
      (key.storedReply kind (cluster.cached kind key.ns key.name state).1,
        (cluster.cached kind key.ns key.name state).2) := by
  rcases answer : cluster.cached kind key.ns key.name state with ⟨reply, next⟩
  simp only [storedParent, bind, StateT.bind, answer]
  rcases reply with source | _ | workload
  · rfl
  · rfl
  · by_cases same : workload.kind = kind
    · simp only [Key.storedReply, if_pos same]
      rfl
    · simp only [Key.storedReply, if_neg same]
      rfl

theorem servedParent_malformed (unread : GroupVersion.parse key.apiVersion = none) (state : σ) :
    cluster.servedParent key state = (.error (.malformed key.apiVersion), state) := by
  simp only [servedParent, unread]
  rfl

theorem servedParent_eq {groupVersion : GroupVersion}
    (read : GroupVersion.parse key.apiVersion = some groupVersion) (state : σ) :
    cluster.servedParent key state =
      (key.servedReply (cluster.scaleOwners groupVersion.group key.kind key.ns key.name state).1,
        (cluster.scaleOwners groupVersion.group key.kind key.ns key.name state).2) := by
  rcases answer : cluster.scaleOwners groupVersion.group key.kind key.ns key.name state
    with ⟨reply, next⟩
  simp only [servedParent, read, bind, StateT.bind, answer]
  cases reply <;> rfl

section Scales

variable {cluster} {next : σ} {ns name : String}

theorem scaleOwners_unmapped {group kind : String} {cause : Cause}
    (answer : cluster.mapped group kind state = (.error cause, next)) :
    cluster.scaleOwners group kind ns name state = (.error cause, next) := by
  simp only [scaleOwners, bind, StateT.bind, answer]
  rfl

theorem scaleOwners_mapped {group kind : String} {mappings : List Mapping}
    (answer : cluster.mapped group kind state = (.ok mappings, next)) :
    cluster.scaleOwners group kind ns name state =
      cluster.firstScale ns name (.noMapping group kind) mappings next := by
  simp only [scaleOwners, bind, StateT.bind, answer]

theorem firstScale_found {last : Cause} {mapping : Mapping} {others : List Mapping}
    {owners : List Owner} (answer : cluster.scaled mapping ns name state = (.ok owners, next)) :
    cluster.firstScale ns name last (mapping :: others) state = (.ok owners, next) := by
  simp only [firstScale, bind, StateT.bind, answer]
  rfl

theorem firstScale_failed {last cause : Cause} {mapping : Mapping} {others : List Mapping}
    (answer : cluster.scaled mapping ns name state = (.error cause, next)) :
    cluster.firstScale ns name last (mapping :: others) state =
      cluster.firstScale ns name cause others next := by
  simp only [firstScale, bind, StateT.bind, answer]

end Scales

theorem parentOf_stored {kind : WorkloadKind} (enabled : kinds.has kind = true)
    (named : kind.name = key.kind) :
    cluster.parentOf kinds key = cluster.storedParent kind key := by
  simp only [parentOf, KindSet.find?_eq_some_iff.mpr ⟨enabled, named⟩]

theorem parentOf_served (unknown : ∀ kind, kinds.has kind = true → kind.name ≠ key.kind) :
    cluster.parentOf kinds key = cluster.servedParent key := by
  simp only [parentOf, KindSet.find?_eq_none_iff.mpr unknown]

end Cluster

namespace World

variable {world : World} {kinds : KindSet} {key : Key}

theorem parentOf_stored {kind : WorkloadKind} (enabled : kinds.has kind = true)
    (named : kind.name = key.kind) :
    world.parentOf kinds key = key.storedReply kind (world.cached kind key.ns key.name) := by
  rw [parentOf, Cluster.parentOf_stored _ enabled named, Cluster.storedParent_eq]
  rfl

theorem parentOf_served (unknown : ∀ kind, kinds.has kind = true → kind.name ≠ key.kind)
    {groupVersion : GroupVersion} (read : GroupVersion.parse key.apiVersion = some groupVersion) :
    world.parentOf kinds key = key.servedReply
      (world.cluster.scaleOwners groupVersion.group key.kind key.ns key.name ()).1 := by
  rw [parentOf, Cluster.parentOf_served _ unknown, Cluster.servedParent_eq _ read]

end World

end Lineage
