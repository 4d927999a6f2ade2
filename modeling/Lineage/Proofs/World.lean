import Lineage.Proofs.HopBound
import Lineage.Proofs.Trail
import Lineage.World

/-!
# Searches in a world

A world answers every question the same way each time, and the owners that it
reports are listed in it.  So its bound on hops is never exhausted, and a search
answers the outcome of the only complete trail from its start: the root where
the trail ends, the fault of its last lookup, or the key at which it would enter
a cycle.

Searches from the keys of one trail agree.  They find the same root or the same
fault; and where a trail runs into a cycle, a key on the cycle is blamed itself,
whereas the keys in front of it blame the key at which the cycle is entered.
-/

namespace Lineage

namespace World

variable {world : World} {kinds : KindSet} {start : Key}

/-- A world reports no owner but those that it lists. -/
theorem mem_references_of_reports {owner : Owner} (reported : world.cluster.Reports () owner) :
    owner ∈ world.references := by
  cases reported with
  | @cached state kind ns name workload _ reached answer member =>
      have stored : world.cached kind ns name = .ok (some workload) := answer
      rw [cached] at stored
      split at stored
      · simp at stored
      · rename_i entry found
        apply List.mem_append_left
        refine List.mem_flatMap.mpr ⟨entry, List.mem_of_find?_eq_some found, ?_⟩
        cases content : entry.content with
        | error cause => simp [content, Except.map] at stored
        | ok other =>
            simp only [content, Except.map, Except.ok.injEq, Option.some.injEq] at stored
            simpa [CacheEntry.owners, content, stored] using member
  | @scaled state mapping ns name owners _ reached answer member =>
      have scale : world.scaled mapping ns name = .ok owners := answer
      rw [scaled] at scale
      split at scale
      · simp at scale
      · rename_i entry found
        apply List.mem_append_right
        refine List.mem_flatMap.mpr ⟨entry, List.mem_of_find?_eq_some found, ?_⟩
        simpa [ScaleEntry.owners, scale] using member

/-- The names of the owners that a world lists. -/
def names (world : World) : Finset (String × String × String) :=
  (world.references.map Owner.identity).toFinset

theorem card_names_lt_hops (world : World) : world.names.card + 1 ≤ world.hops := by
  have card : world.names.card ≤ world.references.length := by
    simpa [names] using List.toFinset_card_le (world.references.map Owner.identity)
  exact Nat.succ_le_succ card

theorem identity_mem_names {owner : Owner} (reported : world.cluster.Reports () owner) :
    owner.identity ∈ world.names :=
  List.mem_toFinset.mpr (List.mem_map_of_mem (mem_references_of_reports reported))

/-- The keys whose parents a search from a key looks up, the latest first. -/
def resolved (world : World) (kinds : KindSet) (start : Key) : List Key :=
  world.cluster.lookups kinds world.hops start ()

/-- A search in a world follows the keys that it resolves along a complete trail
and answers the outcome of the trail. -/
theorem exists_complete_trail (world : World) (kinds : KindSet) (start : Key) :
    ∃ trail : Trail (world.parentOf kinds) start, trail.Complete ∧
      trail.keys = (world.resolved kinds start).reverse ∧
      world.findTopLevel kinds (some start) = trail.outcome := by
  obtain ⟨ascent, final, run, finished, _⟩ :=
    world.cluster.exists_finished_run kinds () start
      fun owner reported _ => identity_mem_names reported
  obtain ⟨extra, enough⟩ := Nat.exists_eq_add_of_le world.card_names_lt_hops
  have computed : world.cluster.ascend kinds world.hops start () = (ascent, final) := by
    rw [Cluster.ascend, enough]
    exact run.climb_eq finished extra
  have constant : ∀ key state,
      (world.cluster.parentOf kinds key state).1 = world.parentOf kinds key := fun _ _ => rfl
  obtain ⟨trail, complete, passed, answered⟩ :=
    run.exists_complete constant finished (.single _ start) rfl
  refine ⟨trail, complete, ?_, ?_⟩
  · rw [passed, resolved, Cluster.lookups_eq_visited, computed]
  · rw [← answered, findTopLevel, Cluster.findTopLevel_some, computed]

theorem findTopLevel_eq_outcome {trail : Trail (world.parentOf kinds) start}
    (complete : trail.Complete) : world.findTopLevel kinds (some start) = trail.outcome := by
  obtain ⟨other, otherComplete, _, answered⟩ := exists_complete_trail world kinds start
  rw [answered, Trail.eq_of_complete complete otherComplete]

/-- No lookup of a parent finds a cycle by itself. -/
theorem parentOf_ne_cycleDetected (world : World) (kinds : KindSet) (key other : Key) :
    world.parentOf kinds key ≠ .error (.cycleDetected other) := by
  intro found
  exact (world.cluster.parentOf_yields kinds key .origin).fault _ found
    other rfl

section Outcomes

variable {trail : Trail (world.parentOf kinds) start}

theorem findTopLevel_eq_root_iff (complete : trail.Complete) (root : Key) :
    world.findTopLevel kinds (some start) = .ok (some root) ↔
      root = trail.last ∧ world.parentOf kinds trail.last = .ok none := by
  rw [findTopLevel_eq_outcome complete]
  rcases found : world.parentOf kinds trail.last with fault | _ | owner
  · simp [Trail.outcome_of_fault found]
  · simp [Trail.outcome_of_root found, eq_comm]
  · simp [Trail.outcome_of_owner found]

theorem findTopLevel_eq_fault_iff (complete : trail.Complete) (fault : Fault) :
    (world.findTopLevel kinds (some start) = .error fault ∧ ∀ key, fault ≠ .cycleDetected key) ↔
      world.parentOf kinds trail.last = .error fault := by
  rw [findTopLevel_eq_outcome complete]
  rcases found : world.parentOf kinds trail.last with other | _ | owner
  · rw [Trail.outcome_of_fault found]
    constructor
    · rintro ⟨same, _⟩
      exact same
    · rintro ⟨⟩
      refine ⟨rfl, ?_⟩
      rintro key rfl
      exact parentOf_ne_cycleDetected world kinds _ _ found
  · simp [Trail.outcome_of_root found]
  · rw [Trail.outcome_of_owner found]
    constructor
    · rintro ⟨same, lookup⟩
      exact absurd (Except.error.inj same).symm (lookup owner)
    · rintro ⟨⟩

theorem findTopLevel_eq_cycle_iff (complete : trail.Complete) (key : Key) :
    world.findTopLevel kinds (some start) = .error (.cycleDetected key) ↔
      key ∈ trail.keys ∧ world.parentOf kinds trail.last = .ok (some key) := by
  rw [findTopLevel_eq_outcome complete]
  rcases found : world.parentOf kinds trail.last with fault | _ | owner
  · rw [Trail.outcome_of_fault found]
    constructor
    · rintro ⟨⟩
      exact absurd found (parentOf_ne_cycleDetected world kinds _ key)
    · rintro ⟨_, ⟨⟩⟩
  · simp [Trail.outcome_of_root found]
  · rw [Trail.outcome_of_owner found]
    constructor
    · rintro ⟨⟩
      exact ⟨complete key found, rfl⟩
    · rintro ⟨_, ⟨⟩⟩
      rfl

end Outcomes

/-- Exactly one of three statements. -/
def OnlyOne (first second third : Prop) : Prop :=
  (first ∧ ¬ second ∧ ¬ third) ∨ (¬ first ∧ second ∧ ¬ third) ∨ (¬ first ∧ ¬ second ∧ third)

/-- A search has exactly one of three outcomes, which the only complete trail from
its start decides: the last key if that is a root, the fault of the lookup of the
last key, or the key of the trail to which the last one leads back. -/
theorem findTopLevel_trichotomy (world : World) (kinds : KindSet) (start : Key) :
    ∃ trail : Trail (world.parentOf kinds) start,
      trail.Complete ∧
      (∀ other : Trail (world.parentOf kinds) start, other.Complete → other = trail) ∧
      OnlyOne (world.findTopLevel kinds (some start) = .ok (some trail.last))
        (∃ fault, world.findTopLevel kinds (some start) = .error fault ∧
          ∀ key, fault ≠ .cycleDetected key)
        (∃ key ∈ trail.keys,
          world.findTopLevel kinds (some start) = .error (.cycleDetected key)) ∧
      (world.findTopLevel kinds (some start) = .ok (some trail.last) ↔
        world.parentOf kinds trail.last = .ok none) ∧
      (∀ fault,
        (world.findTopLevel kinds (some start) = .error fault ∧
          ∀ key, fault ≠ .cycleDetected key) ↔
        world.parentOf kinds trail.last = .error fault) ∧
      (∀ key,
        world.findTopLevel kinds (some start) = .error (.cycleDetected key) ↔
        key ∈ trail.keys ∧ world.parentOf kinds trail.last = .ok (some key)) ∧
      ∀ answer, world.findTopLevel kinds (some start) = .ok answer →
        ∃ root, answer = some root ∧ world.parentOf kinds root = .ok none := by
  obtain ⟨trail, complete, _, answered⟩ := exists_complete_trail world kinds start
  have root_iff := findTopLevel_eq_root_iff complete
  have fault_iff := findTopLevel_eq_fault_iff complete
  have cycle_iff := findTopLevel_eq_cycle_iff complete
  refine ⟨trail, complete, fun other otherComplete => Trail.eq_of_complete otherComplete complete,
    ?_, ?_, fault_iff, cycle_iff, ?_⟩
  · simp only [OnlyOne, root_iff, fault_iff, cycle_iff, true_and]
    rcases found : world.parentOf kinds trail.last with fault | _ | owner
    · simp
    · simp
    · simp [complete owner found]
  · simp only [root_iff, true_and]
  · intro answer same
    cases answer with
    | none =>
        rw [answered] at same
        rcases found : world.parentOf kinds trail.last with fault | _ | owner <;>
          simp [Trail.outcome, found] at same
    | some root =>
        obtain ⟨rfl, isRoot⟩ := (root_iff root).mp same
        exact ⟨trail.last, rfl, isRoot⟩

/-- The root that a search finds is found from every key that it resolves. -/
theorem findTopLevel_eq_root_of_mem {middle root : Key}
    (onTheWay : middle ∈ world.resolved kinds start)
    (found : world.findTopLevel kinds (some start) = .ok (some root)) :
    world.findTopLevel kinds (some middle) = .ok (some root) := by
  obtain ⟨trail, complete, passed, answered⟩ := exists_complete_trail world kinds start
  have member : middle ∈ trail.keys := by simpa [passed] using onTheWay
  obtain ⟨_, isRoot⟩ := (findTopLevel_eq_root_iff complete root).mp found
  obtain ⟨other, otherComplete, sameOutcome⟩ :=
    trail.exists_complete_of_ends (by simp [isRoot]) member
  rw [findTopLevel_eq_outcome otherComplete, sameOutcome, ← answered, found]

/-- The root that a search finds is one of the keys that it resolves. -/
theorem root_mem_resolved {root : Key}
    (found : world.findTopLevel kinds (some start) = .ok (some root)) :
    root ∈ world.resolved kinds start := by
  obtain ⟨trail, complete, passed, _⟩ := exists_complete_trail world kinds start
  obtain ⟨rfl, _⟩ := (findTopLevel_eq_root_iff complete root).mp found
  simpa [passed] using trail.last_mem_keys

/-- Searches from the keys that one search resolves agree with it.  They find the
same root, from which a search finds the root again, or end with the same fault.
Where the search finds a cycle, a key on the cycle is blamed for it itself, and
every key in front of the cycle blames the key that the search blames. -/
theorem findTopLevel_coherent (world : World) (kinds : KindSet) (start middle : Key)
    (onTheWay : middle ∈ world.resolved kinds start) :
    (∀ root, world.findTopLevel kinds (some start) = .ok (some root) →
      world.findTopLevel kinds (some middle) = .ok (some root) ∧
      world.findTopLevel kinds (some root) = .ok (some root)) ∧
    (∀ fault, (∀ key, fault ≠ .cycleDetected key) →
      world.findTopLevel kinds (some start) = .error fault →
      world.findTopLevel kinds (some middle) = .error fault) ∧
    ∀ key, world.findTopLevel kinds (some start) = .error (.cycleDetected key) →
      (Trail.OnCycle (world.parentOf kinds) middle →
        world.findTopLevel kinds (some middle) = .error (.cycleDetected middle)) ∧
      (¬ Trail.OnCycle (world.parentOf kinds) middle →
        world.findTopLevel kinds (some middle) = .error (.cycleDetected key)) := by
  obtain ⟨trail, complete, passed, answered⟩ := exists_complete_trail world kinds start
  have member : middle ∈ trail.keys := by simpa [passed] using onTheWay
  refine ⟨?_, ?_, ?_⟩
  · intro root found
    exact ⟨findTopLevel_eq_root_of_mem onTheWay found,
      findTopLevel_eq_root_of_mem (root_mem_resolved found) found⟩
  · intro fault lookup found
    have failed := (findTopLevel_eq_fault_iff complete fault).mp ⟨found, lookup⟩
    obtain ⟨other, otherComplete, sameOutcome⟩ :=
      trail.exists_complete_of_ends (by simp [failed]) member
    rw [findTopLevel_eq_outcome otherComplete, sameOutcome, ← answered, found]
  · intro key found
    obtain ⟨keyPassed, closes⟩ := (findTopLevel_eq_cycle_iff complete key).mp found
    obtain ⟨other, otherComplete, onCycle, offCycle⟩ :=
      trail.exists_complete_of_closes closes keyPassed member
    rw [findTopLevel_eq_outcome otherComplete]
    exact ⟨onCycle, offCycle⟩

/-- A replica set that another replica set controls. -/
def controlled (name owner : String) : CacheEntry :=
  ⟨.replicaSet, "team", name, .ok ⟨.replicaSet, [⟨"apps/v1", "ReplicaSet", owner, "", some true⟩]⟩⟩

/-- A world in which a replica set leads to two others that control each other. -/
def looped : World :=
  ⟨[controlled "tail" "first", controlled "first" "second", controlled "second" "first"],
    .error .discoveryPending, []⟩

def replicaKey (name : String) : Key :=
  ⟨"team", "ReplicaSet", name, "apps/v1"⟩

theorem findTopLevel_coherent_looped :
    replicaKey "second" ∈ looped.resolved .full (replicaKey "tail") ∧
      looped.findTopLevel .full (some (replicaKey "tail")) =
        .error (.cycleDetected (replicaKey "first")) ∧
      looped.findTopLevel .full (some (replicaKey "second")) =
        .error (.cycleDetected (replicaKey "second")) := by
  have onTheWay : replicaKey "second" ∈ looped.resolved .full (replicaKey "tail") := by
    decide +kernel
  have found : looped.findTopLevel .full (some (replicaKey "tail")) =
      .error (.cycleDetected (replicaKey "first")) := by decide +kernel
  have onCycle : Trail.OnCycle (looped.parentOf .full) (replicaKey "second") :=
    .head (b := replicaKey "first") (by decide +kernel) (.single (by decide +kernel))
  obtain ⟨_, _, blamed⟩ :=
    findTopLevel_coherent looped .full (replicaKey "tail") (replicaKey "second") onTheWay
  exact ⟨onTheWay, found, (blamed _ found).1 onCycle⟩

end World

end Lineage
