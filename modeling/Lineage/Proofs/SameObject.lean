import Lineage.Proofs.Parent
import Lineage.Proofs.World

/-!
# Keys of the same object

Keys tell API versions apart, but a lookup of a parent does not: a store is asked
by kind and name alone, and the scales of an object are found by its group.  So
different keys can stand for the same object, and a search may meet an object
again under another key before it notices that it runs in a circle.

It meets at most one object twice.  All keys of a trail but the last have
parents, which follow one another on the trail and are therefore different; so
keys of the same object, having the same parent, cannot both stand among them.
The last key may repeat an object, and then its parent has been passed.
-/

namespace Lineage

/-- Keys of one namespace that stand for the same object: they agree on kind and
name, and if the kind is not enabled, on the group as well. -/
structure Key.SameObject (kinds : KindSet) (first second : Key) : Prop where
  ns : first.ns = second.ns
  kind : first.kind = second.kind
  name : first.name = second.name
  version : (∃ kind, kinds.has kind = true ∧ kind.name = first.kind) ∨
    ∃ read other, GroupVersion.parse first.apiVersion = some read ∧
      GroupVersion.parse second.apiVersion = some other ∧ read.group = other.group

/-- Faults that are the same up to the API version of an object without a scale. -/
inductive Fault.Alike : Fault → Fault → Prop
  | same (fault : Fault) : Alike fault fault
  | scales (apiVersion other kind name : String) (source : Cause) :
      Alike (.scaleUnavailable apiVersion kind name source)
        (.scaleUnavailable other kind name source)

/-- Faults that do not report a cycle. -/
def Fault.Acyclic (fault : Fault) : Prop :=
  ∀ key, fault ≠ .cycleDetected key

namespace Trail

variable {parent : Key → Except Fault (Option Key)} {start : Key}

theorem map_parent_dropLast {later : List Key}
    (linked : (start :: later).IsChain fun key owner => parent key = .ok (some owner)) :
    (start :: later).dropLast.map parent = later.map fun key => .ok (some key) := by
  induction later generalizing start with
  | nil => rfl
  | cons next later ih =>
      rw [List.isChain_cons_cons] at linked
      rw [List.dropLast_cons_cons, List.map_cons, List.map_cons, linked.1, ih linked.2]

variable {trail : Trail parent start}

theorem exists_owner_of_mem_dropLast {key : Key} (member : key ∈ trail.keys.dropLast) :
    ∃ owner ∈ trail.later, parent key = .ok (some owner) := by
  have mapped : parent key ∈ trail.keys.dropLast.map parent := List.mem_map_of_mem member
  rw [keys, map_parent_dropLast trail.linked] at mapped
  obtain ⟨owner, later, found⟩ := List.mem_map.mp mapped
  exact ⟨owner, later, found.symm⟩

theorem nodup_map_parent_dropLast (trail : Trail parent start) :
    (trail.keys.dropLast.map parent).Nodup := by
  rw [keys, map_parent_dropLast trail.linked]
  refine (List.nodup_cons.mp trail.distinct).2.map ?_
  intro key other same
  exact Option.some.inj (Except.ok.inj same)

end Trail

namespace World

variable {world : World} {kinds : KindSet} {first second : Key}

/-- Keys of the same object have the same parent or fail alike. -/
theorem parentOf_of_sameObject (same : first.SameObject kinds second) :
    (∃ owner, world.parentOf kinds first = .ok owner ∧ world.parentOf kinds second = .ok owner) ∨
    ∃ fault other, world.parentOf kinds first = .error fault ∧
      world.parentOf kinds second = .error other ∧ fault.Alike other := by
  rcases kinds.known_or_unknown first.kind with ⟨kind, enabled, named⟩ | unknown
  · have agree : world.parentOf kinds second = world.parentOf kinds first := by
      rw [parentOf_stored enabled named, parentOf_stored enabled (named.trans same.kind)]
      simp only [Key.storedReply, same.ns, same.name]
    rw [agree]
    cases world.parentOf kinds first with
    | error fault => exact .inr ⟨fault, fault, rfl, rfl, .same fault⟩
    | ok owner => exact .inl ⟨owner, rfl, rfl⟩
  · have disabled : ¬ ∃ kind, kinds.has kind = true ∧ kind.name = first.kind := by
      rintro ⟨kind, enabled, named⟩
      exact unknown kind enabled named
    obtain ⟨read, other, parsed, otherParsed, sameGroup⟩ := same.version.resolve_left disabled
    have otherUnknown : ∀ kind, kinds.has kind = true → kind.name ≠ second.kind :=
      same.kind ▸ unknown
    rw [parentOf_served unknown parsed, parentOf_served otherUnknown otherParsed, sameGroup,
      same.kind, same.ns, same.name]
    cases (world.cluster.scaleOwners other.group second.kind second.ns second.name ()).1 with
    | error source =>
        refine .inr ⟨_, _, rfl, rfl, ?_⟩
        rw [same.kind, same.name]
        exact .scales _ _ _ _ source
    | ok owners =>
        refine .inl ⟨_, rfl, ?_⟩
        rw [same.ns]
        rfl

theorem findTopLevel_of_root (found : world.parentOf kinds first = .ok none) :
    world.findTopLevel kinds (some first) = .ok (some first) := by
  have complete : (Trail.single (world.parentOf kinds) first).Complete := by
    intro owner other
    cases found.symm.trans other
  rw [findTopLevel_eq_outcome complete]
  exact Trail.outcome_of_root found

theorem findTopLevel_of_fault {fault : Fault} (found : world.parentOf kinds first = .error fault) :
    world.findTopLevel kinds (some first) = .error fault := by
  have complete : (Trail.single (world.parentOf kinds) first).Complete := by
    intro owner other
    cases found.symm.trans other
  rw [findTopLevel_eq_outcome complete]
  exact Trail.outcome_of_fault found

theorem acyclic_of_parentOf {fault : Fault} (found : world.parentOf kinds first = .error fault) :
    fault.Acyclic := by
  rintro key rfl
  exact parentOf_ne_cycleDetected world kinds first key found

theorem findTopLevel_cases (world : World) (kinds : KindSet) (start : Key) :
    (∃ root, world.findTopLevel kinds (some start) = .ok (some root)) ∨
    (∃ fault, fault.Acyclic ∧ world.findTopLevel kinds (some start) = .error fault) ∨
    ∃ key, world.findTopLevel kinds (some start) = .error (.cycleDetected key) := by
  obtain ⟨trail, _, _, answered⟩ := exists_complete_trail world kinds start
  rcases found : world.parentOf kinds trail.last with fault | _ | owner
  · exact .inr (.inl ⟨fault, acyclic_of_parentOf found,
      answered.trans (Trail.outcome_of_fault found)⟩)
  · exact .inl ⟨_, answered.trans (Trail.outcome_of_root found)⟩
  · exact .inr (.inr ⟨owner, answered.trans (Trail.outcome_of_owner found)⟩)

/-- Outcomes that are the same or both report a cycle, whichever key they blame. -/
def SameUpToBlame (outcome other : Except Fault (Option Key)) : Prop :=
  outcome = other ∨ ∃ key blamed, outcome = .error (.cycleDetected key) ∧
    other = .error (.cycleDetected blamed)

/-- A search from a key and one from its parent end alike. -/
theorem sameUpToBlame_of_owner {owner : Key}
    (found : world.parentOf kinds first = .ok (some owner)) :
    SameUpToBlame (world.findTopLevel kinds (some first))
      (world.findTopLevel kinds (some owner)) := by
  obtain ⟨trail, complete, _, answered⟩ := exists_complete_trail world kinds first
  have passed : owner ∈ trail.keys := by
    rcases trail.owner_mem_later List.mem_cons_self found with later | atEnd
    · exact List.mem_cons_of_mem first later
    · exact complete owner (atEnd ▸ found)
  by_cases closes : ∃ repeated, world.parentOf kinds trail.last = .ok (some repeated)
  · obtain ⟨repeated, closes⟩ := closes
    obtain ⟨other, otherComplete, onCycle, offCycle⟩ :=
      trail.exists_complete_of_closes closes (complete repeated closes) passed
    rw [answered, Trail.outcome_of_owner closes, findTopLevel_eq_outcome otherComplete]
    by_cases on : Trail.OnCycle (world.parentOf kinds) owner
    · exact .inr ⟨_, _, rfl, onCycle on⟩
    · exact .inr ⟨_, _, rfl, offCycle on⟩
  · obtain ⟨other, otherComplete, same⟩ :=
      trail.exists_complete_of_ends (fun repeated => not_exists.mp closes repeated) passed
    exact .inl (by rw [answered, findTopLevel_eq_outcome otherComplete, same])

/-- Searches from keys with the same parent end alike. -/
theorem sameUpToBlame_of_common_owner {owner : Key}
    (found : world.parentOf kinds first = .ok (some owner))
    (foundAgain : world.parentOf kinds second = .ok (some owner)) :
    SameUpToBlame (world.findTopLevel kinds (some first))
      (world.findTopLevel kinds (some second)) := by
  rcases sameUpToBlame_of_owner found with same | ⟨key, blamed, cycle, ownerCycle⟩ <;>
    rcases sameUpToBlame_of_owner foundAgain with
      sameAgain | ⟨other, otherBlamed, otherCycle, ownerCycleAgain⟩
  · exact .inl (same.trans sameAgain.symm)
  · exact .inr ⟨_, _, same.trans ownerCycleAgain, otherCycle⟩
  · exact .inr ⟨_, _, cycle, sameAgain.trans ownerCycle⟩
  · exact .inr ⟨_, _, cycle, otherCycle⟩

section Trails

variable {trail : Trail (world.parentOf kinds) first} {key other : Key}

/-- A key that has its parent on the trail shares it with all keys of its object. -/
theorem parentOf_eq_of_mem_dropLast (member : key ∈ trail.keys.dropLast)
    (same : key.SameObject kinds other) :
    world.parentOf kinds key = world.parentOf kinds other := by
  obtain ⟨owner, _, found⟩ := Trail.exists_owner_of_mem_dropLast member
  rcases parentOf_of_sameObject same with ⟨common, left, right⟩ | ⟨fault, _, failed, _⟩
  · exact left.trans right.symm
  · cases found.symm.trans failed

/-- Among the keys of a trail in front of the last, no object is met twice. -/
theorem pairwise_dropLast (trail : Trail (world.parentOf kinds) first) :
    trail.keys.dropLast.Pairwise fun key other => ¬ key.SameObject kinds other := by
  refine (List.pairwise_map.mp trail.nodup_map_parent_dropLast).imp_of_mem ?_
  intro key other member _ different same
  exact different (parentOf_eq_of_mem_dropLast member same)

/-- A search whose last key stands for the object of an earlier one blames the
parent of the latter, of which there is only one. -/
theorem findTopLevel_of_sameObject_last (complete : trail.Complete)
    (member : key ∈ trail.keys.dropLast) (same : key.SameObject kinds trail.last) :
    (∀ other ∈ trail.keys.dropLast, other.SameObject kinds trail.last → other = key) ∧
      ∃ owner, world.parentOf kinds key = .ok (some owner) ∧
        world.findTopLevel kinds (some first) = .error (.cycleDetected owner) := by
  have sameParent := parentOf_eq_of_mem_dropLast member same
  constructor
  · intro other otherMember otherSame
    refine List.inj_on_of_nodup_map trail.nodup_map_parent_dropLast otherMember member ?_
    exact (parentOf_eq_of_mem_dropLast otherMember otherSame).trans sameParent.symm
  · obtain ⟨owner, _, found⟩ := Trail.exists_owner_of_mem_dropLast member
    refine ⟨owner, found, ?_⟩
    rw [findTopLevel_eq_outcome complete, Trail.outcome_of_owner (sameParent.symm.trans found)]

end Trails

/-- Telling API versions apart costs a search at most one key.  Keys of the same
object have the same parent or fail alike.  The keys that a search resolves stand
for different objects, except that the last may stand for the object of a single
earlier one; then the parent of that key is blamed for a cycle.  And searches
from keys of the same object find the same root, or their starts to be roots, or
end with the same fault, or with the faults of their starts, or with cycles. -/
theorem sameObject_searches (world : World) (kinds : KindSet) :
    (∀ first second : Key, first.SameObject kinds second →
      (∃ owner, world.parentOf kinds first = .ok owner ∧
        world.parentOf kinds second = .ok owner) ∨
      ∃ fault other, world.parentOf kinds first = .error fault ∧
        world.parentOf kinds second = .error other ∧ fault.Alike other) ∧
    (∀ start, ∃ trail : Trail (world.parentOf kinds) start,
      trail.Complete ∧
      trail.keys = (world.resolved kinds start).reverse ∧
      (trail.keys.dropLast.Pairwise fun key other => ¬ key.SameObject kinds other) ∧
      ∀ earlier ∈ trail.keys.dropLast, earlier.SameObject kinds trail.last →
        (∀ other ∈ trail.keys.dropLast, other.SameObject kinds trail.last → other = earlier) ∧
        ∃ owner, world.parentOf kinds earlier = .ok (some owner) ∧
          world.findTopLevel kinds (some start) = .error (.cycleDetected owner)) ∧
    ∀ first second : Key, first.SameObject kinds second →
      (∃ root, world.findTopLevel kinds (some first) = .ok (some root) ∧
        world.findTopLevel kinds (some second) = .ok (some root)) ∨
      (world.findTopLevel kinds (some first) = .ok (some first) ∧
        world.findTopLevel kinds (some second) = .ok (some second)) ∨
      (∃ fault, fault.Acyclic ∧ world.findTopLevel kinds (some first) = .error fault ∧
        world.findTopLevel kinds (some second) = .error fault) ∨
      (∃ fault other, fault.Alike other ∧ fault.Acyclic ∧ other.Acyclic ∧
        world.parentOf kinds first = .error fault ∧ world.parentOf kinds second = .error other ∧
        world.findTopLevel kinds (some first) = .error fault ∧
        world.findTopLevel kinds (some second) = .error other) ∨
      ∃ key other, world.findTopLevel kinds (some first) = .error (.cycleDetected key) ∧
        world.findTopLevel kinds (some second) = .error (.cycleDetected other) := by
  refine ⟨fun first second same => parentOf_of_sameObject same, ?_, ?_⟩
  · intro start
    obtain ⟨trail, complete, passed, _⟩ := exists_complete_trail world kinds start
    refine ⟨trail, complete, passed, pairwise_dropLast trail, ?_⟩
    intro earlier member same
    exact findTopLevel_of_sameObject_last complete member same
  · intro first second same
    rcases parentOf_of_sameObject same with
      ⟨owner, left, right⟩ | ⟨fault, other, left, right, alike⟩
    · cases owner with
      | none => exact .inr (.inl ⟨findTopLevel_of_root left, findTopLevel_of_root right⟩)
      | some owner =>
          rcases sameUpToBlame_of_common_owner left right with agree | cycles
          · rw [← agree]
            rcases world.findTopLevel_cases kinds first with
              ⟨root, found⟩ | ⟨fault, acyclic, found⟩ | ⟨key, found⟩
            · exact .inl ⟨root, found, found⟩
            · exact .inr (.inr (.inl ⟨fault, acyclic, found, found⟩))
            · exact .inr (.inr (.inr (.inr ⟨key, key, found, found⟩)))
          · exact .inr (.inr (.inr (.inr cycles)))
    · exact .inr (.inr (.inr (.inl ⟨fault, other, alike, acyclic_of_parentOf left,
        acyclic_of_parentOf right, left, right, findTopLevel_of_fault left,
        findTopLevel_of_fault right⟩)))

/-- A world in which a replica set is its own controlling owner, but under another
API version. -/
def renamed : World :=
  ⟨[⟨.replicaSet, "team", "web", .ok ⟨.replicaSet,
      [⟨"extensions/v1beta1", "ReplicaSet", "web", "", some true⟩]⟩⟩],
    .error .discoveryPending, []⟩

def renamedKey : Key :=
  ⟨"team", "ReplicaSet", "web", "extensions/v1beta1"⟩

theorem sameObject_searches_renamed :
    (replicaKey "web").SameObject .full renamedKey ∧
      renamed.resolved .full (replicaKey "web") = [renamedKey, replicaKey "web"] ∧
      renamed.findTopLevel .full (some (replicaKey "web")) =
        .error (.cycleDetected renamedKey) := by
  have same : (replicaKey "web").SameObject .full renamedKey :=
    ⟨rfl, rfl, rfl, .inl ⟨.replicaSet, rfl, rfl⟩⟩
  have onTheWay : renamed.resolved .full (replicaKey "web") = [renamedKey, replicaKey "web"] := by
    decide +kernel
  obtain ⟨_, resolved, _⟩ := sameObject_searches renamed .full
  obtain ⟨trail, _, passed, _, blamed⟩ := resolved (replicaKey "web")
  have split : trail.keys = [replicaKey "web"] ++ [renamedKey] := by
    rw [passed, onTheWay]
    rfl
  have member : replicaKey "web" ∈ trail.keys.dropLast := by simp [split]
  rw [Trail.last_of_concat split] at blamed
  obtain ⟨_, owner, found, cycle⟩ := blamed (replicaKey "web") member same
  have ownKey : renamed.parentOf .full (replicaKey "web") = .ok (some renamedKey) := by
    decide +kernel
  rw [Trail.owner_unique found ownKey] at cycle
  exact ⟨same, onTheWay, cycle⟩

end World

end Lineage
