import Lineage.Proofs.Report
import Mathlib.Data.Finset.Image

/-!
# The number of hops of an ascent

A cluster that can report only finitely many controlling owners ends every
ascent, however its answers change from one question to the next.  The measure
is the number of keys that have not been visited yet: an ascent stays in the
namespace in which it starts, so besides its start it only meets the keys of
these owners there, and it meets none of them twice.
-/

namespace Lineage

namespace Cluster

variable {σ : Type} {cluster : Cluster σ} {origin : σ}

/-- The keys whose parents are looked up in an ascent, the latest first. -/
def lookups (cluster : Cluster σ) (kinds : KindSet) (hops : Nat) (start : Key) (origin : σ) :
    List Key :=
  (Ascent.climb (Ascent.listing (cluster.parentOf kinds)) hops [] start ([], origin)).2.1

theorem lookups_eq_visited (cluster : Cluster σ) (kinds : KindSet) (hops : Nat) (start : Key)
    (origin : σ) :
    cluster.lookups kinds hops start origin =
      (cluster.ascend kinds hops start origin).1.visited := by
  have run := Ascent.climbs_climb (cluster.parentOf kinds) hops [] start origin
  rw [lookups, run.climb_listing, ascend]

/-- A key and the keys of the owners of some names in its namespace. -/
def candidates (start : Key) (names : Finset (String × String × String)) : Finset Key :=
  insert start (names.image fun (apiVersion, kind, name) =>
    { ns := start.ns, kind, name, apiVersion })

theorem card_candidates_le (start : Key) (names : Finset (String × String × String)) :
    (candidates start names).card ≤ names.card + 1 :=
  calc
    (candidates start names).card ≤ (names.image _).card + 1 := Finset.card_insert_le _ _
    _ ≤ names.card + 1 := Nat.add_le_add_right Finset.card_image_le 1

theorem start_mem_candidates (start : Key) (names : Finset (String × String × String)) :
    start ∈ candidates start names :=
  Finset.mem_insert_self _ _

theorem ns_of_mem_candidates {start key : Key} {names : Finset (String × String × String)}
    (member : key ∈ candidates start names) : key.ns = start.ns := by
  rcases Finset.mem_insert.mp member with rfl | owned
  · rfl
  · obtain ⟨_, _, rfl⟩ := Finset.mem_image.mp owned
    rfl

theorem owner_key_mem_candidates {start : Key} {names : Finset (String × String × String)}
    {owner : Owner} (member : owner.identity ∈ names) :
    owner.key start.ns ∈ candidates start names :=
  Finset.mem_insert_of_mem (Finset.mem_image.mpr ⟨owner.identity, member, rfl⟩)

/-- Lookups of parents stay among the keys of the owners that can be reported. -/
theorem parentOf_preserves (cluster : Cluster σ) (kinds : KindSet) (origin : σ) (start : Key)
    {names : Finset (String × String × String)}
    (reported : ∀ owner, cluster.Reports origin owner → owner.controls → owner.identity ∈ names) :
    Ascent.Preserves (cluster.parentOf kinds) (· ∈ candidates start names)
      (fun fault => ∀ key, fault ≠ .cycleDetected key) (cluster.Reaches origin) where
  state key state _ reached := (cluster.parentOf_yields kinds key reached).reached
  owner key state member reached parent found := by
    obtain ⟨owner, source, controls, rfl⟩ :=
      (cluster.parentOf_yields kinds key reached).parent parent found
    rw [ns_of_mem_candidates member]
    exact owner_key_mem_candidates (reported owner source controls)
  fault key state _ reached := (cluster.parentOf_yields kinds key reached).fault

theorem findTopLevel_some (cluster : Cluster σ) (kinds : KindSet) (hops : Nat) (start : Key)
    (state : σ) :
    cluster.findTopLevel kinds hops (some start) state =
      ((cluster.ascend kinds hops start state).1.answer,
        (cluster.ascend kinds hops start state).2) :=
  rfl

/-- The run of an ascent, which ends within the number of hops that the names of
the owners allow. -/
theorem exists_finished_run (cluster : Cluster σ) (kinds : KindSet) (origin : σ) (start : Key)
    {names : Finset (String × String × String)}
    (reported : ∀ owner, cluster.Reports origin owner → owner.controls → owner.identity ∈ names) :
    ∃ (ascent : Ascent) (final : σ),
      Ascent.Climbs (cluster.parentOf kinds) (names.card + 1) [] start origin ascent final ∧
      ascent.ending ≠ .unfinished ∧
      ascent.visited.length ≤ names.card + 1 := by
  have run := Ascent.climbs_climb (cluster.parentOf kinds) (names.card + 1) [] start origin
  obtain ⟨length, finishes⟩ := run.bounded (cluster.parentOf_preserves kinds origin start reported)
    (start_mem_candidates start names) .origin
  have few := card_candidates_le start names
  exact ⟨_, _, run, finishes few, length.trans few⟩

/-- The key that an answer names is the key that the ascent ended with. -/
theorem ending_of_answer {ascent : Ascent} {key : Key}
    (lookup : ∀ fault, ascent.ending = .failed fault → ∀ other, fault ≠ .cycleDetected other)
    (named : ascent.answer = .ok (some key) ∨ ascent.answer = .error (.cycleDetected key)) :
    ascent.ending = .root key ∨ ascent.ending = .cycle key := by
  cases ending : ascent.ending with
  | root other => simp_all [Ascent.answer]
  | failed fault =>
      have notCycle := lookup fault ending key
      simp_all [Ascent.answer]
  | cycle other => simp_all [Ascent.answer]
  | unfinished => simp_all [Ascent.answer]

/-- If the controlling owners that a cluster can ever report have finitely many
names, an ascent ends after at most one lookup for every name and one for its
start.  It looks up pairwise distinct keys of the namespace of its start, and
the root or the repeated key that it answers is one of them. -/
theorem findTopLevel_hop_bound (cluster : Cluster σ) (kinds : KindSet) (origin : σ) (start : Key)
    (names : Finset (String × String × String))
    (reported : ∀ owner, cluster.Reports origin owner → owner.controls → owner.identity ∈ names) :
    ∃ (ascent : Ascent) (final : σ),
      ascent.ending ≠ .unfinished ∧
      (∀ hops, names.card + 1 ≤ hops →
        cluster.findTopLevel kinds hops (some start) origin = (ascent.answer, final) ∧
        cluster.lookups kinds hops start origin = ascent.visited) ∧
      ascent.visited.length ≤ names.card + 1 ∧
      ascent.visited.Nodup ∧
      (∀ key ∈ ascent.visited, key.ns = start.ns) ∧
      ∀ key, ascent.answer = .ok (some key) ∨ ascent.answer = .error (.cycleDetected key) →
        key ∈ ascent.visited := by
  have preserves := cluster.parentOf_preserves kinds origin start reported
  have startMember := start_mem_candidates start names
  obtain ⟨ascent, final, run, finished, length⟩ :=
    cluster.exists_finished_run kinds origin start reported
  refine ⟨ascent, final, finished, ?_, length,
    run.visited_nodup List.nodup_nil List.not_mem_nil, ?_, ?_⟩
  · intro hops enough
    obtain ⟨extra, rfl⟩ := Nat.exists_eq_add_of_le enough
    have computed : cluster.ascend kinds (names.card + 1 + extra) start origin = (ascent, final) :=
      run.climb_eq finished extra
    rw [findTopLevel_some, lookups_eq_visited, computed]
    exact ⟨rfl, rfl⟩
  · intro key member
    exact ns_of_mem_candidates
      (run.forall_visited preserves (by simp) startMember .origin key member)
  · intro key named
    exact run.ending_mem_visited (ending_of_answer
      (fun fault failed => run.fault_of_failed preserves startMember .origin failed) named)

/-- A cluster that names one owner of every stored object at every other question
and another owner in between. -/
def wavering : Cluster Nat where
  cached kind _ _ := fun count =>
    let ownerKind := if count % 2 = 0 then "ReplicaSet" else "Deployment"
    (.ok (some ⟨kind, [⟨"apps/v1", ownerKind, "web", "", some true⟩]⟩), count + 1)
  mapped _ _ := fun count => (.error .discoveryPending, count + 1)
  scaled _ _ _ := fun count => (.ok [], count + 1)

def waveringNames : Finset (String × String × String) :=
  {("apps/v1", "ReplicaSet", "web"), ("apps/v1", "Deployment", "web")}

theorem identity_mem_waveringNames {owner : Owner} (reported : wavering.Reports 0 owner) :
    owner.identity ∈ waveringNames := by
  cases reported with
  | @cached count kind ns name workload _ reached answer member =>
      cases answer
      rw [List.mem_singleton.mp member]
      by_cases even : count % 2 = 0 <;> simp [Owner.identity, waveringNames, even]
  | scaled reached answer member =>
      cases answer
      cases member

theorem findTopLevel_hop_bound_wavering :
    (∀ owner, wavering.Reports 0 owner → owner.controls → owner.identity ∈ waveringNames) ∧
      ∃ (ascent : Ascent) (final : Nat),
        ascent.ending ≠ .unfinished ∧ ascent.visited.length ≤ 3 ∧
          ∀ hops, 3 ≤ hops →
            wavering.findTopLevel .full hops
              (some ⟨"team", "ReplicaSet", "web", "extensions/v1"⟩) 0 = (ascent.answer, final) := by
  have reported : ∀ owner, wavering.Reports 0 owner → owner.controls →
      owner.identity ∈ waveringNames :=
    fun owner source _ => identity_mem_waveringNames source
  have card : waveringNames.card = 2 := by decide
  obtain ⟨ascent, final, finished, computed, length, _⟩ :=
    findTopLevel_hop_bound wavering .full 0 ⟨"team", "ReplicaSet", "web", "extensions/v1"⟩
      waveringNames reported
  rw [card] at computed length
  exact ⟨reported, ascent, final, finished, length, fun hops enough => (computed hops enough).1⟩

end Cluster

end Lineage
