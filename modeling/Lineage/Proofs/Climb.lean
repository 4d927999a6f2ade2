import Lineage.Ascent
import Mathlib.Data.Finset.Card
import Mathlib.Data.List.Nodup

/-!
# The hops of an ascent

An ascent is a loop: it looks up the parent of the key on which it stands and
then ends or moves on.  `Climbs` lists its hops one by one, so that what one hop
preserves holds of the whole ascent by induction on them.

This file proves what holds whatever the lookups answer, and even if they answer
differently each time: no key is visited twice, the key that an ascent names at
its end has been visited, the keys visited are exactly those that were looked
up, and an ascent that has ended is not changed by a larger number of hops.
-/

namespace Lineage

namespace Ascent

variable {σ : Type} {parent : Key → StateM σ (Except Fault (Option Key))}

section Hops

variable {hops : Nat} {visited : List Key} {current : Key} {state final : σ}

theorem climb_failed {fault : Fault} (answer : parent current state = (.error fault, final)) :
    climb parent (hops + 1) visited current state =
      (⟨current :: visited, .failed fault⟩, final) := by
  simp only [climb, bind, StateT.bind, answer]
  rfl

theorem climb_root (answer : parent current state = (.ok none, final)) :
    climb parent (hops + 1) visited current state =
      (⟨current :: visited, .root current⟩, final) := by
  simp only [climb, bind, StateT.bind, answer]
  rfl

theorem climb_cycle {owner : Key} (answer : parent current state = (.ok (some owner), final))
    (known : owner ∈ current :: visited) :
    climb parent (hops + 1) visited current state =
      (⟨current :: visited, .cycle owner⟩, final) := by
  simp only [climb, bind, StateT.bind, answer, if_pos known]
  rfl

theorem climb_hop {owner : Key} (answer : parent current state = (.ok (some owner), final))
    (fresh : owner ∉ current :: visited) :
    climb parent (hops + 1) visited current state =
      climb parent hops (current :: visited) owner final := by
  simp only [climb, bind, StateT.bind, answer, if_neg fresh]

end Hops

/-- Looks up parents and lists the keys that were looked up, the latest first. -/
def listing (parent : Key → StateM σ (Except Fault (Option Key))) :
    Key → StateM (List Key × σ) (Except Fault (Option Key)) :=
  fun key (keys, state) =>
    let (answer, state) := parent key state
    (answer, (key :: keys, state))

theorem listing_of_answer {key : Key} {keys : List Key} {state next : σ}
    {reply : Except Fault (Option Key)} (answer : parent key state = (reply, next)) :
    listing parent key (keys, state) = (reply, (key :: keys, next)) := by
  simp [listing, answer]

/-- What lookups of parents preserve: from a key and a state of the given sorts
they lead to a state of that sort and to an owner of that sort, or fail with a
fault of the given sort. -/
structure Preserves (parent : Key → StateM σ (Except Fault (Option Key)))
    (keys : Key → Prop) (faults : Fault → Prop) (states : σ → Prop) : Prop where
  state : ∀ key state, keys key → states state → states (parent key state).2
  owner : ∀ key state, keys key → states state →
    ∀ owner, (parent key state).1 = .ok (some owner) → keys owner
  fault : ∀ key state, keys key → states state →
    ∀ fault, (parent key state).1 = .error fault → faults fault

namespace Preserves

variable {keys : Key → Prop} {faults : Fault → Prop} {states : σ → Prop}
  {key : Key} {state next : σ}

theorem state_of_answer (preserves : Preserves parent keys faults states)
    (member : keys key) (begun : states state) {reply : Except Fault (Option Key)}
    (answer : parent key state = (reply, next)) : states next := by
  have kept := preserves.state key state member begun
  rwa [answer] at kept

theorem owner_of_answer (preserves : Preserves parent keys faults states)
    (member : keys key) (begun : states state) {owner : Key}
    (answer : parent key state = (.ok (some owner), next)) : keys owner :=
  preserves.owner key state member begun owner (by rw [answer])

theorem fault_of_answer (preserves : Preserves parent keys faults states)
    (member : keys key) (begun : states state) {fault : Fault}
    (answer : parent key state = (.error fault, next)) : faults fault :=
  preserves.fault key state member begun fault (by rw [answer])

end Preserves

/-- The runs of an ascent: one rule for each way in which a lookup ends it, one
for a hop to a new key, and one for an ascent that may make no hop any more. -/
inductive Climbs (parent : Key → StateM σ (Except Fault (Option Key))) :
    Nat → List Key → Key → σ → Ascent → σ → Prop
  | exhausted {visited : List Key} {current : Key} {state : σ} :
      Climbs parent 0 visited current state ⟨visited, .unfinished⟩ state
  | failed {hops : Nat} {visited : List Key} {current : Key} {state final : σ} {fault : Fault}
      (answer : parent current state = (.error fault, final)) :
      Climbs parent (hops + 1) visited current state ⟨current :: visited, .failed fault⟩ final
  | root {hops : Nat} {visited : List Key} {current : Key} {state final : σ}
      (answer : parent current state = (.ok none, final)) :
      Climbs parent (hops + 1) visited current state ⟨current :: visited, .root current⟩ final
  | cycle {hops : Nat} {visited : List Key} {current owner : Key} {state final : σ}
      (answer : parent current state = (.ok (some owner), final))
      (known : owner ∈ current :: visited) :
      Climbs parent (hops + 1) visited current state ⟨current :: visited, .cycle owner⟩ final
  | hop {hops : Nat} {visited : List Key} {current owner : Key} {state next final : σ}
      {ascent : Ascent}
      (answer : parent current state = (.ok (some owner), next))
      (fresh : owner ∉ current :: visited)
      (rest : Climbs parent hops (current :: visited) owner next ascent final) :
      Climbs parent (hops + 1) visited current state ascent final

/-- Every ascent is a run. -/
theorem climbs_climb (parent : Key → StateM σ (Except Fault (Option Key))) (hops : Nat)
    (visited : List Key) (current : Key) (state : σ) :
    Climbs parent hops visited current state
      (climb parent hops visited current state).1
      (climb parent hops visited current state).2 := by
  induction hops generalizing visited current state with
  | zero => exact .exhausted
  | succ hops ih =>
      rcases reached : parent current state with ⟨reply, next⟩
      cases reply with
      | error fault =>
          rw [climb_failed reached]
          exact .failed reached
      | ok found =>
          cases found with
          | none =>
              rw [climb_root reached]
              exact .root reached
          | some owner =>
              by_cases known : owner ∈ current :: visited
              · rw [climb_cycle reached known]
                exact .cycle reached known
              · rw [climb_hop reached known]
                exact .hop reached known (ih (current :: visited) owner next)

namespace Climbs

variable {hops : Nat} {visited : List Key} {current : Key} {state final : σ} {ascent : Ascent}

/-- A run tells what the ascent computes, and any number of further hops would
not change it once it has ended. -/
theorem climb_eq (run : Climbs parent hops visited current state ascent final)
    (finished : ascent.ending ≠ .unfinished) (extra : Nat) :
    climb parent (hops + extra) visited current state = (ascent, final) := by
  induction run with
  | exhausted => exact absurd rfl finished
  | failed answer =>
      rw [Nat.add_right_comm]
      exact climb_failed answer
  | root answer =>
      rw [Nat.add_right_comm]
      exact climb_root answer
  | cycle answer known =>
      rw [Nat.add_right_comm]
      exact climb_cycle answer known
  | hop answer fresh rest ih =>
      rw [Nat.add_right_comm, climb_hop answer fresh]
      exact ih finished

/-- The key to which a run moves on has not been visited, so none is visited twice. -/
theorem visited_nodup (run : Climbs parent hops visited current state ascent final)
    (distinct : visited.Nodup) (fresh : current ∉ visited) :
    ascent.visited.Nodup := by
  induction run with
  | exhausted => exact distinct
  | failed answer => exact List.nodup_cons.mpr ⟨fresh, distinct⟩
  | root answer => exact List.nodup_cons.mpr ⟨fresh, distinct⟩
  | cycle answer known => exact List.nodup_cons.mpr ⟨fresh, distinct⟩
  | hop answer unseen rest ih => exact ih (List.nodup_cons.mpr ⟨fresh, distinct⟩) unseen

/-- The root or the repeated key that a run ends with is among the keys visited. -/
theorem ending_mem_visited (run : Climbs parent hops visited current state ascent final)
    {key : Key} (named : ascent.ending = .root key ∨ ascent.ending = .cycle key) :
    key ∈ ascent.visited := by
  induction run with
  | exhausted => simp at named
  | failed answer => simp at named
  | root answer => simp_all
  | cycle answer known => simp_all
  | hop answer fresh rest ih => exact ih named

/-- What lookups preserve holds of all keys that a run visits. -/
theorem forall_visited {keys : Key → Prop} {faults : Fault → Prop} {states : σ → Prop}
    (preserves : Preserves parent keys faults states)
    (run : Climbs parent hops visited current state ascent final)
    (earlier : ∀ key ∈ visited, keys key) (now : keys current) (begun : states state) :
    ∀ key ∈ ascent.visited, keys key := by
  induction run with
  | exhausted => exact earlier
  | failed answer => exact List.forall_mem_cons.mpr ⟨now, earlier⟩
  | root answer => exact List.forall_mem_cons.mpr ⟨now, earlier⟩
  | cycle answer known => exact List.forall_mem_cons.mpr ⟨now, earlier⟩
  | hop answer fresh rest ih =>
      exact ih (List.forall_mem_cons.mpr ⟨now, earlier⟩)
        (preserves.owner_of_answer now begun answer) (preserves.state_of_answer now begun answer)

/-- What lookups preserve holds of the fault that a run ends with. -/
theorem fault_of_failed {keys : Key → Prop} {faults : Fault → Prop} {states : σ → Prop}
    (preserves : Preserves parent keys faults states)
    (run : Climbs parent hops visited current state ascent final)
    (now : keys current) (begun : states state) {fault : Fault}
    (failed : ascent.ending = .failed fault) :
    faults fault := by
  induction run with
  | exhausted => cases failed
  | failed answer =>
      cases failed
      exact preserves.fault_of_answer now begun answer
  | root answer => cases failed
  | cycle answer known => cases failed
  | hop answer fresh rest ih =>
      exact ih (preserves.owner_of_answer now begun answer)
        (preserves.state_of_answer now begun answer) failed

/-- What lookups preserve holds of the state in which a run ends. -/
theorem final_of_preserves {keys : Key → Prop} {faults : Fault → Prop} {states : σ → Prop}
    (preserves : Preserves parent keys faults states)
    (run : Climbs parent hops visited current state ascent final)
    (now : keys current) (begun : states state) :
    states final := by
  induction run with
  | exhausted => exact begun
  | failed answer => exact preserves.state_of_answer now begun answer
  | root answer => exact preserves.state_of_answer now begun answer
  | cycle answer known => exact preserves.state_of_answer now begun answer
  | hop answer fresh rest ih =>
      exact ih (preserves.owner_of_answer now begun answer)
        (preserves.state_of_answer now begun answer)

/-- A run that is cut short has visited one key for each hop and stands on a key
that it has not visited. -/
theorem next_of_unfinished {keys : Key → Prop} {faults : Fault → Prop} {states : σ → Prop}
    (preserves : Preserves parent keys faults states)
    (run : Climbs parent hops visited current state ascent final)
    (unvisited : current ∉ visited) (now : keys current) (begun : states state)
    (unfinished : ascent.ending = .unfinished) :
    ascent.visited.length = visited.length + hops ∧
      ∃ next, next ∉ ascent.visited ∧ keys next := by
  induction run with
  | exhausted => exact ⟨rfl, _, unvisited, now⟩
  | failed answer => cases unfinished
  | root answer => cases unfinished
  | cycle answer known => cases unfinished
  | hop answer fresh rest ih =>
      obtain ⟨restLength, next⟩ := ih fresh (preserves.owner_of_answer now begun answer)
        (preserves.state_of_answer now begun answer) unfinished
      refine ⟨?_, next⟩
      rw [List.length_cons] at restLength
      omega

/-- Where only finitely many keys can be met, the number of those that a run from
the first of them visits is bounded, and fewer hops than keys cannot be exhausted. -/
theorem bounded {keys : Finset Key} {faults : Fault → Prop} {states : σ → Prop}
    (preserves : Preserves parent (· ∈ keys) faults states)
    (run : Climbs parent hops [] current state ascent final)
    (now : current ∈ keys) (begun : states state) :
    ascent.visited.length ≤ keys.card ∧
      (keys.card ≤ hops → ascent.ending ≠ .unfinished) := by
  have distinct : ascent.visited.Nodup := run.visited_nodup List.nodup_nil List.not_mem_nil
  have within : ∀ key ∈ ascent.visited, key ∈ keys :=
    run.forall_visited preserves (by simp) now begun
  constructor
  · rw [← List.toFinset_card_of_nodup distinct]
    exact Finset.card_le_card fun key member => within key (List.mem_toFinset.mp member)
  · intro enough unfinished
    obtain ⟨length, next, fresh, nextWithin⟩ :=
      run.next_of_unfinished preserves List.not_mem_nil now begun unfinished
    have longer : (next :: ascent.visited).length ≤ keys.card := by
      rw [← List.toFinset_card_of_nodup (List.nodup_cons.mpr ⟨fresh, distinct⟩)]
      refine Finset.card_le_card fun key member => ?_
      rcases List.mem_cons.mp (List.mem_toFinset.mp member) with rfl | visited
      · exact nextWithin
      · exact within key visited
    simp only [List.length_cons, List.length_nil] at longer length
    omega

/-- The keys visited are those that were looked up, in the same order. -/
theorem climb_listing (run : Climbs parent hops visited current state ascent final) :
    climb (listing parent) hops visited current (visited, state) =
      (ascent, (ascent.visited, final)) := by
  induction run with
  | exhausted => rfl
  | failed answer => exact climb_failed (listing_of_answer answer)
  | root answer => exact climb_root (listing_of_answer answer)
  | cycle answer known => exact climb_cycle (listing_of_answer answer) known
  | hop answer fresh rest ih =>
      rw [climb_hop (listing_of_answer answer) fresh]
      exact ih

end Climbs

end Ascent

end Lineage
