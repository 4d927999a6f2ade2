import Lineage.Proofs.Parent

/-!
# Parents through scales

A key whose object is in no store gets its parent from a scale.  The mappings of
its group and kind are candidates, and their scales are requested in order until
one is available.  The cluster may answer differently each time, so what happens
is told together with the states that it passes through: which questions are
asked, with which answer, and in which state the cluster is left.

The rules below say what may happen to a lookup.  Exactly one of them applies, so
they describe the lookup completely: no candidate is requested twice, none behind
the first available scale is requested at all, and the owners of that scale are
final even if none of them is in control.
-/

namespace Lineage

namespace Cluster

variable {σ : Type}

/-- The scales of some mappings are requested in order and none is available. -/
inductive Refuses (cluster : Cluster σ) (ns name : String) :
    List Mapping → List Cause → σ → σ → Prop
  | nil (state : σ) : Refuses cluster ns name [] [] state state
  | cons {mapping : Mapping} {others : List Mapping} {cause : Cause} {causes : List Cause}
      {state next final : σ} (answer : cluster.scaled mapping ns name state = (.error cause, next))
      (rest : Refuses cluster ns name others causes next final) :
      Refuses cluster ns name (mapping :: others) (cause :: causes) state final

/-- What a lookup of the parent of a key answers, what it asks, and the state in
which it leaves the cluster. -/
inductive Serves (cluster : Cluster σ) (key : Key) (state : σ) :
    Except Fault (Option Key) → List Call → σ → Prop
  | malformed (unread : GroupVersion.parse key.apiVersion = none) :
      Serves cluster key state (.error (.malformed key.apiVersion)) [] state
  | unmapped {groupVersion : GroupVersion} {cause : Cause} {final : σ}
      (read : GroupVersion.parse key.apiVersion = some groupVersion)
      (failed : cluster.mapped groupVersion.group key.kind state = (.error cause, final)) :
      Serves cluster key state
        (.error (.scaleUnavailable key.apiVersion key.kind key.name cause))
        [.mapped groupVersion.group key.kind] final
  | unmatched {groupVersion : GroupVersion} {final : σ}
      (read : GroupVersion.parse key.apiVersion = some groupVersion)
      (matched : cluster.mapped groupVersion.group key.kind state = (.ok [], final)) :
      Serves cluster key state
        (.error (.scaleUnavailable key.apiVersion key.kind key.name
          (.noMapping groupVersion.group key.kind)))
        [.mapped groupVersion.group key.kind] final
  | available {groupVersion : GroupVersion} {earlier later : List Mapping} {mapping : Mapping}
      {causes : List Cause} {owners : List Owner} {next middle final : σ}
      (read : GroupVersion.parse key.apiVersion = some groupVersion)
      (matched : cluster.mapped groupVersion.group key.kind state =
        (.ok (earlier ++ mapping :: later), next))
      (refused : cluster.Refuses key.ns key.name earlier causes next middle)
      (answer : cluster.scaled mapping key.ns key.name middle = (.ok owners, final)) :
      Serves cluster key state (.ok (Owner.controlling owners key.ns))
        (.mapped groupVersion.group key.kind ::
          (earlier ++ [mapping]).map fun tried => .scaled tried key.ns key.name) final
  | unavailable {groupVersion : GroupVersion} {mappings : List Mapping} {causes : List Cause}
      {last : Cause} {next final : σ}
      (read : GroupVersion.parse key.apiVersion = some groupVersion)
      (matched : cluster.mapped groupVersion.group key.kind state = (.ok mappings, next))
      (refused : cluster.Refuses key.ns key.name mappings (causes ++ [last]) next final) :
      Serves cluster key state (.error (.scaleUnavailable key.apiVersion key.kind key.name last))
        (.mapped groupVersion.group key.kind ::
          mappings.map fun tried => .scaled tried key.ns key.name) final

section Candidates

variable {cluster : Cluster σ} {ns name : String} {mappings : List Mapping}
  {causes : List Cause} {state final : σ}

theorem Refuses.length_eq (refused : cluster.Refuses ns name mappings causes state final) :
    causes.length = mappings.length := by
  induction refused with
  | nil => rfl
  | cons answer rest ih => rw [List.length_cons, List.length_cons, ih]

/-- Candidates that refuse are passed over, and the cause of the last of them is
kept. -/
theorem Refuses.firstScale (refused : cluster.Refuses ns name mappings causes state final)
    (last : Cause) (others : List Mapping) :
    cluster.firstScale ns name last (mappings ++ others) state =
      cluster.firstScale ns name (causes.getLastD last) others final := by
  induction refused generalizing last with
  | nil => rfl
  | cons answer rest ih =>
      rw [List.cons_append, firstScale_failed answer, ih]
      simp only [List.getLastD_cons]

/-- A record notes every candidate once. -/
theorem Refuses.recorded (refused : cluster.Refuses ns name mappings causes state final)
    (record : List Call) :
    cluster.recorded.Refuses ns name mappings causes (record, state)
      ((mappings.map fun tried => Call.scaled tried ns name).reverse ++ record, final) := by
  induction refused generalizing record with
  | nil state => exact .nil (record, state)
  | cons answer rest ih =>
      rename_i mapping others cause causes state next final
      have noted : cluster.recorded.scaled mapping ns name (record, state) =
          (.error cause, (.scaled mapping ns name :: record, next)) := by
        simp only [Cluster.recorded, noting, answer]
      simpa using Refuses.cons noted (ih (.scaled mapping ns name :: record))

/-- Either some candidate is the first whose scale is available, or all refuse. -/
theorem exists_available_or_refuses (cluster : Cluster σ) (ns name : String)
    (mappings : List Mapping) (state : σ) :
    (∃ earlier mapping later causes owners middle final,
      mappings = earlier ++ mapping :: later ∧
      cluster.Refuses ns name earlier causes state middle ∧
      cluster.scaled mapping ns name middle = (.ok owners, final)) ∨
    ∃ causes final, cluster.Refuses ns name mappings causes state final := by
  induction mappings generalizing state with
  | nil => exact .inr ⟨[], state, .nil state⟩
  | cons mapping others ih =>
      rcases answer : cluster.scaled mapping ns name state with ⟨cause | owners, next⟩
      · rcases ih next with ⟨earlier, first, later, causes, owners, middle, final, rfl, refused,
          found⟩ | ⟨causes, final, refused⟩
        · exact .inl ⟨mapping :: earlier, first, later, cause :: causes, owners, middle, final, rfl,
            .cons answer refused, found⟩
        · exact .inr ⟨cause :: causes, final, .cons answer refused⟩
      · exact .inl ⟨[], mapping, others, [], owners, state, next, rfl, .nil state, answer⟩

end Candidates

section Lookup

variable {cluster : Cluster σ} {key : Key} {state final : σ}
  {answer : Except Fault (Option Key)} {calls : List Call}

/-- What may happen to a lookup does happen. -/
theorem Serves.servedParent_eq (serves : cluster.Serves key state answer calls final) :
    cluster.servedParent key state = (answer, final) := by
  cases serves with
  | malformed unread => exact servedParent_malformed cluster unread state
  | unmapped read failed =>
      rw [Cluster.servedParent_eq cluster read, scaleOwners_unmapped failed]
      rfl
  | unmatched read matched =>
      rw [Cluster.servedParent_eq cluster read, scaleOwners_mapped matched]
      rfl
  | available read matched refused found =>
      rw [Cluster.servedParent_eq cluster read, scaleOwners_mapped matched, refused.firstScale,
        firstScale_found found]
      rfl
  | unavailable read matched refused =>
      rename_i groupVersion mappings causes last next
      have skipped := refused.firstScale (.noMapping groupVersion.group key.kind) []
      rw [List.append_nil, List.getLastD_concat] at skipped
      rw [Cluster.servedParent_eq cluster read, scaleOwners_mapped matched, skipped]
      rfl

/-- A record of the questions does not change what may happen. -/
theorem Serves.recorded (serves : cluster.Serves key state answer calls final)
    (record : List Call) :
    cluster.recorded.Serves key (record, state) answer calls (calls.reverse ++ record, final) := by
  have noted {group : String} {reply : Except Cause (List Mapping)} {next : σ}
      (asked : cluster.mapped group key.kind state = (reply, next)) :
      cluster.recorded.mapped group key.kind (record, state) =
        (reply, (.mapped group key.kind :: record, next)) := by
    simp only [Cluster.recorded, noting, asked]
  cases serves with
  | malformed unread => exact .malformed unread
  | unmapped read failed => exact .unmapped read (noted failed)
  | unmatched read matched => exact .unmatched read (noted matched)
  | available read matched refused found =>
      rename_i groupVersion earlier later mapping causes owners next middle
      have requested : ∀ calls, cluster.recorded.scaled mapping key.ns key.name (calls, middle) =
          (.ok owners, (.scaled mapping key.ns key.name :: calls, final)) := by
        intro calls
        simp only [Cluster.recorded, noting, found]
      have available := Serves.available read (noted matched) (refused.recorded _) (requested _)
      simpa using available
  | unavailable read matched refused =>
      have unavailable := Serves.unavailable read (noted matched) (refused.recorded _)
      simpa using unavailable

/-- Something may happen to every lookup. -/
theorem exists_serves (cluster : Cluster σ) (key : Key) (state : σ) :
    ∃ answer calls final, cluster.Serves key state answer calls final := by
  cases read : GroupVersion.parse key.apiVersion with
  | none => exact ⟨_, _, _, .malformed read⟩
  | some groupVersion =>
      rcases matched : cluster.mapped groupVersion.group key.kind state with
        ⟨cause | mappings, next⟩
      · exact ⟨_, _, _, .unmapped read matched⟩
      · rcases cluster.exists_available_or_refuses key.ns key.name mappings next with
          ⟨earlier, mapping, later, causes, owners, middle, final, rfl, refused, found⟩ |
          ⟨causes, final, refused⟩
        · exact ⟨_, _, _, .available read matched refused found⟩
        · rcases List.eq_nil_or_concat causes with rfl | ⟨earlier, last, rfl⟩
          · have void := List.eq_nil_of_length_eq_zero refused.length_eq.symm
            exact ⟨_, _, _, .unmatched read (void ▸ matched)⟩
          · rw [List.concat_eq_append] at refused
            exact ⟨_, _, _, .unavailable read matched refused⟩

/-- A lookup that finds no scale names the key that was looked up. -/
theorem Serves.names_key (serves : cluster.Serves key state answer calls final)
    {apiVersion kind name : String} {source : Cause}
    (failed : answer = .error (.scaleUnavailable apiVersion kind name source)) :
    apiVersion = key.apiVersion ∧ kind = key.kind ∧ name = key.name := by
  cases serves <;> cases failed <;> exact ⟨rfl, rfl, rfl⟩

end Lookup

/-- The lookup of a parent through scales answers, asks and leaves behind exactly
what the rules say, and a fault about scales names the key. -/
theorem servedParent_iff_serves (cluster : Cluster σ) (key : Key) (state : σ) :
    ∃ answer calls final,
      cluster.servedParent key state = (answer, final) ∧
      cluster.recorded.servedParent key ([], state) = (answer, (calls.reverse, final)) ∧
      (∀ answer' calls' final', cluster.Serves key state answer' calls' final' ↔
        answer' = answer ∧ calls' = calls ∧ final' = final) ∧
      ∀ apiVersion kind name source,
        answer = .error (.scaleUnavailable apiVersion kind name source) →
          apiVersion = key.apiVersion ∧ kind = key.kind ∧ name = key.name := by
  obtain ⟨answer, calls, final, serves⟩ := cluster.exists_serves key state
  have run {answer' : Except Fault (Option Key)} {calls' : List Call} {final' : σ}
      (serves : cluster.Serves key state answer' calls' final') :
      cluster.recorded.servedParent key ([], state) = (answer', (calls'.reverse, final')) := by
    simpa using (serves.recorded []).servedParent_eq
  refine ⟨answer, calls, final, serves.servedParent_eq, run serves, ?_, ?_⟩
  · intro answer' calls' final'
    constructor
    · intro other
      have same : (answer', (calls'.reverse, final')) = (answer, (calls.reverse, final)) :=
        (run other).symm.trans (run serves)
      simpa only [Prod.mk.injEq, List.reverse_inj] using same
    · rintro ⟨rfl, rfl, rfl⟩
      exact serves
  · intro apiVersion kind name source failed
    exact serves.names_key failed

end Cluster

end Lineage
