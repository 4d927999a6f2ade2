import Lineage.Discovery.Survey
import Lineage.Proofs.Index

/-!
# What one survey commits

A survey finds the mappings of some groups, fails for others, and does not list
the rest.  The index that it commits answers for a group with what the survey
found, with what was known before where it failed, and with nothing for a group
that it does not list.
-/

namespace Lineage

namespace Index.Tidy

variable {index : Index}

theorem group_of_mem_group (tidy : index.Tidy) {name : String} {mapping : Mapping}
    (member : mapping ∈ index.group name) : mapping.group = name := by
  obtain ⟨bucket, inside, found⟩ := List.mem_flatMap.mp member
  obtain ⟨stored, named⟩ := List.mem_filter.mp inside
  rw [(tidy.owned bucket stored mapping found).1]
  simpa using named

end Index.Tidy

namespace Discovery

variable {σ : Type}

section Commit

variable {previous : Option Index} {outcomes : List GroupOutcome} {index : Index}

/-- The mappings of a group and kind in an index, none without an index. -/
def known (index? : Option Index) (group kind : String) : List Mapping :=
  match index? with
  | some index => index.lookup group kind
  | none => []

/-- A successful outcome finds mappings of its own group only. -/
def Owned (outcomes : List GroupOutcome) : Prop :=
  ∀ outcome ∈ outcomes, ∀ found, outcome.found = .ok found →
    ∀ mapping ∈ found, mapping.group = outcome.group

theorem group_of_mem_mappings (tidy : ∀ index, previous = some index → index.Tidy)
    (owned : Owned outcomes) {outcome : GroupOutcome} (member : outcome ∈ outcomes)
    {mapping : Mapping} (inside : mapping ∈ outcome.mappings previous) :
    mapping.group = outcome.group := by
  unfold GroupOutcome.mappings at inside
  split at inside
  · rename_i found succeeded
    exact owned outcome member _ succeeded mapping inside
  · exact (tidy _ rfl).group_of_mem_group inside
  · cases inside

theorem filter_flatMap_of_not_mem {contents : GroupOutcome → List Mapping} {group : String}
    (owned : ∀ outcome ∈ outcomes, ∀ mapping ∈ contents outcome, mapping.group = outcome.group)
    (unlisted : group ∉ outcomes.map GroupOutcome.group) (kind : String) :
    ((outcomes.flatMap contents).filter fun mapping =>
      mapping.group = group ∧ mapping.kind = kind) = [] := by
  rw [List.filter_eq_nil_iff]
  intro mapping member
  obtain ⟨outcome, inside, found⟩ := List.mem_flatMap.mp member
  have other : mapping.group ≠ group := by
    intro same
    rw [owned outcome inside mapping found] at same
    exact unlisted (List.mem_map.mpr ⟨outcome, inside, same⟩)
  simp [other]

/-- Among the mappings of groups with different names, those of one group are
found in its own place only. -/
theorem filter_flatMap_of_mem {contents : GroupOutcome → List Mapping}
    (distinct : (outcomes.map GroupOutcome.group).Nodup)
    (owned : ∀ outcome ∈ outcomes, ∀ mapping ∈ contents outcome, mapping.group = outcome.group)
    {outcome : GroupOutcome} (member : outcome ∈ outcomes) (kind : String) :
    ((outcomes.flatMap contents).filter fun mapping =>
      mapping.group = outcome.group ∧ mapping.kind = kind) =
      (contents outcome).filter fun mapping => mapping.kind = kind := by
  induction outcomes with
  | nil => cases member
  | cons first rest ih =>
      obtain ⟨fresh, restDistinct⟩ := List.nodup_cons.mp distinct
      obtain ⟨firstOwned, restOwned⟩ := List.forall_mem_cons.mp owned
      rw [List.flatMap_cons, List.filter_append]
      rcases List.mem_cons.mp member with rfl | inside
      · rw [filter_flatMap_of_not_mem restOwned fresh kind, List.append_nil]
        exact List.filter_congr fun mapping found => by simp [firstOwned mapping found]
      · have nothing : ((contents first).filter fun mapping =>
            mapping.group = outcome.group ∧ mapping.kind = kind) = [] := by
          rw [List.filter_eq_nil_iff]
          intro mapping found
          have other : first.group ≠ outcome.group := fun same =>
            fresh (List.mem_map.mpr ⟨outcome, inside, same.symm⟩)
          simp [firstOwned mapping found, other]
        rw [nothing, List.nil_append, ih restDistinct restOwned inside]

theorem index_of_commit (committed : commit previous outcomes = .ok index) :
    index = Index.ofList (outcomes.flatMap (GroupOutcome.mappings previous)) := by
  unfold commit at committed
  split at committed
  · cases committed
  · exact (Except.ok.inj committed).symm

theorem isFailed_iff {outcome : GroupOutcome} :
    outcome.isFailed = true ↔ ∀ found, outcome.found ≠ .ok found := by
  unfold GroupOutcome.isFailed
  cases learnt : outcome.found with
  | ok found => simp
  | error fault => simp

theorem commit_fails_iff :
    (∃ fault, commit previous outcomes = .error fault) ↔
      ∀ outcome ∈ outcomes, ∀ found, outcome.found ≠ .ok found := by
  have failed : outcomes.all GroupOutcome.isFailed = true ↔
      ∀ outcome ∈ outcomes, ∀ found, outcome.found ≠ .ok found := by
    simp only [List.all_eq_true, isFailed_iff]
  rw [← failed]
  unfold commit
  split
  · rename_i allFailed
    simp [allFailed]
  · rename_i someFound
    simp [someFound]

/-- A commit answers for a group with what was found, and with what was known
where nothing could be learnt. -/
theorem lookup_of_commit (committed : commit previous outcomes = .ok index)
    (tidy : ∀ index, previous = some index → index.Tidy)
    (distinct : (outcomes.map GroupOutcome.group).Nodup) (owned : Owned outcomes)
    {outcome : GroupOutcome} (member : outcome ∈ outcomes) (kind : String) :
    index.lookup outcome.group kind =
      match outcome.found with
      | .ok found => (found.filter fun mapping => mapping.kind = kind).eraseDups
      | .error _ => known previous outcome.group kind := by
  have selected := filter_flatMap_of_mem distinct
    (fun outcome member mapping inside => group_of_mem_mappings tidy owned member inside)
    member kind
  rw [index_of_commit committed, Index.lookup_ofList, selected]
  cases learnt : outcome.found with
  | ok found => simp only [GroupOutcome.mappings, learnt]
  | error fault =>
      cases previous with
      | none =>
          simp only [GroupOutcome.mappings, learnt, known, List.filter_nil, List.eraseDups_nil]
      | some before =>
          have beforeTidy := tidy before rfl
          simp only [GroupOutcome.mappings, learnt, known]
          rw [beforeTidy.group_filter_kind,
            Index.eraseDups_of_nodup (beforeTidy.lookup_nodup outcome.group kind)]

theorem lookup_of_commit_unlisted (committed : commit previous outcomes = .ok index)
    (tidy : ∀ index, previous = some index → index.Tidy) (owned : Owned outcomes)
    {group : String} (unlisted : group ∉ outcomes.map GroupOutcome.group) (kind : String) :
    index.lookup group kind = [] := by
  have missed := filter_flatMap_of_not_mem
    (fun outcome member mapping inside => group_of_mem_mappings tidy owned member inside)
    unlisted kind
  rw [index_of_commit committed, Index.lookup_ofList, missed]
  rfl

end Commit

section Observation

variable {api : Api σ} {server : σ} {outcomes : List GroupOutcome} {group : String}

def listing (api : Api σ) (server : σ) : Except ClientFault (List GroupEntry) :=
  (api.fetch Catalogue.groups? "/apis" server).1

/-- The outcomes of all groups in a survey, unless the groups cannot be listed. -/
def observed (api : Api σ) (server : σ) : Except ClientFault (List GroupOutcome) :=
  match api.fetch Catalogue.groups? "/apis" server with
  | (.error fault, _) => .error fault
  | (.ok listed, next) => .ok (survey api (surveyed listed) next).1

/-- A survey covers a group: the core group, or one that the server lists. -/
def Lists (api : Api σ) (server : σ) (group : String) : Prop :=
  ∃ listed, listing api server = .ok listed ∧
    (group = coreGroup ∨ ∃ entry ∈ listed, entry.name = group)

def Finds (api : Api σ) (server : σ) (group : String) (found : List Mapping) : Prop :=
  ∃ outcomes, observed api server = .ok outcomes ∧ ⟨group, .ok found⟩ ∈ outcomes

/-- A server lists groups with different names, the core group not among them,
and the resources that it serves under a group belong to this group. -/
structure Orderly (api : Api σ) (server : σ) : Prop where
  distinct : ∀ listed, listing api server = .ok listed → (listed.map GroupEntry.name).Nodup
  unlisted : ∀ listed, listing api server = .ok listed →
    coreGroup ∉ listed.map GroupEntry.name
  owned : ∀ group found, Finds api server group found → ∀ mapping ∈ found, mapping.group = group

/-- A survey makes of what it observes what it can, or fails. -/
theorem refresh_answer (api : Api σ) (previous : Option Index) (server : σ) :
    (refresh api previous server).1 =
      match observed api server with
      | .error fault => .error (.noGroupList fault)
      | .ok outcomes => commit previous outcomes := by
  unfold observed
  rcases fetched : api.fetch Catalogue.groups? "/apis" server with ⟨fault | listed, next⟩
  · simp only [refresh, bind, StateT.bind, fetched]
    rfl
  · simp only [refresh, bind, StateT.bind, fetched]
    rfl

theorem survey_groups (api : Api σ) (entries : List GroupEntry) (server : σ) :
    (survey api entries server).1.map GroupOutcome.group = entries.map GroupEntry.name := by
  induction entries generalizing server with
  | nil => rfl
  | cons entry others ih =>
      rcases queried : Discovery.group api entry server with ⟨found, next⟩
      have rest := ih next
      simp only [survey, bind, StateT.bind, queried]
      rw [List.map_cons, ← rest]
      rfl

theorem observed_error_iff :
    (∃ fault, observed api server = .error fault) ↔
      ∃ fault, listing api server = .error fault := by
  unfold observed listing
  rcases api.fetch Catalogue.groups? "/apis" server with ⟨fault | listed, next⟩
  · simp
  · simp

/-- The outcomes of a survey belong to the core group and to the groups that the
server lists. -/
theorem groups_of_observed (seen : observed api server = .ok outcomes) :
    ∃ listed, listing api server = .ok listed ∧
      outcomes.map GroupOutcome.group = coreGroup :: listed.map GroupEntry.name := by
  unfold observed at seen
  unfold listing
  rcases fetched : api.fetch Catalogue.groups? "/apis" server with ⟨fault | listed, next⟩
  · rw [fetched] at seen
    cases seen
  · rw [fetched] at seen
    refine ⟨listed, rfl, ?_⟩
    rw [← Except.ok.inj seen, survey_groups]
    rfl

theorem lists_iff (seen : observed api server = .ok outcomes) :
    Lists api server group ↔ group ∈ outcomes.map GroupOutcome.group := by
  obtain ⟨listed, read, groups⟩ := groups_of_observed seen
  rw [groups, List.mem_cons, List.mem_map]
  constructor
  · rintro ⟨others, readOthers, member⟩
    rw [read] at readOthers
    rw [Except.ok.inj readOthers]
    exact member
  · intro member
    exact ⟨listed, read, member⟩

theorem finds_iff (seen : observed api server = .ok outcomes) {found : List Mapping} :
    Finds api server group found ↔ ⟨group, .ok found⟩ ∈ outcomes := by
  constructor
  · rintro ⟨others, seenOthers, member⟩
    rw [seen] at seenOthers
    rw [Except.ok.inj seenOthers]
    exact member
  · intro member
    exact ⟨outcomes, seen, member⟩

theorem Orderly.groups_nodup (orderly : Orderly api server)
    (seen : observed api server = .ok outcomes) :
    (outcomes.map GroupOutcome.group).Nodup := by
  obtain ⟨listed, read, groups⟩ := groups_of_observed seen
  rw [groups, List.nodup_cons]
  exact ⟨orderly.unlisted listed read, orderly.distinct listed read⟩

theorem Orderly.owned_outcomes (orderly : Orderly api server)
    (seen : observed api server = .ok outcomes) : Owned outcomes := by
  rintro ⟨group, _⟩ member found rfl
  exact orderly.owned group found ⟨outcomes, seen, member⟩

/-- A survey fails if the groups cannot be listed or every query for a group
fails, and for no other reason. -/
theorem refresh_fails_iff (api : Api σ) (previous : Option Index) (server : σ) :
    (∃ fault, (refresh api previous server).1 = .error fault) ↔
      (∃ fault, listing api server = .error fault) ∨
        ∀ group, Lists api server group → ∀ found, ¬ Finds api server group found := by
  rw [refresh_answer, ← observed_error_iff]
  rcases seen : observed api server with fault | outcomes
  · simp
  · simp only [reduceCtorEq, exists_false, false_or, lists_iff seen, finds_iff seen]
    rw [commit_fails_iff]
    constructor
    · intro failed group member found inside
      exact failed _ inside found rfl
    · intro failed outcome inside found succeeded
      refine failed outcome.group (List.mem_map_of_mem inside) found ?_
      rw [← succeeded]
      exact inside

/-- A survey that fails has found nothing. -/
theorem not_finds_of_refresh_fails {previous : Option Index} {fault : SurveyFault}
    (failed : (refresh api previous server).1 = .error fault) (group : String)
    (found : List Mapping) : ¬ Finds api server group found := by
  rintro ⟨outcomes, seen, member⟩
  rw [refresh_answer, seen] at failed
  exact commit_fails_iff.mp ⟨fault, failed⟩ _ member found rfl

end Observation

end Discovery

end Lineage
