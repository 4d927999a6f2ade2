import Lineage.Proofs.Survey
import Lineage.Proofs.VersionOrder
import Mathlib

/-!
# Queries for groups

A query for a group reads the catalogues of its versions one after another and
stops at the first that cannot be read, of which nothing remains.  The catalogues
of a named group are requested in the order in which their mappings are found, the
preferred version first; those of the core group are requested in the order of the
server and arranged afterwards.  A server that takes down every request shows what
has been requested.

However a query ends, the survey goes on with the next group.  After a survey in
which the query for a group succeeded, lookups of the group answer with its mappings
in the order of their catalogues, provided that the group is listed once and no
catalogue of another group has mappings of it.
-/

namespace Lineage

namespace Api

variable {σ : Type}

/-- The same server, which takes down the paths that are requested. -/
def noting (api : Api σ) : Api (σ × List String) where
  request path := fun state =>
    ((api.request path state.1).1, (api.request path state.1).2, state.2 ++ [path])
  watch path := fun state => ((api.watch path state.1).1, (api.watch path state.1).2, state.2)
  extent state := api.extent state.1

theorem fetch_noting {α : Type} (api : Api σ) (decode : Json → Option α) (address : String)
    (server : σ) (noted : List String) :
    api.noting.fetch decode address (server, noted) =
      ((api.fetch decode address server).1, (api.fetch decode address server).2,
        noted ++ (Address.path? address).toList) := by
  unfold fetch
  cases Address.path? address with
  | none =>
      simp only [Option.toList_none, List.append_nil]
      rfl
  | some path => rfl

end Api

namespace Discovery

variable {σ : Type}

section Catalogues

variable {api : Api σ} {group : String} {versions : List String} {server : σ}

def catalogueAddress (group version : String) : String :=
  Address.ofSegments (Api.root group version)

example : catalogueAddress "g.io" "v1" = "/apis/g.io/v1" := by cbv

/-- The requests for the catalogues of versions, one after another. -/
def cataloguePaths (group : String) (versions : List String) : List String :=
  versions.flatMap fun version => (Address.path? (catalogueAddress group version)).toList

/-- Catalogues of versions that a server tells one after another. -/
inductive Tells (api : Api σ) (group : String) : List (String × ResourceList) → σ → σ → Prop
  | nil (server : σ) : Tells api group [] server server
  | cons {version : String} {list : ResourceList} {lists : List (String × ResourceList)}
      {server next final : σ}
      (read : api.fetch Catalogue.resources? (catalogueAddress group version) server =
        (.ok list, next))
      (rest : Tells api group lists next final) :
      Tells api group ((version, list) :: lists) server final

/-- How catalogues of versions are read, with what comes of it, the requests and the
server afterwards.  Either all are read, or they are read up to the first that fails. -/
inductive Reads (api : Api σ) (group : String) (versions : List String) (server : σ) :
    Except ClientFault (List (String × ResourceList)) → List String → σ → Prop
  | all {lists : List (String × ResourceList)} {next : σ} (told : Tells api group lists server next)
      (order : lists.map Prod.fst = versions) :
      Reads api group versions server (.ok lists) (cataloguePaths group versions) next
  | failed {lists : List (String × ResourceList)} {version : String} {later : List String}
      {middle next : σ} {fault : ClientFault} (told : Tells api group lists server middle)
      (order : lists.map Prod.fst ++ version :: later = versions)
      (failure : api.fetch Catalogue.resources? (catalogueAddress group version) middle =
        (.error fault, next)) :
      Reads api group versions server (.error fault)
        (cataloguePaths group (lists.map Prod.fst ++ [version])) next

theorem Reads.unread {version : String} {next : σ} {fault : ClientFault} (later : List String)
    (failure : api.fetch Catalogue.resources? (catalogueAddress group version) server =
      (.error fault, next)) :
    Reads api group (version :: later) server (.error fault) (cataloguePaths group [version])
      next :=
  .failed (.nil server) rfl failure

theorem Reads.cons {version : String} {list : ResourceList} {next final : σ}
    {answer : Except ClientFault (List (String × ResourceList))} {requests : List String}
    (read : api.fetch Catalogue.resources? (catalogueAddress group version) server =
      (.ok list, next))
    (reads : Reads api group versions next answer requests final) :
    Reads api group (version :: versions) server (answer.map ((version, list) :: ·))
      ((Address.path? (catalogueAddress group version)).toList ++ requests) final := by
  cases reads with
  | all told order => exact .all (.cons read told) (congrArg (version :: ·) order)
  | failed told order failure =>
      exact .failed (.cons read told) (congrArg (version :: ·) order) failure

theorem readVersions_of_unread {version : String} {next : σ} {fault : ClientFault}
    (later : List String)
    (failure : api.fetch Catalogue.resources? (catalogueAddress group version) server =
      (.error fault, next)) :
    readVersions api group (version :: later) server = (.error (.unread fault), next) := by
  rw [catalogueAddress] at failure
  simp only [readVersions, readVersion, bind, StateT.bind, failure]
  rfl

theorem readVersions_cons {version : String} {mappings : List Mapping} {next : σ}
    (later : List String)
    (read : readVersion api group version server = (.ok mappings, next)) :
    readVersions api group (version :: later) server =
      ((readVersions api group later next).1.map ((version, mappings) :: ·),
        (readVersions api group later next).2) := by
  simp only [readVersions, bind, StateT.bind, read]
  rfl

theorem readVersion_of_read {version : String} {list : ResourceList} {next : σ}
    (read : api.fetch Catalogue.resources? (catalogueAddress group version) server =
      (.ok list, next)) :
    readVersion api group version server = (.ok list.mappings, next) := by
  rw [catalogueAddress] at read
  simp only [readVersion, bind, StateT.bind, read]
  rfl

/-- What a query makes of catalogues that have been read, or of a failure. -/
def contents {α : Type} (arrange : List (String × ResourceList) → α)
    (answer : Except ClientFault (List (String × ResourceList))) : Except GroupFault α :=
  (answer.map arrange).mapError .unread

/-- The mappings of catalogues, each under its version. -/
def inTurn (lists : List (String × ResourceList)) : List (String × List Mapping) :=
  lists.map fun catalogue => (catalogue.1, catalogue.2.mappings)

theorem contents_inTurn_cons (version : String) (list : ResourceList)
    (answer : Except ClientFault (List (String × ResourceList))) :
    (contents inTurn answer).map ((version, list.mappings) :: ·) =
      contents inTurn (answer.map ((version, list) :: ·)) := by
  cases answer <;> rfl

/-- Catalogues are read in their order up to the first that fails, and nothing else is
requested. -/
theorem exists_reads (api : Api σ) (group : String) (versions : List String) (server : σ)
    (noted : List String) :
    ∃ answer requests next, Reads api group versions server answer requests next ∧
      readVersions api group versions server = (contents inTurn answer, next) ∧
      readVersions api.noting group versions (server, noted) =
        (contents inTurn answer, next, noted ++ requests) := by
  induction versions generalizing server noted with
  | nil =>
      refine ⟨.ok [], [], server, .all (.nil server) rfl, rfl, ?_⟩
      rw [List.append_nil]
      rfl
  | cons version versions ih =>
      have note := api.fetch_noting Catalogue.resources? (catalogueAddress group version) server
        noted
      rcases read : api.fetch Catalogue.resources? (catalogueAddress group version) server with
        ⟨fault | list, next⟩
      · rw [read] at note
        refine ⟨_, _, next, .unread versions read, readVersions_of_unread versions read, ?_⟩
        rw [readVersions_of_unread versions note, cataloguePaths, List.flatMap_singleton]
        rfl
      · rw [read] at note
        obtain ⟨answer, requests, final, reads, plain, notes⟩ :=
          ih next (noted ++ (Address.path? (catalogueAddress group version)).toList)
        refine ⟨_, _, final, reads.cons read, ?_, ?_⟩
        · rw [readVersions_cons versions (readVersion_of_read read), plain, contents_inTurn_cons]
        · rw [readVersions_cons versions (readVersion_of_read note), notes,
            contents_inTurn_cons, List.append_assoc]

end Catalogues

section Queries

variable {api : Api σ} {entry : GroupEntry} {server : σ}

/-- The mappings of the core group from its catalogues, those of the preferred version
first and the others in the order of versions. -/
def inOrder (versions : List String) (lists : List (String × ResourceList)) :
    List (String × List Mapping) :=
  (coreVersion :: (VersionName.sortBy id versions).filter fun version => version ≠ coreVersion).map
    fun version => (version, ((lists.lookup version).map ResourceList.mappings).getD [])

/-- How a group is queried, with the mappings of each version in the order in which they
are found, the requests and the server afterwards. -/
inductive Queries (api : Api σ) (entry : GroupEntry) (server : σ) :
    Except GroupFault (List (String × List Mapping)) → List String → σ → Prop
  /-- A named group without a version is not asked for. -/
  | versionless (named : entry.name ≠ coreGroup) (indifferent : entry.preferred = none)
      (empty : entry.versions = []) : Queries api entry server (.ok []) [] server
  /-- The catalogues of a named group are read in the order of their mappings, that of the
  preferred version first, which is the first listed one if none is preferred. -/
  | named {preferred : String} {answer : Except ClientFault (List (String × ResourceList))}
      {requests : List String} {next : σ} (named : entry.name ≠ coreGroup)
      (prefers : entry.preferred = some preferred ∨
        entry.preferred = none ∧ entry.versions.head? = some preferred)
      (reads : Reads api entry.name
        (preferred :: entry.versions.filter fun version => version ≠ preferred) server answer
        requests next) :
      Queries api entry server (contents inTurn answer) requests next
  /-- The versions of the core group cannot be read. -/
  | unlisted {fault : ClientFault} {next : σ} (core : entry.name = coreGroup)
      (unread : api.fetch Catalogue.coreVersions? "/api" server = (.error fault, next)) :
      Queries api entry server (.error (.unread fault)) ["/api"] next
  /-- The core group has no version. -/
  | coreless {next : σ} (core : entry.name = coreGroup)
      (read : api.fetch Catalogue.coreVersions? "/api" server = (.ok [], next)) :
      Queries api entry server (.error .noVersion) ["/api"] next
  /-- The catalogues of the core group are read in the order of its versions and arranged
  afterwards. -/
  | core {versions : List String} {answer : Except ClientFault (List (String × ResourceList))}
      {requests : List String} {next final : σ} (core : entry.name = coreGroup)
      (nonempty : versions ≠ [])
      (read : api.fetch Catalogue.coreVersions? "/api" server = (.ok versions, next))
      (reads : Reads api coreGroup versions next answer requests final) :
      Queries api entry server (contents (inOrder versions) answer) ("/api" :: requests) final

theorem lookup_inTurn (lists : List (String × ResourceList)) (version : String) :
    (inTurn lists).lookup version = (lists.lookup version).map ResourceList.mappings := by
  induction lists with
  | nil => rfl
  | cons catalogue lists ih =>
      obtain ⟨other, list⟩ := catalogue
      rw [inTurn, List.map_cons, List.lookup_cons, List.lookup_cons]
      cases version == other with
      | true => rfl
      | false => exact ih

theorem arrangeCore_inTurn (lists : List (String × ResourceList)) :
    arrangeCore (inTurn lists) = (inOrder (lists.map Prod.fst) lists).flatMap Prod.snd := by
  have versions : (VersionName.sortBy Prod.fst (inTurn lists)).map Prod.fst =
      VersionName.sortBy id (lists.map Prod.fst) := by
    rw [VersionName.map_sortBy, inTurn, List.map_map]
    rfl
  have found (version : String) : (VersionName.sortBy Prod.fst (inTurn lists)).lookup version =
      (lists.lookup version).map ResourceList.mappings := by
    rw [VersionName.lookup_sortBy, lookup_inTurn]
  simp only [arrangeCore, versions, found]
  rw [inOrder, List.flatMap_map]
  rfl

theorem coreVersions_noting (api : Api σ) (server : σ) (noted : List String) :
    api.noting.fetch Catalogue.coreVersions? "/api" (server, noted) =
      ((api.fetch Catalogue.coreVersions? "/api" server).1,
        (api.fetch Catalogue.coreVersions? "/api" server).2, noted ++ ["/api"]) := by
  have path : (Address.path? "/api").toList = ["/api"] := by cbv
  rw [Api.fetch_noting, path]

theorem Reads.contents_arrangeCore {versions : List String}
    {answer : Except ClientFault (List (String × ResourceList))} {requests : List String}
    {next : σ} (reads : Reads api coreGroup versions server answer requests next) :
    (contents inTurn answer).map arrangeCore =
      (contents (inOrder versions) answer).map (List.flatMap Prod.snd) := by
  cases reads with
  | @all lists next told order =>
      rw [← order]
      exact congrArg Except.ok (arrangeCore_inTurn lists)
  | failed => rfl

theorem exists_queries_core (core : entry.name = coreGroup) (server : σ) (noted : List String) :
    ∃ answer requests next, Queries api entry server answer requests next ∧
      Discovery.core api server = (answer.map (List.flatMap Prod.snd), next) ∧
      Discovery.core api.noting (server, noted) =
        (answer.map (List.flatMap Prod.snd), next, noted ++ requests) := by
  have note := coreVersions_noting api server noted
  rcases read : api.fetch Catalogue.coreVersions? "/api" server with ⟨fault | versions, next⟩
  · rw [read] at note
    refine ⟨_, _, next, .unlisted core read, ?_, ?_⟩
    · simp only [Discovery.core, bind, StateT.bind, read]
      rfl
    · simp only [Discovery.core, bind, StateT.bind, note]
      rfl
  · rw [read] at note
    cases versions with
    | nil =>
        refine ⟨_, _, next, .coreless core read, ?_, ?_⟩
        · simp only [Discovery.core, bind, StateT.bind, read]
          rfl
        · simp only [Discovery.core, bind, StateT.bind, note]
          rfl
    | cons version later =>
        obtain ⟨answer, requests, final, reads, plain, notes⟩ :=
          exists_reads api coreGroup (version :: later) next (noted ++ ["/api"])
        refine ⟨_, _, final, .core core (List.cons_ne_nil _ _) read reads, ?_, ?_⟩
        · simp only [Discovery.core, bind, StateT.bind, read, plain]
          rw [← reads.contents_arrangeCore]
          rfl
        · simp only [Discovery.core, bind, StateT.bind, note, notes]
          rw [← reads.contents_arrangeCore, ← List.append_cons]
          rfl

theorem preferredVersion_eq_some_iff {preferred : String} :
    preferredVersion entry = some preferred ↔ entry.preferred = some preferred ∨
      entry.preferred = none ∧ entry.versions.head? = some preferred := by
  rw [preferredVersion]
  cases entry.preferred with
  | none => simp
  | some version => simp

/-- The catalogues of a named group are read in the order in which their mappings are found. -/
theorem namedGroup_eq {preferred : String} (prefers : preferredVersion entry = some preferred)
    (server : σ) :
    namedGroup api entry server =
      ((readVersions api entry.name (preferredFirst preferred entry.versions) server).1.map
          (List.flatMap Prod.snd),
        (readVersions api entry.name (preferredFirst preferred entry.versions) server).2) := by
  simp only [namedGroup, prefers, bind, StateT.bind]
  obtain ⟨found, next⟩ :=
    readVersions api entry.name (preferredFirst preferred entry.versions) server
  rfl

theorem exists_queries_named (named : entry.name ≠ coreGroup) (server : σ) (noted : List String) :
    ∃ answer requests next, Queries api entry server answer requests next ∧
      namedGroup api entry server = (answer.map (List.flatMap Prod.snd), next) ∧
      namedGroup api.noting entry (server, noted) =
        (answer.map (List.flatMap Prod.snd), next, noted ++ requests) := by
  cases prefers : preferredVersion entry with
  | none =>
      have neither : entry.preferred = none ∧ entry.versions = [] := by
        rw [preferredVersion] at prefers
        simpa using prefers
      refine ⟨_, _, server, .versionless named neither.1 neither.2, ?_, ?_⟩
      · simp only [namedGroup, prefers]
        rfl
      · simp only [namedGroup, prefers, List.append_nil]
        rfl
  | some preferred =>
      obtain ⟨answer, requests, final, reads, plain, notes⟩ :=
        exists_reads api entry.name (preferredFirst preferred entry.versions) server noted
      refine ⟨_, _, final, .named named (preferredVersion_eq_some_iff.mp prefers) reads, ?_, ?_⟩
      · rw [namedGroup_eq prefers, plain]
      · rw [namedGroup_eq prefers, notes]

/-- A query goes as described, on a server that takes down the requests as on one that
does not. -/
theorem exists_queries (api : Api σ) (entry : GroupEntry) (server : σ) (noted : List String) :
    ∃ answer requests next, Queries api entry server answer requests next ∧
      group api entry server = (answer.map (List.flatMap Prod.snd), next) ∧
      group api.noting entry (server, noted) =
        (answer.map (List.flatMap Prod.snd), next, noted ++ requests) := by
  by_cases named : entry.name = coreGroup
  · rw [group, group, if_pos named, if_pos named]
    exact exists_queries_core named server noted
  · rw [group, group, if_neg named, if_neg named]
    exact exists_queries_named named server noted

/-- The versions under which a query finds mappings, in their order. -/
theorem Queries.order {ranked : List (String × List Mapping)} {requests : List String} {next : σ}
    (queries : Queries api entry server (.ok ranked) requests next) :
    (entry.name ≠ coreGroup → ∀ preferred, preferredVersion entry = some preferred →
      ranked.map Prod.fst =
        preferred :: entry.versions.filter fun version => version ≠ preferred) ∧
    (entry.name = coreGroup → ∃ versions,
      (api.fetch Catalogue.coreVersions? "/api" server).1 = .ok versions ∧
      ranked.map Prod.fst = coreVersion ::
        (VersionName.sortBy id versions).filter fun version => version ≠ coreVersion) := by
  generalize result : Except.ok ranked = answer at queries
  cases queries with
  | versionless named indifferent empty =>
      refine ⟨fun _ preferred prefers => ?_, fun core => absurd core named⟩
      rw [preferredVersion, indifferent, empty] at prefers
      cases prefers
  | @named preferred answer requests next named prefers reads =>
      refine ⟨fun _ other otherPrefers => ?_, fun core => absurd core named⟩
      rw [preferredVersion_eq_some_iff.mpr prefers] at otherPrefers
      cases otherPrefers
      cases reads with
      | all told order =>
          cases result
          rw [← order, inTurn, List.map_map]
          rfl
      | failed => cases result
  | @core versions answer requests next final core nonempty read reads =>
      refine ⟨fun named => absurd core named, fun _ => ⟨versions, congrArg Prod.fst read, ?_⟩⟩
      cases reads with
      | all told order =>
          cases result
          rw [inOrder, List.map_map]
          exact List.map_id _
      | failed => cases result
  | _ => cases result

end Queries

section Surveys

variable {api : Api σ} {server : σ} {previous : Option Index}

theorem survey_cons (api : Api σ) (entry : GroupEntry) (after : List GroupEntry) (server : σ) :
    survey api (entry :: after) server =
      (⟨entry.name, (group api entry server).1⟩ :: (survey api after (group api entry server).2).1,
        (survey api after (group api entry server).2).2) := rfl

/-- However the queries of a survey end, the next groups are asked for. -/
theorem survey_append (api : Api σ) (before after : List GroupEntry) (server : σ) :
    survey api (before ++ after) server =
      ((survey api before server).1 ++ (survey api after (survey api before server).2).1,
        (survey api after (survey api before server).2).2) := by
  induction before generalizing server with
  | nil => rfl
  | cons entry before ih => rw [List.cons_append, survey_cons, survey_cons, ih, List.cons_append]

/-- Of a failed query nothing remains but what was known before. -/
theorem mappings_of_fault {outcome : GroupOutcome} {fault : GroupFault}
    (failed : outcome.found = .error fault) :
    outcome.mappings previous = previous.elim [] fun index => index.group outcome.group := by
  simp only [GroupOutcome.mappings, failed]
  cases previous <;> rfl

/-- The mappings of a group and kind that some versions have. -/
def served (group kind : String) (ranked : List (String × List Mapping)) : List Mapping :=
  (ranked.flatMap Prod.snd).filter fun mapping => mapping.group = group ∧ mapping.kind = kind

theorem served_append (group kind : String) (earlier later : List (String × List Mapping)) :
    served group kind (earlier ++ later) =
      served group kind earlier ++ served group kind later := by
  rw [served, List.flatMap_append, List.filter_append]
  rfl

/-- An index that was made from some mappings, with its buckets in any order. -/
def Made (index : Index) : Prop :=
  ∃ mappings, (Index.ofList mappings).buckets.Perm index.buckets

theorem Made.tidy {index : Index} (made : Made index) : index.Tidy := by
  obtain ⟨mappings, perm⟩ := made
  exact (Index.Tidy.ofList mappings).perm perm

/-- Groups of other names, none of which finds mappings of some group, leave none of it,
whether they are queried or keep what they had. -/
theorem filter_mappings_eq_nil {outcomes : List GroupOutcome} {group : String}
    (made : ∀ index, previous = some index → Made index)
    (others : ∀ outcome ∈ outcomes, outcome.group ≠ group)
    (foreign : ∀ outcome ∈ outcomes, ∀ found, outcome.found = .ok found →
      ∀ mapping ∈ found, mapping.group ≠ group) (kind : String) :
    ((outcomes.flatMap (GroupOutcome.mappings previous)).filter fun mapping =>
      mapping.group = group ∧ mapping.kind = kind) = [] := by
  refine List.filter_eq_nil_iff.mpr fun mapping member => ?_
  obtain ⟨outcome, inside, found⟩ := List.mem_flatMap.mp member
  have elsewhere : mapping.group ≠ group := by
    unfold GroupOutcome.mappings at found
    split at found
    · rename_i mappings succeeded
      exact foreign outcome inside mappings succeeded mapping found
    · rw [(made _ rfl).tidy.group_of_mem_group found]
      exact others outcome inside
    · cases found
  simp [elsewhere]

/-- What a survey commits answers for a group that was listed once with what the query
for it found, provided that no other query found mappings of it. -/
theorem lookup_of_refresh {entry : GroupEntry} {listed : List GroupEntry}
    {before after : List GroupEntry} {next : σ} {found : List Mapping}
    (made : ∀ index, previous = some index → Made index)
    (read : api.fetch Catalogue.groups? "/apis" server = (.ok listed, next))
    (place : surveyed listed = before ++ entry :: after)
    (once : entry.name ∉ (before ++ after).map GroupEntry.name)
    (foreign : ∀ other found, Finds api server other found → other ≠ entry.name →
      ∀ mapping ∈ found, mapping.group ≠ entry.name)
    (success : (group api entry (survey api before next).2).1 = .ok found) :
    ∃ index, (refresh api previous server).1 = .ok index ∧ ∀ kind,
      index.lookup entry.name kind = (found.filter fun mapping =>
        mapping.group = entry.name ∧ mapping.kind = kind).eraseDups := by
  generalize reached : (survey api before next).2 = middle at success
  generalize earlier : (survey api before next).1 = first
  generalize later : (survey api after (group api entry middle).2).1 = last
  have seen : observed api server = .ok (first ++ ⟨entry.name, .ok found⟩ :: last) := by
    rw [observed, read]
    simp only [place, survey_append, survey_cons, reached, earlier, later, success]
  have firstNames : first.map GroupOutcome.group = before.map GroupEntry.name := by
    rw [← earlier, survey_groups]
  have lastNames : last.map GroupOutcome.group = after.map GroupEntry.name := by
    rw [← later, survey_groups]
  have others : ∀ outcome ∈ first ++ last, outcome.group ≠ entry.name := by
    intro outcome member same
    rw [List.map_append, ← firstNames, ← lastNames, ← List.map_append, ← same] at once
    exact once (List.mem_map_of_mem member)
  have theirs : ∀ outcome ∈ first ++ last, ∀ found, outcome.found = .ok found →
      ∀ mapping ∈ found, mapping.group ≠ entry.name := by
    intro outcome member mappings succeeded
    refine foreign outcome.group mappings ((finds_iff seen).mpr ?_) (others outcome member)
    rw [← succeeded]
    rcases List.mem_append.mp member with inside | inside
    · exact List.mem_append_left _ inside
    · exact List.mem_append_right _ (List.mem_cons_of_mem _ inside)
  rw [List.forall_mem_append] at others theirs
  have some : ¬ ((first ++ ⟨entry.name, .ok found⟩ :: last).all GroupOutcome.isFailed) = true := by
    simp [GroupOutcome.isFailed]
  refine ⟨Index.ofList ((first ++ ⟨entry.name, .ok found⟩ :: last).flatMap
    (GroupOutcome.mappings previous)), ?_, fun kind => ?_⟩
  · rw [refresh_answer, seen]
    exact if_neg some
  · rw [Index.lookup_ofList, List.flatMap_append, List.flatMap_cons, List.filter_append,
      List.filter_append, filter_mappings_eq_nil made others.1 theirs.1,
      filter_mappings_eq_nil made others.2 theirs.2, List.nil_append, List.append_nil]
    rfl

end Surveys

section Order

/-- How groups are queried, and what lookups answer after a survey.

A query goes as `Queries` says, and a server that takes down the requests has taken down
those.  Whether or not the query for a group succeeds, the next groups are queried.  Of a
group whose query fails nothing of the survey is committed, but what was known before.
If the query for a group succeeds that is listed once, and no query for another group
finds mappings of it, then lookups of the group answer with its mappings in the order of
the versions whose catalogues have them, the preferred version first, without repetition. -/
theorem lookup_in_version_order (api : Api σ) (previous : Option Index) (server : σ)
    (made : ∀ index, previous = some index → Made index) :
    (∀ entry state noted, ∃ answer requests next,
      Queries api entry state answer requests next ∧
      group api entry state = (answer.map (List.flatMap Prod.snd), next) ∧
      group api.noting entry (state, noted) =
        (answer.map (List.flatMap Prod.snd), next, noted ++ requests)) ∧
    (∀ before entry after state,
      (survey api (before ++ entry :: after) state).1 =
        (survey api before state).1 ++
          ⟨entry.name, (group api entry (survey api before state).2).1⟩ ::
            (survey api after (group api entry (survey api before state).2).2).1) ∧
    (∀ index, (refresh api previous server).1 = .ok index →
      ∃ outcomes, observed api server = .ok outcomes ∧
        index = Index.ofList (outcomes.flatMap (GroupOutcome.mappings previous)) ∧
        ∀ outcome ∈ outcomes, ∀ fault, outcome.found = .error fault →
          outcome.mappings previous = previous.elim [] fun index => index.group outcome.group) ∧
    ∀ listed next before entry after found,
      api.fetch Catalogue.groups? "/apis" server = (.ok listed, next) →
      surveyed listed = before ++ entry :: after →
      entry.name ∉ (before ++ after).map GroupEntry.name →
      (∀ other found, Finds api server other found → other ≠ entry.name →
        ∀ mapping ∈ found, mapping.group ≠ entry.name) →
      (group api entry (survey api before next).2).1 = .ok found →
      ∃ index ranked requests final,
        (refresh api previous server).1 = .ok index ∧
        Queries api entry (survey api before next).2 (.ok ranked) requests final ∧
        found = ranked.flatMap Prod.snd ∧
        (entry.name ≠ coreGroup → ∀ preferred, preferredVersion entry = some preferred →
          ranked.map Prod.fst =
            preferred :: entry.versions.filter fun version => version ≠ preferred) ∧
        (entry.name = coreGroup → ∃ versions,
          (api.fetch Catalogue.coreVersions? "/api" (survey api before next).2).1 = .ok versions ∧
          ranked.map Prod.fst = coreVersion ::
            (VersionName.sortBy id versions).filter fun version => version ≠ coreVersion) ∧
        ∀ kind earlier later, ranked = earlier ++ later →
          index.lookup entry.name kind = (served entry.name kind earlier).eraseDups ++
            ((served entry.name kind later).removeAll
              (served entry.name kind earlier)).eraseDups := by
  refine ⟨exists_queries api, ?going, ?failing, ?order⟩
  case going =>
    intro before entry after state
    rw [survey_append, survey_cons]
  case failing =>
    intro index committed
    rw [refresh_answer] at committed
    cases seen : observed api server with
    | error fault =>
        rw [seen] at committed
        cases committed
    | ok outcomes =>
        rw [seen] at committed
        exact ⟨outcomes, rfl, index_of_commit committed,
          fun outcome _ fault failed => mappings_of_fault failed⟩
  case order =>
    intro listed next before entry after found read place once foreign success
    obtain ⟨index, committed, answers⟩ :=
      lookup_of_refresh made read place once foreign success
    obtain ⟨answer, requests, final, queries, plain, _⟩ :=
      exists_queries api entry (survey api before next).2 []
    rw [plain] at success
    cases answer with
    | error fault => cases success
    | ok ranked =>
        obtain rfl : ranked.flatMap Prod.snd = found := Except.ok.inj success
        refine ⟨index, ranked, requests, final, committed, queries, rfl, queries.order.1,
          queries.order.2, ?_⟩
        rintro kind earlier later rfl
        rw [answers kind, ← List.eraseDups_append, ← served_append]
        rfl

end Order

section Adopting

def widgetList (heading owner : String) : String :=
  "\x7b\"groupVersion\":\"" ++ heading ++ "\",\"resources\":[\x7b\"kind\":\"Widget\","
    ++ owner ++ "\"name\":\"widgets\"\x7d]\x7d"

/-- What makes a resource belong to another group and version. -/
def foreignOwner : String :=
  "\"group\":\"g.io\",\"version\":\"v1beta1\","

/-- The body of a catalogue of two groups. -/
def groupsBody : String :=
  "\x7b\"groups\":[\x7b\"name\":\"a.io\",\"versions\":[\x7b\"version\":\"v1\"\x7d]\x7d,"
    ++ "\x7b\"name\":\"g.io\",\"preferredVersion\":\x7b\"version\":\"v1\"\x7d,"
    ++ "\"versions\":[\x7b\"version\":\"v1beta1\"\x7d,\x7b\"version\":\"v1\"\x7d]\x7d]\x7d"

/-- What is found at a path: two named groups, of which the second prefers `v1`, but no
core group.  In one of two states the catalogue of the first group has widgets of the
second one. -/
def bodyAt (adopts : Bool) (path : String) : String :=
  if path = "/apis" then groupsBody
  else if path = "/apis/a.io/v1" then widgetList "a.io/v1" (if adopts then foreignOwner else "")
  else if path = "/apis/g.io/v1" then widgetList "g.io/v1" ""
  else if path = "/apis/g.io/v1beta1" then widgetList "g.io/v1beta1" ""
  else ""

def adopting : Api Bool where
  request path := fun adopts => (⟨200, bodyAt adopts path⟩, adopts)
  watch _ := fun adopts => ([], adopts)
  extent _ := 0

def ownEntry : GroupEntry :=
  ⟨"g.io", ["v1beta1", "v1"], some "v1"⟩

def widgets (group version : String) : Mapping :=
  ⟨group, version, "widgets", "Widget", false⟩

theorem adopting_fetch {α : Type} (decode : Json → Option α) {path body : String} {adopts : Bool}
    (valid : Address.path? path = some path)
    (present : bodyAt adopts path = body) :
    adopting.fetch decode path adopts = (Reply.read decode ⟨200, body⟩, adopts) := by
  simp only [Api.fetch, valid, bind, StateT.bind]
  rw [← present]
  rfl

theorem adopting_groups (adopts : Bool) :
    adopting.fetch Catalogue.groups? "/apis" adopts =
      (.ok [⟨"a.io", ["v1"], none⟩, ownEntry], adopts) := by
  have read : Reply.read Catalogue.groups? ⟨200, groupsBody⟩ =
      .ok [⟨"a.io", ["v1"], none⟩, ownEntry] := by decide +kernel
  have present : bodyAt adopts "/apis" = groupsBody := by simp [bodyAt]
  rw [adopting_fetch _ (by cbv) present, read]

theorem group_adopting_core (adopts : Bool) :
    group adopting ⟨coreGroup, [], none⟩ adopts = (.error (.unread .undecodable), adopts) := by
  have unread : Reply.read Catalogue.coreVersions? ⟨200, ""⟩ = .error .undecodable := by
    decide +kernel
  have fetched : adopting.fetch Catalogue.coreVersions? "/api" adopts =
      (.error .undecodable, adopts) := by
    have absent : bodyAt adopts "/api" = "" := by simp [bodyAt]
    rw [adopting_fetch _ (by cbv) absent, unread]
  simp only [group, if_pos, core, bind, StateT.bind, fetched]
  rfl

/-- A catalogue of widgets, whose group and version may be other ones than its own. -/
def widgetCatalogue (heading : String) (group? version? : Option String) : ResourceList :=
  ⟨heading, [⟨"widgets", "Widget", false, group?, version?⟩]⟩

theorem mappings_widgetCatalogue {heading group version : String} {group? version? : Option String}
    (headed : GroupVersion.ofListHeading heading = ⟨group, version⟩) :
    (widgetCatalogue heading group? version?).mappings =
      [widgets (group?.getD group) (version?.getD version)] := by
  simp [widgetCatalogue, ResourceList.mappings, ResourceList.mapping, ResourceList.isNamespaced,
    headed, widgets]

theorem readVersion_adopting {group version heading body : String}
    {group? version? : Option String} {adopts : Bool} (path : String)
    (address : catalogueAddress group version = path) (valid : Address.path? path = some path)
    (headed : GroupVersion.ofListHeading heading = ⟨group, version⟩)
    (present : bodyAt adopts path = body)
    (read : Reply.read Catalogue.resources? ⟨200, body⟩ =
      .ok (widgetCatalogue heading group? version?)) :
    readVersion adopting group version adopts =
      (.ok [widgets (group?.getD group) (version?.getD version)], adopts) := by
  rw [← mappings_widgetCatalogue headed]
  refine readVersion_of_read ?_
  rw [address, adopting_fetch _ valid present, read]

theorem group_adopting_own (adopts : Bool) :
    group adopting ownEntry adopts =
      (.ok [widgets "g.io" "v1", widgets "g.io" "v1beta1"], adopts) := by
  have preferred : Reply.read Catalogue.resources? ⟨200, widgetList "g.io/v1" ""⟩ =
      .ok (widgetCatalogue "g.io/v1" none none) := by decide +kernel
  have other : Reply.read Catalogue.resources? ⟨200, widgetList "g.io/v1beta1" ""⟩ =
      .ok (widgetCatalogue "g.io/v1beta1" none none) := by decide +kernel
  have first : readVersion adopting "g.io" "v1" adopts = (.ok [widgets "g.io" "v1"], adopts) :=
    readVersion_adopting "/apis/g.io/v1" (by cbv) (by cbv) (by cbv) (by simp [bodyAt]) preferred
  have second : readVersion adopting "g.io" "v1beta1" adopts =
      (.ok [widgets "g.io" "v1beta1"], adopts) :=
    readVersion_adopting "/apis/g.io/v1beta1" (by cbv) (by cbv) (by cbv) (by simp [bodyAt]) other
  have named : ownEntry.name ≠ coreGroup := by decide
  have prefers : preferredVersion ownEntry = some "v1" := rfl
  have order : preferredFirst "v1" ownEntry.versions = ["v1", "v1beta1"] := by decide
  have read := readVersions_cons ["v1beta1"] first
  rw [readVersions_cons [] second] at read
  rw [group, if_neg named, namedGroup_eq prefers, order]
  exact congrArg (fun result => (result.1.map (List.flatMap Prod.snd), result.2)) read

def firstWidgets (adopts : Bool) : Mapping :=
  if adopts then widgets "g.io" "v1beta1" else widgets "a.io" "v1"

theorem group_adopting_first (adopts : Bool) :
    group adopting ⟨"a.io", ["v1"], none⟩ adopts = (.ok [firstWidgets adopts], adopts) := by
  have plain : Reply.read Catalogue.resources? ⟨200, widgetList "a.io/v1" ""⟩ =
      .ok (widgetCatalogue "a.io/v1" none none) := by decide +kernel
  have foreign : Reply.read Catalogue.resources? ⟨200, widgetList "a.io/v1" foreignOwner⟩ =
      .ok (widgetCatalogue "a.io/v1" (some "g.io") (some "v1beta1")) := by decide +kernel
  have first : readVersion adopting "a.io" "v1" adopts = (.ok [firstWidgets adopts], adopts) := by
    cases adopts with
    | false =>
        exact readVersion_adopting "/apis/a.io/v1" (by cbv) (by cbv) (by cbv) (by simp [bodyAt])
          plain
    | true =>
        exact readVersion_adopting "/apis/a.io/v1" (by cbv) (by cbv) (by cbv) (by simp [bodyAt])
          foreign
  have named : "a.io" ≠ coreGroup := by decide
  have prefers : preferredVersion ⟨"a.io", ["v1"], none⟩ = some "v1" := rfl
  have order : preferredFirst "v1" ["v1"] = ["v1"] := by decide
  rw [group, if_neg named, namedGroup_eq prefers, order]
  exact congrArg (fun result => (result.1.map (List.flatMap Prod.snd), result.2))
    (readVersions_cons [] first)

theorem observed_adopting (adopts : Bool) :
    observed adopting adopts = .ok [⟨coreGroup, .error (.unread .undecodable)⟩,
      ⟨"a.io", .ok [firstWidgets adopts]⟩,
      ⟨"g.io", .ok [widgets "g.io" "v1", widgets "g.io" "v1beta1"]⟩] := by
  rw [observed, adopting_groups]
  change Except.ok (survey adopting [⟨coreGroup, [], none⟩, ⟨"a.io", ["v1"], none⟩, ownEntry]
    adopts).1 = _
  rw [survey_cons, group_adopting_core, survey_cons, group_adopting_first, survey_cons,
    group_adopting_own]
  rfl

def earlierIndex : Index :=
  Index.ofList [⟨"", "v1", "pods", "Pod", true⟩]

/-- A lookup answers with widgets of the preferred version first, though it is listed
last. -/
theorem lookup_in_version_order_beta :
    ∃ index, (refresh adopting (some earlierIndex) false).1 = .ok index ∧
      index.lookup "g.io" "Widget" = [widgets "g.io" "v1", widgets "g.io" "v1beta1"] := by
  have made : ∀ index, some earlierIndex = some index → Made index := by
    rintro index ⟨⟩
    exact ⟨_, List.Perm.refl _⟩
  have foreign : ∀ other found, Finds adopting false other found → other ≠ ownEntry.name →
      ∀ mapping ∈ found, mapping.group ≠ ownEntry.name := by
    intro other found finds different
    simp only [finds_iff (observed_adopting false), List.mem_cons, GroupOutcome.mk.injEq,
      List.not_mem_nil, or_false, reduceCtorEq, and_false, false_or] at finds
    rcases finds with ⟨rfl, first⟩ | ⟨rfl, own⟩
    · rw [Except.ok.inj first]
      decide
    · exact absurd rfl different
  have success : (group adopting ownEntry (survey adopting
      [⟨coreGroup, [], none⟩, ⟨"a.io", ["v1"], none⟩] false).2).1 =
      .ok [widgets "g.io" "v1", widgets "g.io" "v1beta1"] := by
    rw [survey_cons, survey_cons, group_adopting_core, group_adopting_first]
    exact congrArg Prod.fst (group_adopting_own false)
  have laws := lookup_in_version_order adopting (some earlierIndex) false made
  obtain ⟨index, ranked, _, _, committed, _, found, _, _, answers⟩ :=
    laws.2.2.2 _ _ [⟨coreGroup, [], none⟩, ⟨"a.io", ["v1"], none⟩] ownEntry [] _
      (adopting_groups false) rfl (by decide) foreign success
  refine ⟨index, committed, ?_⟩
  have answer := answers "Widget" [] ranked rfl
  rw [served, served, ← found] at answer
  exact answer.trans (by decide)

/-- A survey whose query for a group finds widgets of the preferred version first, after
which a lookup answers with widgets of another version first, because the catalogue of
another group has them. -/
theorem preferred_behind_foreign :
    ∃ index, (refresh adopting none true).1 = .ok index ∧
      Finds adopting true "g.io" [widgets "g.io" "v1", widgets "g.io" "v1beta1"] ∧
      preferredVersion ownEntry = some "v1" ∧
      ¬ (index.lookup "g.io" "Widget").Pairwise fun earlier later =>
        later.version = "v1" → earlier.version = "v1" := by
  refine ⟨Index.ofList ([widgets "g.io" "v1beta1"] ++
    [widgets "g.io" "v1", widgets "g.io" "v1beta1"]), ?_, ?_, rfl, ?_⟩
  · rw [refresh_answer, observed_adopting]
    exact if_neg (by decide)
  · exact (finds_iff (observed_adopting true)).mpr (by simp)
  · rw [Index.lookup_ofList]
    decide

end Adopting

end Discovery

end Lineage
