import Lineage.Proofs.Survey
import Mathlib

/-!
# Runs of surveys

In a run one survey follows another, each of whatever the server tells at the
time.  A survey finds the mappings of some groups, fails for others, and does not
list the rest; what it commits is made from the index before.  The index after a
run therefore depends on the whole run.  A lookup of a group answers with what
the latest survey found that succeeded for the group, as long as every survey
since then that committed an index lists the group.

The mappings of a group that a survey fails for are taken from the index before,
bucket by bucket.  The order of the buckets means nothing, so a survey may find
them in any order.
-/

namespace Lineage

namespace Discovery

variable {σ : Type}

/-- The same index with its buckets in any order. -/
def Rearranged (index? arranged? : Option Index) : Prop :=
  Option.Rel (fun index arranged => index.buckets.Perm arranged.buckets) index? arranged?

/-- A survey of a run: the server as it is then, and what comes of the survey. -/
structure Turn (σ : Type) where
  server : σ
  answer : Except SurveyFault Index

/-- Runs of surveys, the latest survey first, with the index in force after them.
The server may change in any way between two surveys. -/
inductive Runs (api : Api σ) : List (Turn σ) → Option Index → Prop
  | start : Runs api [] none
  | refresh {turns : List (Turn σ)} {index? arranged? : Option Index} (run : Runs api turns index?)
      (rearranged : Rearranged index? arranged?) (server : σ) :
      Runs api (⟨server, (Discovery.refresh api arranged? server).1⟩ :: turns)
        (committed index? (Discovery.refresh api arranged? server).1)

/-- What the latest survey found that succeeded for a group, if every survey
since then that committed an index lists the group. -/
def Stands (api : Api σ) (turns : List (Turn σ)) (group : String) (found : List Mapping) : Prop :=
  ∃ later turn earlier, turns = later ++ turn :: earlier ∧
    Finds api turn.server group found ∧
    ∀ since ∈ later, (∀ newer, ¬ Finds api since.server group newer) ∧
      ((∃ index, since.answer = .ok index) → Lists api since.server group)

variable {api : Api σ} {turns : List (Turn σ)} {index? : Option Index}

theorem stands_cons (turn : Turn σ) (earlier : List (Turn σ)) (group : String)
    (found : List Mapping) :
    Stands api (turn :: earlier) group found ↔
      Finds api turn.server group found ∨
        (∀ newer, ¬ Finds api turn.server group newer) ∧
          ((∃ index, turn.answer = .ok index) → Lists api turn.server group) ∧
          Stands api earlier group found := by
  constructor
  · rintro ⟨later, source, before, split, finds, since⟩
    cases later with
    | nil =>
        obtain ⟨rfl, rfl⟩ := List.cons.inj split
        exact .inl finds
    | cons first later =>
        obtain ⟨rfl, rfl⟩ := List.cons.inj split
        obtain ⟨silent, lists⟩ := since turn List.mem_cons_self
        exact .inr ⟨silent, lists, later, source, before, rfl, finds,
          fun other member => since other (List.mem_cons_of_mem turn member)⟩
  · rintro (finds | ⟨silent, lists, later, source, before, rfl, finds, since⟩)
    · exact ⟨[], turn, earlier, rfl, finds, fun other member => by cases member⟩
    · exact ⟨turn :: later, source, before, rfl, finds,
        List.forall_mem_cons.mpr ⟨⟨silent, lists⟩, since⟩⟩

/-- The index in force is the one that the latest successful survey committed. -/
theorem Runs.index_eq (run : Runs api turns index?) :
    index? = turns.findSome? fun turn => turn.answer.toOption := by
  induction run with
  | start => rfl
  | @refresh turns index? arranged? run rearranged server ih =>
      rw [List.findSome?_cons]
      cases (Discovery.refresh api arranged? server).1 with
      | error fault => exact ih
      | ok index => rfl

/-- An index answers with what stands after a run. -/
structure Attributed (api : Api σ) (turns : List (Turn σ)) (index? : Option Index) : Prop where
  tidy : ∀ index, index? = some index → index.Tidy
  standing : ∀ group found, Stands api turns group found → ∀ kind,
    known index? group kind = (found.filter fun mapping => mapping.kind = kind).eraseDups
  fallen : ∀ group, (∀ found, ¬ Stands api turns group found) → ∀ kind,
    known index? group kind = []

theorem Attributed.start : Attributed api [] none where
  tidy := fun index none => by cases none
  standing := by
    rintro group found ⟨later, turn, earlier, split, _⟩
    cases later with
    | nil => cases split
    | cons first later => cases split
  fallen := fun group nothing kind => rfl

theorem Rearranged.tidy {arranged? : Option Index} (rearranged : Rearranged index? arranged?)
    (tidy : ∀ index, index? = some index → index.Tidy) :
    ∀ arranged, arranged? = some arranged → arranged.Tidy := by
  rintro arranged rfl
  cases rearranged with
  | some perm => exact (tidy _ rfl).perm perm

theorem Rearranged.known_eq {arranged? : Option Index} (rearranged : Rearranged index? arranged?)
    (tidy : ∀ index, index? = some index → index.Tidy) (group kind : String) :
    known arranged? group kind = known index? group kind := by
  cases rearranged with
  | none => rfl
  | some perm => exact (tidy _ rfl).lookup_perm perm group kind

/-- A survey that fails changes nothing. -/
theorem Attributed.fail (attributed : Attributed api turns index?) {turn : Turn σ}
    {fault : SurveyFault} (failed : turn.answer = .error fault)
    (silent : ∀ group found, ¬ Finds api turn.server group found) :
    Attributed api (turn :: turns) index? := by
  have same : ∀ group found, Stands api (turn :: turns) group found ↔
      Stands api turns group found := by
    intro group found
    simp [stands_cons, silent, failed]
  exact {
    tidy := attributed.tidy
    standing := fun group found stands => attributed.standing group found ((same ..).mp stands)
    fallen := fun group fallen => attributed.fallen group fun found stands =>
      fallen found ((same ..).mpr stands) }

/-- A survey that commits an index answers for what it found itself, and for what
stood before where it failed. -/
theorem Attributed.succeed (attributed : Attributed api turns index?) {arranged? : Option Index}
    (rearranged : Rearranged index? arranged?) {server : σ} (orderly : Orderly api server)
    {outcomes : List GroupOutcome} (seen : observed api server = .ok outcomes) {index : Index}
    (success : commit arranged? outcomes = .ok index) :
    Attributed api (⟨server, .ok index⟩ :: turns) (some index) := by
  have tidy := rearranged.tidy attributed.tidy
  have distinct := orderly.groups_nodup seen
  have owned := orderly.owned_outcomes seen
  have answers : ∀ outcome ∈ outcomes, ∀ kind, index.lookup outcome.group kind = _ :=
    fun outcome member => lookup_of_commit success tidy distinct owned member
  -- A query without success leaves what was known before the survey.
  have kept : ∀ outcome ∈ outcomes, (∀ newer, ¬ Finds api server outcome.group newer) →
      ∀ kind, index.lookup outcome.group kind = known index? outcome.group kind := by
    intro outcome member silent kind
    rw [answers outcome member kind, ← rearranged.known_eq attributed.tidy]
    cases learnt : outcome.found with
    | error fault => rfl
    | ok found =>
        refine absurd ?_ (silent found)
        rw [finds_iff seen, ← learnt]
        exact member
  refine ⟨?_, ?_, ?_⟩
  · intro other same
    rw [← Option.some.inj same, index_of_commit success]
    exact Index.Tidy.ofList _
  · intro group found stands kind
    rcases (stands_cons ..).mp stands with finds | ⟨silent, lists, stands⟩
    · exact answers _ ((finds_iff seen).mp finds) kind
    · obtain ⟨outcome, member, rfl⟩ := List.mem_map.mp ((lists_iff seen).mp (lists ⟨index, rfl⟩))
      rw [← attributed.standing outcome.group found stands kind]
      exact kept outcome member silent kind
  · intro group fallen kind
    have silent : ∀ newer, ¬ Finds api server group newer := fun newer finds =>
      fallen newer ((stands_cons ..).mpr (.inl finds))
    by_cases lists : Lists api server group
    · obtain ⟨outcome, member, rfl⟩ := List.mem_map.mp ((lists_iff seen).mp lists)
      have before : ∀ found, ¬ Stands api turns outcome.group found := fun found stands =>
        fallen found ((stands_cons ..).mpr (.inr ⟨silent, fun _ => lists, stands⟩))
      rw [← attributed.fallen outcome.group before kind]
      exact kept outcome member silent kind
    · exact lookup_of_commit_unlisted success tidy owned (mt (lists_iff seen).mpr lists) kind

/-- After every run the index answers with what stands. -/
theorem Runs.attributed (run : Runs api turns index?)
    (orderly : ∀ turn ∈ turns, Orderly api turn.server) : Attributed api turns index? := by
  induction run with
  | start => exact Attributed.start
  | @refresh turns index? arranged? run rearranged server ih =>
      obtain ⟨latest, earlier⟩ := List.forall_mem_cons.mp orderly
      have attributed := ih earlier
      cases answer : (Discovery.refresh api arranged? server).1 with
      | error fault => exact attributed.fail rfl (not_finds_of_refresh_fails answer)
      | ok index =>
          rw [refresh_answer] at answer
          cases seen : observed api server with
          | error fault =>
              rw [seen] at answer
              cases answer
          | ok outcomes =>
              rw [seen] at answer
              exact attributed.succeed rearranged latest seen answer

theorem lookup_pending_iff {group kind : String} :
    lookup index? group kind = .error .discoveryPending ↔ index? = none := by
  cases index? with
  | none => simp [lookup]
  | some index => simp [lookup]

/-- What lookups answer after any number of surveys is settled by what the
surveys found.  Until a survey succeeds no lookup is answered.  A survey fails if
the groups cannot be listed or every query for a group fails, and then the index
remains as it is.  After a survey that succeeds, a lookup of a group answers with
what the latest survey found that succeeded for the group, as long as every
successful survey since then lists the group, and with nothing if there is none;
the size of the index is the number of all mappings that lookups find. -/
theorem lookup_after_refreshes (api : Api σ) (turns : List (Turn σ)) (index? : Option Index)
    (run : Runs api turns index?) (orderly : ∀ turn ∈ turns, Orderly api turn.server) :
    (index? = turns.findSome? fun turn => turn.answer.toOption) ∧
    (∀ group kind, lookup index? group kind = .error .discoveryPending ↔
      ∀ turn ∈ turns, ∃ fault, turn.answer = .error fault) ∧
    (∀ arranged? server,
      ((∃ fault, (refresh api arranged? server).1 = .error fault) ↔
        (∃ fault, listing api server = .error fault) ∨
          ∀ group, Lists api server group → ∀ found, ¬ Finds api server group found) ∧
      ((∃ fault, (refresh api arranged? server).1 = .error fault) →
        committed index? (refresh api arranged? server).1 = index?)) ∧
    ∀ index, index? = some index →
      (∀ group kind found, Stands api turns group found →
        lookup index? group kind =
          .ok (found.filter fun mapping => mapping.kind = kind).eraseDups) ∧
      (∀ group kind, (∀ found, ¬ Stands api turns group found) →
        lookup index? group kind = .ok []) ∧
      ∃ pairs : Finset (String × String),
        (∀ group kind, (group, kind) ∉ pairs → index.lookup group kind = []) ∧
        index.size = ∑ pair ∈ pairs, (index.lookup pair.1 pair.2).length := by
  have attributed := run.attributed orderly
  refine ⟨run.index_eq, ?_, ?_, ?_⟩
  · intro group kind
    rw [lookup_pending_iff, run.index_eq, List.findSome?_eq_none_iff]
    refine forall₂_congr fun turn member => ?_
    cases turn.answer with
    | error fault => simp [Except.toOption]
    | ok index => simp [Except.toOption]
  · intro arranged? server
    refine ⟨refresh_fails_iff api arranged? server, ?_⟩
    rintro ⟨fault, failed⟩
    rw [failed]
    rfl
  · rintro index rfl
    refine ⟨?_, ?_, (attributed.tidy index rfl).size_eq_sum⟩
    · intro group kind found stands
      exact congrArg Except.ok (attributed.standing group found stands kind)
    · intro group kind nothing
      exact congrArg Except.ok (attributed.fallen group nothing kind)

section Failing

/-- A server whose only resources are pods in the core group, of which it tells
as long as it can be reached, and which lists one more group that is empty. -/
def failing : Api Bool where
  request path := fun reachable =>
    let body :=
      if path = "/apis" then "\x7b\"groups\":[\x7b\"name\":\"batch\"\x7d]\x7d"
      else if path = "/api" then "\x7b\"versions\":[\"v1\"]\x7d"
      else if reachable then "\x7b\"groupVersion\":\"v1\",\"resources\":["
        ++ "\x7b\"kind\":\"Pod\",\"name\":\"pods\",\"singularName\":\"\"\x7d]\x7d"
      else ""
    (⟨200, body⟩, reachable)
  watch _ := fun reachable => ([], reachable)
  extent _ := 0

def pods : Mapping :=
  ⟨"", "v1", "pods", "Pod", false⟩

def podIndex : Index :=
  ⟨[⟨"", "Pod", [pods]⟩]⟩

def failingFound (reachable : Bool) : Except GroupFault (List Mapping) :=
  if reachable then .ok [pods] else .error (.unread .undecodable)

theorem failing_groups (reachable : Bool) :
    failing.fetch Catalogue.groups? "/apis" reachable =
      (.ok [⟨"batch", [], none⟩], reachable) := by
  cbv

theorem failing_coreVersions (reachable : Bool) :
    failing.fetch Catalogue.coreVersions? "/api" reachable = (.ok ["v1"], reachable) := by
  cbv

theorem readVersion_failing (reachable : Bool) :
    readVersion failing coreGroup "v1" reachable = (failingFound reachable, reachable) := by
  have address : Address.ofSegments (Api.root coreGroup "v1") = "/api/v1" := by cbv
  cases reachable with
  | false =>
      have unread : failing.fetch Catalogue.resources? "/api/v1" false =
          (.error .undecodable, false) := by cbv
      simp only [readVersion, address, bind, StateT.bind, unread]
      rfl
  | true =>
      have read : failing.fetch Catalogue.resources? "/api/v1" true =
          (.ok ⟨"v1", [⟨"pods", "Pod", false, none, none⟩]⟩, true) := by cbv
      simp only [readVersion, address, bind, StateT.bind, read]
      cbv

theorem core_failing (reachable : Bool) :
    core failing reachable = (failingFound reachable, reachable) := by
  have arranged : arrangeCore [("v1", [pods])] = [pods] := by cbv
  have read := readVersion_failing reachable
  simp only [core, bind, StateT.bind, failing_coreVersions, readVersions, read]
  cases reachable with
  | false => rfl
  | true =>
      change (Except.ok (arrangeCore [("v1", [pods])]), true) = (Except.ok [pods], true)
      rw [arranged]

theorem observed_failing (reachable : Bool) :
    observed failing reachable =
      .ok [⟨coreGroup, failingFound reachable⟩, ⟨"batch", .ok []⟩] := by
  have first : group failing ⟨coreGroup, [], none⟩ reachable = core failing reachable := rfl
  have second : group failing ⟨"batch", [], none⟩ reachable = (.ok [], reachable) := rfl
  simp only [observed, failing_groups, surveyed, survey, bind, StateT.bind, first, second,
    core_failing]
  rfl

theorem orderly_failing (reachable : Bool) : Orderly failing reachable where
  distinct := by
    intro listed read
    rw [listing, failing_groups] at read
    rw [← Except.ok.inj read]
    exact List.nodup_singleton _
  unlisted := by
    intro listed read
    rw [listing, failing_groups] at read
    rw [← Except.ok.inj read]
    decide
  owned := by
    intro group found finds mapping member
    simp only [finds_iff (observed_failing reachable), List.mem_cons, GroupOutcome.mk.injEq,
      List.not_mem_nil, or_false] at finds
    rcases finds with ⟨rfl, learnt⟩ | ⟨rfl, nothing⟩
    · cases reachable with
      | false => cases learnt
      | true =>
          rw [Except.ok.inj learnt, List.mem_singleton] at member
          rw [member]
          rfl
    · rw [Except.ok.inj nothing] at member
      cases member

/-- The run of two surveys of which only the first one reaches the server. -/
def failingTurns : List (Turn Bool) :=
  [⟨false, .ok podIndex⟩, ⟨true, .ok podIndex⟩]

theorem runs_failing : Runs failing failingTurns (some podIndex) := by
  have first : (refresh failing none true).1 = .ok podIndex := by
    rw [refresh_answer, observed_failing]
    rfl
  have second : (refresh failing (some podIndex) false).1 = .ok podIndex := by
    rw [refresh_answer, observed_failing]
    rfl
  have once := Runs.refresh (Runs.start : Runs failing [] none) .none true
  rw [first] at once
  have twice := once.refresh (.some (List.Perm.refl _)) false
  simp only [committed, second] at twice
  exact twice

/-- The pods are still found after a survey that cannot reach the server. -/
theorem lookup_after_refreshes_failing :
    Runs failing failingTurns (some podIndex) ∧
      (∀ turn ∈ failingTurns, Orderly failing turn.server) ∧
      Stands failing failingTurns coreGroup [pods] ∧
      lookup (some podIndex) "" "Pod" =
        .ok ([pods].filter fun mapping => mapping.kind = "Pod").eraseDups := by
  have orderly : ∀ turn ∈ failingTurns, Orderly failing turn.server :=
    fun turn _ => orderly_failing turn.server
  have finds : Finds failing true coreGroup [pods] :=
    (finds_iff (observed_failing true)).mpr List.mem_cons_self
  have silent : ∀ newer, ¬ Finds failing false coreGroup newer := by
    intro newer found
    simp [finds_iff (observed_failing false), failingFound, coreGroup] at found
  have lists : Lists failing false coreGroup :=
    (lists_iff (observed_failing false)).mpr List.mem_cons_self
  have stands : Stands failing failingTurns coreGroup [pods] :=
    (stands_cons ..).mpr (.inr ⟨silent, fun _ => lists, (stands_cons ..).mpr (.inl finds)⟩)
  obtain ⟨_, _, _, answers⟩ :=
    lookup_after_refreshes failing failingTurns (some podIndex) runs_failing orderly
  exact ⟨runs_failing, orderly, stands, (answers podIndex rfl).1 "" "Pod" [pods] stands⟩

end Failing

end Discovery

end Lineage
